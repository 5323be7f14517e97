import Redumper.Step
import Redumper.Dump
import Redumper.ChannelQ

/-!
# The retries at one LBA

A refine reads an LBA again while its stored slot still needs it (`needsRefine`), counting
the retries in `refine_counter`: a pass at the LBA it is already on (`lba_refine = lba`)
reads only while `refine_counter + 1 < refine_retries`, and a pass that does not read
resets the counter to `0`. The first pass at an LBA records it in `lba_refine` and reads
with the counter it finds. The counter is reset only by such a pass that does not read, so
a pass that leaves an LBA otherwise, by the jump to the end of an error range after a
failed read, hands its counter on to the next LBA.

## What is proved

* `step_refine_outside`: what one refine pass does at an LBA below `lba_end - 1` outside
  the skip and error ranges: it moves to `lba_next` as the selection sets it, records the
  read if the selection asks for one, and leaves the overread bound alone.
* `refine_reads_at_lba`: at such an LBA, reached with counter `c`, the loop makes
  `a = min(refine_retries - c, k)` reads, where `k` is the first read after which the slot
  no longer needs refinement, and moves on to the next LBA with the counter at `0`.
* `refine_retries_carried_counter`: a counter left by an error-range LBA takes reads away
  from the next LBA, which gets fewer than `refine_retries` reads though every read fails.
-/

namespace Redumper

variable (q : QDecoder) (io : Io) (env : Env)

/-- The `read` decision of a refine (lines 507–534): the stored slot has `ERROR_C2` or
`ERROR_SKIP`, or, with `refine_subchannel`, its stored Q is invalid. -/
def needsRefine (s : Loop) : Bool :=
  decide (HasC2 (s.files.state (lbaIndex s.lba)) ∨ HasSkip (s.files.state (lbaIndex s.lba))) ||
    (env.refineSubchannel && env.subcode && !q.valid (s.files.sub (lbaIndex s.lba + s.subcodeShift)))

/-- The refine selection at the start of a pass, by the slot's need and the retry count. -/
theorem refineSelect_start (h : env.refine = true) (t : Loop) (n : Int) :
    refineSelect q env ⟨t, n, true, none⟩ =
      if needsRefine q env t then
        if t.lbaRefine = t.lba then
          if t.refineCounter + 1 < env.refineRetries then
            ⟨{ t with refineCounter := t.refineCounter + 1 }, t.lba, true, none⟩
          else ⟨{ t with refineCounter := 0 }, n, false, none⟩
        else ⟨{ t with lbaRefine := t.lba }, t.lba, true, none⟩
      else if t.lbaRefine = t.lba then ⟨{ t with refineCounter := 0 }, n, false, none⟩
      else ⟨t, n, false, none⟩ := by
  simp only [refineSelect, h, needsRefine, and_self, if_true]

/-! ### One pass -/

section Pass

variable {t : Loop} (hskip : insideRange t.lba env.skipRanges = none)
  (herr : insideRange t.lba env.errorRanges = none) (hend : t.lba + 1 < env.lbaEnd)
  (hov : env.lbaEnd ≤ t.lbaOverread) (hint : io.interrupt t.polls = false)
include hskip herr hend hov hint

/-- A pass below `lba_end - 1` outside the ranges goes where the selection sets `lba_next`,
records its read, and keeps the overread bound. -/
theorem step_refine_outside :
    (step q io env t).lba = (refineSelect q env ⟨t, t.lba + 1, true, none⟩).lbaNext ∧
    (step q io env t).reads =
      (if (refineSelect q env ⟨t, t.lba + 1, true, none⟩).read then t.lba :: t.reads else t.reads) ∧
    (step q io env t).refineCounter = (refineSelect q env ⟨t, t.lba + 1, true, none⟩).loop.refineCounter ∧
    (step q io env t).lbaRefine = (refineSelect q env ⟨t, t.lba + 1, true, none⟩).loop.lbaRefine ∧
    (step q io env t).lbaOverread = t.lbaOverread := by
  have hrun : t.Running := by unfold Loop.Running; omega
  have hprep : prepare q io env t = readPhase io env (refineSelect q env ⟨t, t.lba + 1, true, none⟩) := by
    unfold prepare
    rw [asusLeadout_of_outside io env _ herr (show t.lba < env.lbaEnd by omega)]
  rw [step_of_running q io env t hrun]
  unfold iterate
  rw [hskip]
  dsimp only
  refine ⟨?_, ?_, by simp [hprep], by simp [hprep], ?_⟩
  · rcases body_lbaNext q io env t with h1 | ⟨-, r, hr, -⟩
    · rw [h1, hprep, readPhase_lbaNext]
    · rw [herr] at hr
      cases hr
  · simp only [body, pollSignal_loop, storePhase_reads, hprep]
    split
    next hr => rw [readPhase_reads io env _ hr, refineSelect_lba, refineSelect_reads]
    next hr => rw [readPhase_of_not_read io env _ (by simpa using hr), refineSelect_reads]
  · rw [body_lbaOverread, hint, if_neg Bool.false_ne_true]
    rcases storePhase_lbaOverread q env (prepare q io env t) with h1 | ⟨-, h2, -⟩ | ⟨-, h2, -⟩
    · simpa using h1
    all_goals simp at h2; omega

end Pass

/-! ### The passes at one LBA -/

section Run

variable (h : env.refine = true) (hint : ∀ k, io.interrupt k = false) {L : Int}
  (hskip : ¬InRanges L env.skipRanges) (herr : ¬InRanges L env.errorRanges) (hend : L + 1 < env.lbaEnd)
include h hint hskip herr hend

/-- A pass at `L` after the first one: a retry while the slot needs one and the budget
allows it, else the move to `L + 1` with the counter reset. -/
theorem step_retry {t : Loop} (ht : t.lba = L) (hr : t.lbaRefine = L)
    (hov : env.lbaEnd ≤ t.lbaOverread) :
    (step q io env t).lbaRefine = L ∧ (step q io env t).lbaOverread = t.lbaOverread ∧
    if needsRefine q env t = true ∧ t.refineCounter + 1 < env.refineRetries then
      (step q io env t).lba = L ∧ (step q io env t).reads = L :: t.reads ∧
        (step q io env t).refineCounter = t.refineCounter + 1
    else
      (step q io env t).lba = L + 1 ∧ (step q io env t).reads = t.reads ∧
        (step q io env t).refineCounter = 0 := by
  subst ht
  obtain ⟨h1, h2, h3, h4, h5⟩ := step_refine_outside q io env
    (insideRange_eq_none.2 hskip) (insideRange_eq_none.2 herr) (by omega) hov (hint _)
  rw [refineSelect_start q env h, if_pos hr] at h1 h2 h3 h4
  refine ⟨?_, h5, ?_⟩
  · rw [h4]
    split_ifs <;> exact hr
  · by_cases hn : needsRefine q env t = true <;> by_cases hc : t.refineCounter + 1 < env.refineRetries <;>
      simp_all

/-- The first pass at `L`, whose slot needs refinement: a read, with the counter it finds. -/
theorem step_first {t : Loop} (ht : t.lba = L) (hr : t.lbaRefine ≠ L)
    (hov : env.lbaEnd ≤ t.lbaOverread) (hn : needsRefine q env t = true) :
    (step q io env t).lba = L ∧ (step q io env t).reads = L :: t.reads ∧
    (step q io env t).refineCounter = t.refineCounter ∧ (step q io env t).lbaRefine = L ∧
    (step q io env t).lbaOverread = t.lbaOverread := by
  subst ht
  obtain ⟨h1, h2, h3, h4, h5⟩ := step_refine_outside q io env
    (insideRange_eq_none.2 hskip) (insideRange_eq_none.2 herr) (by omega) hov (hint _)
  rw [refineSelect_start q env h, if_pos hn, if_neg hr] at h1 h2 h3 h4
  exact ⟨h1, by simpa using h2, h3, h4, h5⟩

/-- After the first read at `L`, with `n` retries left in the budget: the loop retries `b ≤ n`
times, each while the slot still needs it, stopping early only when it no longer does. -/
theorem retries_from : ∀ (n : Nat) (t : Loop), env.refineRetries - 1 - t.refineCounter = n →
    t.lba = L → t.lbaRefine = L → t.refineCounter < env.refineRetries →
    env.lbaEnd ≤ t.lbaOverread →
    ∃ b ≤ n, (∀ i < b, needsRefine q env (run q io env i t) = true) ∧
      (b = n ∨ needsRefine q env (run q io env b t) = false) ∧
      (∀ i ≤ b, (run q io env i t).lba = L) ∧ (run q io env (b + 1) t).lba = L + 1 ∧
      (run q io env (b + 1) t).refineCounter = 0 ∧
      (run q io env (b + 1) t).reads = List.replicate b L ++ t.reads := by
  intro n
  induction n with
  | zero =>
    intro t hn ht hr hc hov
    obtain ⟨-, -, hs⟩ := step_retry q io env h hint hskip herr hend ht hr hov
    rw [if_neg (by omega)] at hs
    obtain ⟨h3, h4, h5⟩ := hs
    exact ⟨0, le_rfl, by simp, .inl rfl, by simpa using ht, by simpa [run_succ'] using h3,
      by simpa [run_succ'] using h5, by simpa [run_succ'] using h4⟩
  | succ n ih =>
    intro t hn ht hr hc hov
    obtain ⟨h1, h2, hs⟩ := step_retry q io env h hint hskip herr hend ht hr hov
    split_ifs at hs with hx
    · obtain ⟨h3, h4, h5⟩ := hs
      obtain ⟨b, hb, hneed, hend', hlba, hl, hcount, hreads⟩ :=
        ih (step q io env t) (by omega) h3 h1 (by omega) (by omega)
      refine ⟨b + 1, by omega, fun i hi => ?_, ?_, fun i hi => ?_, ?_, ?_, ?_⟩
      · cases i with
        | zero => exact hx.1
        | succ i => rw [run_succ']; exact hneed i (by omega)
      · rw [run_succ']
        exact hend'.imp (by omega) id
      · cases i with
        | zero => exact ht
        | succ i => rw [run_succ']; exact hlba i (by omega)
      · rwa [run_succ']
      · rwa [run_succ']
      · rw [run_succ', hreads, h4, List.replicate_succ', List.append_assoc, List.singleton_append]
    · obtain ⟨h3, h4, h5⟩ := hs
      refine ⟨0, by omega, by simp, .inr ?_, by simpa using ht, by simpa [run_succ'] using h3,
        by simpa [run_succ'] using h5, by simpa [run_succ'] using h4⟩
      by_contra hc'
      exact hx ⟨by simpa using hc', by omega⟩

/-- At an LBA below `lba_end - 1` outside the ranges, first reached with counter `c` and a
slot that needs refinement, a refine makes `a = min(refine_retries - c, k)` reads, `k` the
first read after which the slot no longer needs one, and then moves on to `L + 1` with the
counter at `0`. -/
theorem refine_reads_at_lba {s : Loop} (hs : s.lba = L) (hfirst : s.lbaRefine ≠ L)
    (hc : s.refineCounter < env.refineRetries) (hneeds : needsRefine q env s = true)
    (hov : env.lbaEnd ≤ s.lbaOverread) :
    ∃ a, 1 ≤ a ∧ a ≤ env.refineRetries - s.refineCounter ∧
      (∀ i, 1 ≤ i → i < a → needsRefine q env (run q io env i s) = true) ∧
      (a = env.refineRetries - s.refineCounter ∨ needsRefine q env (run q io env a s) = false) ∧
      (∀ i ≤ a, (run q io env i s).lba = L) ∧ (run q io env (a + 1) s).lba = L + 1 ∧
      (run q io env (a + 1) s).refineCounter = 0 ∧
      (run q io env (a + 1) s).reads = List.replicate a L ++ s.reads := by
  obtain ⟨h1, h2, h3, h4, h5⟩ := step_first q io env h hint hskip herr hend hs hfirst hov hneeds
  obtain ⟨b, hb, hneed, hstop, hlba, hl, hcount, hreads⟩ :=
    retries_from q io env h hint hskip herr hend _ (step q io env s) rfl h1 h4 (by omega) (by omega)
  refine ⟨b + 1, by omega, by omega, fun i hi hia => ?_, ?_, fun i hi => ?_, ?_, ?_, ?_⟩
  · obtain ⟨j, rfl⟩ : ∃ j, i = j + 1 := ⟨i - 1, by omega⟩
    rw [run_succ']
    exact hneed j (by omega)
  · rw [run_succ']
    exact hstop.imp (by omega) id
  · cases i with
    | zero => exact hs
    | succ i => rw [run_succ']; exact hlba i (by omega)
  · rwa [run_succ']
  · rwa [run_succ']
  · rw [run_succ', hreads, h2, List.replicate_succ', List.append_assoc, List.singleton_append]

end Run

/-! ### A counter handed on -/

set_option maxRecDepth 20000 in
/-- A refine of `[0, 3)` with three retries and the error range `[0, 1)`, over slots that are
all `ERROR_SKIP`, on a drive whose first read (of LBA `0`) returns C2 bits on every sample
and whose every other read fails. LBA `0` is read again, fails, and the jump to the range's
end takes the loop to `1` with the counter at `1`. LBA `1`, outside every range and below
`lba_end - 1`, needs refinement and is never fixed, yet is read only twice; LBA
`2 = lba_end - 1` is read once, its failed read ending the loop at the overread boundary. -/
theorem refine_retries_carried_counter : ∃ (io : Io) (env : Env) (files : Files),
    env.refine = true ∧ env.refineRetries = 3 ∧ env.lbaStart ≤ 1 ∧ 1 < env.lbaEnd - 1 ∧
    ¬InRanges 1 env.skipRanges ∧ ¬InRanges 1 env.errorRanges ∧
    (∀ k, (io.readSector k 1).statusCode ≠ 0) ∧
    (∀ n < 2, (run ChannelQ.decoder io env n
      (dumpStart ChannelQ.decoder io env false [] 0 files)).lba ≠ 1) ∧
    (run ChannelQ.decoder io env 2 (dumpStart ChannelQ.decoder io env false [] 0 files)).lba = 1 ∧
    (run ChannelQ.decoder io env 2
      (dumpStart ChannelQ.decoder io env false [] 0 files)).refineCounter = 1 ∧
    needsRefine ChannelQ.decoder env
      (run ChannelQ.decoder io env 2 (dumpStart ChannelQ.decoder io env false [] 0 files)) = true ∧
    ¬(run ChannelQ.decoder io env 6 (dumpStart ChannelQ.decoder io env false [] 0 files)).Running ∧
    (run ChannelQ.decoder io env 6
      (dumpStart ChannelQ.decoder io env false [] 0 files)).reads.count 1 = 2 ∧
    (run ChannelQ.decoder io env 6
      (dumpStart ChannelQ.decoder io env false [] 0 files)).reads.count (env.lbaEnd - 1) = 1 := by
  refine ⟨⟨fun k L => if k = 0 ∧ L = 0 then ⟨0, false, ⟨fun _ => 0, fun _ => 0xFF, fun _ => 0⟩⟩
      else ⟨2, false, ⟨fun _ => 0, fun _ => 0, fun _ => 0⟩⟩, fun _ _ => [], fun _ => [], fun _ => false⟩,
    ⟨true, 0, 3, false, [], [(0, 1)], .generic, false, false, false, 3⟩,
    ⟨fun _ _ => 0, fun _ _ => 0, fun _ _ => .errorSkip⟩, rfl, rfl, by decide, by decide,
    by simp [InRanges], by simp [InRanges], fun k => by simp, ?_⟩
  decide

end Redumper
