import Redumper.Step
import Redumper.Dump
import Redumper.ChannelQ

/-!
# Which LBAs a run visits

A dump moves `lba` on at every pass: by one, or to the end of the skip or error range it is
in. So it visits the LBAs it does not jump over in increasing order, and reads each of them
once; the overread bound stays at `lba_end` until the loop is past the LBA, so only a jump
can pass one by.

## What is proved

* `run_lba_lt_dump`: along a dump, `lba` increases from pass to pass while the loop runs.
* `dump_reaches`: a dump that is not interrupted reaches every LBA below `lba_end` that no
  range holds, with the overread bound still at `lba_end`.
* `dump_visits_each_lba_once`: the visits of a dump are increasing, a step of more than one
  is a jump to the end of a range holding the LBA left, and every LBA of `[lba_start,
  lba_end)` in no range is visited exactly once and read at that visit.
* `refine_stops_before_lbaEnd`: a refine whose last sector is already good stops without a
  pass at `lba_end`, so without reading the LG/ASUS lead-out cache.
-/

namespace Redumper

variable (q : QDecoder) (io : Io) (env : Env)

/-! ### One pass of a dump -/

section Dump

variable (h : env.refine = false)
include h

theorem iterate_lba_dump (s : Loop) : (iterate q io env s).lba = s.lba + 1 ∨
    ∃ r, (r ∈ env.skipRanges ∨ r ∈ env.errorRanges) ∧ r.1 ≤ s.lba ∧ s.lba < r.2 ∧
      (iterate q io env s).lba = r.2 := by
  rcases iterate_lba q io env s with h1 | h1 | ⟨h2, -⟩
  · exact .inl h1
  · exact .inr h1
  · simp [h] at h2

theorem lt_step_lba_dump {s : Loop} (hs : s.Running) : s.lba < (step q io env s).lba := by
  rw [step_of_running q io env s hs]
  rcases iterate_lba_dump q io env h s with h1 | ⟨r, -, -, h2, h3⟩ <;> omega

/-- Along a dump `lba` increases at every pass while the loop runs. -/
theorem run_lba_lt_dump (s : Loop) {a b : Nat} (hab : a < b) (hb : (run q io env b s).Running) :
    (run q io env a s).lba < (run q io env b s).lba := by
  induction b, hab using Nat.le_induction with
  | base =>
    rw [run_succ]
    exact lt_step_lba_dump q io env h (running_of_running_succ q io env s hb)
  | succ b _ ih =>
    have hr := running_of_running_succ q io env s hb
    rw [run_succ]
    exact (ih hr).trans (lt_step_lba_dump q io env h hr)

/-- Below `lba_end` and outside the error ranges a pass of a dump reads `lba`. -/
theorem prepare_reads_dump (s : Loop) (h1 : insideRange s.lba env.errorRanges = none)
    (h2 : s.lba < env.lbaEnd) : (prepare q io env s).loop.reads = s.lba :: s.reads := by
  unfold prepare
  rw [asusLeadout_of_outside io env _ h1 h2, refineSelect_of_dump q env _ h, readPhase_reads io env _ rfl]

end Dump

/-! ### Reaching an LBA -/

/-- Without an interrupt, the overread bound stays where it is while `lba + 1` is below it. -/
theorem iterate_lbaOverread_of_lt (s : Loop) (hint : io.interrupt s.polls = false)
    (hlt : s.lba + 1 < s.lbaOverread) :
    (iterate q io env s).lbaOverread = s.lbaOverread := by
  rcases iterate_lbaOverread q io env s with h1 | ⟨h1, -⟩ | ⟨h1, -⟩ | ⟨h1, -⟩
  · exact h1
  all_goals first | omega | simp_all

section Reach

variable {q io env} (h : env.refine = false) (hint : ∀ k, io.interrupt k = false) {L : Int}
  (hend : L < env.lbaEnd) (hskip : ¬InRanges L env.skipRanges) (herr : ¬InRanges L env.errorRanges)
include h hint hend hskip herr

/-- A pass of a dump below `L` with the overread bound at `lba_end` stays below or at `L`,
and keeps the bound. -/
theorem step_below_dump {s : Loop} (hlt : s.lba < L) (hov : s.lbaOverread = env.lbaEnd) :
    s.lba < (step q io env s).lba ∧ (step q io env s).lba ≤ L ∧
      (step q io env s).lbaOverread = env.lbaEnd := by
  have hrun : s.Running := by unfold Loop.Running; omega
  refine ⟨lt_step_lba_dump q io env h hrun, ?_, ?_⟩
  · rw [step_of_running q io env s hrun]
    rcases iterate_lba_dump q io env h s with h1 | ⟨r, hr, h1, -, h3⟩
    · omega
    · by_contra hc
      rcases hr with hr | hr
      · exact hskip ⟨r, hr, by omega, by omega⟩
      · exact herr ⟨r, hr, by omega, by omega⟩
  · rw [step_of_running q io env s hrun, iterate_lbaOverread_of_lt q io env s (hint _) (by omega)]
    exact hov

/-- A dump that is not interrupted reaches every LBA below `lba_end` that no range holds. -/
theorem dump_reaches {s : Loop} (hle : s.lba ≤ L) (hov : s.lbaOverread = env.lbaEnd) :
    ∃ n, (run q io env n s).lba = L ∧ (run q io env n s).lbaOverread = env.lbaEnd := by
  have key : ∀ k : Nat, (∃ n, (run q io env n s).lba = L ∧
      (run q io env n s).lbaOverread = env.lbaEnd) ∨
      ((run q io env k s).lba < L ∧ s.lba + k ≤ (run q io env k s).lba ∧
        (run q io env k s).lbaOverread = env.lbaEnd) := by
    intro k
    induction k with
    | zero =>
      by_cases hL : s.lba = L
      · exact .inl ⟨0, hL, hov⟩
      · exact .inr ⟨by simp only [run, Function.iterate_zero, id]; omega, by simp [run], hov⟩
    | succ k ih =>
      rcases ih with hl | ⟨hlt, hge, hov'⟩
      · exact .inl hl
      obtain ⟨h1, h2, h3⟩ := step_below_dump h hint hend hskip herr hlt hov'
      rw [← run_succ] at h1 h2 h3
      by_cases hL : (run q io env (k + 1) s).lba = L
      · exact .inl ⟨k + 1, hL, h3⟩
      · exact .inr ⟨by omega, by push_cast; omega, h3⟩
  rcases key ((L - s.lba).toNat + 1) with hl | ⟨hlt, hge, -⟩
  · exact hl
  · omega

end Reach

/-! ### The LBAs a dump visits -/

theorem dump_visits_each_lba_once (h : env.refine = false) (hint : ∀ k, io.interrupt k = false)
    (leadin : Bool) (sessionStart : List Int) (pregapStart : Int) (files : Files) :
    (∀ n, (run q io env (n + 1) (dumpStart q io env leadin sessionStart pregapStart files)).Running →
      (run q io env n (dumpStart q io env leadin sessionStart pregapStart files)).lba <
        (run q io env (n + 1) (dumpStart q io env leadin sessionStart pregapStart files)).lba) ∧
    (∀ n, (run q io env n (dumpStart q io env leadin sessionStart pregapStart files)).lba + 1 <
        (run q io env (n + 1) (dumpStart q io env leadin sessionStart pregapStart files)).lba →
      ∃ r, (r ∈ env.skipRanges ∨ r ∈ env.errorRanges) ∧
        r.1 ≤ (run q io env n (dumpStart q io env leadin sessionStart pregapStart files)).lba ∧
        (run q io env (n + 1) (dumpStart q io env leadin sessionStart pregapStart files)).lba = r.2) ∧
    ∀ L, env.lbaStart ≤ L → L < env.lbaEnd → ¬InRanges L env.skipRanges →
      ¬InRanges L env.errorRanges →
      ∃ n, (run q io env n (dumpStart q io env leadin sessionStart pregapStart files)).Running ∧
        (run q io env n (dumpStart q io env leadin sessionStart pregapStart files)).lba = L ∧
        (run q io env (n + 1) (dumpStart q io env leadin sessionStart pregapStart files)).reads =
          L :: (run q io env n (dumpStart q io env leadin sessionStart pregapStart files)).reads ∧
        ∀ m, (run q io env m (dumpStart q io env leadin sessionStart pregapStart files)).Running →
          (run q io env m (dumpStart q io env leadin sessionStart pregapStart files)).lba = L → m = n := by
  set s0 := dumpStart q io env leadin sessionStart pregapStart files
  refine ⟨fun n hn => run_lba_lt_dump q io env h s0 (Nat.lt_succ_self n) hn, fun n hn => ?_,
    fun L hstart hend hskip herr => ?_⟩
  · by_cases hr : (run q io env n s0).Running
    · rw [run_succ, step_of_running q io env _ hr] at hn ⊢
      rcases iterate_lba_dump q io env h (run q io env n s0) with h1 | ⟨r, hr', h1, -, h3⟩
      · omega
      · exact ⟨r, hr', h1, h3⟩
    · rw [run_succ, step_of_not_running q io env _ hr] at hn
      omega
  · obtain ⟨n, hL, hov⟩ := dump_reaches (q := q) h hint hend hskip herr (s := s0) hstart rfl
    have hrun : (run q io env n s0).Running := by unfold Loop.Running; omega
    refine ⟨n, hrun, hL, ?_, fun m hm hmL => ?_⟩
    · rw [run_succ, step_of_running q io env _ hrun]
      unfold iterate
      rw [hL, insideRange_eq_none.2 hskip]
      simp [body, prepare_reads_dump q io env h _ (by rw [hL]; exact insideRange_eq_none.2 herr)
        (by rw [hL]; exact hend), hL]
    · rcases Nat.lt_trichotomy m n with hmn | hmn | hmn
      · have := run_lba_lt_dump q io env h s0 hmn hrun
        omega
      · exact hmn
      · have := run_lba_lt_dump q io env h s0 hmn hm
        omega

/-- A dump of `[0, 4)` with the skip range `[1, 3)`, over a drive that reads everything: the
pass after LBA `0` jumps over `1` and `2`, and LBA `3` is still visited once and read there. -/
theorem dump_visits_past_skip : ∃ (q : QDecoder) (io : Io) (env : Env) (files : Files),
    env.refine = false ∧ (∀ k, io.interrupt k = false) ∧ env.skipRanges = [(1, 3)] ∧
    ∃ n, (run q io env n (dumpStart q io env false [] 0 files)).Running ∧
      (run q io env n (dumpStart q io env false [] 0 files)).lba = 3 ∧
      (run q io env (n + 1) (dumpStart q io env false [] 0 files)).reads =
        3 :: (run q io env n (dumpStart q io env false [] 0 files)).reads ∧
      ∀ m, (run q io env m (dumpStart q io env false [] 0 files)).Running →
        (run q io env m (dumpStart q io env false [] 0 files)).lba = 3 → m = n :=
  let q : QDecoder := ⟨fun _ => false, fun _ => 0, fun _ => 0, fun _ => 0⟩
  let io : Io := ⟨fun _ _ => ⟨0, false, ⟨fun _ => 0, fun _ => 0, fun _ => 0⟩⟩, fun _ _ => [],
    fun _ => [], fun _ => false⟩
  let env : Env := ⟨false, 0, 4, false, [(1, 3)], [], .generic, false, false, false, 0⟩
  let files : Files := ⟨fun _ _ => 0, fun _ _ => 0, fun _ _ => .errorSkip⟩
  ⟨q, io, env, files, rfl, fun _ => rfl, rfl,
    (dump_visits_each_lba_once q io env rfl (fun _ => rfl) false [] 0 files).2.2 3
      (by decide) (by decide) (by simp [InRanges, env]) (by simp [InRanges, env])⟩

/-! ### The overread boundary in a refine -/

set_option maxRecDepth 20000 in
/-- A refine on an LG/ASUS drive of `[0, 1)`, no `lba_end` option and no interrupt, whose
stored slot at `lba_end - 1 = 0` is all `SUCCESS`: the pass at `0` reads nothing, stores
nothing and ends the loop, so no pass runs at `lba_end`. -/
theorem refine_stops_before_lbaEnd : ∃ (io : Io) (env : Env) (files : Files),
    env.refine = true ∧ env.driveType = .lgAsus ∧ env.asusSkipLeadout = false ∧
    env.optionsLbaEnd = false ∧ (∀ k, io.interrupt k = false) ∧
    ¬InRanges (env.lbaEnd - 1) env.skipRanges ∧
    ¬HasSkip (files.state (lbaIndex (env.lbaEnd - 1))) ∧
    ¬HasC2 (files.state (lbaIndex (env.lbaEnd - 1))) ∧
    ∀ n, (run ChannelQ.decoder io env n (dumpStart ChannelQ.decoder io env false [] 0 files)).Running →
      (run ChannelQ.decoder io env n (dumpStart ChannelQ.decoder io env false [] 0 files)).lba <
        env.lbaEnd := by
  let io : Io := ⟨fun _ _ => ⟨0, false, ⟨fun _ => 0, fun _ => 0, fun _ => 0⟩⟩, fun _ _ => [],
    fun _ => [], fun _ => false⟩
  let env : Env := ⟨true, 0, 1, false, [], [], .lgAsus, false, false, false, 0⟩
  let files : Files := ⟨fun _ _ => 0, fun _ _ => 0, fun _ _ => .success⟩
  have hstop :
      ¬(step ChannelQ.decoder io env (dumpStart ChannelQ.decoder io env false [] 0 files)).Running := by
    decide
  refine ⟨io, env, files, rfl, rfl, rfl, rfl, fun _ => rfl, by simp [InRanges, env], by decide,
    by decide, fun n hn => ?_⟩
  cases n with
  | zero => exact (by decide : (0 : Int) < 1)
  | succ n =>
    rw [run_succ', run_of_not_running ChannelQ.decoder io env _ hstop n] at hn
    exact absurd hn hstop

end Redumper
