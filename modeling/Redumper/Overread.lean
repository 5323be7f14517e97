import Redumper.Coverage
import Redumper.Termination

/-!
# The lead-out overread

`lba_overread` starts at `lba_end`. A store at `lba_overread - 1` moves it one further,
unless `options.lba_end` is given; a pass there that stores nothing sets it to `lba`, which
ends the loop. So a dump that reaches `lba_end - 1` walks on one LBA at a time, storing at
each, and stops at the first LBA where nothing is stored: `read_sector` failed and the
LG/ASUS cache had no entry for it.

A dump whose `lba_start` is not below `lba_end` takes no pass at all, and ends with
`lba_overread = lba_end` although nothing was stored at `lba_end - 1`. The results below
are about runs that have stopped; `loop_terminates` says when they do, and here the dump
stops as soon as the drive fails from some LBA on.

## What is proved

* `step_tail`: a pass at `lba_overread - 1`, from `lba_end - 1` on, moves `lba` on by one and
  the bound one further with a store, or back to `lba` without one.
* `dump_overread_first_gap`: a dump from below `lba_end`, not interrupted and with no range
  reaching `lba_end - 1`, stops when the drive fails from some LBA on; when it has stopped,
  it visited every LBA from `lba_end - 1` up to `lba_overread`, stored at each one below
  `lba_overread` and at none of them at `lba_overread`. With `options.lba_end`, no pass is
  at or past `lba_end`.
* `dump_overread_without_passes`: from `lba_start = lba_end` the loop takes no pass and
  ends with `lba_overread = lba_end`.
-/

namespace Redumper

variable (q : QDecoder) (io : Io) (env : Env)

/-! ### Runs -/

theorem run_add (a b : Nat) (s : Loop) : run q io env (a + b) s = run q io env a (run q io env b s) :=
  Function.iterate_add_apply _ a b s

/-- A run that has stopped stays where it stopped. -/
theorem run_stopped {s : Loop} {n m : Nat} (hn : ¬(run q io env n s).Running) (hm : n ≤ m) :
    run q io env m s = run q io env n s := by
  obtain ⟨k, rfl⟩ := Nat.exists_eq_add_of_le hm
  rw [Nat.add_comm, run_add, run_of_not_running q io env _ hn]

/-! ### A pass at the bound -/

/-- At `lba_overread - 1` and without `options.lba_end`, a store moves the bound one
further and no store brings it back to `lba`. -/
theorem storePhase_lbaOverread_last (p : Pass) (hov : p.loop.lba + 1 = p.loop.lbaOverread)
    (ho : env.optionsLbaEnd = false) :
    (storePhase q env p).loop.lbaOverread =
      if p.store.isSome then p.loop.lbaOverread + 1 else p.loop.lba := by
  simp only [storePhase]
  split
  · rw [subcodeDesync_eq]
    split_ifs <;> simp_all
  next hs => simp [hov, hs]

section Tail

variable {q io env} (h : env.refine = false) (ho : env.optionsLbaEnd = false)
  (hint : ∀ k, io.interrupt k = false)
  (hranges : ∀ L, env.lbaEnd - 1 ≤ L → ¬InRanges L env.skipRanges ∧ ¬InRanges L env.errorRanges)
include h ho hint hranges

/-- A pass of a dump at `lba_overread - 1`, from `lba_end - 1` on. -/
theorem step_tail {s : Loop} (hov : s.lba + 1 = s.lbaOverread) (hge : env.lbaEnd - 1 ≤ s.lba) :
    (step q io env s).lba = s.lba + 1 ∧
    (step q io env s).lbaOverread =
      if (prepare q io env s).store.isSome then s.lba + 2 else s.lba := by
  have hrun : s.Running := by unfold Loop.Running; omega
  obtain ⟨hskip, herr⟩ := hranges s.lba hge
  rw [step_of_running q io env s hrun]
  unfold iterate
  rw [insideRange_eq_none.2 hskip]
  refine ⟨?_, ?_⟩
  · rcases body_lbaNext q io env s with h1 | ⟨-, r, hr, -⟩
    · rcases prepare_lbaNext q io env s with h2 | ⟨h2, -⟩
      · exact h1.trans h2
      · simp [h] at h2
    · rw [insideRange_eq_none.2 herr] at hr
      cases hr
  · rw [body_lbaOverread, hint, if_neg Bool.false_ne_true,
      storePhase_lbaOverread_last q env _ (by simpa using hov) ho, prepare_lbaOverread, prepare_lba]
    split_ifs <;> omega

/-- From `lba_overread - 1` at or past `lba_end - 1`, while every pass stores, the dump walks
on one LBA at a time with the bound just ahead. -/
theorem run_tail {t : Loop} (hov : t.lba + 1 = t.lbaOverread) (hge : env.lbaEnd - 1 ≤ t.lba) :
    ∀ j : Nat, (∀ i < j, (prepare q io env (run q io env i t)).store.isSome) →
      (run q io env j t).lba = t.lba + j ∧ (run q io env j t).lbaOverread = t.lba + j + 1
  | 0, _ => by simpa using hov.symm
  | j + 1, hst => by
    obtain ⟨h1, h2⟩ := run_tail hov hge j fun i hi => hst i (by omega)
    obtain ⟨h3, h4⟩ := step_tail (q := q) h ho hint hranges (s := run q io env j t) (by omega) (by omega)
    rw [run_succ, h3, h4, if_pos (hst j (by omega)), h1]
    constructor <;> push_cast <;> omega

/-- A tail that stops does so at its first pass without a store: every pass before it stores,
one LBA after the other, and the bound ends at that pass's LBA. -/
theorem tail_first_gap {t : Loop} (hov : t.lba + 1 = t.lbaOverread) (hge : env.lbaEnd - 1 ≤ t.lba)
    {m : Nat} (hm : ¬(run q io env m t).Running) :
    ∃ j < m, (∀ k ≤ j, (run q io env k t).Running ∧ (run q io env k t).lba = t.lba + k ∧
        ((prepare q io env (run q io env k t)).store.isSome ↔ k < j)) ∧
      (run q io env m t).lbaOverread = t.lba + j := by
  have htail := run_tail (q := q) h ho hint hranges hov hge
  have hrunk : ∀ k, (∀ i < k, (prepare q io env (run q io env i t)).store.isSome) →
      (run q io env k t).Running := fun k hk => by
    obtain ⟨h1, h2⟩ := htail k hk
    unfold Loop.Running
    omega
  have hex : ∃ j, (prepare q io env (run q io env j t)).store.isSome = false := by
    by_contra hc
    push_neg at hc
    exact hm (hrunk m fun i _ => by simpa only [ne_eq, Bool.not_eq_false] using hc i)
  obtain ⟨j, hj, hmin⟩ : ∃ j, (prepare q io env (run q io env j t)).store.isSome = false ∧
      ∀ i < j, (prepare q io env (run q io env i t)).store.isSome :=
    ⟨Nat.find hex, Nat.find_spec hex, fun i hi => by
      simpa only [Bool.not_eq_false] using Nat.find_min hex hi⟩
  have hjm : j < m := by
    by_contra hle
    exact hm (hrunk m fun i hi => hmin i (by omega))
  obtain ⟨hj1, hj2⟩ := htail j hmin
  obtain ⟨h3, h4⟩ := step_tail (q := q) h ho hint hranges (s := run q io env j t) (by omega) (by omega)
  rw [if_neg (by simp [hj]), ← run_succ] at h4
  rw [← run_succ] at h3
  have hstop : ¬(run q io env (j + 1) t).Running := by unfold Loop.Running; omega
  refine ⟨j, hjm, fun k hk => ?_, by rw [run_stopped q io env hstop hjm, h4, hj1]⟩
  have hk' : ∀ i < k, (prepare q io env (run q io env i t)).store.isSome := fun i hi => hmin i (by omega)
  refine ⟨hrunk k hk', (htail k hk').1, ?_⟩
  rcases Nat.lt_or_ge k j with hlt | hge
  · exact ⟨fun _ => hlt, fun _ => hmin k hlt⟩
  · rw [show k = j by omega, hj]
    exact ⟨fun h => absurd h Bool.false_ne_true, fun h => absurd h (lt_irrefl j)⟩

end Tail

/-! ### A whole dump -/

section Dump

variable (leadin : Bool) (sessionStart : List Int) (pregapStart : Int) (files : Files)

/-- **The overread ends at the first LBA without a store.** A dump from below `lba_end`,
without `options.lba_end`, not interrupted, with no skip or error range holding an LBA from
`lba_end - 1` on: it stops when the drive fails from some LBA on, and once it has stopped it
has visited every LBA from `lba_end - 1` up to `lba_overread`, storing a sector at each one
below `lba_overread` and none at `lba_overread`. With `options.lba_end`, every pass is below
`lba_end`. -/
theorem dump_overread_first_gap (h : env.refine = false) (ho : env.optionsLbaEnd = false)
    (hint : ∀ k, io.interrupt k = false)
    (hranges : ∀ L, env.lbaEnd - 1 ≤ L → ¬InRanges L env.skipRanges ∧ ¬InRanges L env.errorRanges)
    (hstart : env.lbaStart < env.lbaEnd) :
    (∀ B, io.BoundedBy env B →
      ∃ n, ¬(run q io env n (dumpStart q io env leadin sessionStart pregapStart files)).Running) ∧
    (∀ n, ¬(run q io env n (dumpStart q io env leadin sessionStart pregapStart files)).Running →
      env.lbaEnd - 1 ≤
        (run q io env n (dumpStart q io env leadin sessionStart pregapStart files)).lbaOverread ∧
      ∀ L, env.lbaEnd - 1 ≤ L →
        L ≤ (run q io env n (dumpStart q io env leadin sessionStart pregapStart files)).lbaOverread →
        ∃ i < n, (run q io env i (dumpStart q io env leadin sessionStart pregapStart files)).Running ∧
          (run q io env i (dumpStart q io env leadin sessionStart pregapStart files)).lba = L ∧
          ((prepare q io env
              (run q io env i (dumpStart q io env leadin sessionStart pregapStart files))).store.isSome ↔
            L < (run q io env n (dumpStart q io env leadin sessionStart pregapStart files)).lbaOverread)) ∧
    ∀ env' : Env, env'.optionsLbaEnd = true → ∀ n,
      (run q io env' n (dumpStart q io env' leadin sessionStart pregapStart files)).Running →
      (run q io env' n (dumpStart q io env' leadin sessionStart pregapStart files)).lba < env'.lbaEnd := by
  set s0 := dumpStart q io env leadin sessionStart pregapStart files
  refine ⟨fun B hB => ?_, fun n hn => ?_, fun env' ho' n hrun => ?_⟩
  · have h0 : OverreadInv io env (max env.lbaEnd (B + 1)) s0 :=
      ⟨.inl rfl, by simp [s0], by simpa [s0] using env.refineRetries_pos⟩
    exact exists_not_running q io env s0 _ h0
      (fun t ht => overreadInv_step q io env (.inl ⟨hB, rfl⟩) t ht)
      fun t ht hrun => boundedMeasure_step q io env hrun ht.overread_le
  · -- the dump reaches `lba_end - 1` with the bound at `lba_end`; from there on it is a tail
    obtain ⟨n1, hL1, hov1⟩ := dump_reaches (q := q) h hint (show env.lbaEnd - 1 < env.lbaEnd by omega)
      (hranges _ le_rfl).1 (hranges _ le_rfl).2 (s := s0) (by simp [s0]; omega) (by simp [s0])
    have hn1 : n1 ≤ n := by
      by_contra hlt
      rw [run_stopped q io env hn (Nat.le_of_not_le hlt)] at hL1 hov1
      exact hn (by unfold Loop.Running; omega)
    obtain ⟨m, rfl⟩ := Nat.exists_eq_add_of_le' hn1
    rw [run_add] at hn ⊢
    obtain ⟨j, hjm, hpass, hF⟩ := tail_first_gap h ho hint hranges (by omega) hL1.ge hn
    refine ⟨by omega, fun L hL hLF => ?_⟩
    obtain ⟨k, hkj, rfl⟩ : ∃ k : Nat, k ≤ j ∧ L = (run q io env n1 s0).lba + k :=
      ⟨(L - (run q io env n1 s0).lba).toNat, by omega, by omega⟩
    obtain ⟨h1, h2, h3⟩ := hpass k hkj
    refine ⟨k + n1, by omega, by rwa [run_add], by rw [run_add, h2], ?_⟩
    rw [run_add, h3, hF]
    omega
  · have hinv := run_induction q io env' (dumpStart q io env' leadin sessionStart pregapStart files)
      (P := OverreadInv io env' env'.lbaEnd) ⟨.inl rfl, by simp, by simpa using env'.refineRetries_pos⟩
      (fun t ht => overreadInv_step q io env' (B := 0) (.inr ho') t ht) n
    exact lt_of_lt_of_le hrun hinv.overread_le

end Dump

/-- A dump of `[0, 2)` on an LG/ASUS drive that reads LBAs `0` and `1`, fails from `2` on, and
whose cache holds one sector, which it serves at `lba_end = 2`: the drive is bounded by `3`,
and the dump stops with the overread bound at or past `lba_end - 1`. -/
theorem dump_overread_asus_cache : ∃ (q : QDecoder) (io : Io) (env : Env) (files : Files),
    env.refine = false ∧ env.optionsLbaEnd = false ∧ (∀ k, io.interrupt k = false) ∧
    (∀ L, env.lbaEnd - 1 ≤ L → ¬InRanges L env.skipRanges ∧ ¬InRanges L env.errorRanges) ∧
    env.lbaStart < env.lbaEnd ∧ env.asusLeadout = true ∧ io.asusCache 0 env.lbaEnd ≠ [] ∧
    io.BoundedBy env 3 ∧
    ∃ n, ¬(run q io env n (dumpStart q io env false [] 0 files)).Running ∧
      env.lbaEnd - 1 ≤ (run q io env n (dumpStart q io env false [] 0 files)).lbaOverread :=
  let q : QDecoder := ⟨fun _ => false, fun _ => 0, fun _ => 0, fun _ => 0⟩
  let io : Io := ⟨fun _ L => ⟨if L < 2 then 0 else 2, false, ⟨fun _ => 0, fun _ => 0, fun _ => 0⟩⟩,
    fun _ _ => [⟨fun _ => 0, fun _ => 0, fun _ => 0⟩], fun _ => [], fun _ => false⟩
  let env : Env := ⟨false, 0, 2, false, [], [], .lgAsus, false, false, false, 0⟩
  let files : Files := ⟨fun _ _ => 0, fun _ _ => 0, fun _ _ => .errorSkip⟩
  have hranges : ∀ L, env.lbaEnd - 1 ≤ L → ¬InRanges L env.skipRanges ∧
      ¬InRanges L env.errorRanges := fun _ _ => ⟨by simp [InRanges, env], by simp [InRanges, env]⟩
  have hB : io.BoundedBy env 3 :=
    ⟨fun _ L hL => by simp [io, show ¬L < 2 by omega], fun _ _ s hs h1 h2 => by
      obtain hl : s.lba = 3 := by change s.lba < max 2 4 at h2; omega
      simp [asusEntry, hs, hl, io, env, insideRange, uint32]⟩
  have H := dump_overread_first_gap q io env false [] 0 files rfl rfl (fun _ => rfl) hranges
    (by decide)
  have ⟨n, hn⟩ := H.1 3 hB
  ⟨q, io, env, files, rfl, rfl, fun _ => rfl, hranges, by decide, rfl, List.cons_ne_nil _ _, hB, n,
    hn, (H.2.1 n hn).1⟩

/-- **From `lba_start = lba_end` nothing is visited.** The loop takes no pass, so nothing is
stored at `lba_end - 1`, and `lba_overread` stays at `lba_end`. -/
theorem dump_overread_without_passes : ∃ (q : QDecoder) (io : Io) (env : Env) (files : Files),
    env.refine = false ∧ env.optionsLbaEnd = false ∧ (∀ k, io.interrupt k = false) ∧
    (∀ L, env.lbaEnd - 1 ≤ L → ¬InRanges L env.skipRanges ∧ ¬InRanges L env.errorRanges) ∧
    ∀ n, run q io env n (dumpStart q io env false [] 0 files) = dumpStart q io env false [] 0 files ∧
      ¬(run q io env n (dumpStart q io env false [] 0 files)).Running ∧
      (run q io env n (dumpStart q io env false [] 0 files)).lbaOverread = env.lbaEnd ∧
      (run q io env n (dumpStart q io env false [] 0 files)).lbaOverread ≠ env.lbaEnd - 1 :=
  let q : QDecoder := ⟨fun _ => false, fun _ => 0, fun _ => 0, fun _ => 0⟩
  let io : Io := ⟨fun _ _ => ⟨0, false, ⟨fun _ => 0, fun _ => 0, fun _ => 0⟩⟩, fun _ _ => [],
    fun _ => [], fun _ => false⟩
  let env : Env := ⟨false, 0, 0, false, [], [], .generic, false, false, false, 0⟩
  let files : Files := ⟨fun _ _ => 0, fun _ _ => 0, fun _ _ => .errorSkip⟩
  have hs : ¬(dumpStart q io env false [] 0 files).Running := by
    simp [Loop.Running, env]
  ⟨q, io, env, files, rfl, rfl, fun _ => rfl,
    fun _ _ => ⟨by simp [InRanges, env], by simp [InRanges, env]⟩,
    fun n => by
      rw [run_of_not_running q io env _ hs n]
      exact ⟨rfl, hs, rfl, by decide⟩⟩

end Redumper
