import Redumper.Step
import Redumper.Dump
import Redumper.ChannelQ

/-!
# The error counters of a refine

A refine starts its counters from the streams: the prelude counts, over `[lba_start,
lba_end)` outside the skip and error ranges, the slots with an `ERROR_SKIP` sample
(`errors_scsi`) and the others with an `ERROR_C2` sample (`errors_c2`). Each store then
adjusts them by comparing the slot before and after the merge.

## What is proved

* `prelude_counts`: the prelude's counters are `errorCount` of the streams.
* `errorCount_update`: a write to one slot changes a count by that slot's change only.
* `adjustErrors_counts`: the adjustment of a merge is that change, because a merge never
  leaves `ERROR_SKIP` (the stored sector never has one) and never creates `ERROR_C2`.
* `refine_counters_exact`: at the start of every iteration of a refine the counters are the
  counts of the streams as they stand, so they never go below zero.

A dump counts its SCSI errors from the drive's answers: `dump_errorsScsi_exact`, at every
iteration `errors_scsi` is the number of reads so far that failed below `lba_end` outside the
error ranges. It counts C2 bits at every read that has them, past `lba_end` included
(`dump_counts_c2_past_lbaEnd`), and `errors_q` of a refine is not such a count: a refine
that overreads past `lba_end` takes it below zero (`refine_errorsQ_below_zero`).
-/

namespace Redumper

/-! ### The counts -/

/-- The LBA is in no skip range and no error range, and its stored slot satisfies `p`. -/
def countedAt (env : Env) (p : States → Prop) [DecidablePred p] (files : Files) (L : Int) : Bool :=
  !((insideRange L env.skipRanges).isSome || (insideRange L env.errorRanges).isSome) &&
    decide (p (files.state (lbaIndex L)))

/-- The number of LBAs of `[lba_start, lba_end)`, in no skip range and no error range, whose
stored slot satisfies `p`. -/
def errorCount (env : Env) (p : States → Prop) [DecidablePred p] (files : Files) : Nat :=
  (lbaRange env.lbaStart env.lbaEnd).countP (countedAt env p files)

/-- A slot counted by `errors_c2`: an `ERROR_C2` sample and no `ERROR_SKIP` one. -/
def C2Only (st : States) : Prop := HasC2 st ∧ ¬HasSkip st

instance : DecidablePred C2Only := fun st => inferInstanceAs (Decidable (HasC2 st ∧ ¬HasSkip st))

/-- Two lists counted by predicates that differ at `a` only. -/
theorem countP_add_of_agree {l : List Int} (hl : l.Nodup) {f g : Int → Bool} {a : Int}
    (h : ∀ x, x ≠ a → f x = g x) :
    (l.countP g : Int) + (if a ∈ l ∧ f a then 1 else 0) =
      l.countP f + (if a ∈ l ∧ g a then 1 else 0) := by
  have hrest : ∀ l' : List Int, a ∉ l' → l'.countP f = l'.countP g := fun l' ha =>
    List.countP_congr fun x hx => by rw [h x (ne_of_mem_of_not_mem hx ha)]
  by_cases ha : a ∈ l
  · have hp := List.perm_cons_erase ha
    rw [hp.countP_eq f, hp.countP_eq g, List.countP_cons, List.countP_cons,
      hrest _ hl.not_mem_erase]
    simp only [ha, true_and]
    cases f a <;> cases g a <;> simp
  · simp only [ha, false_and, if_false, hrest l ha]

theorem errorCount_update (env : Env) (p : States → Prop) [DecidablePred p] {files files' : Files}
    {L0 : Int} (hfr : ∀ L, L ≠ L0 → files'.state (lbaIndex L) = files.state (lbaIndex L)) :
    (errorCount env p files' : Int) +
        (if L0 ∈ lbaRange env.lbaStart env.lbaEnd ∧ countedAt env p files L0 then 1 else 0) =
      errorCount env p files +
        (if L0 ∈ lbaRange env.lbaStart env.lbaEnd ∧ countedAt env p files' L0 then 1 else 0) :=
  countP_add_of_agree (lbaRange_nodup _ _) fun L hL => by simp only [countedAt, hfr L hL]

theorem errorCount_of_state_eq (env : Env) (p : States → Prop) [DecidablePred p]
    {files files' : Files} (h : files'.state = files.state) :
    errorCount env p files' = errorCount env p files := by
  unfold errorCount countedAt
  rw [h]

/-! ### The prelude -/

section Prelude

variable (q : QDecoder) (env : Env) (files : Files)

theorem preludeStep_counts (c : Counts) (L : Int) :
    (preludeStep q env files c L).scsi = c.scsi + (if countedAt env HasSkip files L then 1 else 0) ∧
    (preludeStep q env files c L).c2 = c.c2 + (if countedAt env C2Only files L then 1 else 0) := by
  unfold preludeStep countedAt C2Only
  split
  next h => simp [h]
  next h =>
    simp only [Bool.not_eq_true] at h
    simp only [h, Bool.not_false, Bool.true_and, decide_eq_true_eq, apply_ite Counts.scsi,
      apply_ite Counts.c2, ite_self]
    by_cases hs : HasSkip (files.state (lbaIndex L)) <;>
      by_cases hc : HasC2 (files.state (lbaIndex L)) <;> simp [hs, hc]

theorem foldl_preludeStep : ∀ (l : List Int) (c : Counts),
    (l.foldl (preludeStep q env files) c).scsi = c.scsi + l.countP (countedAt env HasSkip files) ∧
    (l.foldl (preludeStep q env files) c).c2 = c.c2 + l.countP (countedAt env C2Only files)
  | [], c => by simp
  | L :: l, c => by
    obtain ⟨h1, h2⟩ := foldl_preludeStep l (preludeStep q env files c L)
    obtain ⟨h3, h4⟩ := preludeStep_counts q env files c L
    simp only [List.foldl_cons, List.countP_cons, h1, h2, h3, h4, Nat.cast_add]
    constructor <;> split_ifs <;> simp <;> omega

theorem prelude_counts : (prelude q env files).scsi = errorCount env HasSkip files ∧
    (prelude q env files).c2 = errorCount env C2Only files := by
  simpa using foldl_preludeStep q env files (lbaRange env.lbaStart env.lbaEnd) ⟨0, 0, 0⟩

end Prelude

/-! ### A store -/

theorem adjustErrors_errorsScsi (s : Loop) (file merged : States) :
    (adjustErrors s file merged).errorsScsi =
      if HasSkip file ∧ ¬HasSkip merged then s.errorsScsi - 1 else s.errorsScsi := by
  unfold adjustErrors; split_ifs <;> simp_all

theorem adjustErrors_errorsC2 (s : Loop) (file merged : States) :
    (adjustErrors s file merged).errorsC2 =
      if HasSkip file ∧ ¬HasSkip merged then (if HasC2 merged then s.errorsC2 + 1 else s.errorsC2)
      else if HasC2 file ∧ ¬HasC2 merged then s.errorsC2 - 1 else s.errorsC2 := by
  unfold adjustErrors; split_ifs <;> simp_all

/-- The adjustment of a merge is the change of the slot's class, when the merged slot has
no `ERROR_SKIP` and no `ERROR_C2` that the stored slot had not. -/
theorem adjustErrors_counts (s : Loop) {file merged : States} (hm : ¬HasSkip merged)
    (hc : ¬HasSkip file → HasC2 merged → HasC2 file) :
    (adjustErrors s file merged).errorsScsi + (if HasSkip file then 1 else 0) = s.errorsScsi ∧
    (adjustErrors s file merged).errorsC2 + (if C2Only file then 1 else 0) =
      s.errorsC2 + (if C2Only merged then 1 else 0) := by
  unfold adjustErrors C2Only
  by_cases hs : HasSkip file <;> by_cases h2 : HasC2 file <;> by_cases h3 : HasC2 merged <;>
    simp_all

variable (q : QDecoder) (io : Io) (env : Env)

/-- A refine store adjusts the counters only after a write, at an LBA below `lba_end` in no
error range. -/
theorem storeRefine_errors (s : Loop) (st : Stored) :
    (storeRefine q env s st).errorsScsi =
      (if Improves st.states (s.files.state (lbaIndex s.lba)) ∧
          (insideRange s.lba env.errorRanges).isSome = false ∧ s.lba < env.lbaEnd
        then adjustErrors s (s.files.state (lbaIndex s.lba))
          (refineMerge (s.files.state (lbaIndex s.lba)) (s.files.scm (lbaIndex s.lba)) st).1
        else s).errorsScsi ∧
    (storeRefine q env s st).errorsC2 =
      (if Improves st.states (s.files.state (lbaIndex s.lba)) ∧
          (insideRange s.lba env.errorRanges).isSome = false ∧ s.lba < env.lbaEnd
        then adjustErrors s (s.files.state (lbaIndex s.lba))
          (refineMerge (s.files.state (lbaIndex s.lba)) (s.files.scm (lbaIndex s.lba)) st).1
        else s).errorsC2 := by
  dsimp only [storeRefine]
  simp only [apply_ite Loop.errorsScsi, apply_ite Loop.errorsC2, ite_self, adjustErrors_errorsScsi,
    adjustErrors_errorsC2]
  by_cases hi : Improves st.states (s.files.state (lbaIndex s.lba)) <;> simp [hi]

/-- The counters agree with the streams. -/
def CountsAgree (env : Env) (s : Loop) : Prop :=
  s.errorsScsi = errorCount env HasSkip s.files ∧ s.errorsC2 = errorCount env C2Only s.files

/-- A refine store at an LBA outside the skip ranges, of a sector without `ERROR_SKIP`, keeps
the counters in agreement with the streams. -/
theorem countsAgree_storeRefine {s : Loop} (hstart : env.lbaStart ≤ s.lba)
    (hskip : insideRange s.lba env.skipRanges = none) {st : Stored} (hst : ¬HasSkip st.states)
    (hI : CountsAgree env s) : CountsAgree env (storeRefine q env s st) := by
  obtain ⟨he1, he2⟩ := storeRefine_errors q env s st
  have hF := storeRefine_state q env s st
  unfold CountsAgree at hI ⊢
  rw [he1, he2]
  by_cases hi : Improves st.states (s.files.state (lbaIndex s.lba))
  · rw [if_pos hi] at hF
    have hfr : ∀ L, L ≠ s.lba → (storeRefine q env s st).files.state (lbaIndex L) =
        s.files.state (lbaIndex L) := fun L hL => by
      rw [hF, Function.update_noteq (by unfold lbaIndex; omega)]
    have u1 := errorCount_update env HasSkip hfr
    have u2 := errorCount_update env C2Only hfr
    by_cases hc : (insideRange s.lba env.errorRanges).isSome = false ∧ s.lba < env.lbaEnd
    · have adj := adjustErrors_counts s
        (@not_hasSkip_refineMerge (s.files.state (lbaIndex s.lba)) (s.files.scm (lbaIndex s.lba)) _ hst)
        (fun hf => hasC2_of_hasC2_refineMerge hf)
      have hmem : s.lba ∈ lbaRange env.lbaStart env.lbaEnd := mem_lbaRange.2 ⟨hstart, hc.2⟩
      rw [if_pos ⟨hi, hc⟩]
      simp only [countedAt, hskip, hc.1, hF, Function.update_same, hmem, Option.isSome_none,
        Bool.false_or, Bool.not_false, Bool.true_and, decide_eq_true_eq, true_and,
        not_hasSkip_refineMerge hst, if_false, add_zero] at u1 u2
      omega
    · have hc' : ∀ (p : States → Prop) [DecidablePred p] (f : Files),
          ¬(s.lba ∈ lbaRange env.lbaStart env.lbaEnd ∧ countedAt env p f s.lba = true) := by
        intro p _ f h'
        refine hc ⟨?_, (mem_lbaRange.1 h'.1).2⟩
        simp only [countedAt, Bool.and_eq_true, Bool.not_eq_true', Bool.or_eq_false_iff] at h'
        exact h'.2.1.2
      rw [if_neg fun h => hc h.2]
      simp only [hc', if_false, add_zero] at u1 u2
      omega
  · rw [if_neg hi] at hF
    rw [if_neg fun h => hi h.1]
    rwa [errorCount_of_state_eq env _ hF, errorCount_of_state_eq env _ hF]

theorem countsAgree_storePhase (h : env.refine = true) (p : Pass)
    (hstart : env.lbaStart ≤ p.loop.lba) (hskip : insideRange p.loop.lba env.skipRanges = none)
    (hst : ∀ st, p.store = some st → ¬HasSkip st.states) (hI : CountsAgree env p.loop) :
    CountsAgree env (storePhase q env p).loop := by
  cases hs : p.store with
  | none =>
    simp only [storePhase, hs]
    repeat' split
    all_goals exact hI
  | some st =>
    simp only [storePhase, hs, h, ↓reduceIte]
    rw [subcodeDesync_eq]
    split_ifs <;>
      exact countsAgree_storeRefine q env
        (s := { p.loop with subcodeShift := (subcodeDesync q env p.loop st.sub).subcodeShift })
        hstart hskip (hst st hs) hI

theorem prepare_counters (h : env.refine = true) (s : Loop) :
    (prepare q io env s).loop.errorsScsi = s.errorsScsi ∧
      (prepare q io env s).loop.errorsC2 = s.errorsC2 := by
  obtain ⟨h1, h2⟩ := readPhase_counters io env (refineSelect q env
    (asusLeadout io env ⟨s, s.lba + 1, true, none⟩)) h
  simp only [prepare, h1, h2, refineSelect_errorsScsi, refineSelect_errorsC2, asusLeadout_errorsScsi,
    asusLeadout_errorsC2 _ _ _ h, and_self]

/-! ### A refine run -/

/-- What a refine keeps from pass to pass: `lba` is past `lba_start` and the counters agree
with the streams. -/
structure CountersInv (env : Env) (s : Loop) : Prop where
  start_le : env.lbaStart ≤ s.lba
  agree : CountsAgree env s

theorem countersInv_step (h : env.refine = true) {s : Loop} (hI : CountersInv env s) :
    CountersInv env (step q io env s) := by
  refine ⟨hI.start_le.trans (le_step_lba q io env s), ?_⟩
  unfold step
  split_ifs
  · unfold iterate
    split
    · exact hI.agree
    · next hskip =>
      obtain ⟨h1, h2⟩ := prepare_counters q io env h s
      exact countsAgree_storePhase q env h (prepare q io env s) (by simpa using hI.start_le)
        (by simpa using hskip) (fun st hs => prepare_store_not_hasSkip q io env s hs)
        (by simpa [CountsAgree, h1, h2] using hI.agree)
  · exact hI.agree

theorem countersInv_dumpStart (h : env.refine = true) (leadin : Bool) (sessionStart : List Int)
    (pregapStart : Int) (files : Files) :
    CountersInv env (dumpStart q io env leadin sessionStart pregapStart files) := by
  refine ⟨le_rfl, ?_⟩
  obtain ⟨h1, h2⟩ := prelude_counts q env
    (if leadin then plextorStoreSessionsLeadin q io.leadin sessionStart pregapStart files else files)
  simp only [dumpStart, h, ↓reduceIte, CountsAgree, h1, h2, and_self]

theorem refine_counters_exact (h : env.refine = true) (leadin : Bool) (sessionStart : List Int)
    (pregapStart : Int) (files : Files) (n : Nat) :
    (run q io env n (dumpStart q io env leadin sessionStart pregapStart files)).errorsScsi =
      errorCount env HasSkip
        (run q io env n (dumpStart q io env leadin sessionStart pregapStart files)).files ∧
    (run q io env n (dumpStart q io env leadin sessionStart pregapStart files)).errorsC2 =
      errorCount env C2Only
        (run q io env n (dumpStart q io env leadin sessionStart pregapStart files)).files ∧
    0 ≤ (run q io env n (dumpStart q io env leadin sessionStart pregapStart files)).errorsScsi ∧
    0 ≤ (run q io env n (dumpStart q io env leadin sessionStart pregapStart files)).errorsC2 := by
  obtain ⟨-, h1, h2⟩ := run_induction q io env _
    (countersInv_dumpStart q io env h leadin sessionStart pregapStart files)
    (fun _ => countersInv_step q io env h) n
  exact ⟨h1, h2, h1 ▸ Int.natCast_nonneg _, h2 ▸ Int.natCast_nonneg _⟩

/-- A refine of `[0, 1)` over a drive that reads every sector cleanly, from streams that hold
nothing: after two passes the counters are the counts. -/
theorem refine_counters_exact_two_passes : ∃ (q : QDecoder) (io : Io) (env : Env) (files : Files),
    env.refine = true ∧
    (run q io env 2 (dumpStart q io env false [] 0 files)).errorsScsi =
      errorCount env HasSkip (run q io env 2 (dumpStart q io env false [] 0 files)).files :=
  let q : QDecoder := ⟨fun _ => false, fun _ => 0, fun _ => 0, fun _ => 0⟩
  let io : Io := ⟨fun _ _ => ⟨0, false, ⟨fun _ => 0, fun _ => 0, fun _ => 0⟩⟩, fun _ _ => [],
    fun _ => [], fun _ => false⟩
  let env : Env := ⟨true, 0, 1, false, [], [], .generic, false, false, false, 0⟩
  let files : Files := ⟨fun _ _ => 0, fun _ _ => 0, fun _ _ => .errorSkip⟩
  ⟨q, io, env, files, rfl, (refine_counters_exact q io env rfl false [] 0 files 2).1⟩

/-! ### The SCSI errors of a dump -/

/-- Lines 597–603: a dump counts the `k`-th `read_sector` call, at `L`, as a SCSI error when
it failed and `L` is below `lba_end` outside the error ranges (the slow reads a Plextor is
excused are inside an error range). -/
def scsiCounted (k : Nat) (L : Int) : Bool :=
  decide ((io.readSector k L).statusCode ≠ 0) && !(insideRange L env.errorRanges).isSome &&
    decide (L < env.lbaEnd)

theorem scsiCounted_iff {k : Nat} {L : Int} : scsiCounted io env k L = true ↔
    (io.readSector k L).statusCode ≠ 0 ∧ (insideRange L env.errorRanges).isSome = false ∧
      L < env.lbaEnd := by
  simp [scsiCounted, and_assoc]

/-- The `read_sector` calls of `reads`, the last first, that a dump counts as SCSI errors. -/
def scsiErrors : List Int → Nat
  | [] => 0
  | L :: reads => scsiErrors reads + if scsiCounted io env reads.length L then 1 else 0

section Dump

variable (h : env.refine = false)
include h

theorem asusLeadout_reads_dump (p : Pass) :
    (asusLeadout io env p).loop.reads = p.loop.reads := by
  simp only [asusLeadout, asusExtract, h, Bool.false_eq_true, if_false]
  repeat' split
  all_goals rfl

theorem storePhase_errorsScsi_dump (p : Pass) :
    (storePhase q env p).loop.errorsScsi = p.loop.errorsScsi := by
  simp only [storePhase, h, Bool.false_eq_true, if_false]
  split
  · rw [subcodeDesync_eq, storeDump_eq]
    split_ifs <;> rfl
  · repeat' split
    all_goals rfl

/-- A read adds one to `errors_scsi` exactly when the dump counts it. -/
theorem readPhase_scsi {p : Pass} (hp : p.loop.errorsScsi = scsiErrors io env p.loop.reads) :
    (readPhase io env p).loop.errorsScsi = scsiErrors io env (readPhase io env p).loop.reads := by
  cases hr : p.read
  · rw [readPhase_of_not_read io env _ hr]
    exact hp
  · rw [readPhase_reads io env _ hr]
    simp only [readPhase, hr, if_true, h, scsiErrors]
    by_cases hc : scsiCounted io env p.loop.reads.length p.loop.lba = true
    · obtain ⟨h1, h2, h3⟩ := (scsiCounted_iff io env).1 hc
      rw [if_pos hc, if_neg fun hx => absurd hx.2.2 (by simp [h2]), if_pos h1,
        if_pos ⟨h2, h3, trivial⟩]
      simp [hp]
    · rw [if_neg hc, Nat.add_zero]
      split_ifs with h1 h2 h3 <;> try exact hp
      exact absurd ((scsiCounted_iff io env).2 ⟨h2, h3.1, h3.2.1⟩) hc

theorem step_scsi {s : Loop} (hs : s.errorsScsi = scsiErrors io env s.reads) :
    (step q io env s).errorsScsi = scsiErrors io env (step q io env s).reads := by
  unfold step
  split_ifs
  · unfold iterate
    split
    · exact hs
    · have hp := readPhase_scsi io env h (p := refineSelect q env
        (asusLeadout io env ⟨s, s.lba + 1, true, none⟩))
        (by simpa [refineSelect_of_dump q env _ h, asusLeadout_reads_dump io env h] using hs)
      simpa [body, prepare, storePhase_errorsScsi_dump q env h] using hp
  · exact hs

/-- **The SCSI errors of a dump.** At every iteration of a dump, whatever the drive answers,
`errors_scsi` is the number of `read_sector` calls so far that failed below `lba_end` outside
the error ranges. No such failure is lost from the count that decides the refine, and, unlike
a C2 error, no failed read past `lba_end` enters it. -/
theorem dump_errorsScsi_exact (leadin : Bool) (sessionStart : List Int) (pregapStart : Int)
    (files : Files) (n : Nat) :
    (run q io env n (dumpStart q io env leadin sessionStart pregapStart files)).errorsScsi =
      scsiErrors io env
        (run q io env n (dumpStart q io env leadin sessionStart pregapStart files)).reads :=
  run_induction q io env _ (P := fun s => s.errorsScsi = scsiErrors io env s.reads)
    (by simp [dumpStart, h, scsiErrors]) (fun _ => step_scsi q io env h) n

end Dump

/-- A dump of `[0, 1)` over a drive that fails every read: after one pass the count is the
failed read at `0`. -/
theorem dump_errorsScsi_exact_failing : ∃ (q : QDecoder) (io : Io) (env : Env) (files : Files),
    env.refine = false ∧
    (run q io env 1 (dumpStart q io env false [] 0 files)).errorsScsi =
      scsiErrors io env (run q io env 1 (dumpStart q io env false [] 0 files)).reads :=
  let q : QDecoder := ⟨fun _ => false, fun _ => 0, fun _ => 0, fun _ => 0⟩
  let io : Io := ⟨fun _ _ => ⟨2, false, ⟨fun _ => 0, fun _ => 0, fun _ => 0⟩⟩, fun _ _ => [],
    fun _ => [], fun _ => false⟩
  let env : Env := ⟨false, 0, 1, false, [], [], .generic, false, false, false, 0⟩
  let files : Files := ⟨fun _ _ => 0, fun _ _ => 0, fun _ _ => .errorSkip⟩
  ⟨q, io, env, files, rfl, dump_errorsScsi_exact q io env rfl false [] 0 files 1⟩

/-! ### C2 bits past `lba_end` -/

set_option maxRecDepth 20000 in
/-- A dump of `[0, 1)` on a generic drive that reads LBA `0` cleanly, LBA `1` with C2 bits on
every sample and fails from `2` on: the overread reads `1`, counts its C2 bits, and the dump
asks for a refine though no sector of `[lba_start, lba_end)` had an error. -/
theorem dump_counts_c2_past_lbaEnd : ∃ (io : Io) (env : Env) (files : Files),
    env.refine = false ∧ env.asusLeadout = false ∧
    (∀ k L, env.lbaStart ≤ L → L < env.lbaEnd →
      (io.readSector k L).statusCode = 0 ∧ (io.readSector k L).sector.c2 = fun _ => 0) ∧
    ¬(run ChannelQ.decoder io env 3 (dumpStart ChannelQ.decoder io env false [] 0 files)).Running ∧
    dumpResult env (run ChannelQ.decoder io env 3 (dumpStart ChannelQ.decoder io env false [] 0 files)) =
      true := by
  refine ⟨⟨fun _ L => if L = 0 then ⟨0, false, ⟨fun _ => 0, fun _ => 0, fun _ => 0⟩⟩
      else if L = 1 then ⟨0, false, ⟨fun _ => 0, fun _ => 0xFF, fun _ => 0⟩⟩
      else ⟨2, false, ⟨fun _ => 0, fun _ => 0, fun _ => 0⟩⟩, fun _ _ => [], fun _ => [], fun _ => false⟩,
    ⟨false, 0, 1, false, [], [], .generic, false, false, false, 0⟩,
    ⟨fun _ _ => 0, fun _ _ => 0, fun _ _ => .errorSkip⟩, rfl, rfl, fun k L h1 h2 => ?_, by decide⟩
  obtain rfl : L = 0 := by change (0 : Int) ≤ L at h1; change L < 1 at h2; omega
  exact ⟨rfl, rfl⟩

/-! ### `errors_q` past `lba_end` -/

set_option maxRecDepth 20000 in
/-- A refine of `[0, 1)` with subcode, from streams whose only valid Q is at slot `0` (so the
prelude counts no Q error), over a drive that reads every sector with a valid Q: the pass
at `0` grows the overread bound, the pass at `1` writes the invalid slot `1` and takes
`errors_q` to `-1`. -/
theorem refine_errorsQ_below_zero : ∃ (io : Io) (env : Env) (files : Files),
    env.refine = true ∧
    (prelude ChannelQ.decoder env files).q = 0 ∧
    (run ChannelQ.decoder io env 3 (dumpStart ChannelQ.decoder io env false [] 0 files)).errorsQ < 0 := by
  refine ⟨⟨fun _ _ => ⟨0, false, ⟨fun _ => 0, fun _ => 0,
      ChannelQ.ofQ fun k => if k.val < 10 then 0 else 0xFF⟩⟩, fun _ _ => [], fun _ => [],
      fun _ => false⟩,
    ⟨true, 0, 1, false, [], [], .generic, true, false, false, 0⟩,
    ⟨fun _ _ => 0, fun L => if L = lbaIndex 0 then ChannelQ.ofQ fun k => if k.val < 10 then 0 else 0xFF
      else fun _ => 0, fun _ _ => .errorSkip⟩, rfl, by decide, by decide⟩

end Redumper
