import Redumper.Frame

/-!
# What a store writes to the streams

The store of a pass (`storePhase`) on the three streams: in a dump it writes the slot of
`lba` and the subcode slot `lba_index + subcode_shift` unconditionally; in a refine it
merges the sector into the slot of `lba` sample by sample, writes the slot only when some
sample improves, and writes the subcode slot only when the new Q is valid and the stored
one is not.

## What is proved

* `refineMerge_state`: the merged state of a sample is the larger of the stored and the
  new one, so a merge never lowers a sample (`le_refineMerge`) and never leaves
  `ERROR_SKIP` where the new sector has none (`not_hasSkip_refineMerge`).
* `storeRefine_state`, `storeRefine_scm`, `storeRefine_sub`: what a refine store writes,
  slot by slot.
* `storeDump_scm`, `storeDump_state`, `storeDump_sub`: what a dump store writes.
* `storePhase_data_of_ne`, `storePhase_sub_eq`: a store writes `.scram` and `.state` at the
  slot of `lba` only, and one subcode slot, `lba_index + subcode_shift` with the shift the
  sector's own Q sets (`subcodeDesync_slot`: a Q carrying a position lands in its slot).
* `storePhase_state_of_not_hasSkip`: a rewritten `.state` slot has no `ERROR_SKIP` when the
  stored sector has none.
* `storePhase_refine_merge`: the refine store as the sample-wise merge it is, ties taking the
  new word; `storePhase_refine_tie` shows that a tie does not keep the stored word.
-/

namespace Redumper

/-! ### The refine merge -/

section Merge

variable (file : States) (fileData : Words) (st : Stored) (i : Fin CD_DATA_SIZE_SAMPLES)

theorem refineMerge_state : (refineMerge file fileData st).1 i = max (st.states i) (file i) :=
  (max_def_lt _ _).symm

theorem refineMerge_data : (refineMerge file fileData st).2 i =
    if st.states i < file i then fileData i else st.data i := rfl

theorem le_refineMerge : file i ≤ (refineMerge file fileData st).1 i := by
  rw [refineMerge_state]
  exact le_max_right _ _

variable {file fileData st}

/-- A merged slot holds `ERROR_SKIP` only where both inputs do. -/
theorem not_hasSkip_refineMerge (h : ¬HasSkip st.states) :
    ¬HasSkip (refineMerge file fileData st).1 := by
  rintro ⟨i, hi⟩
  rw [refineMerge_state] at hi
  exact h ⟨i, State.le_errorSkip.1 (hi ▸ le_max_left _ _)⟩

/-- A merged slot holds `ERROR_C2` only where the stored one holds `ERROR_C2` or
`ERROR_SKIP`. -/
theorem hasC2_of_hasC2_refineMerge (hf : ¬HasSkip file) (h : HasC2 (refineMerge file fileData st).1) :
    HasC2 file := by
  obtain ⟨i, hi⟩ := h
  rw [refineMerge_state] at hi
  have hle : file i ≤ .errorC2 := hi ▸ le_max_right _ _
  rcases State.le_errorC2.1 hle with h | h
  · exact absurd ⟨i, h⟩ hf
  · exact ⟨i, h⟩

/-- A merge changes the slot exactly when some sample improves. -/
theorem refineMerge_eq_iff : (refineMerge file fileData st).1 = file ↔ ¬Improves st.states file := by
  simp only [Improves, not_exists, not_lt, funext_iff, refineMerge_state, max_eq_right_iff]

end Merge

/-! ### The refine store -/

variable (q : QDecoder) (env : Env)

@[simp] theorem adjustErrors_files (s : Loop) (file merged : States) :
    (adjustErrors s file merged).files = s.files := by
  rw [adjustErrors_eq]

@[simp] theorem adjustErrors_subcodeShift (s : Loop) (file merged : States) :
    (adjustErrors s file merged).subcodeShift = s.subcodeShift := by
  rw [adjustErrors_eq]

section Refine

variable (s : Loop) (st : Stored)

theorem storeRefine_state : (storeRefine q env s st).files.state =
    if Improves st.states (s.files.state (lbaIndex s.lba)) then
      Function.update s.files.state (lbaIndex s.lba)
        (refineMerge (s.files.state (lbaIndex s.lba)) (s.files.scm (lbaIndex s.lba)) st).1
    else s.files.state := by
  dsimp only [storeRefine]
  simp only [apply_ite Loop.files, apply_ite Files.state, Files.writeSub_state, ite_self,
    adjustErrors_files, Files.writeState_state, Files.writeScm_state]

theorem storeRefine_scm : (storeRefine q env s st).files.scm =
    if Improves st.states (s.files.state (lbaIndex s.lba)) then
      Function.update s.files.scm (lbaIndex s.lba)
        (refineMerge (s.files.state (lbaIndex s.lba)) (s.files.scm (lbaIndex s.lba)) st).2
    else s.files.scm := by
  dsimp only [storeRefine]
  simp only [apply_ite Loop.files, apply_ite Files.scm, Files.writeSub_scm, ite_self,
    adjustErrors_files, Files.writeState_scm, Files.writeScm_scm]

theorem storeRefine_sub : (storeRefine q env s st).files.sub =
    if env.subcode ∧ q.valid st.sub ∧ q.valid (s.files.sub (lbaIndex s.lba + s.subcodeShift)) = false
    then Function.update s.files.sub (lbaIndex s.lba + s.subcodeShift) st.sub
    else s.files.sub := by
  dsimp only [storeRefine]
  simp only [apply_ite Loop.files, apply_ite Loop.subcodeShift, apply_ite Files.sub, ite_self,
    adjustErrors_files, adjustErrors_subcodeShift, Files.writeSub_sub, Files.writeState_sub,
    Files.writeScm_sub]

end Refine

section Dump

variable (s : Loop) (st : Stored)

theorem storeDump_scm : (storeDump q env s st).files.scm =
    Function.update s.files.scm (lbaIndex s.lba) st.data := by
  dsimp only [storeDump]
  simp only [apply_ite Loop.files, apply_ite Files.scm, Files.writeSub_scm, ite_self,
    Files.writeState_scm, Files.writeScm_scm]

theorem storeDump_state : (storeDump q env s st).files.state =
    Function.update s.files.state (lbaIndex s.lba) st.states := by
  dsimp only [storeDump]
  simp only [apply_ite Loop.files, apply_ite Files.state, Files.writeSub_state, ite_self,
    Files.writeState_state, Files.writeScm_state]

theorem storeDump_sub : (storeDump q env s st).files.sub =
    if env.subcode then Function.update s.files.sub (lbaIndex s.lba + s.subcodeShift) st.sub
    else s.files.sub := by
  dsimp only [storeDump]
  simp only [apply_ite Loop.files, apply_ite Files.sub, Files.writeSub_sub, ite_self,
    Files.writeState_sub, Files.writeScm_sub]

end Dump

/-- Lines 650–671: with a subcode plane, a sector whose Q carries the position `lbaq` is
stored in the subcode slot of `lbaq`, whatever `lba` the loop is at. -/
theorem subcodeDesync_slot (s : Loop) {sub : Subcode} (hs : env.subcode = true) {lbaq : Int}
    (hq : q.position sub = some lbaq) :
    lbaIndex s.lba + (subcodeDesync q env s sub).subcodeShift = lbaIndex lbaq := by
  simp only [subcodeDesync, hs, hq, if_true]
  unfold lbaIndex
  omega

/-! ### The store of a pass -/

variable (p : Pass)

theorem storePhase_files_of_none (h : p.store = none) :
    (storePhase q env p).loop.files = p.loop.files := by
  simp only [storePhase, h]
  repeat' split
  all_goals rfl

theorem storePhase_files_of_refine (h : env.refine = true) {st : Stored} (hs : p.store = some st) :
    (storePhase q env p).loop.files =
      (storeRefine q env { p.loop with subcodeShift := (subcodeDesync q env p.loop st.sub).subcodeShift }
        st).files := by
  simp only [storePhase, hs, h, ↓reduceIte]
  rw [subcodeDesync_eq]
  split_ifs <;> rfl

theorem storePhase_files_of_dump (h : env.refine = false) {st : Stored} (hs : p.store = some st) :
    (storePhase q env p).loop.files =
      (storeDump q env { p.loop with subcodeShift := (subcodeDesync q env p.loop st.sub).subcodeShift }
        st).files := by
  simp only [storePhase, hs, h, Bool.false_eq_true, ↓reduceIte]
  rw [subcodeDesync_eq]
  split_ifs <;> rfl

/-- In a refine a store never lowers a stored sample. -/
theorem storePhase_state_mono (h : env.refine = true) (L : Int) (i : Fin CD_DATA_SIZE_SAMPLES) :
    p.loop.files.state L i ≤ (storePhase q env p).loop.files.state L i := by
  cases hs : p.store with
  | none => rw [storePhase_files_of_none q env p hs]
  | some st =>
    rw [storePhase_files_of_refine q env p h hs, storeRefine_state]
    split_ifs
    · by_cases hL : L = lbaIndex p.loop.lba
      · subst hL
        simpa using le_refineMerge _ _ _ i
      · simp [Function.update_noteq hL]
    · exact le_rfl

/-- In a refine a store never rewrites a subcode slot whose Q is valid. -/
theorem storePhase_sub_of_valid (h : env.refine = true) {L : Int}
    (hv : q.valid (p.loop.files.sub L) = true) :
    (storePhase q env p).loop.files.sub L = p.loop.files.sub L := by
  cases hs : p.store with
  | none => rw [storePhase_files_of_none q env p hs]
  | some st =>
    rw [storePhase_files_of_refine q env p h hs, storeRefine_sub]
    split_ifs with hw
    · have hL : L ≠ lbaIndex p.loop.lba + (subcodeDesync q env p.loop st.sub).subcodeShift := by
        rintro rfl
        simp_all
      simp [Function.update_noteq hL]
    · rfl

/-! ### Where a store writes -/

/-- A store writes `.scram` and `.state` at the slot of `lba` only. -/
theorem storePhase_data_of_ne {k : Int} (hk : k ≠ lbaIndex p.loop.lba) :
    (storePhase q env p).loop.files.scm k = p.loop.files.scm k ∧
      (storePhase q env p).loop.files.state k = p.loop.files.state k := by
  cases hs : p.store with
  | none => rw [storePhase_files_of_none q env p hs]; exact ⟨rfl, rfl⟩
  | some st =>
    cases h : env.refine
    · rw [storePhase_files_of_dump q env p h hs, storeDump_scm, storeDump_state]
      exact ⟨Function.update_noteq hk _ _, Function.update_noteq hk _ _⟩
    · rw [storePhase_files_of_refine q env p h hs, storeRefine_scm, storeRefine_state]
      split_ifs
      · exact ⟨Function.update_noteq hk _ _, Function.update_noteq hk _ _⟩
      · exact ⟨rfl, rfl⟩

/-- A `.state` slot a store rewrites has no `ERROR_SKIP` when the sector stored has none: a
dump writes the sector's states, a refine their merge with the stored ones. -/
theorem storePhase_state_of_not_hasSkip (hp : ∀ st, p.store = some st → ¬HasSkip st.states)
    (k : Int) : (storePhase q env p).loop.files.state k = p.loop.files.state k ∨
      ¬HasSkip ((storePhase q env p).loop.files.state k) := by
  cases hs : p.store with
  | none => rw [storePhase_files_of_none q env p hs]; exact .inl rfl
  | some st =>
    by_cases hk : k = lbaIndex p.loop.lba
    · subst hk
      cases h : env.refine
      · rw [storePhase_files_of_dump q env p h hs, storeDump_state]
        exact .inr (by simpa using hp st hs)
      · rw [storePhase_files_of_refine q env p h hs, storeRefine_state]
        split_ifs
        · exact .inr (by simpa using not_hasSkip_refineMerge (hp st hs))
        · exact .inl rfl
    · exact .inl (storePhase_data_of_ne q env p hk).2

/-- A store writes one subcode slot at most, `lba_index + subcode_shift` with the shift the
stored sector itself sets, and only with a subcode plane. -/
theorem storePhase_sub_eq : (storePhase q env p).loop.files.sub = p.loop.files.sub ∨
    ∃ st, p.store = some st ∧ env.subcode = true ∧
      (storePhase q env p).loop.files.sub = Function.update p.loop.files.sub
        (lbaIndex p.loop.lba + (subcodeDesync q env p.loop st.sub).subcodeShift) st.sub := by
  cases hs : p.store with
  | none => exact .inl (by rw [storePhase_files_of_none q env p hs])
  | some st =>
    cases h : env.refine
    · rw [storePhase_files_of_dump q env p h hs, storeDump_sub]
      split_ifs with hsub
      · exact .inr ⟨st, rfl, hsub, rfl⟩
      · exact .inl rfl
    · rw [storePhase_files_of_refine q env p h hs, storeRefine_sub]
      split_ifs with hw
      · exact .inr ⟨st, rfl, hw.1, rfl⟩
      · exact .inl rfl

/-! ### The refine store as a merge -/

/-- Lines 685–712: a refine store keeps, sample by sample, the larger state; the slot is
rewritten exactly when some sample improves, and then a sample whose new state is not below
the stored one takes the new word, a tie included. -/
theorem storePhase_refine_merge (h : env.refine = true) {st : Stored} (hs : p.store = some st) :
    (∀ i, (storePhase q env p).loop.files.state (lbaIndex p.loop.lba) i =
      max (st.states i) (p.loop.files.state (lbaIndex p.loop.lba) i)) ∧
    (∀ i, (storePhase q env p).loop.files.scm (lbaIndex p.loop.lba) i =
      if Improves st.states (p.loop.files.state (lbaIndex p.loop.lba)) ∧
          p.loop.files.state (lbaIndex p.loop.lba) i ≤ st.states i
      then st.data i else p.loop.files.scm (lbaIndex p.loop.lba) i) ∧
    ((storePhase q env p).loop.files.state (lbaIndex p.loop.lba) =
        p.loop.files.state (lbaIndex p.loop.lba) ∧
      (storePhase q env p).loop.files.scm (lbaIndex p.loop.lba) =
        p.loop.files.scm (lbaIndex p.loop.lba) ↔
      ¬Improves st.states (p.loop.files.state (lbaIndex p.loop.lba))) ∧
    ∀ L, L ≠ lbaIndex p.loop.lba →
      (storePhase q env p).loop.files.state L = p.loop.files.state L ∧
      (storePhase q env p).loop.files.scm L = p.loop.files.scm L := by
  have hst := storeRefine_state q env
    { p.loop with subcodeShift := (subcodeDesync q env p.loop st.sub).subcodeShift } st
  have hscm := storeRefine_scm q env
    { p.loop with subcodeShift := (subcodeDesync q env p.loop st.sub).subcodeShift } st
  rw [← storePhase_files_of_refine q env p h hs] at hst hscm
  dsimp only at hst hscm
  rw [hst, hscm]
  by_cases hi : Improves st.states (p.loop.files.state (lbaIndex p.loop.lba))
  · refine ⟨fun i => ?_, fun i => ?_, ?_, fun L hL => ?_⟩
    · simp only [hi, if_true, Function.update_same, refineMerge_state]
    · simp only [hi, if_true, Function.update_same, refineMerge_data, true_and, ← not_lt]
      split_ifs <;> rfl
    · simp only [hi, if_true, Function.update_same, not_true_eq_false, iff_false, not_and]
      exact fun heq => absurd heq (refineMerge_eq_iff.not.2 (not_not.2 hi))
    · simp only [hi, if_true, Function.update_noteq hL, and_self]
  · have hle : ∀ i, st.states i ≤ p.loop.files.state (lbaIndex p.loop.lba) i := fun i =>
      not_lt.1 fun hlt => hi ⟨i, hlt⟩
    simp only [hi, if_false, false_and, max_eq_right (hle _), not_false_eq_true, and_self,
      implies_true]

/-- A refine store of a sector improving every sample of a slot holding `ERROR_C2`. -/
theorem storePhase_refine_merge_improving : ∃ (q : QDecoder) (env : Env) (p : Pass) (st : Stored),
    env.refine = true ∧ p.store = some st ∧
    ∀ i, (storePhase q env p).loop.files.state (lbaIndex p.loop.lba) i =
      max (st.states i) (p.loop.files.state (lbaIndex p.loop.lba) i) :=
  let env : Env := ⟨true, 0, 1, false, [], [], .generic, false, false, false, 0⟩
  let st : Stored := ⟨fun _ => 1, fun _ => 0, fun _ => .success⟩
  let s : Loop := ⟨0, 1, 0, 1, 0, 0, [], 0, 0, ⟨fun _ _ => 0, fun _ _ => 0, fun _ _ => .errorC2⟩,
    [], 0, 0⟩
  let q : QDecoder := ⟨fun _ => false, fun _ => 0, fun _ => 0, fun _ => 0⟩
  ⟨q, env, ⟨s, 1, true, some st⟩, st, rfl, rfl,
    (storePhase_refine_merge q env ⟨s, 1, true, some st⟩ rfl rfl).1⟩

/-- A tie does not keep the stored word: a refine store in which sample `0` ties and
sample `1` improves writes the new word of sample `0`. -/
theorem storePhase_refine_tie : ∃ (q : QDecoder) (env : Env) (p : Pass) (st : Stored),
    env.refine = true ∧ p.store = some st ∧
    st.states 0 = p.loop.files.state (lbaIndex p.loop.lba) 0 ∧
    (storePhase q env p).loop.files.scm (lbaIndex p.loop.lba) 0 = st.data 0 ∧
    st.data 0 ≠ p.loop.files.scm (lbaIndex p.loop.lba) 0 := by
  let env : Env := ⟨true, 0, 1, false, [], [], .generic, false, false, false, 0⟩
  let st : Stored := ⟨fun _ => 1, fun _ => 0, fun i => if i.val = 0 then .errorC2 else .success⟩
  let s : Loop := ⟨0, 1, 0, 1, 0, 0, [], 0, 0, ⟨fun _ _ => 0, fun _ _ => 0, fun _ _ => .errorC2⟩,
    [], 0, 0⟩
  let q : QDecoder := ⟨fun _ => false, fun _ => 0, fun _ => 0, fun _ => 0⟩
  have hi : Improves st.states (s.files.state (lbaIndex s.lba)) := ⟨1, by decide⟩
  refine ⟨q, env, ⟨s, 1, true, some st⟩, st, rfl, rfl, rfl, ?_, by decide⟩
  rw [storePhase_files_of_refine _ _ _ rfl rfl, storeRefine_scm]
  simp only [hi, if_true, Function.update_same, refineMerge_data]
  rfl

end Redumper
