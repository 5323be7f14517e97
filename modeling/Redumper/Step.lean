import Redumper.Store

/-!
# One pass and a run

What one pass of the loop (`iterate`, `step`) does, assembled from the blocks' lemmas of
`Frame`: where `lba` goes, what happens to the refine counter, which sector is stored.
A run is the iteration of `step`; `run_induction` is the one induction every result about
runs goes through, and a loop that has stopped stays stopped (`run_of_not_running`).
-/

namespace Redumper

variable (q : QDecoder) (io : Io) (env : Env) (s : Loop)

theorem Env.refineRetries_pos (env : Env) : 0 < env.refineRetries := by
  unfold Env.refineRetries; split <;> omega

/-! ### Before the store -/

@[simp] theorem prepare_lba : (prepare q io env s).loop.lba = s.lba := by simp [prepare]

@[simp] theorem prepare_files : (prepare q io env s).loop.files = s.files := by simp [prepare]

@[simp] theorem prepare_lbaOverread : (prepare q io env s).loop.lbaOverread = s.lbaOverread := by
  simp [prepare]

@[simp] theorem prepare_polls : (prepare q io env s).loop.polls = s.polls := by simp [prepare]

/-- Before the store `lba_next` is `lba + 1`, or `lba` for a refine retry. -/
theorem prepare_lbaNext : (prepare q io env s).lbaNext = s.lba + 1 ∨
    (env.refine = true ∧ (prepare q io env s).lbaNext = s.lba ∧
      (prepare q io env s).loop.lbaRefine = s.lba ∧
      if s.lbaRefine = s.lba then
        (prepare q io env s).loop.refineCounter = s.refineCounter + 1 ∧
          s.refineCounter + 1 < env.refineRetries
      else (prepare q io env s).loop.refineCounter = s.refineCounter) := by
  simp only [prepare, readPhase_lbaNext, readPhase_lbaRefine, readPhase_refineCounter]
  rcases refineSelect_lbaNext q env (asusLeadout io env ⟨s, s.lba + 1, true, none⟩) with h | h
  · exact .inl (by simpa using h)
  · exact .inr (by simpa using h)

theorem prepare_refineCounter : (prepare q io env s).loop.refineCounter = s.refineCounter ∨
    (prepare q io env s).loop.refineCounter = 0 ∨
    ((prepare q io env s).loop.refineCounter = s.refineCounter + 1 ∧
      s.refineCounter + 1 < env.refineRetries) := by
  simpa [prepare] using
    refineSelect_refineCounter q env (asusLeadout io env ⟨s, s.lba + 1, true, none⟩)

/-- The store gets nothing, a sector of the LG/ASUS cache, or a sector `read_sector`
returned without error at `lba`. -/
theorem prepare_store : (prepare q io env s).store = none ∨
    (∃ entry, asusEntry env (asusLeadout io env ⟨s, s.lba + 1, true, none⟩).loop = some entry ∧
      (prepare q io env s).store =
        some ⟨entry.data, entry.sub, (stateFromC2 (fun _ => .successScsiOff) entry.c2).1⟩) ∨
    (∃ k, (io.readSector k s.lba).statusCode = 0 ∧
      (prepare q io env s).store =
        some ⟨(io.readSector k s.lba).sector.data, (io.readSector k s.lba).sector.sub,
          (stateFromC2 (fun _ => .success) (io.readSector k s.lba).sector.c2).1⟩) := by
  unfold prepare
  rcases readPhase_store io env (refineSelect q env
      (asusLeadout io env ⟨s, s.lba + 1, true, none⟩)) with h | ⟨-, hk, h⟩
  · rw [h, refineSelect_store]
    rcases asusLeadout_store io env ⟨s, s.lba + 1, true, none⟩
      with ⟨h', -⟩ | ⟨e, he, -, h'⟩
    · exact .inl h'
    · exact .inr (.inl ⟨e, he, h'⟩)
  · simp only [refineSelect_lba, asusLeadout_lba] at hk h
    exact .inr (.inr ⟨_, hk, h⟩)

/-- The sector handed to the store never has `ERROR_SKIP`. -/
theorem prepare_store_not_hasSkip {st : Stored} (h : (prepare q io env s).store = some st) :
    ¬HasSkip st.states := by
  rcases prepare_store q io env s with h' | ⟨e, -, h'⟩ | ⟨k, -, h'⟩ <;>
    rw [h'] at h <;> cases h
  · exact not_hasSkip_stateFromC2 (by decide) _
  · exact not_hasSkip_stateFromC2 (by decide) _

/-! ### A pass -/

@[simp] theorem body_lba : (body q io env s).loop.lba = s.lba := by simp [body]

@[simp] theorem body_files : (body q io env s).loop.files =
    (storePhase q env (prepare q io env s)).loop.files := rfl

@[simp] theorem body_lbaRefine : (body q io env s).loop.lbaRefine =
    (prepare q io env s).loop.lbaRefine := by simp [body]

@[simp] theorem body_refineCounter : (body q io env s).loop.refineCounter =
    (prepare q io env s).loop.refineCounter := by simp [body]

@[simp] theorem body_polls : (body q io env s).loop.polls = s.polls + 1 := by simp [body]

/-- After the store `lba_next` is what it was before, or the end of the error range `lba`
is in when nothing was stored. -/
theorem body_lbaNext : (body q io env s).lbaNext = (prepare q io env s).lbaNext ∨
    ((prepare q io env s).store = none ∧ ∃ r, insideRange s.lba env.errorRanges = some r ∧
      (body q io env s).lbaNext = r.2) := by
  simpa [body] using storePhase_lbaNext q env (prepare q io env s)

theorem body_lbaOverread : (body q io env s).loop.lbaOverread =
    if io.interrupt s.polls then s.lba else (storePhase q env (prepare q io env s)).loop.lbaOverread := by
  simp [body]

/-- A pass inside a skip range jumps to its end; any other pass moves `lba` on by one, jumps
to the end of the error range it is in, or, in a refine, stays for a retry. -/
theorem iterate_lba : (iterate q io env s).lba = s.lba + 1 ∨
    (∃ r, (r ∈ env.skipRanges ∨ r ∈ env.errorRanges) ∧ r.1 ≤ s.lba ∧ s.lba < r.2 ∧
      (iterate q io env s).lba = r.2) ∨
    (env.refine = true ∧ (iterate q io env s).lba = s.lba ∧
      (iterate q io env s).lbaRefine = s.lba ∧
      if s.lbaRefine = s.lba then
        (iterate q io env s).refineCounter = s.refineCounter + 1 ∧
          s.refineCounter + 1 < env.refineRetries
      else (iterate q io env s).refineCounter = s.refineCounter) := by
  unfold iterate
  split
  · next r hr =>
    obtain ⟨hm, h1, h2⟩ := insideRange_some hr
    exact .inr (.inl ⟨r, .inl hm, h1, h2, rfl⟩)
  · dsimp only
    rcases body_lbaNext q io env s with h | ⟨-, r, hr, h⟩
    · rw [h]
      rcases prepare_lbaNext q io env s with h' | h'
      · exact .inl h'
      · exact .inr (.inr (by simpa using h'))
    · obtain ⟨hm, h1, h2⟩ := insideRange_some hr
      exact .inr (.inl ⟨r, .inr hm, h1, h2, h⟩)

theorem le_iterate_lba : s.lba ≤ (iterate q io env s).lba := by
  rcases iterate_lba q io env s with h | ⟨r, -, -, h1, h⟩ | ⟨-, h, -⟩ <;>
    omega

/-- The overread bound moves only at `lba_overread - 1`, one further after a store and back
to `lba` without one, or back to `lba` on an interrupt. -/
theorem iterate_lbaOverread : (iterate q io env s).lbaOverread = s.lbaOverread ∨
    (s.lba + 1 = s.lbaOverread ∧ (prepare q io env s).store.isSome ∧
      env.optionsLbaEnd = false ∧ (iterate q io env s).lbaOverread = s.lbaOverread + 1) ∨
    (s.lba + 1 = s.lbaOverread ∧ (iterate q io env s).lbaOverread = s.lba) ∨
    (io.interrupt s.polls = true ∧ (iterate q io env s).lbaOverread = s.lba) := by
  unfold iterate
  split
  · exact .inl rfl
  · dsimp only
    rw [body_lbaOverread]
    split
    · exact .inr (.inr (.inr ⟨‹_›, rfl⟩))
    · rcases storePhase_lbaOverread q env (prepare q io env s) with h | ⟨h1, h2, h3, h4⟩ | ⟨-, h2, h3⟩
      · exact .inl (by simpa using h)
      · exact .inr (.inl ⟨by simpa using h2, h1, h3, by simpa using h4⟩)
      · exact .inr (.inr (.inl ⟨by simpa using h2, by simpa using h3⟩))

theorem iterate_refineCounter : (iterate q io env s).refineCounter = s.refineCounter ∨
    (iterate q io env s).refineCounter = 0 ∨
    ((iterate q io env s).refineCounter = s.refineCounter + 1 ∧
      s.refineCounter + 1 < env.refineRetries) := by
  unfold iterate
  split
  · exact .inl rfl
  · simpa using prepare_refineCounter q io env s

theorem iterate_files : (iterate q io env s).files = s.files ∨
    (iterate q io env s).files = (storePhase q env (prepare q io env s)).loop.files := by
  unfold iterate
  split
  · exact .inl rfl
  · exact .inr rfl

/-! ### Runs -/

theorem step_of_not_running (h : ¬s.Running) : step q io env s = s := if_neg h

theorem step_of_running (h : s.Running) : step q io env s = iterate q io env s := if_pos h

@[simp] theorem run_zero : run q io env 0 s = s := rfl

theorem run_succ (n : Nat) : run q io env (n + 1) s = step q io env (run q io env n s) :=
  Function.iterate_succ_apply' _ _ _

theorem run_succ' (n : Nat) : run q io env (n + 1) s = run q io env n (step q io env s) :=
  Function.iterate_succ_apply _ _ _

/-- What holds initially and is kept by every pass holds after any number of passes. -/
theorem run_induction {P : Loop → Prop} (h0 : P s) (hstep : ∀ t, P t → P (step q io env t))
    (n : Nat) : P (run q io env n s) :=
  Function.Iterate.rec P hstep h0 n

/-- A loop that has stopped stays where it is. -/
theorem run_of_not_running (h : ¬s.Running) (n : Nat) : run q io env n s = s :=
  Function.iterate_fixed (step_of_not_running q io env s h) n

/-- A loop stops when a measure falls at every pass it takes from the states an invariant
holds of. -/
theorem exists_not_running {P : Loop → Prop} (μ : Loop → Nat) (h0 : P s)
    (hP : ∀ t, P t → P (step q io env t)) (hμ : ∀ t, P t → t.Running → μ (step q io env t) < μ t) :
    ∃ n, ¬(run q io env n s).Running := by
  by_contra hc
  push_neg at hc
  have hle : ∀ n, μ (run q io env n s) + n ≤ μ s := by
    intro n
    induction n with
    | zero => rfl
    | succ n ih =>
      have := hμ _ (run_induction q io env s h0 hP n) (hc n)
      rw [run_succ]
      omega
  have := hle (μ s + 1)
  omega

theorem step_files : (step q io env s).files = s.files ∨
    (step q io env s).files = (storePhase q env (prepare q io env s)).loop.files := by
  unfold step
  split
  · exact iterate_files q io env s
  · exact .inl rfl

theorem le_step_lba : s.lba ≤ (step q io env s).lba := by
  unfold step; split
  · exact le_iterate_lba q io env s
  · exact le_rfl

/-- `lba` never decreases along a run. -/
theorem run_lba_mono (n : Nat) : (run q io env n s).lba ≤ (run q io env (n + 1) s).lba := by
  rw [run_succ]; exact le_step_lba q io env _

/-- A run never takes `lba` below where it started. -/
theorem le_run_lba (n : Nat) : s.lba ≤ (run q io env n s).lba :=
  run_induction q io env s (P := fun t => s.lba ≤ t.lba) le_rfl
    (fun t h => h.trans (le_step_lba q io env t)) n

theorem running_of_running_succ {n : Nat} (h : (run q io env (n + 1) s).Running) :
    (run q io env n s).Running := by
  by_contra hn
  rw [run_succ, step_of_not_running q io env _ hn] at h
  exact hn h

end Redumper
