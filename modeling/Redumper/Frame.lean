import Redumper.Loop

/-!
# What each block of the loop body changes

For every block of the body one equation says which of the loop's variables and of the
body's locals it may change, rebuilding the rest from its input (`asusLeadout_eq`,
`refineSelect_eq`, `readPhase_eq`, `storePhase_eq`); the simp lemmas for what a block leaves
alone follow from it by rewriting. A few more lemmas say what a block may do to what it
changes: the sector it hands to the store (`asusLeadout_store`, `readPhase_store`), the
counters in a refine, and where `lba_next` may point (`refineSelect_lbaNext`,
`storePhase_lbaNext`). The results about runs cite these and never unfold a block.
-/

namespace Redumper

variable (q : QDecoder) (io : Io) (env : Env) (p : Pass)

/-! ### The LG/ASUS lead-out cache -/

/-- The entry the cache serves depends on `lba` and the buffer only. -/
theorem asusEntry_congr {s t : Loop} (h1 : s.lba = t.lba)
    (h2 : s.asusLeadoutBuffer = t.asusLeadoutBuffer) : asusEntry env s = asusEntry env t := by
  simp only [asusEntry, h1, h2]

theorem asusExtract_eq (s : Loop) : asusExtract io env s =
    { s with reads := if env.refine then (s.lba - 1) :: s.reads else s.reads,
             asusLeadoutBuffer := io.asusCache s.caches s.lba, caches := s.caches + 1 } := by
  unfold asusExtract; split <;> rfl

theorem asusLeadout_eq : asusLeadout io env p =
    { p with loop := { p.loop with errorsC2 := (asusLeadout io env p).loop.errorsC2,
                                   asusLeadoutBuffer := (asusLeadout io env p).loop.asusLeadoutBuffer,
                                   reads := (asusLeadout io env p).loop.reads,
                                   caches := (asusLeadout io env p).loop.caches }
             read := (asusLeadout io env p).read
             store := (asusLeadout io env p).store } := by
  simp only [asusLeadout, asusExtract_eq]
  repeat' split
  all_goals rfl

@[simp] theorem asusLeadout_lba : (asusLeadout io env p).loop.lba = p.loop.lba := by
  rw [asusLeadout_eq]

@[simp] theorem asusLeadout_lbaOverread :
    (asusLeadout io env p).loop.lbaOverread = p.loop.lbaOverread := by
  rw [asusLeadout_eq]

@[simp] theorem asusLeadout_errorsScsi :
    (asusLeadout io env p).loop.errorsScsi = p.loop.errorsScsi := by
  rw [asusLeadout_eq]

@[simp] theorem asusLeadout_files : (asusLeadout io env p).loop.files = p.loop.files := by
  rw [asusLeadout_eq]

@[simp] theorem asusLeadout_lbaRefine :
    (asusLeadout io env p).loop.lbaRefine = p.loop.lbaRefine := by
  rw [asusLeadout_eq]

@[simp] theorem asusLeadout_refineCounter :
    (asusLeadout io env p).loop.refineCounter = p.loop.refineCounter := by
  rw [asusLeadout_eq]

@[simp] theorem asusLeadout_polls : (asusLeadout io env p).loop.polls = p.loop.polls := by
  rw [asusLeadout_eq]

@[simp] theorem asusLeadout_lbaNext : (asusLeadout io env p).lbaNext = p.lbaNext := by
  rw [asusLeadout_eq]

/-- The buffer is the one before or one the cache returned. -/
theorem asusLeadout_asusLeadoutBuffer :
    (asusLeadout io env p).loop.asusLeadoutBuffer = p.loop.asusLeadoutBuffer ∨
      ∃ k x, (asusLeadout io env p).loop.asusLeadoutBuffer = io.asusCache k x := by
  by_cases ha : env.asusLeadout = true
  · simp only [asusLeadout, ha, if_true]
    split <;> simp only [apply_ite Loop.asusLeadoutBuffer, ite_self, asusExtract_eq] <;> split_ifs
    all_goals first | exact .inl rfl | exact .inr ⟨_, _, rfl⟩
  · simp only [asusLeadout, ha, Bool.false_eq_true, if_false, true_or]

/-- A refine never counts the C2 bits of a cached sector. -/
theorem asusLeadout_errorsC2 (h : env.refine = true) :
    (asusLeadout io env p).loop.errorsC2 = p.loop.errorsC2 := by
  simp only [asusLeadout, h, Bool.true_eq_false, and_false, if_false]
  repeat' split
  all_goals first | rfl | rw [asusExtract_eq]

/-- Below `lba_end` and outside the error ranges the cache does nothing. -/
theorem asusLeadout_of_outside (h1 : insideRange p.loop.lba env.errorRanges = none)
    (h2 : p.loop.lba < env.lbaEnd) : asusLeadout io env p = p := by
  have h3 : p.loop.lba ≠ env.lbaEnd := by omega
  simp [asusLeadout, asusEntry, h1, h3, not_le.2 h2]

/-- The cache leaves the pass alone, or serves the sector `asusEntry` finds, which is then
stored with the states `state_from_c2` gives from `SUCCESS_SCSI_OFF` and not read. -/
theorem asusLeadout_store : (asusLeadout io env p).store = p.store ∧
      (asusLeadout io env p).read = p.read ∨
    ∃ entry, asusEntry env (asusLeadout io env p).loop = some entry ∧
      (asusLeadout io env p).read = false ∧
      (asusLeadout io env p).store =
        some ⟨entry.data, entry.sub, (stateFromC2 (fun _ => .successScsiOff) entry.c2).1⟩ := by
  simp only [asusLeadout]
  split_ifs <;> (try split)
  case pos.h_1 | neg.h_1 =>
    refine .inr ⟨_, ?_, rfl, rfl⟩
    rw [← ‹asusEntry env _ = some _›]
    apply asusEntry_congr <;> split_ifs <;> rfl
  all_goals exact .inl ⟨rfl, rfl⟩

/-! ### Refine selection -/

theorem refineSelect_eq : refineSelect q env p =
    { p with loop := { p.loop with lbaRefine := (refineSelect q env p).loop.lbaRefine,
                                   refineCounter := (refineSelect q env p).loop.refineCounter }
             lbaNext := (refineSelect q env p).lbaNext
             read := (refineSelect q env p).read } := by
  dsimp only [refineSelect]
  repeat' split
  all_goals rfl

@[simp] theorem refineSelect_lba : (refineSelect q env p).loop.lba = p.loop.lba := by
  rw [refineSelect_eq]

@[simp] theorem refineSelect_lbaOverread :
    (refineSelect q env p).loop.lbaOverread = p.loop.lbaOverread := by
  rw [refineSelect_eq]

@[simp] theorem refineSelect_errorsScsi :
    (refineSelect q env p).loop.errorsScsi = p.loop.errorsScsi := by
  rw [refineSelect_eq]

@[simp] theorem refineSelect_errorsC2 :
    (refineSelect q env p).loop.errorsC2 = p.loop.errorsC2 := by
  rw [refineSelect_eq]

@[simp] theorem refineSelect_files : (refineSelect q env p).loop.files = p.loop.files := by
  rw [refineSelect_eq]

@[simp] theorem refineSelect_reads : (refineSelect q env p).loop.reads = p.loop.reads := by
  rw [refineSelect_eq]

@[simp] theorem refineSelect_polls : (refineSelect q env p).loop.polls = p.loop.polls := by
  rw [refineSelect_eq]

@[simp] theorem refineSelect_store : (refineSelect q env p).store = p.store := by
  rw [refineSelect_eq]

@[simp] theorem refineSelect_asusLeadoutBuffer :
    (refineSelect q env p).loop.asusLeadoutBuffer = p.loop.asusLeadoutBuffer := by
  rw [refineSelect_eq]

/-- In a dump the refine selection does nothing. -/
theorem refineSelect_of_dump (h : env.refine = false) : refineSelect q env p = p := by
  simp [refineSelect, h]

/-- The selection keeps `lba_next`, or re-enters the same LBA, which it does only after
recording it in `lba_refine`: one more retry when it was already there, the first visit's
read (with whatever counter it finds) when it was not. -/
theorem refineSelect_lbaNext : (refineSelect q env p).lbaNext = p.lbaNext ∨
    (env.refine = true ∧ (refineSelect q env p).lbaNext = p.loop.lba ∧
      (refineSelect q env p).loop.lbaRefine = p.loop.lba ∧
      if p.loop.lbaRefine = p.loop.lba then
        (refineSelect q env p).loop.refineCounter = p.loop.refineCounter + 1 ∧
          p.loop.refineCounter + 1 < env.refineRetries
      else (refineSelect q env p).loop.refineCounter = p.loop.refineCounter) := by
  generalize hr : refineSelect q env p = r
  dsimp only [refineSelect] at hr
  repeat' split at hr
  all_goals subst hr
  all_goals first | exact .inl rfl | exact .inr ⟨‹_ ∧ _›.1, rfl, by simp_all⟩

/-- The counter only grows below `refine_retries`, else it is reset. -/
theorem refineSelect_refineCounter :
    (refineSelect q env p).loop.refineCounter = p.loop.refineCounter ∨
      (refineSelect q env p).loop.refineCounter = 0 ∨
      ((refineSelect q env p).loop.refineCounter = p.loop.refineCounter + 1 ∧
        p.loop.refineCounter + 1 < env.refineRetries) := by
  dsimp only [refineSelect]
  repeat' split
  all_goals first | exact .inl rfl | exact .inr (.inl rfl) | exact .inr (.inr ⟨rfl, ‹_›⟩)

/-! ### Reading -/

theorem readPhase_eq : readPhase io env p =
    { p with loop := { p.loop with errorsScsi := (readPhase io env p).loop.errorsScsi,
                                   errorsC2 := (readPhase io env p).loop.errorsC2,
                                   reads := (readPhase io env p).loop.reads }
             store := (readPhase io env p).store } := by
  dsimp only [readPhase]
  repeat' split
  all_goals rfl

@[simp] theorem readPhase_lba : (readPhase io env p).loop.lba = p.loop.lba := by
  rw [readPhase_eq]

@[simp] theorem readPhase_lbaOverread :
    (readPhase io env p).loop.lbaOverread = p.loop.lbaOverread := by
  rw [readPhase_eq]

@[simp] theorem readPhase_files : (readPhase io env p).loop.files = p.loop.files := by
  rw [readPhase_eq]

@[simp] theorem readPhase_lbaRefine : (readPhase io env p).loop.lbaRefine = p.loop.lbaRefine := by
  rw [readPhase_eq]

@[simp] theorem readPhase_refineCounter :
    (readPhase io env p).loop.refineCounter = p.loop.refineCounter := by
  rw [readPhase_eq]

@[simp] theorem readPhase_polls : (readPhase io env p).loop.polls = p.loop.polls := by
  rw [readPhase_eq]

@[simp] theorem readPhase_asusLeadoutBuffer :
    (readPhase io env p).loop.asusLeadoutBuffer = p.loop.asusLeadoutBuffer := by
  rw [readPhase_eq]

@[simp] theorem readPhase_lbaNext : (readPhase io env p).lbaNext = p.lbaNext := by
  rw [readPhase_eq]

/-- A refine counts nothing when it reads. -/
theorem readPhase_counters (h : env.refine = true) :
    (readPhase io env p).loop.errorsScsi = p.loop.errorsScsi ∧
      (readPhase io env p).loop.errorsC2 = p.loop.errorsC2 := by
  simp only [readPhase, h, Bool.true_eq_false, and_false, if_false]
  split_ifs <;> exact ⟨rfl, rfl⟩

/-- A read hands the store the sector of a `read_sector` call at `lba` that succeeded, with
the states `state_from_c2` gives from `SUCCESS`. -/
theorem readPhase_store : (readPhase io env p).store = p.store ∨
    (p.read = true ∧ (io.readSector p.loop.reads.length p.loop.lba).statusCode = 0 ∧
      (readPhase io env p).store =
        some ⟨(io.readSector p.loop.reads.length p.loop.lba).sector.data,
          (io.readSector p.loop.reads.length p.loop.lba).sector.sub,
          (stateFromC2 (fun _ => .success)
            (io.readSector p.loop.reads.length p.loop.lba).sector.c2).1⟩) := by
  dsimp only [readPhase]
  split
  next hr =>
    split
    · exact .inl rfl
    split
    · exact .inl rfl
    next hs => exact .inr ⟨hr, not_not.1 hs, rfl⟩
  · exact .inl rfl

/-- A pass that does not read leaves the reading block alone. -/
theorem readPhase_of_not_read (h : p.read = false) : readPhase io env p = p := by
  simp [readPhase, h]

/-- A pass that reads records the read. -/
theorem readPhase_reads (h : p.read = true) :
    (readPhase io env p).loop.reads = p.loop.lba :: p.loop.reads := by
  dsimp only [readPhase]
  rw [if_pos h]
  repeat' split
  all_goals rfl

/-! ### Storing and polling -/

theorem subcodeDesync_eq (s : Loop) (sub : Subcode) :
    subcodeDesync q env s sub = { s with subcodeShift := (subcodeDesync q env s sub).subcodeShift } := by
  unfold subcodeDesync
  repeat' split
  all_goals rfl

theorem adjustErrors_eq (s : Loop) (file merged : States) : adjustErrors s file merged =
    { s with errorsScsi := (adjustErrors s file merged).errorsScsi,
             errorsC2 := (adjustErrors s file merged).errorsC2 } := by
  unfold adjustErrors; split_ifs <;> rfl

theorem storeRefine_eq (s : Loop) (st : Stored) : storeRefine q env s st =
    { s with errorsScsi := (storeRefine q env s st).errorsScsi,
             errorsC2 := (storeRefine q env s st).errorsC2,
             errorsQ := (storeRefine q env s st).errorsQ,
             files := (storeRefine q env s st).files } := by
  simp only [storeRefine]
  split_ifs <;> (try rw [adjustErrors_eq]) <;> rfl

theorem storeDump_eq (s : Loop) (st : Stored) : storeDump q env s st =
    { s with errorsQ := (storeDump q env s st).errorsQ,
             files := (storeDump q env s st).files } := by
  simp only [storeDump]
  split_ifs <;> rfl

@[simp] theorem storeRefine_lba (s : Loop) (st : Stored) : (storeRefine q env s st).lba = s.lba := by
  rw [storeRefine_eq]

@[simp] theorem storeRefine_lbaOverread (s : Loop) (st : Stored) :
    (storeRefine q env s st).lbaOverread = s.lbaOverread := by
  rw [storeRefine_eq]

@[simp] theorem storeDump_lba (s : Loop) (st : Stored) : (storeDump q env s st).lba = s.lba := by
  rw [storeDump_eq]

@[simp] theorem storeDump_lbaOverread (s : Loop) (st : Stored) :
    (storeDump q env s st).lbaOverread = s.lbaOverread := by
  rw [storeDump_eq]

theorem storePhase_eq : storePhase q env p =
    { p with loop := { p.loop with lbaOverread := (storePhase q env p).loop.lbaOverread,
                                   errorsScsi := (storePhase q env p).loop.errorsScsi,
                                   errorsC2 := (storePhase q env p).loop.errorsC2,
                                   errorsQ := (storePhase q env p).loop.errorsQ,
                                   subcodeShift := (storePhase q env p).loop.subcodeShift,
                                   files := (storePhase q env p).loop.files }
             lbaNext := (storePhase q env p).lbaNext } := by
  simp only [storePhase]
  split
  · rw [subcodeDesync_eq]
    split_ifs <;> first | rw [storeRefine_eq] | rw [storeDump_eq]
  · repeat' split
    all_goals rfl

@[simp] theorem storePhase_lba : (storePhase q env p).loop.lba = p.loop.lba := by
  rw [storePhase_eq]

@[simp] theorem storePhase_lbaRefine :
    (storePhase q env p).loop.lbaRefine = p.loop.lbaRefine := by
  rw [storePhase_eq]

@[simp] theorem storePhase_refineCounter :
    (storePhase q env p).loop.refineCounter = p.loop.refineCounter := by
  rw [storePhase_eq]

@[simp] theorem storePhase_reads : (storePhase q env p).loop.reads = p.loop.reads := by
  rw [storePhase_eq]

@[simp] theorem storePhase_polls : (storePhase q env p).loop.polls = p.loop.polls := by
  rw [storePhase_eq]

@[simp] theorem storePhase_asusLeadoutBuffer :
    (storePhase q env p).loop.asusLeadoutBuffer = p.loop.asusLeadoutBuffer := by
  rw [storePhase_eq]

/-- Only a pass that stores nothing inside an error range moves `lba_next`: to the range's
end. -/
theorem storePhase_lbaNext : (storePhase q env p).lbaNext = p.lbaNext ∨
    (p.store = none ∧ ∃ r, insideRange p.loop.lba env.errorRanges = some r ∧
      (storePhase q env p).lbaNext = r.2) := by
  unfold storePhase
  split
  · exact .inl rfl
  next hs =>
    split
    · exact .inl rfl
    split
    next r hr => exact .inr ⟨hs, r, hr, rfl⟩
    · exact .inl rfl

/-- The overread bound moves only by a store at `lba_overread - 1` (one further, without
`options.lba_end`) or by a pass at `lba_overread - 1` that stores nothing (back to `lba`). -/
theorem storePhase_lbaOverread : (storePhase q env p).loop.lbaOverread = p.loop.lbaOverread ∨
    (p.store.isSome ∧ p.loop.lba + 1 = p.loop.lbaOverread ∧ env.optionsLbaEnd = false ∧
      (storePhase q env p).loop.lbaOverread = p.loop.lbaOverread + 1) ∨
    (p.store = none ∧ p.loop.lba + 1 = p.loop.lbaOverread ∧
      (storePhase q env p).loop.lbaOverread = p.loop.lba) := by
  simp only [storePhase]
  split
  next st hst =>
    rw [subcodeDesync_eq]
    simp only [apply_ite Loop.lbaOverread, apply_ite Loop.lba, storeRefine_lba, storeDump_lba,
      storeRefine_lbaOverread, storeDump_lbaOverread, ite_self]
    split_ifs with h
    · exact .inr (.inl ⟨by simp [hst], h.1, h.2, rfl⟩)
    · exact .inl rfl
  next hs =>
    split
    next h => exact .inr (.inr ⟨hs, h, rfl⟩)
    · split <;> exact .inl rfl

@[simp] theorem pollSignal_loop : (pollSignal io p).loop =
    { p.loop with polls := p.loop.polls + 1,
                  lbaOverread := if io.interrupt p.loop.polls then p.loop.lba
                    else p.loop.lbaOverread } := rfl

@[simp] theorem pollSignal_lbaNext : (pollSignal io p).lbaNext = p.lbaNext := rfl

end Redumper
