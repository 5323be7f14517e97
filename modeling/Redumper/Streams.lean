import Redumper.Refine

/-!
# Where the loop writes the streams

Which slots of the three streams `redumper_dump` can change, over whole runs of its main
loop, in a dump and in a refine alike, whatever the drive answers.

A pass writes `.scram` and `.state` at the slot of the LBA it is at, and only outside the
skip ranges (lines 673–775). It writes `.subcode` at `lba_index + subcode_shift`, with the
shift that the stored sector's own Q has just set (lines 648–671): a Q that carries an
absolute position lands in that position's slot, however far the drive's subcode runs ahead
of or behind its data. Neither store ever puts `ERROR_SKIP` in `.state`: a dump writes the
states `state_from_c2` gives, a refine their merge with the stored ones, and the Plextor
lead-in commit `SUCCESS_C2_OFF`.

## What is proved

* `run_data_frame`: after any number of passes a `.scram` or `.state` slot is as it was, or
  it is the slot of an LBA between the first pass's and the last's, in no skip range. A slot
  below where the run starts, past where it stops, or in a skip range is never written; in a
  dump, where every pass moves `lba` on, no slot is written by two passes.
* `run_sub_aligned`: after any number of passes a `.subcode` slot is as it was, or the
  position its Q carries, if any, is the slot's own.
* `state_kept_or_no_skip`: from any streams `redumper_dump` opens, the lead-in capture and
  any number of passes leave each `.state` slot as it was or without `ERROR_SKIP`. From the
  truncated streams of a dump, every slot is then all `ERROR_SKIP` (never stored) or free of
  it, which is what the prelude of a later refine counts as a SCSI error.
-/

namespace Redumper

variable (q : QDecoder) (io : Io) (env : Env)

/-- What every pass keeps of a stream, slot by slot: the slot as it was, or a slot with a
property. -/
theorem run_kept_or {α : Type} (get : Loop → Int → α) (good : Int → α → Prop)
    (hstep : ∀ t k, get (step q io env t) k = get t k ∨ good k (get (step q io env t) k))
    (s : Loop) (n : Nat) (k : Int) :
    get (run q io env n s) k = get s k ∨ good k (get (run q io env n s) k) :=
  run_induction q io env s (P := fun t => get t k = get s k ∨ good k (get t k)) (.inl rfl)
    (fun t ht => (hstep t k).elim (fun h => by dsimp only; rw [h]; exact ht) .inr) n

/-! ### `.scram` and `.state` -/

/-- A pass writes `.scram` and `.state` at most at the slot of its `lba`, and not when `lba`
is in a skip range. -/
theorem step_data_frame (t : Loop) (L : Int) :
    ((step q io env t).files.scm (lbaIndex L) = t.files.scm (lbaIndex L) ∧
      (step q io env t).files.state (lbaIndex L) = t.files.state (lbaIndex L)) ∨
    (L = t.lba ∧ ¬InRanges L env.skipRanges) := by
  unfold step
  split
  · unfold iterate
    split
    · exact .inl ⟨rfl, rfl⟩
    next hskip =>
      by_cases hL : L = t.lba
      · exact .inr ⟨hL, by rw [hL]; exact insideRange_eq_none.1 hskip⟩
      · have hk : lbaIndex L ≠ lbaIndex (prepare q io env t).loop.lba := by
          simp only [prepare_lba, lbaIndex]; omega
        exact .inl (by simpa using storePhase_data_of_ne q env _ hk)
  · exact .inl ⟨rfl, rfl⟩

/-- **The data frame of a run.** A `.scram` or `.state` slot that a run changed is the slot
of an LBA from where the run started to where it stopped, in no skip range. -/
theorem run_data_frame (s : Loop) (n : Nat) (L : Int) :
    ((run q io env n s).files.scm (lbaIndex L) = s.files.scm (lbaIndex L) ∧
      (run q io env n s).files.state (lbaIndex L) = s.files.state (lbaIndex L)) ∨
    (s.lba ≤ L ∧ L ≤ (run q io env n s).lba ∧ ¬InRanges L env.skipRanges) := by
  induction n with
  | zero => exact .inl ⟨rfl, rfl⟩
  | succ n ih =>
    have hle := le_step_lba q io env (run q io env n s)
    rw [run_succ]
    rcases step_data_frame q io env (run q io env n s) L with ⟨h1, h2⟩ | ⟨rfl, hr⟩
    · rw [h1, h2]
      exact ih.imp_right fun ⟨a, b, c⟩ => ⟨a, b.trans hle, c⟩
    · exact .inr ⟨le_run_lba q io env s n, hle, hr⟩

/-! ### `.subcode` -/

/-- A pass writes a subcode slot only with a subcode whose Q, if it carries a position,
carries that slot's. -/
theorem step_sub_aligned (t : Loop) (k : Int) :
    (step q io env t).files.sub k = t.files.sub k ∨
      ∀ lbaq, q.position ((step q io env t).files.sub k) = some lbaq → k = lbaIndex lbaq := by
  rcases step_files q io env t with h | h <;> rw [h]
  · exact .inl rfl
  rcases storePhase_sub_eq q env (prepare q io env t) with h' | ⟨st, -, hs, h'⟩ <;> rw [h']
  · exact .inl (by rw [prepare_files])
  by_cases hk : k = lbaIndex (prepare q io env t).loop.lba +
      (subcodeDesync q env (prepare q io env t).loop st.sub).subcodeShift
  · refine .inr fun lbaq hq => ?_
    rw [hk, Function.update_same] at hq
    rw [hk]
    exact subcodeDesync_slot q env _ hs hq
  · exact .inl (by rw [Function.update_noteq hk, prepare_files])

/-- **The subcode stream stays aligned.** A `.subcode` slot that a run changed holds a
subcode whose Q, if it carries a position, carries the slot's own: the desync compensation
puts every sector's subcode where its Q says it belongs. -/
theorem run_sub_aligned (s : Loop) (n : Nat) (k : Int) :
    (run q io env n s).files.sub k = s.files.sub k ∨
      ∀ lbaq, q.position ((run q io env n s).files.sub k) = some lbaq → k = lbaIndex lbaq :=
  run_kept_or q io env (fun t k => t.files.sub k)
    (fun k sub => ∀ lbaq, q.position sub = some lbaq → k = lbaIndex lbaq)
    (step_sub_aligned q io env) s n k

/-! ### `ERROR_SKIP` in `.state` -/

/-- A pass leaves a `.state` slot as it was or without `ERROR_SKIP`. -/
theorem step_state_of_not_hasSkip (t : Loop) (k : Int) :
    (step q io env t).files.state k = t.files.state k ∨
      ¬HasSkip ((step q io env t).files.state k) := by
  rcases step_files q io env t with h | h <;> rw [h]
  · exact .inl rfl
  · simpa using storePhase_state_of_not_hasSkip q env (prepare q io env t)
      (fun _ hs => prepare_store_not_hasSkip q io env t hs) k

/-- **No store leaves `ERROR_SKIP` behind.** From any streams, the lead-in capture and any
number of passes leave each `.state` slot as it was or free of `ERROR_SKIP`. -/
theorem state_kept_or_no_skip (leadin : Bool) (sessionStart : List Int) (pregapStart : Int)
    (files : Files) (n : Nat) (L : Int) :
    (run q io env n (dumpStart q io env leadin sessionStart pregapStart files)).files.state L =
        files.state L ∨
      ¬HasSkip ((run q io env n
        (dumpStart q io env leadin sessionStart pregapStart files)).files.state L) := by
  have h0 : (dumpStart q io env leadin sessionStart pregapStart files).files.state L =
      files.state L ∨
        ¬HasSkip ((dumpStart q io env leadin sessionStart pregapStart files).files.state L) := by
    rw [dumpStart_files]
    split
    · rcases plextorStoreSessionsLeadin_state io.leadin sessionStart pregapStart files L with
        h | ⟨-, h⟩
      · exact .inl h
      · exact .inr (by rw [h]; simp [HasSkip])
    · exact .inl rfl
  rcases run_kept_or q io env (fun t k => t.files.state k) (fun _ st => ¬HasSkip st)
    (step_state_of_not_hasSkip q io env) _ n L with h | h
  · rw [h]; exact h0
  · exact .inr h

end Redumper
