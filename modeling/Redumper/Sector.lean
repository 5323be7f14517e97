import Mathlib.Data.Fintype.Basic
import Mathlib.Tactic.DeriveFintype
import Mathlib.Data.Nat.Bitwise
import Mathlib.Algebra.Order.BigOperators.Group.List
import Mathlib.Order.Basic
import Mathlib.Algebra.Order.Ring.Nat

/-!
# Sectors, samples and their states

The data model of the dump engine (`src/redumper.cc`): the planes of a raw sector, the
per-sample `State` and its order, the C2 error pointers and what `state_from_c2` makes of
them, the skip and error ranges, and the little of channel Q the engine reads.

A sector's 2352 data bytes are kept as its 588 samples of 4 bytes (`Words`), which is how
the refine merge reads and writes them (`((uint32_t *)sector_data.data())[i]`), the C2 plane
as its 294 bytes and the subcode as its 96 bytes.

`inside_range`, `bits_count`, `subcode_extract_channel`, `ChannelQ::Valid` and
`BCDMSF_to_LBA` are not in `src/`. `insideRange` and `bitsCount` are modelled from the spec.
The reading of channel Q is a parameter, `QDecoder`: every result about the engine holds
whatever the deinterleaving and the CRC compute.
-/

namespace Redumper

/-! ### Sizes -/

/-- `CD_DATA_SIZE_SAMPLES`: the samples of 4 bytes in a sector's 2352 data bytes. -/
abbrev CD_DATA_SIZE_SAMPLES : Nat := 588

/-- `CD_C2_SIZE`: one C2 bit per data byte. -/
abbrev CD_C2_SIZE : Nat := 294

/-- `CD_SUBCODE_SIZE`: eight interleaved 12-byte channels. -/
abbrev CD_SUBCODE_SIZE : Nat := 96

/-- `LBA_START`: the LBA of slot `0` of every stream (MSF 90:00:00). -/
def LBA_START : Int := -45150

/-- `MSF_LBA_SHIFT`: the LBA of MSF 00:00:00. -/
def MSF_LBA_SHIFT : Int := -150

/-- `lba - LBA_START`: the slot of an LBA in every stream. -/
def lbaIndex (lba : Int) : Int := lba - LBA_START

/-- A signed 32-bit value converted to `uint32_t`. -/
def uint32 (x : Int) : Nat := (x % 4294967296).toNat

/-! ### Sample states -/

/-- `enum class State`, lowest first. `ERROR_SKIP` is `0`, so that a byte the `.state`
file does not have, past its end or in a hole, reads as `ERROR_SKIP`. -/
inductive State where
  /-- `ERROR_SKIP`: never read successfully. -/
  | errorSkip
  /-- `ERROR_C2`: read with C2 bits on the sample. -/
  | errorC2
  /-- `SUCCESS_C2_OFF`: good data of uncertain provenance (Plextor lead-in). -/
  | successC2Off
  /-- `SUCCESS_SCSI_OFF`: good data without C2 (LG/ASUS cache). -/
  | successScsiOff
  /-- `SUCCESS`. -/
  | success
  deriving DecidableEq, Repr, Fintype

/-- The value of a state in the enumeration. -/
def State.toNat : State → Nat
  | .errorSkip => 0
  | .errorC2 => 1
  | .successC2Off => 2
  | .successScsiOff => 3
  | .success => 4

theorem State.toNat_injective : Function.Injective State.toNat := by
  intro a b h
  cases a <;> cases b <;> first | rfl | cases h

/-- States compare as their values, as the C++ `<` and `>` on the enumeration do. -/
instance : LinearOrder State := LinearOrder.lift' State.toNat State.toNat_injective

theorem State.errorSkip_le (s : State) : State.errorSkip ≤ s := by
  cases s <;> decide

theorem State.le_errorSkip {s : State} : s ≤ .errorSkip ↔ s = .errorSkip := by
  cases s <;> decide

theorem State.le_errorC2 {s : State} : s ≤ .errorC2 ↔ s = .errorSkip ∨ s = .errorC2 := by
  cases s <;> decide

/-! ### Sector planes -/

/-- A sector's data: 588 samples, each a 32-bit word. -/
abbrev Words := Fin CD_DATA_SIZE_SAMPLES → UInt32

/-- The states of a sector's 588 samples: one `.state` slot. -/
abbrev States := Fin CD_DATA_SIZE_SAMPLES → State

/-- A sector's C2 error pointers: one bit per data byte. -/
abbrev C2 := Fin CD_C2_SIZE → UInt8

/-- A sector's 96 subcode bytes. -/
abbrev Subcode := Fin CD_SUBCODE_SIZE → UInt8

/-- A raw sector as `read_sector` and the LG/ASUS cache give it: data, C2, subcode. -/
structure Sector where
  /-- `[0, 2352)`. -/
  data : Words
  /-- `[2352, 2646)`. -/
  c2 : C2
  /-- `[2646, 2742)`. -/
  sub : Subcode

/-- The three LBA-indexed streams, slot by slot: `.scram` (each slot 588 samples, at byte
shift `read_offset * 4`), `.subcode` (no shift) and `.state` (at shift `read_offset`). Every
access to a stream uses the same shift and slot size, so its slots are disjoint and the
stream is a function of the slot index. A slot never written reads as zeros: all
`ERROR_SKIP` in `.state`. -/
structure Files where
  /-- `.scram`. -/
  scm : Int → Words
  /-- `.subcode`. -/
  sub : Int → Subcode
  /-- `.state`. -/
  state : Int → States

/-- `write_entry` of a `.scram` slot. -/
def Files.writeScm (f : Files) (idx : Int) (data : Words) : Files :=
  { f with scm := Function.update f.scm idx data }

/-- `write_entry` of a `.subcode` slot. -/
def Files.writeSub (f : Files) (idx : Int) (sub : Subcode) : Files :=
  { f with sub := Function.update f.sub idx sub }

/-- `write_entry` of a `.state` slot. -/
def Files.writeState (f : Files) (idx : Int) (st : States) : Files :=
  { f with state := Function.update f.state idx st }

/-- What the three streams hold at one slot index. -/
def Files.slot (f : Files) (idx : Int) : Words × Subcode × States := (f.scm idx, f.sub idx, f.state idx)

section Files

variable (f : Files) (idx : Int)

@[simp] theorem Files.writeScm_scm (d : Words) : (f.writeScm idx d).scm = Function.update f.scm idx d := rfl
@[simp] theorem Files.writeScm_sub (d : Words) : (f.writeScm idx d).sub = f.sub := rfl
@[simp] theorem Files.writeScm_state (d : Words) : (f.writeScm idx d).state = f.state := rfl
@[simp] theorem Files.writeSub_scm (u : Subcode) : (f.writeSub idx u).scm = f.scm := rfl
@[simp] theorem Files.writeSub_sub (u : Subcode) :
    (f.writeSub idx u).sub = Function.update f.sub idx u := rfl
@[simp] theorem Files.writeSub_state (u : Subcode) : (f.writeSub idx u).state = f.state := rfl
@[simp] theorem Files.writeState_scm (st : States) : (f.writeState idx st).scm = f.scm := rfl
@[simp] theorem Files.writeState_sub (st : States) : (f.writeState idx st).sub = f.sub := rfl
@[simp] theorem Files.writeState_state (st : States) :
    (f.writeState idx st).state = Function.update f.state idx st := rfl

end Files

/-! ### Tests over the samples of a slot -/

/-- Whether some index below `k` passes the test, looking from `k - 1` down. The engine's
loops over a slot compute such existence tests; this form is structural, so that a proof
that meets one on an unknown slot is not made to unfold a finite enumeration. -/
def anyBelow {n : Nat} (f : Fin n → Bool) : (k : Nat) → k ≤ n → Bool
  | 0, _ => false
  | k + 1, h => f ⟨k, h⟩ || anyBelow f k (Nat.le_of_succ_le h)

/-- Whether some index passes the test. -/
def anyFin (n : Nat) (f : Fin n → Bool) : Bool := anyBelow f n le_rfl

theorem anyBelow_eq_true {n : Nat} {f : Fin n → Bool} :
    ∀ (k : Nat) (h : k ≤ n), anyBelow f k h = true ↔ ∃ i : Fin n, i.val < k ∧ f i = true
  | 0, _ => by simp [anyBelow]
  | k + 1, h => by
    rw [anyBelow, Bool.or_eq_true, anyBelow_eq_true k]
    constructor
    · rintro (hk | ⟨i, hi, hf⟩)
      · exact ⟨_, Nat.lt_succ_self k, hk⟩
      · exact ⟨i, by omega, hf⟩
    · rintro ⟨i, hi, hf⟩
      rcases Nat.lt_succ_iff_lt_or_eq.mp hi with hi | hi
      · exact .inr ⟨i, hi, hf⟩
      · exact .inl (by rwa [show (⟨k, h⟩ : Fin n) = i from Fin.ext hi.symm])

theorem anyFin_eq_true {n : Nat} {f : Fin n → Bool} : anyFin n f = true ↔ ∃ i, f i = true := by
  rw [anyFin, anyBelow_eq_true]
  exact ⟨fun ⟨i, _, h⟩ => ⟨i, h⟩, fun ⟨i, h⟩ => ⟨i, i.isLt, h⟩⟩

/-- The sum of a value over the indices below `k`, structural as `anyBelow`. -/
def sumBelow {n : Nat} (f : Fin n → Nat) : (k : Nat) → k ≤ n → Nat
  | 0, _ => 0
  | k + 1, h => f ⟨k, h⟩ + sumBelow f k (Nat.le_of_succ_le h)

/-- The sum of a value over all indices. -/
def sumFin (n : Nat) (f : Fin n → Nat) : Nat := sumBelow f n le_rfl

theorem sumBelow_eq_zero {n : Nat} {f : Fin n → Nat} :
    ∀ (k : Nat) (h : k ≤ n), sumBelow f k h = 0 ↔ ∀ i : Fin n, i.val < k → f i = 0
  | 0, _ => by simp [sumBelow]
  | k + 1, h => by
    rw [sumBelow, Nat.add_eq_zero_iff, sumBelow_eq_zero k]
    constructor
    · rintro ⟨hk, hf⟩ i hi
      rcases Nat.lt_succ_iff_lt_or_eq.mp hi with hi | hi
      · exact hf i hi
      · rwa [show i = ⟨k, h⟩ from Fin.ext hi]
    · intro hf
      exact ⟨hf _ (Nat.lt_succ_self k), fun i hi => hf i (by omega)⟩

theorem sumFin_eq_zero {n : Nat} {f : Fin n → Nat} : sumFin n f = 0 ↔ ∀ i, f i = 0 := by
  rw [sumFin, sumBelow_eq_zero]
  exact ⟨fun h i => h i i.isLt, fun h i _ => h i⟩

/-- `p` holds of some sample of a slot, decided by `anyFin`. -/
def decSample {α : Type} (st : Fin CD_DATA_SIZE_SAMPLES → α) (p : α → Prop) [DecidablePred p] :
    Decidable (∃ i, p (st i)) :=
  decidable_of_iff (anyFin _ fun i => decide (p (st i))) (by simp [anyFin_eq_true])

/-- Some sample of the slot is `ERROR_SKIP`. -/
def HasSkip (st : States) : Prop := ∃ i, st i = .errorSkip

/-- Some sample of the slot is `ERROR_C2`. -/
def HasC2 (st : States) : Prop := ∃ i, st i = .errorC2

/-- Some sample of the slot is below `s`. -/
def HasBelow (st : States) (s : State) : Prop := ∃ i, st i < s

/-- Some sample of `new` is better than the same sample of `file`. -/
def Improves (new file : States) : Prop := ∃ i, file i < new i

instance (st : States) : Decidable (HasSkip st) := decSample st (· = .errorSkip)

instance (st : States) : Decidable (HasC2 st) := decSample st (· = .errorC2)

instance (st : States) (s : State) : Decidable (HasBelow st s) := decSample st (· < s)

instance (new file : States) : Decidable (Improves new file) :=
  decSample (fun i => (new i, file i)) fun p => p.2 < p.1

/-! ### C2 -/

/-- The set bits among the `k` lowest bits of `n`. -/
def popcount : Nat → Nat → Nat
  | 0, _ => 0
  | k + 1, n => n % 2 + popcount k (n / 2)

theorem popcount_eq_zero : ∀ (k n : Nat), popcount k n = 0 ↔ n % 2 ^ k = 0
  | 0, n => by simp [popcount, Nat.mod_one]
  | k + 1, n => by
    rw [popcount, Nat.add_eq_zero_iff, popcount_eq_zero k, Nat.pow_succ', Nat.mod_mul]
    omega

/-- `bits_count`: the number of set bits of a byte (modelled from the spec: "popcount"). -/
def bitsCount (x : UInt8) : Nat := popcount 8 x.toNat

theorem bitsCount_eq_zero {x : UInt8} : bitsCount x = 0 ↔ x = 0 := by
  rw [bitsCount, popcount_eq_zero, Nat.mod_eq_of_lt (show x.toNat < 2 ^ 8 from x.val.isLt)]
  exact ⟨fun h => UInt8.eq_of_val_eq (Fin.ext h), fun h => h ▸ rfl⟩

/-- The four C2 bits of sample `i`: the high nibble of `c2[i / 2]` for an even sample, the
low nibble for an odd one. -/
def c2Quad (c2 : C2) (i : Fin CD_DATA_SIZE_SAMPLES) : UInt8 :=
  let q := c2 ⟨i.val / 2, by have h := i.isLt; dsimp only [CD_DATA_SIZE_SAMPLES, CD_C2_SIZE] at h ⊢; omega⟩
  if i.val % 2 = 1 then q &&& 0x0F else q >>> 4

/-- `state_from_c2`: every sample with a C2 bit becomes `ERROR_C2`; the count is the number
of C2 bits (a nibble of `0` adds `bits_count 0 = 0`). -/
def stateFromC2 (state : States) (c2 : C2) : States × Nat :=
  (fun i => if c2Quad c2 i ≠ 0 then .errorC2 else state i,
   sumFin CD_DATA_SIZE_SAMPLES fun i => bitsCount (c2Quad c2 i))

theorem stateFromC2_count_eq_zero {state : States} {c2 : C2} :
    (stateFromC2 state c2).2 = 0 ↔ ∀ i, c2Quad c2 i = 0 := by
  simp only [stateFromC2, sumFin_eq_zero, bitsCount_eq_zero]

/-- `state_from_c2` only lowers samples to `ERROR_C2`. -/
theorem stateFromC2_states (state : States) (c2 : C2) (i : Fin CD_DATA_SIZE_SAMPLES) :
    (stateFromC2 state c2).1 i = .errorC2 ∨ (stateFromC2 state c2).1 i = state i := by
  simp only [stateFromC2]
  split <;> simp

/-- A slot filled with a success state and then passed to `state_from_c2` has no
`ERROR_SKIP`: a fresh sector never carries one. -/
theorem not_hasSkip_stateFromC2 {s : State} (hs : s ≠ .errorSkip) (c2 : C2) :
    ¬HasSkip (stateFromC2 (fun _ => s) c2).1 := by
  rintro ⟨i, hi⟩
  rcases stateFromC2_states (fun _ => s) c2 i with h | h <;> rw [h] at hi
  · cases hi
  · exact hs hi

/-! ### Ranges -/

/-- `inside_range`: the first range `[first, second)` holding the LBA (modelled from the
spec: "half-open LBA intervals"). -/
def insideRange (lba : Int) (ranges : List (Int × Int)) : Option (Int × Int) :=
  ranges.find? fun r => decide (r.1 ≤ lba ∧ lba < r.2)

/-- The LBA lies in one of the ranges. -/
def InRanges (lba : Int) (ranges : List (Int × Int)) : Prop := ∃ r ∈ ranges, r.1 ≤ lba ∧ lba < r.2

theorem insideRange_some {lba : Int} {ranges : List (Int × Int)} {r : Int × Int}
    (h : insideRange lba ranges = some r) : r ∈ ranges ∧ r.1 ≤ lba ∧ lba < r.2 := by
  have hr := List.find?_some h
  simp only [decide_eq_true_eq] at hr
  exact ⟨List.mem_of_find?_eq_some h, hr⟩

theorem insideRange_eq_none {lba : Int} {ranges : List (Int × Int)} :
    insideRange lba ranges = none ↔ ¬InRanges lba ranges := by
  simp [insideRange, InRanges, List.find?_eq_none]

theorem insideRange_isSome {lba : Int} {ranges : List (Int × Int)} :
    (insideRange lba ranges).isSome ↔ InRanges lba ranges := by
  rw [← not_iff_not, Option.not_isSome_iff_eq_none, insideRange_eq_none]

/-! ### Channel Q -/

/-- What the engine reads of a subcode slot through `subcode_extract_channel` and
`ChannelQ`: the CRC verdict `Q.Valid()`, `Q.control_adr`, `Q.mode1.tno` and
`BCDMSF_to_LBA(Q.mode1.a_msf)`. -/
structure QDecoder where
  /-- `Q.Valid()`. -/
  valid : Subcode → Bool
  /-- `Q.control_adr`. -/
  controlAdr : Subcode → UInt8
  /-- `Q.mode1.tno`. -/
  tno : Subcode → UInt8
  /-- `BCDMSF_to_LBA(Q.mode1.a_msf)`. -/
  aLba : Subcode → Int

/-- The absolute position a subcode carries: its Q is valid, of `adr` 1 with a track
number, as both the desync detection and the lead-in anchor search test it. -/
def QDecoder.position (q : QDecoder) (sub : Subcode) : Option Int :=
  if q.valid sub ∧ q.controlAdr sub &&& 0x0F = 1 ∧ q.tno sub ≠ 0 then some (q.aLba sub) else none

theorem QDecoder.valid_of_position {q : QDecoder} {sub : Subcode} {p : Int}
    (h : q.position sub = some p) : q.valid sub = true := by
  unfold QDecoder.position at h
  split at h
  · exact ‹_ ∧ _›.1
  · cases h

end Redumper
