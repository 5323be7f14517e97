import Redumper.Sector

/-!
# The descrambler

`src/scrambler.cc`: the ECMA-130 table (`GenerateTable`), `Process`, which XORs a sector
with it, and the two descramblers. `Descramble` unscrambles and then tests the result: the
header MSF against an expected LBA, or the sync and the mode. `DescrambleDIC`, the
"legacy DIC-style" variant, tests the sync on the scrambled bytes, before `Process`, and
also accepts a mode other than 0, 1 and 2 when the Mode 1 intermediate field is zero.

A buffer of `size` bytes is the list of its bytes. `is_zeroed` and `BCDMSF_to_LBA` are not
in `src/`: `isZeroed` is "all bytes are zero", and the decoding of the header address is a
parameter.

## What is proved

`descrambleDIC_iff_descramble`: on every buffer, `DescrambleDIC` accepts exactly what
`Descramble` without an expected LBA accepts, and the sectors whose sync matches, whose
mode is none of 0, 1, 2 and whose intermediate bytes are zero; both leave the buffer
unscrambled when they accept. It rests on `GenerateTable` leaving the first 12 bytes of
the table zero, so the sync reads the same before and after `Process`.

`descramble_restores_on_failure`: on every buffer of at most one sector, `Descramble`
accepts exactly when the buffer has 16 bytes, is not all zero, and its unscrambled bytes
carry the expected LBA or a sync with mode 1, 2, or 0 and a zero payload; both
descramblers leave the buffer as it was when they reject, since `Process` undoes itself
(`process_process`), and every scrambled sector with a good sync and mode comes back.
-/

namespace Redumper.Scrambler

/-- `CD_DATA_SYNC`: `00 FF×10 00`. -/
def CD_DATA_SYNC : List UInt8 :=
  [0x00, 0xFF, 0xFF, 0xFF, 0xFF, 0xFF, 0xFF, 0xFF, 0xFF, 0xFF, 0xFF, 0x00]

/-- `CD_DATA_SIZE`: the bytes of a sector. -/
def CD_DATA_SIZE : Nat := 2352

/-! ### The table -/

/-- One bit of the register: the feedback of `x¹⁵ + x + 1` enters at bit 15, and the
register shifts right. -/
def shiftRegisterStep (r : UInt16) : UInt16 :=
  let carry : UInt16 := (r &&& (1 : UInt16)) ^^^ ((r >>> (1 : UInt16)) &&& (1 : UInt16))
  ((carry <<< (15 : UInt16)) ||| r) >>> (1 : UInt16)

/-- The table bytes from the register `r` on: each is the low byte of the register, which
then advances by eight bits. -/
def tableFrom : Nat → UInt16 → List UInt8
  | 0, _ => []
  | n + 1, r => r.toUInt8 :: tableFrom n (shiftRegisterStep^[8] r)

/-- `GenerateTable`: 12 zero bytes over the sync, then the register preset to `0x0001`. -/
def generateTable : List UInt8 :=
  List.replicate CD_DATA_SYNC.length 0 ++ tableFrom (CD_DATA_SIZE - CD_DATA_SYNC.length) 1

/-- The first bytes after the sync are those of the ECMA-130 scrambler. -/
example : tableFrom 10 1 = [0x01, 0x80, 0x00, 0x60, 0x00, 0x28, 0x00, 0x1E, 0x80, 0x08] := by
  decide

/-- `Process`: XOR the first `size` bytes with the table. -/
def process (sector : List UInt8) : List UInt8 :=
  List.zipWith (· ^^^ ·) sector generateTable

/-! ### Sector fields -/

/-- `is_zeroed`: every byte is zero. -/
def isZeroed (bytes : List UInt8) : Bool := bytes.all (· == 0)

/-- `header.mode`, byte 15. -/
def mode (sector : List UInt8) : UInt8 := sector.getD 15 0

/-- `offsetof(Sector, mode2.user_data)`. -/
def USER_DATA_OFFSET : Nat := 16

/-- `offsetof(Sector, mode1.intermediate)`. -/
def INTERMEDIATE_OFFSET : Nat := 2068

/-- The bytes at `offset`, at most `count` of them and not past the buffer: the argument
of `is_zeroed(s->field, std::min(size - offset, sizeof(field)))`. -/
def field (sector : List UInt8) (offset count : Nat) : List UInt8 :=
  (sector.drop offset).take (min (sector.length - offset) count)

/-! ### The descramblers -/

/-- `Descramble(sector, lba, size)`: whether the sector was unscrambled, and the bytes it
leaves. `decode` is `BCDMSF_to_LBA` of the header address, bytes 12 to 14. -/
def descramble (decode : UInt8 → UInt8 → UInt8 → Int) (sector : List UInt8)
    (lba : Option Int) : Bool × List UInt8 :=
  if isZeroed sector ∨ sector.length < CD_DATA_SYNC.length + 4 then (false, sector) else
  let d := process sector
  let unscrambled :=
    if lba.isSome ∧ some (decode (d.getD 12 0) (d.getD 13 0) (d.getD 14 0)) = lba then true
    else if d.take CD_DATA_SYNC.length = CD_DATA_SYNC then
      if mode d = 0 then isZeroed (field d USER_DATA_OFFSET 2336)
      else if mode d = 1 ∨ mode d = 2 then true
      else false
    else false
  if unscrambled then (true, d) else (false, process d)

/-- `DescrambleDIC(sector, lba, size)`; the expected LBA is not used. -/
def descrambleDIC (sector : List UInt8) (_lba : Option Int) : Bool × List UInt8 :=
  if sector.length < CD_DATA_SYNC.length + 4 then (false, sector) else
  if sector.take CD_DATA_SYNC.length ≠ CD_DATA_SYNC then (false, sector) else
  let d := process sector
  let unscrambled :=
    if mode d = 0 then isZeroed (field d USER_DATA_OFFSET 2336)
    else if mode d = 1 ∨ mode d = 2 then true
    else if INTERMEDIATE_OFFSET < sector.length then isZeroed (field d INTERMEDIATE_OFFSET 8)
    else false
  if unscrambled then (true, d) else (false, process d)

/-! ### The sync survives `Process` -/

theorem take_generateTable : generateTable.take CD_DATA_SYNC.length = List.replicate 12 0 := by
  simp [generateTable, CD_DATA_SYNC]

theorem length_process (sector : List UInt8) (h : sector.length ≤ generateTable.length) :
    (process sector).length = sector.length := by
  simp [process, h]

private theorem zipWith_xor_zeros :
    ∀ (s : List UInt8) (k : Nat), s.length ≤ k → List.zipWith (· ^^^ ·) s (List.replicate k 0) = s
  | [], _, _ => rfl
  | a :: s, k + 1, h => by
    have hx : a ^^^ 0 = a := UInt8.eq_of_toBitVec_eq (BitVec.xor_zero (x := a.toBitVec))
    simp only [List.replicate_succ, List.zipWith_cons_cons, hx]
    rw [zipWith_xor_zeros s k (by simp at h; omega)]
  | _ :: _, 0, h => by simp at h

/-- The table is zero under the sync, so `Process` leaves the first 12 bytes alone. -/
theorem take_process (sector : List UInt8) :
    (process sector).take CD_DATA_SYNC.length = sector.take CD_DATA_SYNC.length := by
  rw [process, List.take_zipWith, take_generateTable]
  exact zipWith_xor_zeros _ 12 (by simp [CD_DATA_SYNC])

/-- A buffer that starts with the sync is not zeroed: `Descramble`'s first exit never
rejects what `DescrambleDIC`'s sync test lets through. -/
theorem isZeroed_of_take_sync {sector : List UInt8}
    (h : sector.take CD_DATA_SYNC.length = CD_DATA_SYNC) : isZeroed sector = false := by
  have hz : isZeroed CD_DATA_SYNC = false := by decide
  rw [← h] at hz
  simp only [isZeroed, List.all_eq_false, List.all_eq_true] at hz ⊢
  obtain ⟨x, hx, hne⟩ := hz
  exact ⟨x, List.mem_of_mem_take hx, hne⟩

/-! ### `Process` undoes itself -/

theorem xor_xor_cancel (a b : UInt8) : (a ^^^ b) ^^^ b = a :=
  UInt8.eq_of_toBitVec_eq (show (a.toBitVec ^^^ b.toBitVec) ^^^ b.toBitVec = a.toBitVec by
    rw [BitVec.xor_assoc, BitVec.xor_self, BitVec.xor_zero])

theorem length_tableFrom : ∀ (n : Nat) (r : UInt16), (tableFrom n r).length = n
  | 0, _ => rfl
  | n + 1, r => by rw [tableFrom, List.length_cons, length_tableFrom n]

theorem length_generateTable : generateTable.length = CD_DATA_SIZE := by
  simp [generateTable, length_tableFrom, CD_DATA_SYNC, CD_DATA_SIZE]

theorem zipWith_xor_xor : ∀ (s t : List UInt8), s.length ≤ t.length →
    List.zipWith (· ^^^ ·) (List.zipWith (· ^^^ ·) s t) t = s
  | [], _, _ => rfl
  | a :: s, b :: t, h => by
    simp only [List.zipWith_cons_cons, xor_xor_cancel, zipWith_xor_xor s t (by simp at h; omega)]
  | _ :: _, [], h => by simp at h

/-- `Process` is its own inverse on a buffer of at most `CD_DATA_SIZE` bytes: XOR with the
table twice. -/
theorem process_process {sector : List UInt8} (h : sector.length ≤ CD_DATA_SIZE) :
    process (process sector) = sector :=
  zipWith_xor_xor _ _ (length_generateTable ▸ h)

theorem length_process_le {sector : List UInt8} (h : sector.length ≤ CD_DATA_SIZE) :
    (process sector).length ≤ CD_DATA_SIZE := by
  rw [length_process _ (length_generateTable ▸ h)]
  exact h

/-! ### `DescrambleDIC` against `Descramble` -/

/-- Both descramblers end in the same test: the flag is what they return, and the buffer
is unscrambled exactly when it is set. -/
theorem accept_eq {α : Type} (b : Bool) (x y : α) :
    (if b = true then (true, x) else (false, y)) = (b, if b = true then x else y) := by
  cases b <;> rfl

theorem descrambleDIC_iff_descramble (decode : UInt8 → UInt8 → UInt8 → Int)
    (sector : List UInt8) (lba : Option Int) :
    ((descrambleDIC sector lba).1 = true ↔
      (descramble decode sector none).1 = true ∨
        (CD_DATA_SYNC.length + 4 ≤ sector.length ∧
          (process sector).take CD_DATA_SYNC.length = CD_DATA_SYNC ∧
          mode (process sector) ≠ 0 ∧ mode (process sector) ≠ 1 ∧ mode (process sector) ≠ 2 ∧
          INTERMEDIATE_OFFSET < sector.length ∧
          isZeroed (field (process sector) INTERMEDIATE_OFFSET 8) = true)) ∧
    ((descrambleDIC sector lba).1 = true → (descramble decode sector none).1 = true →
      (descrambleDIC sector lba).2 = process sector ∧
        (descramble decode sector none).2 = process sector) := by
  rw [take_process]
  by_cases hlen : sector.length < CD_DATA_SYNC.length + 4
  · simp [descrambleDIC, descramble, hlen]
  by_cases hs : sector.take CD_DATA_SYNC.length = CD_DATA_SYNC
  · simp only [descrambleDIC, descramble, hlen, hs, take_process, isZeroed_of_take_sync hs, ne_eq,
      not_true_eq_false, false_or, or_false, if_false, if_true, Option.isSome_none,
      Bool.false_eq_true, false_and, true_and, le_of_not_lt hlen, accept_eq]
    split_ifs <;> simp_all
  · simp [descrambleDIC, descramble, hlen, hs, take_process, accept_eq, apply_ite Prod.fst]

/-! ### What `Descramble` accepts -/

/-- Within a sector the payload tested for a Mode 0 sector is everything after byte 15. -/
theorem field_user {d : List UInt8} (h : d.length ≤ CD_DATA_SIZE) :
    field d USER_DATA_OFFSET 2336 = d.drop 16 := by
  unfold field USER_DATA_OFFSET
  rw [List.take_of_length_le]
  simp only [List.length_drop]
  unfold CD_DATA_SIZE at h
  omega

/-- The acceptance test of `Descramble`, read as a proposition. -/
theorem unscrambled_iff (lba : Option Int) (x : Int) (sync : Prop) [Decidable sync] (m : UInt8)
    (z : Bool) :
    (if lba.isSome = true ∧ some x = lba then true
      else if sync then (if m = 0 then z else if m = 1 ∨ m = 2 then true else false)
      else false) = true ↔
    lba = some x ∨ sync ∧ (m = 1 ∨ m = 2 ∨ m = 0 ∧ z = true) := by
  rcases lba with _ | l
  · by_cases hs : sync <;> by_cases h0 : m = 0 <;> simp [hs, h0]
  · by_cases hl : x = l
    · simp [hl]
    · by_cases hs : sync <;> by_cases h0 : m = 0 <;> simp [hs, h0, hl, Ne.symm hl]

/-- `Descramble` accepts a buffer of at least 16 bytes, not all zero, whose unscrambled
header gives the expected LBA, or whose unscrambled bytes start with the sync and have mode
1 or 2, or mode 0 and a zero payload; it leaves the unscrambled buffer when it accepts and
the buffer it was given when it does not. -/
theorem descramble_spec (decode : UInt8 → UInt8 → UInt8 → Int) (sector : List UInt8)
    (lba : Option Int) (hn : sector.length ≤ CD_DATA_SIZE) :
    ((descramble decode sector lba).1 = true ↔
      16 ≤ sector.length ∧ isZeroed sector = false ∧
        (lba = some (decode ((process sector).getD 12 0) ((process sector).getD 13 0)
            ((process sector).getD 14 0)) ∨
          (process sector).take CD_DATA_SYNC.length = CD_DATA_SYNC ∧
            (mode (process sector) = 1 ∨ mode (process sector) = 2 ∨
              mode (process sector) = 0 ∧ isZeroed ((process sector).drop 16) = true))) ∧
    (descramble decode sector lba).2 =
      (if (descramble decode sector lba).1 then process sector else sector) := by
  by_cases hz : isZeroed sector = true ∨ sector.length < CD_DATA_SYNC.length + 4
  · simp only [descramble, if_pos hz, Bool.false_eq_true, if_false, false_iff, and_true]
    simp only [CD_DATA_SYNC, List.length_cons, List.length_nil] at hz
    rintro ⟨h1, h2, -⟩
    rcases hz with hz | hz
    · simp_all
    · omega
  · simp only [descramble, if_neg hz, accept_eq, process_process hn, field_user (length_process_le hn)]
    simp only [CD_DATA_SYNC, List.length_cons, List.length_nil, not_or, Bool.not_eq_true] at hz
    refine ⟨?_, trivial⟩
    simp only [hz.1, true_and, show 16 ≤ sector.length by omega]
    generalize mode (process sector) = m
    generalize decode _ _ _ = x
    exact unscrambled_iff lba x _ m _

/-- `DescrambleDIC` too leaves the buffer it was given when it does not accept. -/
theorem descrambleDIC_restores (sector : List UInt8) (lba : Option Int)
    (hn : sector.length ≤ CD_DATA_SIZE) :
    (descrambleDIC sector lba).2 = (if (descrambleDIC sector lba).1 then process sector else sector) := by
  unfold descrambleDIC
  by_cases h1 : sector.length < CD_DATA_SYNC.length + 4
  · simp only [if_pos h1, Bool.false_eq_true, if_false]
  by_cases h2 : sector.take CD_DATA_SYNC.length ≠ CD_DATA_SYNC
  · simp only [if_neg h1, if_pos h2, Bool.false_eq_true, if_false]
  · simp only [if_neg h1, if_neg h2, accept_eq, process_process hn, ite_self]

/-- A sector that starts with the sync and has mode 1 or 2, or mode 0 and a zero payload, is
accepted once scrambled, and comes back as it was. -/
theorem descramble_process (decode : UInt8 → UInt8 → UInt8 → Int) (lba : Option Int)
    {s : List UInt8} (h16 : 16 ≤ s.length) (hn : s.length ≤ CD_DATA_SIZE)
    (hsync : s.take CD_DATA_SYNC.length = CD_DATA_SYNC)
    (hmode : mode s = 1 ∨ mode s = 2 ∨ mode s = 0 ∧ isZeroed (s.drop 16) = true) :
    descramble decode (process s) lba = (true, s) := by
  have hlen : (process s).length = s.length := length_process _ (length_generateTable ▸ hn)
  obtain ⟨hacc, hbuf⟩ := descramble_spec decode (process s) lba (hlen ▸ hn)
  rw [process_process hn] at hacc hbuf
  have h1 : (descramble decode (process s) lba).1 = true :=
    hacc.2 ⟨hlen ▸ h16, isZeroed_of_take_sync (by rw [take_process, hsync]), .inr ⟨hsync, hmode⟩⟩
  exact Prod.ext h1 (by rw [hbuf, h1, if_pos rfl])

/-- What `Descramble` accepts and what both descramblers leave behind, for a buffer of at
most one sector: a rejected buffer comes back byte for byte, because `Process` undoes itself,
and a scrambled sector with a good sync and mode comes back unscrambled. -/
theorem descramble_restores_on_failure (decode : UInt8 → UInt8 → UInt8 → Int)
    (b : List UInt8) (lba : Option Int) (hn : b.length ≤ CD_DATA_SIZE) :
    ((descramble decode b lba).1 = true ↔
      16 ≤ b.length ∧ isZeroed b = false ∧
        (lba = some (decode ((process b).getD 12 0) ((process b).getD 13 0)
            ((process b).getD 14 0)) ∨
          (process b).take CD_DATA_SYNC.length = CD_DATA_SYNC ∧
            (mode (process b) = 1 ∨ mode (process b) = 2 ∨
              mode (process b) = 0 ∧ isZeroed ((process b).drop 16) = true))) ∧
    (descramble decode b lba).2 = (if (descramble decode b lba).1 then process b else b) ∧
    (descrambleDIC b lba).2 = (if (descrambleDIC b lba).1 then process b else b) ∧
    ∀ s : List UInt8, 16 ≤ s.length → s.length ≤ CD_DATA_SIZE →
      s.take CD_DATA_SYNC.length = CD_DATA_SYNC →
      (mode s = 1 ∨ mode s = 2 ∨ mode s = 0 ∧ isZeroed (s.drop 16) = true) →
      descramble decode (process s) lba = (true, s) :=
  ⟨(descramble_spec decode b lba hn).1, (descramble_spec decode b lba hn).2,
    descrambleDIC_restores b lba hn, fun _ h16 hs hsync hmode =>
      descramble_process decode lba h16 hs hsync hmode⟩

/-- The sync followed by a Mode 1 header, scrambled, is recognised without an expected LBA. -/
theorem descramble_mode1_header : ∃ s : List UInt8, s.length = 16 ∧
    descramble (fun _ _ _ => 0) (process s) none = (true, s) :=
  ⟨CD_DATA_SYNC ++ [0, 0, 0, 1], by decide,
    (descramble_restores_on_failure (fun _ _ _ => 0) [] none (by decide)).2.2.2 _ (by decide)
      (by decide) (by decide) (.inl (by decide))⟩

end Redumper.Scrambler
