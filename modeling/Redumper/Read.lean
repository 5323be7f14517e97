import Redumper.Sector

/-!
# Reading a sector

`read_sector` (`src/redumper.cc`): the drive is asked for enough consecutive entries to
undo the Plextor C2 delay, and the data, C2 and subcode planes are spliced into one raw
sector of `CD_RAW_DATA_SIZE` bytes. Then `state_from_c2`, which turns the C2 plane into
per-sample states, and `debug_print_c2_scm_offsets`, which prints the flagged byte offsets.

A heap buffer is its size and its bytes (`Buffer`); `memcpy` and `memset` return `none`
when a byte they touch lies outside the buffer, the access being undefined behaviour. The
drive command (`cmd_read_cd` or `cmd_read_cdda`) and `sector_order_layout` are not in
`src/`: the command is a parameter, which gives the status and the bytes it leaves in the
buffer, and the layout is any `SectorLayout`. Sizes are computed as the code does, in
`uint32_t`.

## What is proved

* `stateFromC2_marks_flagged`: `state_from_c2` marks exactly the samples with a flagged
  byte, under the bit order of `debug_print_c2_scm_offsets`, and counts every set bit of the
  plane once.
* `sectorsCount_spec`: `sectors_count` is the least count of entries whose C2 planes
  contain the 294 bytes from `c2_shift`.
* `readSector_splices`: while `CD_RAW_DATA_SIZE * sectors_count` fits in 32 bits, every
  copy stays in its buffers and a successful read leaves data, shifted C2 and subcode
  where the spec says (`splicedSector`).
* `readSector_out_of_bounds`: past that bound the buffer sizes wrap, and the copies read
  or write outside them.
-/

namespace Redumper

/-! ### Sizes -/

/-- `CD_DATA_SIZE`: the data bytes of a sector. -/
abbrev CD_DATA_SIZE : Nat := 2352

/-- `CD_RAW_DATA_SIZE`: data, C2 and subcode. -/
abbrev CD_RAW_DATA_SIZE : Nat := 2742

/-! ### Buffers -/

/-- A heap buffer, a `std::vector<uint8_t>` or the caller's `uint8_t *`: its size and its
bytes. -/
structure Buffer where
  size : Nat
  byte : Nat → UInt8

/-- `std::vector<uint8_t>(n)`: `n` zero bytes. -/
def Buffer.zeros (n : Nat) : Buffer := ⟨n, fun _ => 0⟩

/-- `memcpy(dst + d, src + s, n)`, or `none` when a byte it reads or writes lies outside its
buffer. -/
def memcpy (dst : Buffer) (d : Nat) (src : Buffer) (s n : Nat) : Option Buffer :=
  if d + n ≤ dst.size ∧ s + n ≤ src.size then
    some ⟨dst.size, fun k => if d ≤ k ∧ k < d + n then src.byte (s + (k - d)) else dst.byte k⟩
  else none

/-- `memset(dst, v, n)`, or `none` past the buffer. -/
def memset (dst : Buffer) (v : UInt8) (n : Nat) : Option Buffer :=
  if n ≤ dst.size then some ⟨dst.size, fun k => if k < n then v else dst.byte k⟩ else none

theorem memcpy_eq {dst src : Buffer} {d s n : Nat} (hd : d + n ≤ dst.size) (hs : s + n ≤ src.size) :
    memcpy dst d src s n =
      some ⟨dst.size, fun k => if d ≤ k ∧ k < d + n then src.byte (s + (k - d)) else dst.byte k⟩ :=
  if_pos ⟨hd, hs⟩

theorem memset_eq {dst : Buffer} {v : UInt8} {n : Nat} (h : n ≤ dst.size) :
    memset dst v n = some ⟨dst.size, fun k => if k < n then v else dst.byte k⟩ :=
  if_pos h

/-! ### The drive's transfer -/

/-- `sector_order_layout(drive_config.sector_order)` (not in `src/`): the offset of each
plane in one entry of the transfer, and the size of an entry; a plane the order lacks sits
at `CD_RAW_DATA_SIZE`. -/
structure SectorLayout where
  dataOffset : Nat
  c2Offset : Nat
  subcodeOffset : Nat
  size : Nat

/-- Every plane the layout has fits in one entry, and an entry is at most a raw sector. -/
structure SectorLayout.Fits (l : SectorLayout) : Prop where
  size_le : l.size ≤ CD_RAW_DATA_SIZE
  data : l.dataOffset ≠ CD_RAW_DATA_SIZE → l.dataOffset + CD_DATA_SIZE ≤ l.size
  c2 : l.c2Offset ≠ CD_RAW_DATA_SIZE → l.c2Offset + CD_C2_SIZE ≤ l.size
  subcode : l.subcodeOffset ≠ CD_RAW_DATA_SIZE → l.subcodeOffset + CD_SUBCODE_SIZE ≤ l.size

/-- `cmd_read_cdda` or `cmd_read_cd`, as `read_method` picks (not in `src/`): for a start LBA
and a count of entries, the status and the bytes the drive leaves in the buffer. -/
abbrev Transfer := Int → Nat → Nat × (Nat → UInt8)

/-- `sectors_count`: `c2_shift / CD_C2_SIZE + (c2_shift % CD_C2_SIZE ? 1 : 0) + 1`. It stays
far below `2^32`, so the `uint32_t` sum does not wrap. -/
def sectorsCount (c2Shift : UInt32) : Nat :=
  c2Shift.toNat / CD_C2_SIZE + (if c2Shift.toNat % CD_C2_SIZE ≠ 0 then 1 else 0) + 1

/-- `sectors_count` is the least number of entries whose C2 planes, laid end to end, hold
the 294 bytes from `c2_shift`, and it fits in `uint32_t`. -/
theorem sectorsCount_spec (c2Shift : UInt32) :
    c2Shift.toNat + CD_C2_SIZE ≤ CD_C2_SIZE * sectorsCount c2Shift ∧
    (∀ n, c2Shift.toNat + CD_C2_SIZE ≤ CD_C2_SIZE * n → sectorsCount c2Shift ≤ n) ∧
    sectorsCount c2Shift < 2 ^ 32 := by
  have : c2Shift.toNat < 2 ^ 32 := c2Shift.val.isLt
  unfold sectorsCount
  dsimp only [CD_C2_SIZE] at *
  split_ifs <;> exact ⟨by omega, fun n hn => by omega, by omega⟩

/-- The C2 loop from iteration `i`, with `k` iterations left: `memcpy(c2_buffer.data() +
CD_C2_SIZE * i, sector_buffer.data() + layout.size * i + layout.c2_offset, CD_C2_SIZE)`, the
products in `uint32_t`. -/
def copyC2 (layout : SectorLayout) (sectorBuffer : Buffer) : Nat → Nat → Buffer → Option Buffer
  | 0, _, c2Buffer => some c2Buffer
  | k + 1, i, c2Buffer =>
    (memcpy c2Buffer (CD_C2_SIZE * i % 2 ^ 32) sectorBuffer
      (layout.size * i % 2 ^ 32 + layout.c2Offset) CD_C2_SIZE).bind
      (copyC2 layout sectorBuffer k (i + 1))

/-- `// copy data`. -/
def copyData (layout : SectorLayout) (sectorBuffer sector : Buffer) : Option Buffer :=
  if layout.dataOffset ≠ CD_RAW_DATA_SIZE then
    memcpy sector 0 sectorBuffer layout.dataOffset CD_DATA_SIZE
  else some sector

/-- `// copy C2`: the C2 plane of every entry is gathered in `c2_buffer`, and the 294 bytes
from `c2_shift` are copied, which undoes the drive's delay. -/
def copyC2Plane (layout : SectorLayout) (sectorBuffer : Buffer) (c2Shift : UInt32)
    (sectorsCount : Nat) (sector : Buffer) : Option Buffer :=
  if layout.c2Offset ≠ CD_RAW_DATA_SIZE then
    (copyC2 layout sectorBuffer sectorsCount 0
      (Buffer.zeros (CD_C2_SIZE * sectorsCount % 2 ^ 32))).bind fun c2Buffer =>
      memcpy sector CD_DATA_SIZE c2Buffer c2Shift.toNat CD_C2_SIZE
  else some sector

/-- `// copy subcode`. -/
def copySubcode (layout : SectorLayout) (sectorBuffer sector : Buffer) : Option Buffer :=
  if layout.subcodeOffset ≠ CD_RAW_DATA_SIZE then
    memcpy sector (CD_DATA_SIZE + CD_C2_SIZE) sectorBuffer layout.subcodeOffset CD_SUBCODE_SIZE
  else some sector

/-- `read_sector`: the status, and the caller's buffer `sector` after the call; `none` when a
copy leaves its buffers. `sector_buffer` holds `CD_RAW_DATA_SIZE * sectors_count` bytes,
computed in `uint32_t`. -/
def readSector (transfer : Transfer) (layout : SectorLayout) (c2Shift : UInt32) (sector : Buffer)
    (lba : Int) : Option (Nat × Buffer) :=
  let count := sectorsCount c2Shift
  let status := (transfer lba count).1
  let sectorBuffer : Buffer := ⟨CD_RAW_DATA_SIZE * count % 2 ^ 32, (transfer lba count).2⟩
  if status ≠ 0 then some (status, sector) else do
    let sector ← memset sector 0 CD_RAW_DATA_SIZE
    let sector ← copyData layout sectorBuffer sector
    let sector ← copyC2Plane layout sectorBuffer c2Shift count sector
    let sector ← copySubcode layout sectorBuffer sector
    return (status, sector)

/-! ### What a successful read leaves -/

/-- Byte `k` of the C2 planes of the transfer's entries, laid end to end. -/
def c2Stream (layout : SectorLayout) (bytes : Nat → UInt8) (k : Nat) : UInt8 :=
  bytes (layout.size * (k / CD_C2_SIZE) + layout.c2Offset + k % CD_C2_SIZE)

/-- Byte `k < CD_RAW_DATA_SIZE` of a successful read as the spec describes it: the first
entry's data at `[0, 2352)`, bytes `[c2_shift, c2_shift + 294)` of the C2 stream at
`[2352, 2646)`, the first entry's subcode at `[2646, 2742)`, and zeros for a plane the layout
lacks. -/
def splicedSector (layout : SectorLayout) (bytes : Nat → UInt8) (c2Shift k : Nat) : UInt8 :=
  if k < CD_DATA_SIZE then
    if layout.dataOffset ≠ CD_RAW_DATA_SIZE then bytes (layout.dataOffset + k) else 0
  else if k < CD_DATA_SIZE + CD_C2_SIZE then
    if layout.c2Offset ≠ CD_RAW_DATA_SIZE then
      c2Stream layout bytes (c2Shift + (k - CD_DATA_SIZE))
    else 0
  else if layout.subcodeOffset ≠ CD_RAW_DATA_SIZE then
    bytes (layout.subcodeOffset + (k - (CD_DATA_SIZE + CD_C2_SIZE)))
  else 0

/-- While each block lies in both buffers and no offset wraps, the loop from iteration `i`
fills `[294 i, 294 (i + k))` of `c2_buffer` with the C2 stream. -/
theorem copyC2_eq (layout : SectorLayout) (sb : Buffer) : ∀ (k i : Nat) (c2Buffer : Buffer),
    (∀ j, i ≤ j → j < i + k → CD_C2_SIZE * j + CD_C2_SIZE ≤ c2Buffer.size ∧
      CD_C2_SIZE * j < 2 ^ 32 ∧ layout.size * j + layout.c2Offset + CD_C2_SIZE ≤ sb.size ∧
      layout.size * j < 2 ^ 32) →
    copyC2 layout sb k i c2Buffer = some ⟨c2Buffer.size, fun t =>
      if CD_C2_SIZE * i ≤ t ∧ t < CD_C2_SIZE * (i + k) then c2Stream layout sb.byte t
      else c2Buffer.byte t⟩
  | 0, i, ⟨size, byte⟩, _ => by
    rw [copyC2, Nat.add_zero]
    congr
    funext t
    rw [if_neg (by omega)]
  | k + 1, i, c2Buffer, h => by
    obtain ⟨h1, h2, h3, h4⟩ := h i le_rfl (by omega)
    rw [copyC2, Nat.mod_eq_of_lt h2, Nat.mod_eq_of_lt h4, memcpy_eq h1 h3, Option.some_bind,
      copyC2_eq layout sb k (i + 1)]
    swap
    · exact fun j hj1 hj2 => h j (by omega) (by omega)
    congr
    funext t
    dsimp only [CD_C2_SIZE] at *
    rcases (show t < 294 * i ∨ 294 * i ≤ t ∧ t < 294 * i + 294 ∨
      294 * (i + 1) ≤ t ∧ t < 294 * (i + 1 + k) ∨ 294 * (i + 1 + k) ≤ t by omega) with h | h | h | h
    · simp (disch := omega) only [if_neg]
    · rw [if_neg (by omega), if_pos h, if_pos (by omega), c2Stream, show t / 294 = i by omega,
        show t % 294 = t - 294 * i by omega]
    · simp (disch := omega) only [if_pos]
    · simp (disch := omega) only [if_neg]

theorem copyData_eq {layout : SectorLayout} (hl : layout.Fits) {sb sector : Buffer}
    (hsb : layout.size ≤ sb.size) (hs : CD_DATA_SIZE ≤ sector.size) :
    copyData layout sb sector = some ⟨sector.size, fun k =>
      if layout.dataOffset ≠ CD_RAW_DATA_SIZE ∧ k < CD_DATA_SIZE then sb.byte (layout.dataOffset + k)
      else sector.byte k⟩ := by
  unfold copyData
  split_ifs with hd
  · have := hl.data hd
    dsimp only [CD_RAW_DATA_SIZE, CD_DATA_SIZE] at *
    rw [memcpy_eq (by omega) (by omega)]
    simp only [Nat.zero_le, true_and, Nat.zero_add, Nat.sub_zero, hd, ne_eq, not_false_eq_true]
  · simp only [hd, false_and, if_false]

theorem copySubcode_eq {layout : SectorLayout} (hl : layout.Fits) {sb sector : Buffer}
    (hsb : layout.size ≤ sb.size) (hs : CD_RAW_DATA_SIZE ≤ sector.size) :
    copySubcode layout sb sector = some ⟨sector.size, fun k =>
      if layout.subcodeOffset ≠ CD_RAW_DATA_SIZE ∧ CD_DATA_SIZE + CD_C2_SIZE ≤ k ∧
        k < CD_RAW_DATA_SIZE then
        sb.byte (layout.subcodeOffset + (k - (CD_DATA_SIZE + CD_C2_SIZE)))
      else sector.byte k⟩ := by
  unfold copySubcode
  split_ifs with hd
  · have := hl.subcode hd
    dsimp only [CD_RAW_DATA_SIZE, CD_DATA_SIZE, CD_C2_SIZE, CD_SUBCODE_SIZE] at *
    rw [memcpy_eq (by omega) (by omega)]
    simp only [hd, ne_eq, not_false_eq_true, true_and]
  · simp only [hd, false_and, if_false]

/-- Within the bound, the C2 loop fills all of `c2_buffer`, and the 294 bytes from `c2_shift`
land at `[2352, 2646)`. -/
theorem copyC2Plane_eq {layout : SectorLayout} (hl : layout.Fits) {c2Shift : UInt32} {n : Nat}
    (hw : CD_RAW_DATA_SIZE * n < 2 ^ 32) (hn : c2Shift.toNat + CD_C2_SIZE ≤ CD_C2_SIZE * n)
    {sb sector : Buffer} (hsb : sb.size = CD_RAW_DATA_SIZE * n) (hs : CD_RAW_DATA_SIZE ≤ sector.size) :
    copyC2Plane layout sb c2Shift n sector = some ⟨sector.size, fun k =>
      if layout.c2Offset ≠ CD_RAW_DATA_SIZE ∧ CD_DATA_SIZE ≤ k ∧ k < CD_DATA_SIZE + CD_C2_SIZE then
        c2Stream layout sb.byte (c2Shift.toNat + (k - CD_DATA_SIZE))
      else sector.byte k⟩ := by
  unfold copyC2Plane
  split_ifs with hc
  · have hblock : ∀ j, j < n → layout.size * j + layout.size ≤ CD_RAW_DATA_SIZE * n := fun j hj =>
      (Nat.mul_succ _ _).symm.trans_le (Nat.mul_le_mul hl.size_le hj)
    have hc2 := hl.c2 hc
    have hsz := hl.size_le
    rw [copyC2_eq layout sb n 0 _ fun j _ hj => by
        have := hblock j (by omega)
        dsimp only [CD_RAW_DATA_SIZE, CD_C2_SIZE, Buffer.zeros] at *
        omega,
      Option.some_bind, memcpy_eq (by dsimp only [CD_RAW_DATA_SIZE, CD_DATA_SIZE, CD_C2_SIZE] at hs ⊢; omega)
        (by dsimp only [CD_RAW_DATA_SIZE, CD_C2_SIZE, Buffer.zeros] at *; omega)]
    dsimp only [CD_RAW_DATA_SIZE, CD_C2_SIZE, CD_DATA_SIZE] at *
    congr
    funext k
    by_cases hk : 2352 ≤ k ∧ k < 2352 + 294
    · simp (disch := omega) only [if_pos hk, if_pos, ne_eq, hc, not_false_eq_true, hk, and_self]
    · simp only [if_neg hk, hk, and_false, if_false]
  · simp only [hc, false_and, if_false]

/-- **`read_sector` within 32 bits.** While `CD_RAW_DATA_SIZE * sectors_count` fits in
`uint32_t`, every copy stays inside its buffers, whatever the drive returns. On success the
caller's buffer holds `splicedSector` in its first `CD_RAW_DATA_SIZE` bytes and is unchanged
past them; on failure it is unchanged. -/
theorem readSector_splices (transfer : Transfer) {layout : SectorLayout} (hl : layout.Fits)
    (c2Shift : UInt32) (hw : CD_RAW_DATA_SIZE * sectorsCount c2Shift < 2 ^ 32)
    {sector : Buffer} (hs : CD_RAW_DATA_SIZE ≤ sector.size) (lba : Int) :
    ∃ out : Buffer, readSector transfer layout c2Shift sector lba =
        some ((transfer lba (sectorsCount c2Shift)).1, out) ∧
      ((transfer lba (sectorsCount c2Shift)).1 ≠ 0 → out = sector) ∧
      ((transfer lba (sectorsCount c2Shift)).1 = 0 → out.size = sector.size ∧
        ∀ k, out.byte k = if k < CD_RAW_DATA_SIZE then
          splicedSector layout (transfer lba (sectorsCount c2Shift)).2 c2Shift.toNat k
        else sector.byte k) := by
  have hn := (sectorsCount_spec c2Shift).1
  unfold readSector
  dsimp only
  generalize sectorsCount c2Shift = n at hw hn ⊢
  generalize transfer lba n = r
  obtain ⟨status, bytes⟩ := r
  dsimp only
  by_cases hst : status = 0
  · subst hst
    generalize hsb' : (⟨CD_RAW_DATA_SIZE * n % 2 ^ 32, bytes⟩ : Buffer) = sb
    have hsb : sb.size = CD_RAW_DATA_SIZE * n := hsb' ▸ Nat.mod_eq_of_lt hw
    have hsize : layout.size ≤ sb.size :=
      hsb ▸ hl.size_le.trans (Nat.le_mul_of_pos_right _ (by dsimp only [CD_C2_SIZE] at hn; omega))
    rw [if_neg (not_not.2 rfl), memset_eq hs, Option.bind_eq_bind, Option.some_bind,
      copyData_eq hl hsize, Option.some_bind, copyC2Plane_eq hl hw hn hsb, Option.some_bind,
      copySubcode_eq hl hsize]
    · refine ⟨_, rfl, fun h => absurd rfl h, fun _ => ⟨rfl, fun k => ?_⟩⟩
      subst hsb'
      unfold splicedSector
      dsimp only [CD_RAW_DATA_SIZE, CD_DATA_SIZE, CD_C2_SIZE]
      rcases (show k < 2352 ∨ 2352 ≤ k ∧ k < 2646 ∨ 2646 ≤ k ∧ k < 2742 ∨ 2742 ≤ k by omega)
        with h | h | h | h <;>
      simp (disch := omega) only [h, if_pos, if_neg, and_true, true_and, if_true]
    all_goals dsimp only [CD_RAW_DATA_SIZE, CD_DATA_SIZE] at hs ⊢; omega
  · rw [if_pos hst]
    exact ⟨sector, rfl, fun _ => rfl, fun h => absurd h hst⟩

/-- The `DATA_C2_SUB` layout with no C2 shift, on a drive that returns zeros: the output is the
spliced sector. -/
theorem readSector_splices_data_c2_sub :
    SectorLayout.Fits ⟨0, CD_DATA_SIZE, CD_DATA_SIZE + CD_C2_SIZE, CD_RAW_DATA_SIZE⟩ ∧
    CD_RAW_DATA_SIZE * sectorsCount 0 < 2 ^ 32 ∧ CD_RAW_DATA_SIZE ≤ (Buffer.zeros CD_RAW_DATA_SIZE).size ∧
    ∃ out : Buffer, readSector (fun _ _ => (0, fun _ => 0))
        ⟨0, CD_DATA_SIZE, CD_DATA_SIZE + CD_C2_SIZE, CD_RAW_DATA_SIZE⟩ 0
        (Buffer.zeros CD_RAW_DATA_SIZE) 0 = some (0, out) ∧
      ((0 : Nat) ≠ 0 → out = Buffer.zeros CD_RAW_DATA_SIZE) ∧
      ((0 : Nat) = 0 → out.size = (Buffer.zeros CD_RAW_DATA_SIZE).size ∧
        ∀ k, out.byte k = if k < CD_RAW_DATA_SIZE then
          splicedSector ⟨0, CD_DATA_SIZE, CD_DATA_SIZE + CD_C2_SIZE, CD_RAW_DATA_SIZE⟩
            (fun _ => 0) (0 : UInt32).toNat k
        else (Buffer.zeros CD_RAW_DATA_SIZE).byte k) :=
  have hl : SectorLayout.Fits ⟨0, CD_DATA_SIZE, CD_DATA_SIZE + CD_C2_SIZE, CD_RAW_DATA_SIZE⟩ :=
    ⟨by decide, fun _ => by decide, fun _ => by decide, fun _ => by decide⟩
  have hw : CD_RAW_DATA_SIZE * sectorsCount 0 < 2 ^ 32 := by decide
  ⟨hl, hw, le_rfl, readSector_splices (fun _ _ => (0, fun _ => 0)) hl 0 hw le_rfl 0⟩

/-- **Past 32 bits the copies leave their buffers.** With the `DATA_C2_SUB` layout and a drive
that answers every read, `read_sector` goes out of bounds for two values of `c2_shift`. At
460510428 the product `CD_RAW_DATA_SIZE * sectors_count` wraps to 50 bytes and the data copy
reads 2352 of them. At `0xFFFFFFFF`, a negative shift taken unsigned, `CD_C2_SIZE *
sectors_count` wraps to 500 bytes and the second pass of the C2 loop writes bytes 294 to 587
of `c2_buffer`. -/
theorem readSector_out_of_bounds :
    SectorLayout.Fits ⟨0, CD_DATA_SIZE, CD_DATA_SIZE + CD_C2_SIZE, CD_RAW_DATA_SIZE⟩ ∧
    sectorsCount 460510428 = 1566363 ∧ CD_RAW_DATA_SIZE * sectorsCount 460510428 % 2 ^ 32 = 50 ∧
    readSector (fun _ _ => (0, fun _ => 0))
      ⟨0, CD_DATA_SIZE, CD_DATA_SIZE + CD_C2_SIZE, CD_RAW_DATA_SIZE⟩ 460510428
      (Buffer.zeros CD_RAW_DATA_SIZE) 0 = none ∧
    CD_C2_SIZE * sectorsCount 0xFFFFFFFF % 2 ^ 32 = 500 ∧
    readSector (fun _ _ => (0, fun _ => 0))
      ⟨0, CD_DATA_SIZE, CD_DATA_SIZE + CD_C2_SIZE, CD_RAW_DATA_SIZE⟩ 0xFFFFFFFF
      (Buffer.zeros CD_RAW_DATA_SIZE) 0 = none :=
  ⟨⟨by decide, fun _ => by decide, fun _ => by decide, fun _ => by decide⟩, rfl, rfl, rfl, rfl, rfl⟩

/-! ### The C2 bits -/

theorem c2Byte_lt (k : Fin CD_DATA_SIZE) : k.val / 8 < CD_C2_SIZE := by
  have := k.isLt
  dsimp only [CD_DATA_SIZE, CD_C2_SIZE] at this ⊢
  omega

theorem sampleByte_lt (i : Fin CD_DATA_SIZE_SAMPLES) (j : Fin 4) : 4 * i.val + j.val < CD_DATA_SIZE := by
  have := i.isLt
  have := j.isLt
  dsimp only [CD_DATA_SIZE, CD_DATA_SIZE_SAMPLES] at *
  omega

/-- Whether data byte `k` is flagged, as `debug_print_c2_scm_offsets` tests it:
`c2_data[k / CHAR_BIT] & (1 << ((CHAR_BIT - 1) - k % CHAR_BIT))`, the first byte in the
most significant bit. -/
def c2Flagged (c2 : C2) (k : Fin CD_DATA_SIZE) : Bool :=
  (c2 ⟨k.val / 8, c2Byte_lt k⟩).toNat &&& (1 <<< (7 - k.val % 8)) != 0

/-- `debug_print_c2_scm_offsets`: the `.scram` offsets it prints, `scm_offset + i` for every
flagged data byte `i`, in `uint32_t`. -/
def debugPrintC2ScmOffsets (c2 : C2) (lbaIndex : Nat) (driveReadOffset : Int) : List Nat :=
  let scmOffset := uint32 (lbaIndex * CD_DATA_SIZE - driveReadOffset * 4)
  ((List.finRange CD_DATA_SIZE).filter (c2Flagged c2)).map fun i => (scmOffset + i.val) % 2 ^ 32

/-- Sample `i` covers data bytes `4 i` to `4 i + 3`; one of them is flagged. -/
def SampleFlagged (c2 : C2) (i : Fin CD_DATA_SIZE_SAMPLES) : Prop :=
  ∃ j : Fin 4, c2Flagged c2 ⟨4 * i.val + j.val, sampleByte_lt i j⟩ = true

instance (c2 : C2) : DecidablePred (SampleFlagged c2) :=
  fun _ => inferInstanceAs (Decidable (∃ _ : Fin 4, _))

theorem c2Flagged_eq_testBit (c2 : C2) (k : Fin CD_DATA_SIZE) :
    c2Flagged c2 k = (c2 ⟨k.val / 8, c2Byte_lt k⟩).toNat.testBit (7 - k.val % 8) := by
  rw [c2Flagged, Nat.one_shiftLeft, Nat.and_two_pow]
  cases Nat.testBit _ _ <;> simp

/-- At LBA index 0 and no read offset, the debug print lists exactly the flagged bytes. -/
theorem mem_debugPrintC2ScmOffsets (c2 : C2) (k : Fin CD_DATA_SIZE) :
    k.val ∈ debugPrintC2ScmOffsets c2 0 0 ↔ c2Flagged c2 k = true := by
  have hlt : ∀ i : Fin CD_DATA_SIZE,
      (uint32 (((0 : Nat) : Int) * CD_DATA_SIZE - 0 * 4) + i.val) % 2 ^ 32 = i.val :=
    fun i => by rw [show uint32 (((0 : Nat) : Int) * CD_DATA_SIZE - 0 * 4) = 0 from rfl,
      Nat.zero_add, Nat.mod_eq_of_lt (i.isLt.trans (by decide))]
  simp only [debugPrintC2ScmOffsets, hlt, List.mem_map, List.mem_filter,
    List.mem_finRange, true_and]
  exact ⟨fun ⟨i, hi, he⟩ => Fin.ext he ▸ hi, fun h => ⟨k, h, rfl⟩⟩

/-- A nibble is non-zero exactly when one of its four bits is set. -/
theorem nibble_ne_zero_iff : ∀ m < 16, m ≠ 0 ↔ ∃ j : Fin 4, m.testBit (3 - j.val) = true := by
  decide

theorem toNat_shiftRight_four (q : UInt8) : (q >>> 4).toNat = q.toNat / 16 :=
  Nat.shiftRight_eq_div_pow _ 4

theorem toNat_and_fifteen (q : UInt8) : (q &&& 0x0F).toNat = q.toNat % 16 :=
  Nat.and_pow_two_sub_one_eq_mod _ 4

theorem uint8_ne_zero_iff {q : UInt8} : q ≠ 0 ↔ q.toNat ≠ 0 :=
  not_congr ⟨fun h => h ▸ rfl, fun h => UInt8.eq_of_val_eq (Fin.ext h)⟩

/-- The nibble `state_from_c2` takes for a sample is non-zero exactly when one of the four
bits the debug print reads for its bytes is set: bits 7 to 4 for an even sample, 3 to 0
for an odd one. -/
theorem nibble_ne_zero (q : UInt8) (b : Nat) (hb : b < 2) :
    (if b = 1 then q &&& 0x0F else q >>> 4) ≠ 0 ↔
      ∃ j : Fin 4, q.toNat.testBit (7 - (4 * b + j.val)) = true := by
  have hq : q.toNat < 256 := q.val.isLt
  rcases (show b = 0 ∨ b = 1 by omega) with rfl | rfl
  · rw [if_neg (by decide), uint8_ne_zero_iff, toNat_shiftRight_four,
      nibble_ne_zero_iff _ (by omega)]
    refine exists_congr fun j => ?_
    rw [← Nat.shiftRight_eq_div_pow q.toNat 4, Nat.testBit_shiftRight]
    simp only [Nat.mul_zero, Nat.zero_add]
    rw [show 4 + (3 - j.val) = 7 - j.val by omega]
  · rw [if_pos rfl, uint8_ne_zero_iff, toNat_and_fifteen, nibble_ne_zero_iff _ (by omega)]
    refine exists_congr fun j => ?_
    rw [show 7 - (4 * 1 + j.val) = 3 - j.val by omega,
      show (16 : Nat) = 2 ^ 4 from rfl, Nat.testBit_mod_two_pow]
    simp only [show 3 - j.val < 4 by omega, decide_True, Bool.true_and]

theorem c2Quad_ne_zero_iff (c2 : C2) (i : Fin CD_DATA_SIZE_SAMPLES) :
    c2Quad c2 i ≠ 0 ↔ SampleFlagged c2 i := by
  rw [c2Quad, nibble_ne_zero _ (i.val % 2) (Nat.mod_lt _ (by decide)), SampleFlagged]
  refine exists_congr fun j => ?_
  rw [c2Flagged_eq_testBit, show (4 * i.val + j.val) % 8 = 4 * (i.val % 2) + j.val by omega]
  rw [show (⟨(4 * i.val + j.val) / 8, _⟩ : Fin CD_C2_SIZE) = ⟨i.val / 2, _⟩ from
    Fin.ext (by dsimp only; omega)]

/-! ### Counting the bits -/

theorem popcount_add : ∀ (a b n : Nat), popcount (a + b) n = popcount a n + popcount b (n / 2 ^ a)
  | 0, b, n => by simp [popcount]
  | a + 1, b, n => by
    rw [Nat.add_right_comm, popcount, popcount, popcount_add a b, Nat.pow_succ', Nat.div_div_eq_div_mul]
    omega

theorem popcount_mod : ∀ (k n : Nat), popcount k (n % 2 ^ k) = popcount k n
  | 0, _ => rfl
  | k + 1, n => by
    rw [popcount, popcount, Nat.pow_succ', Nat.mod_mul_right_div_self, popcount_mod k,
      Nat.mod_mul_right_mod]

/-- The two nibbles of a byte carry all its set bits. -/
theorem bitsCount_nibbles (q : UInt8) : bitsCount (q >>> 4) + bitsCount (q &&& 0x0F) = bitsCount q := by
  have hq : q.toNat < 256 := q.val.isLt
  have hz : ∀ n, n < 16 → popcount 4 (n / 2 ^ 4) = 0 := fun n hn =>
    (popcount_eq_zero 4 _).2 (by rw [Nat.div_eq_of_lt (by omega)]; rfl)
  simp only [bitsCount, toNat_shiftRight_four, toNat_and_fifteen,
    show (8 : Nat) = 4 + 4 from rfl, popcount_add 4 4]
  rw [hz _ (by omega), hz _ (by omega), show (16 : Nat) = 2 ^ 4 from rfl, popcount_mod]
  omega

theorem c2Quad_eq (c2 : C2) (i : Fin CD_DATA_SIZE_SAMPLES) (j : Fin CD_C2_SIZE)
    (hj : i.val / 2 = j.val) : c2Quad c2 i = if i.val % 2 = 1 then c2 j &&& 0x0F else c2 j >>> 4 := by
  obtain ⟨j, hjlt⟩ := j
  dsimp only at hj
  subst hj
  rfl

theorem le_c2Size_of_two_mul_le {m : Nat} (h : 2 * m ≤ CD_DATA_SIZE_SAMPLES) : m ≤ CD_C2_SIZE := by
  dsimp only [CD_DATA_SIZE_SAMPLES, CD_C2_SIZE] at h ⊢; omega

/-- The nibble counts of samples `0 .. 2m - 1` are the bit counts of bytes `0 .. m - 1`. -/
theorem sumBelow_c2Quad (c2 : C2) : ∀ (m : Nat) (h : 2 * m ≤ CD_DATA_SIZE_SAMPLES),
    sumBelow (fun i => bitsCount (c2Quad c2 i)) (2 * m) h =
      sumBelow (fun j => bitsCount (c2 j)) m (le_c2Size_of_two_mul_le h)
  | 0, _ => rfl
  | m + 1, h => by
    have hm : m < CD_C2_SIZE := by dsimp only [CD_DATA_SIZE_SAMPLES, CD_C2_SIZE] at h ⊢; omega
    have hodd : c2Quad c2 ⟨2 * m + 1, by omega⟩ = c2 ⟨m, hm⟩ &&& 0x0F := by
      rw [c2Quad_eq c2 _ ⟨m, hm⟩ (by dsimp only; omega), if_pos (by dsimp only; omega)]
    have heven : c2Quad c2 ⟨2 * m, by omega⟩ = c2 ⟨m, hm⟩ >>> 4 := by
      rw [c2Quad_eq c2 _ ⟨m, hm⟩ (by dsimp only; omega), if_neg (by dsimp only; omega)]
    show sumBelow _ (2 * m + 1 + 1) h = _
    rw [sumBelow, sumBelow, sumBelow, hodd, heven, sumBelow_c2Quad c2 m, ← bitsCount_nibbles (c2 ⟨m, hm⟩)]
    omega

/-- **`state_from_c2`.** Sample `i` becomes `ERROR_C2` exactly when one of its four data bytes
is flagged, bit `7 - k % 8` of `c2[k / 8]` for byte `k` as the debug print reads it, and
keeps its state otherwise; the count is the number of set bits of the 294 C2 bytes, so it is
non-zero exactly when some sample was marked. -/
theorem stateFromC2_marks_flagged (state : States) (c2 : C2) :
    (∀ i, (stateFromC2 state c2).1 i = if SampleFlagged c2 i then .errorC2 else state i) ∧
    (∀ k : Fin CD_DATA_SIZE, (c2Flagged c2 k = true ↔ k.val ∈ debugPrintC2ScmOffsets c2 0 0) ∧
      c2Flagged c2 k = (c2 ⟨k.val / 8, c2Byte_lt k⟩).toNat.testBit (7 - k.val % 8)) ∧
    (stateFromC2 state c2).2 = sumFin CD_C2_SIZE (fun j => bitsCount (c2 j)) ∧
    ((stateFromC2 state c2).2 ≠ 0 ↔ ∃ i, SampleFlagged c2 i) := by
  refine ⟨fun i => ?_, fun k => ⟨(mem_debugPrintC2ScmOffsets c2 k).symm, c2Flagged_eq_testBit c2 k⟩,
    sumBelow_c2Quad c2 CD_C2_SIZE le_rfl, ?_⟩
  · simp only [stateFromC2, c2Quad_ne_zero_iff]
  · rw [Ne, stateFromC2_count_eq_zero, not_forall]
    exact exists_congr fun i => c2Quad_ne_zero_iff c2 i

end Redumper
