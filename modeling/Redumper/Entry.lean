import Redumper.Sector

/-!
# The streams as files of bytes

`read_entry` and `write_entry` (`file_io`, not in `src/`) are the only way the engine reads
and writes `.scram`, `.subcode` and `.state`. Modelled from the spec: "seek to
`entry_index*entry_size + byte_shift`; read up to `count*entry_size` bytes; regions that fall
before file start or past EOF are filled with `fill_byte`. `write_entry(…)` is the mirror:
seek, extend file if needed, write."

Every call in `src/redumper.cc` passes `count = 1` and, for a stream, always the same entry
size and shift: `.scram` 2352 bytes at `read_offset * 4`, `.subcode` 96 bytes at `0`,
`.state` 588 bytes at `read_offset`; the fill is `0`, which is also `ERROR_SKIP`. Under such
accesses a stream is a map from slot to entry, which is how `Files` models it:
`slotView_writeEntry` proves that a write changes the view of the one slot it writes, and
`slotView_nil` that a truncated file reads as zeros. The slot index is an integer, as in
`Files`; in the source it is an unsigned `lba_index + subcode_shift`. The typed content of a
slot (the samples of `.scram`, the states of `.state`) is its bytes through the source's
casts, left out here.
-/

namespace Redumper.Entry

/-- The byte at `pos` as `read_entry` sees it: `fill` before the start of the file or past
its end. -/
def byteAt (file : List UInt8) (fill : UInt8) (pos : Int) : UInt8 :=
  if pos < 0 then fill else file.getD pos.toNat fill

/-- Modelled from the spec: `read_entry(fs, buf, entry_size, index, 1, byte_shift, fill_byte)`
reads the `entry_size` bytes from `index * entry_size + byte_shift`. -/
def readEntry (file : List UInt8) (entrySize : Nat) (index byteShift : Int) (fillByte : UInt8) :
    List UInt8 :=
  (List.range entrySize).map fun k : Nat => byteAt file fillByte (index * entrySize + byteShift + k)

/-- Modelled from the spec: `write_entry(fs, buf, entry_size, index, 1, byte_shift)`, the
mirror of `read_entry`. The file is extended with zeros up to the end of the entry, the
entry's bytes are written from `index * entry_size + byte_shift`, and those that fall before
the start of the file are dropped. -/
def writeEntry (file : List UInt8) (entrySize : Nat) (index byteShift : Int) (entry : List UInt8) :
    List UInt8 :=
  let start := index * entrySize + byteShift
  (List.range (max file.length (start + entrySize).toNat)).map fun p : Nat =>
    if start ≤ p ∧ (p : Int) < start + entrySize then entry.getD ((p : Int) - start).toNat 0
    else file.getD p 0

/-- After a write, a byte inside the written slot (and in the file) is the entry's, any other
byte what it was, zeros being read where the file has been extended. -/
theorem byteAt_writeEntry (file : List UInt8) (n : Nat) (index shift : Int) (entry : List UInt8)
    (pos : Int) : byteAt (writeEntry file n index shift entry) 0 pos =
      if 0 ≤ pos ∧ index * n + shift ≤ pos ∧ pos < index * n + shift + n then
        entry.getD (pos - (index * n + shift)).toNat 0
      else byteAt file 0 pos := by
  unfold byteAt writeEntry
  by_cases hp : pos < 0
  · simp [hp, show ¬0 ≤ pos by omega]
  · obtain ⟨p, rfl⟩ : ∃ p : Nat, pos = p := ⟨pos.toNat, by omega⟩
    simp only [hp, if_false, Int.toNat_ofNat, List.getD_eq_getElem?_getD, List.getElem?_map,
      List.getElem?_range]
    have h0 : (0 : Int) ≤ p := by omega
    by_cases hlt : p < max file.length (index * n + shift + n).toNat
    · simp only [List.getElem?_range hlt, Option.map_some', Option.getD_some, h0, true_and]
    · have hf : file[p]? = none := List.getElem?_eq_none (by omega)
      rw [List.getElem?_eq_none (by simpa using hlt), if_neg (by omega), hf]
      rfl


section Slots

variable {file entry : List UInt8} {n : Nat} {index shift : Int}

theorem length_readEntry (file : List UInt8) (n : Nat) (index shift : Int) (fill : UInt8) :
    (readEntry file n index shift fill).length = n := by
  simp [readEntry]

/-- Reading back the slot just written gives the entry, when the slot starts in the file. -/
theorem readEntry_writeEntry_self (h0 : 0 ≤ index * n + shift) (hlen : entry.length = n) :
    readEntry (writeEntry file n index shift entry) n index shift 0 = entry := by
  refine List.ext_getElem (by rw [length_readEntry, hlen]) fun k hk _ => ?_
  rw [length_readEntry] at hk
  simp only [readEntry, List.getElem_map, List.getElem_range, byteAt_writeEntry]
  rw [if_pos (by omega)]
  simp [List.getD_eq_getElem?_getD, hlen, hk]

/-- Slots do not overlap: a write leaves the reading of every other slot as it was. -/
theorem readEntry_writeEntry_of_ne {i : Int} (hi : i ≠ index) :
    readEntry (writeEntry file n index shift entry) n i shift 0 = readEntry file n i shift 0 := by
  refine List.ext_getElem (by simp only [length_readEntry]) fun k hk _ => ?_
  rw [length_readEntry] at hk
  simp only [readEntry, List.getElem_map, List.getElem_range, byteAt_writeEntry]
  rw [if_neg]
  rintro ⟨-, h1, h2⟩
  rcases lt_or_gt_of_ne hi with h | h
  · have : (i + 1) * n ≤ index * n := Int.mul_le_mul_of_nonneg_right (by omega) (by omega)
    rw [Int.add_mul, Int.one_mul] at this
    omega
  · have : (index + 1) * n ≤ i * n := Int.mul_le_mul_of_nonneg_right (by omega) (by omega)
    rw [Int.add_mul, Int.one_mul] at this
    omega

end Slots

/-- A stream's slots as its accesses read them: entry size `n`, byte shift `shift`, fill `0`. -/
def slotView (file : List UInt8) (n : Nat) (shift : Int) (index : Int) : List UInt8 :=
  readEntry file n index shift 0

/-- **A stream is a map from slot to entry.** Read with its own entry size and shift, a file
after `write_entry` of a slot that starts in the file shows that slot's new entry and every
other slot as before. -/
theorem slotView_writeEntry {file entry : List UInt8} {n : Nat} {index shift : Int}
    (h0 : 0 ≤ index * n + shift) (hlen : entry.length = n) :
    slotView (writeEntry file n index shift entry) n shift =
      Function.update (slotView file n shift) index entry := by
  funext i
  by_cases hi : i = index
  · subst hi
    rw [Function.update_same]
    exact readEntry_writeEntry_self h0 hlen
  · rw [Function.update_noteq hi]
    exact readEntry_writeEntry_of_ne hi

/-- A file truncated to nothing reads as zeros in every slot: all `ERROR_SKIP` in `.state`. -/
theorem slotView_nil (n : Nat) (shift : Int) :
    slotView [] n shift = fun _ => List.replicate n 0 := by
  funext i
  refine List.ext_getElem (by simp [slotView, length_readEntry]) fun k hk _ => ?_
  simp [slotView, readEntry, byteAt]

/-- Two slots of `.state` (entry size `2`, shift `-1`): writing slot `1` changes slot `1` only. -/
theorem slotView_writeEntry_two : (0 : Int) ≤ 1 * (2 : Nat) + -1 ∧ [5, 6].length = 2 ∧
    slotView (writeEntry [1, 2, 3, 4] 2 1 (-1) [5, 6]) 2 (-1) =
      Function.update (slotView [1, 2, 3, 4] 2 (-1)) 1 [5, 6] :=
  ⟨by decide, rfl, slotView_writeEntry (by decide) rfl⟩

end Redumper.Entry
