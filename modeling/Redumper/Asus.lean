import Redumper.Step
import Redumper.Dump

/-!
# The LG/ASUS lead-out cache

On an LG/ASUS drive with the lead-out enabled, a pass at the first LBA of an error range,
or at `lba_end`, reads the drive's cache and extracts a buffer starting at that LBA
(`asus_cache_extract(cache, lba, 100, ..)`). A pass inside an error range, or from
`lba_end` on, serves entry `lba - base` of the buffer in use, `base` the first LBA of the
range or `lba_end`. The buffer is kept from pass to pass until the next extraction.

So the entry served at `L` is the one extracted for `S + i = L` only if the buffer in use
was extracted at `base`. A skip range that ends inside an error range lets the loop enter
it past its first LBA: nothing is extracted there, and the buffer of an earlier range is
read with the new range's base.

## What is proved

* `asusLeadout_buffer_eq`: the buffer after the cache block is a fresh extraction at `lba`
  exactly at the first LBA of an error range or at `lba_end`, and the one before otherwise.
* `asusEntry_eq_some`: a served entry is entry `uint32 (lba - base)` of the buffer in use.
* `asus_buffer_stale`: with the skip range `[4, 6)` over the error ranges `[1, 3)` and
  `[5, 8)`, LBA 6 is stored from the buffer extracted at LBA 1, its entry 1: the sector of
  LBA 2.
-/

namespace Redumper

variable (io : Io) (env : Env)

/-! ### What a pass serves -/

/-- The pass extracts a buffer at `lba` exactly when `lba` is the first LBA of its error
range or `lba_end`. -/
theorem asusLeadout_buffer_eq (p : Pass) :
    (asusLeadout io env p).loop.asusLeadoutBuffer =
      if env.asusLeadout = true ∧
          ((insideRange p.loop.lba env.errorRanges).any (fun r => decide (p.loop.lba = r.1)) ||
            decide (p.loop.lba = env.lbaEnd)) = true then
        io.asusCache p.loop.caches p.loop.lba
      else p.loop.asusLeadoutBuffer := by
  by_cases ha : env.asusLeadout = true
  · simp only [asusLeadout, ha, if_true, true_and]
    split <;> simp only [apply_ite Loop.asusLeadoutBuffer, ite_self, asusExtract_eq]
  · simp only [asusLeadout, ha, false_and, if_false, Bool.false_eq_true]

/-- The entry served at `lba` is entry `lba - base` of the buffer, `base` the first LBA of
the error range holding `lba`, or `lba_end` past it outside the ranges. -/
theorem asusEntry_eq_some {s : Loop} {e : Sector} (h : asusEntry env s = some e) :
    ∃ base : Int, base ≤ s.lba ∧
      ((∃ r, insideRange s.lba env.errorRanges = some r ∧ base = r.1) ∨
        (insideRange s.lba env.errorRanges = none ∧ base = env.lbaEnd)) ∧
      s.asusLeadoutBuffer[uint32 (s.lba - base)]? = some e := by
  unfold asusEntry at h
  dsimp only at h
  split_ifs at h with hc
  cases hr : insideRange s.lba env.errorRanges with
  | none =>
    simp only [hr, Option.any_none, Bool.false_or, decide_eq_true_eq, Option.map_none',
      Option.getD_none] at hc h
    exact ⟨env.lbaEnd, hc, .inr ⟨rfl, rfl⟩, h⟩
  | some r =>
    simp only [hr, Option.map_some', Option.getD_some] at h
    exact ⟨r.1, (insideRange_some hr).2.1, .inl ⟨r, rfl, rfl⟩, h⟩

/-! ### A buffer read with another range's base -/

set_option maxRecDepth 20000 in
/-- A dump from LBA 1 with the error ranges `[1, 3)` and `[5, 8)`, the skip range `[4, 6)`
and a drive whose every read fails; the cache extracted at `S` holds three sectors, entry
`i` tagged `S + i`. The only extraction is at LBA 1. The skip range lands the loop at LBA 6,
past the first LBA of `[5, 8)`, and LBA 6 is stored from that buffer with index `6 - 5 = 1`:
the sector tagged `1 + 1 = 2`. -/
theorem asus_buffer_stale : ∃ (q : QDecoder) (io : Io) (env : Env) (files : Files),
    env.driveType = .lgAsus ∧ env.asusSkipLeadout = false ∧ env.refine = false ∧
    env.skipRanges = [(4, 6)] ∧ env.errorRanges = [(1, 3), (5, 8)] ∧
    (∀ k S, io.asusCache k S = (List.range 3).map fun i =>
      ⟨fun _ => UInt32.ofNat (S + i).toNat, fun _ => 0, fun _ => 0⟩) ∧
    (run q io env 4 (dumpStart q io env false [] 0 files)).lba = 6 ∧
    (run q io env 4 (dumpStart q io env false [] 0 files)).caches = 1 ∧
    (run q io env 4 (dumpStart q io env false [] 0 files)).asusLeadoutBuffer = io.asusCache 0 1 ∧
    (run q io env 5 (dumpStart q io env false [] 0 files)).files.state (lbaIndex 6) 0 =
      .successScsiOff ∧
    (run q io env 5 (dumpStart q io env false [] 0 files)).files.scm (lbaIndex 6) 0 = 2 := by
  refine ⟨⟨fun _ => false, fun _ => 0, fun _ => 0, fun _ => 0⟩,
    ⟨fun _ _ => ⟨2, false, ⟨fun _ => 0, fun _ => 0, fun _ => 0⟩⟩,
      fun _ S => (List.range 3).map fun i => ⟨fun _ => UInt32.ofNat (S + i).toNat, fun _ => 0,
        fun _ => 0⟩,
      fun _ => [], fun _ => false⟩,
    ⟨false, 1, 10, false, [(4, 6)], [(1, 3), (5, 8)], .lgAsus, false, false, false, 0⟩,
    ⟨fun _ _ => 0, fun _ _ => 0, fun _ _ => .errorSkip⟩, rfl, rfl, rfl, rfl, rfl, fun _ _ => rfl,
    ?_, ?_, rfl, ?_⟩
  all_goals decide

end Redumper
