import Redumper.ChannelQ
import Mathlib.Data.List.Destutter

/-!
# The subchannel mode

`redumper_subchannel` (`src/redumper.cc`, lines 1003–1041) logs the channel Q of every
entry of `.subcode`: a slot whose Q is not all zero gets a line with its LBA, the LBA of its
Q's absolute position and the decoded Q; a run of slots whose Q is all zero gets one `...`.

Q is read with `subcode_extract_channel` and `BCDMSF_to_LBA` as `ChannelQ` models them from
the spec; `Q.Decode()` (not in `src/`) is left as the twelve bytes it prints from. The
entries are those `check_file` counts; a file that does not open throws before the loop
and is left out.

`redumperSubchannel_eq` relates the loop, whose flag `empty` says that the last line was
`...`, to the lines of the slots taken one by one: the log is those lines with adjacent
repeats removed (`List.destutter`).
-/

namespace Redumper.Subchannel

open ChannelQ

/-- A line `redumper_subchannel` logs. -/
inductive SubchannelLine where
  /-- `[LBA: {:6}, LBAQ: {:6}] {}`: the slot's LBA, the LBA its Q's `a_msf` gives, and the
  twelve bytes of Q that `Q.Decode()` prints. -/
  | q (lba lbaq : Int) (channel : List UInt8)
  /-- `...`. -/
  | ellipsis
  deriving DecidableEq, Repr

/-- `memcmp(&Q, &q_empty, sizeof(q_empty)) == 0`: Q is all zero. -/
def emptyQ (sub : Subcode) : Bool := (List.finRange 12).all fun k => extractQ sub k == 0

/-- The line of slot `lba_index` whose Q is not empty. -/
def qLine (lbaIndex : Nat) (sub : Subcode) : SubchannelLine :=
  .q (LBA_START + lbaIndex) (bcdmsfToLba (extractQ sub 7) (extractQ sub 8) (extractQ sub 9))
    (List.ofFn (extractQ sub))

/-- Lines 1017–1040: the loop from slot `lba_index` with the flag `empty`. -/
def subchannelLoop : Bool → Nat → List Subcode → List SubchannelLine
  | _, _, [] => []
  | empty, lbaIndex, sub :: subs =>
    if !emptyQ sub then qLine lbaIndex sub :: subchannelLoop false (lbaIndex + 1) subs
    else if !empty then .ellipsis :: subchannelLoop true (lbaIndex + 1) subs
    else subchannelLoop empty (lbaIndex + 1) subs

/-- `redumper_subchannel` over the entries of `.subcode`. -/
def redumperSubchannel (subs : List Subcode) : List SubchannelLine := subchannelLoop false 0 subs

/-- The line of each slot on its own: its Q line, or `...` when its Q is empty. -/
def slotLines : Nat → List Subcode → List SubchannelLine
  | _, [] => []
  | lbaIndex, sub :: subs =>
    (if emptyQ sub then .ellipsis else qLine lbaIndex sub) :: slotLines (lbaIndex + 1) subs

/-- A slot's Q line differs from every line of the slots after it. -/
theorem qLine_ne_head (lbaIndex : Nat) (sub : Subcode) (subs : List Subcode) :
    ∀ b ∈ (slotLines (lbaIndex + 1) subs).head?, qLine lbaIndex sub ≠ b := by
  cases subs with
  | nil => simp [slotLines]
  | cons s subs =>
    simp only [slotLines, List.head?_cons, Option.mem_def, Option.some.injEq, forall_eq']
    split <;> simp [qLine]

/-- A Q line is kept, whatever follows it. -/
theorem destutter'_qLine (lbaIndex : Nat) (sub : Subcode) (subs : List Subcode) :
    (slotLines (lbaIndex + 1) subs).destutter' (· ≠ ·) (qLine lbaIndex sub) =
      qLine lbaIndex sub :: (slotLines (lbaIndex + 1) subs).destutter (· ≠ ·) := by
  have h := qLine_ne_head lbaIndex sub subs
  cases hs : slotLines (lbaIndex + 1) subs with
  | nil => rfl
  | cons b l =>
    rw [hs] at h
    rw [List.destutter'_cons_pos _ (h b rfl), List.destutter_cons']

/-- The loop without a pending `...` is the slots' lines destuttered; with one, it is what
follows a `...`. -/
theorem subchannelLoop_eq : ∀ (subs : List Subcode) (k : Nat),
    subchannelLoop false k subs = (slotLines k subs).destutter (· ≠ ·) ∧
      .ellipsis :: subchannelLoop true k subs = (slotLines k subs).destutter' (· ≠ ·) .ellipsis
  | [], _ => ⟨rfl, rfl⟩
  | sub :: subs, k => by
    obtain ⟨ih1, ih2⟩ := subchannelLoop_eq subs (k + 1)
    cases he : emptyQ sub
    · have hq : qLine k sub ≠ .ellipsis := by simp [qLine]
      simp only [subchannelLoop, slotLines, he, Bool.not_false, if_true, Bool.false_eq_true,
        if_false]
      rw [List.destutter_cons', List.destutter'_cons_pos _ hq.symm, destutter'_qLine, ih1]
      exact ⟨rfl, rfl⟩
    · simp only [subchannelLoop, slotLines, he, Bool.not_true, Bool.false_eq_true, if_false,
        if_true, Bool.not_false]
      rw [List.destutter_cons', ← ih2, List.destutter'_cons_neg _ (not_not.2 rfl), ← ih2]
      exact ⟨rfl, rfl⟩

/-- **The subchannel log.** `redumper_subchannel` logs the line of each slot in order, a run
of slots with an empty Q as one `...`: the slots' own lines with adjacent repeats removed,
only `...` ever repeating since every Q line carries its slot's LBA. -/
theorem redumperSubchannel_eq (subs : List Subcode) :
    redumperSubchannel subs = (slotLines 0 subs).destutter (· ≠ ·) :=
  (subchannelLoop_eq subs 0).1

/-- Two slots never written: one `...`. -/
example : redumperSubchannel [fun _ => 0, fun _ => 0] = [.ellipsis] := by decide

end Redumper.Subchannel
