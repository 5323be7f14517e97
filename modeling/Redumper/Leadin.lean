import Redumper.Sector

/-!
# Plextor lead-in capture

`plextor_store_sessions_leadin` (`src/redumper.cc`), which `redumper_dump` runs on a Plextor
drive before its main loop, in a dump and in a refine alike.

For each session the drive is asked for a lead-in (`plextor_read_leadin`, here the
function `leadin` of the attempt's index). A buffer of enough entries is searched from its
end for an anchor: an entry read without error whose Q is valid, of `adr` 1 with a track
number, and whose absolute position lies in the pregap window
`[session_lba_start, session_lba_start + P)` of a session, `P = pregap_start - MSF_LBA_SHIFT`.
The buffer is trimmed so that it ends where that pregap ends, and the longest buffer of
each session is kept. The entries before the first valid Q are stripped (PX-760A). Each
remaining entry `i` of `n` is then committed at `session_lba_start + P - (n - i)`: its data
and the state `SUCCESS_C2_OFF` over the whole slot when some stored sample is below
`SUCCESS_C2_OFF`, its subcode when the stored Q is invalid.

## What is proved

* `commitEntry_state`: a commit leaves `.state` alone, or sets the one slot it writes to
  `SUCCESS_C2_OFF`, which it does only when a stored sample of that slot is below it.
* `commitEntry_sub`: a subcode slot whose Q is valid is never rewritten.
* `plextorStoreSessionsLeadin_state`, `plextorStoreSessionsLeadin_sub`: the same of the
  commit of all sessions: a slot is rewritten at most once, to all `SUCCESS_C2_OFF`.
* `commitEntry_slot`, `commitEntry_slot_of_ne`: what the commit of one entry leaves in the
  slot of its LBA, and that it writes no other slot.
* `leadin_commit_aligned`: the three index computations agree. A kept buffer comes from an
  anchor `a` at position `lba` (`anchor_eq_some`, `collect_getElem?`), loses a prefix shorter
  than `a` in the strip (`strip_eq_drop`), and the commit of the session, which names each slot
  once (`nodup_commitPlan`), writes the entry of original index `k` at `lba - (a - k)`: the
  anchor at `lba`, the last entry at the end of the pregap, and nothing outside the span of the
  buffer.
-/

namespace Redumper

/-- An entry of `plextor_read_leadin`'s buffer, as the lead-in code reads it: the status at its
start, the data after the status, and the subcode at
`entry + sizeof(SPTD::Status) + CD_DATA_SIZE`. -/
structure LeadinEntry where
  /-- `status.status_code`. -/
  statusCode : Nat
  /-- The `CD_DATA_SIZE` bytes after the status. -/
  data : Words
  /-- The `CD_SUBCODE_SIZE` bytes after the data. -/
  sub : Subcode

namespace Leadin

variable (q : QDecoder)

/-- The anchor search of one buffer, from entry `j - 1` down: the session whose pregap
window holds the position of the last entry read without error that has one, and
`trim_count = j - 1 + pregap_end - lba`. -/
def anchor (sessionLbaStart : List Int) (P : Int) (buffer : List LeadinEntry) :
    Nat → Option (Nat × Nat)
  | 0 => none
  | j + 1 =>
    match buffer[j]?.bind fun e => if e.statusCode = 0 then q.position e.sub else none with
    | none => anchor sessionLbaStart P buffer j
    | some lba =>
      match sessionLbaStart.findIdx? fun start => decide (start ≤ lba ∧ lba < start + P) with
      | none => anchor sessionLbaStart P buffer j
      | some s => some (s, uint32 (j + (sessionLbaStart.getD s 0 + P) - lba))

/-- One attempt: a buffer of at least `P` entries with an anchor and a complete pregap is
trimmed to `trim_count` entries and kept for its session if it is longer than the one kept. -/
def attempt (sessionLbaStart : List Int) (P : Int) (kept : List (List LeadinEntry))
    (buffer : List LeadinEntry) : List (List LeadinEntry) :=
  if buffer.length < uint32 P then kept else
  match anchor q sessionLbaStart P buffer buffer.length with
  | none => kept
  | some (s, trim) =>
    if buffer.length < trim then kept else
    let b := if trim < buffer.length then buffer.take trim else buffer
    if (kept.getD s []).length < b.length then kept.set s b else kept

/-- The buffers kept after one attempt per session. -/
def collect (leadin : Nat → List LeadinEntry) (sessionLbaStart : List Int) (P : Int) :
    List (List LeadinEntry) :=
  (List.range sessionLbaStart.length).foldl
    (fun kept i => attempt q sessionLbaStart P kept (leadin i))
    (List.replicate sessionLbaStart.length [])

/-- PX-760A: drop the entries before the first one whose Q is valid. -/
def strip (buffer : List LeadinEntry) : List LeadinEntry :=
  match buffer.findIdx? fun e => q.valid e.sub with
  | some i => buffer.drop i
  | none => buffer

/-- The data part of a commit: the entry's data and `SUCCESS_C2_OFF` over the whole slot,
when some stored sample of it is below `SUCCESS_C2_OFF`. -/
def commitData (files : Files) (idx : Int) (data : Words) : Files :=
  if HasBelow (files.state idx) .successC2Off then
    (files.writeScm idx data).writeState idx fun _ => .successC2Off
  else files

/-- The subcode part of a commit: the entry's subcode, when the stored Q is invalid. -/
def commitSub (files : Files) (idx : Int) (sub : Subcode) : Files :=
  if q.valid (files.sub idx) then files else files.writeSub idx sub

/-- The commit of one entry at `lba`: nothing for an entry read with an error. -/
def commitEntry (files : Files) (lba : Int) (e : LeadinEntry) : Files :=
  if e.statusCode ≠ 0 then files
  else commitSub q (commitData files (lbaIndex lba) e.data) (lbaIndex lba) e.sub

/-- The commit of a session's `n` entries: entry `i` at `session_lba_start + P - (n - i)`. -/
def commitSession (files : Files) (start P : Int) (buffer : List LeadinEntry) : Files :=
  buffer.enum.foldl
    (fun files ie => commitEntry q files (start + P - ((buffer.length - ie.1 : Nat) : Int)) ie.2)
    files

end Leadin

open Leadin in
/-- `plextor_store_sessions_leadin`. -/
def plextorStoreSessionsLeadin (q : QDecoder) (leadin : Nat → List LeadinEntry)
    (sessionLbaStart : List Int) (pregapStart : Int) (files : Files) : Files :=
  let P := pregapStart - MSF_LBA_SHIFT
  let kept := (collect q leadin sessionLbaStart P).map (strip q)
  (sessionLbaStart.zip kept).foldl (fun files sb => commitSession q files sb.1 P sb.2) files

namespace Leadin

variable {q}

/-! ### What a commit writes -/

@[simp] theorem commitData_sub (files : Files) (idx : Int) (data : Words) :
    (commitData files idx data).sub = files.sub := by
  unfold commitData; split <;> rfl

@[simp] theorem commitSub_state (files : Files) (idx : Int) (sub : Subcode) :
    (commitSub q files idx sub).state = files.state := by
  unfold commitSub; split <;> rfl

theorem commitData_state (files : Files) (idx : Int) (data : Words) (L : Int) :
    (commitData files idx data).state L = files.state L ∨
      (L = idx ∧ HasBelow (files.state L) .successC2Off ∧
        (commitData files idx data).state L = fun _ => .successC2Off) := by
  unfold commitData
  by_cases h : HasBelow (files.state idx) .successC2Off
  · rw [if_pos h]
    by_cases hL : L = idx
    · subst hL
      exact .inr ⟨rfl, h, Function.update_same _ _ _⟩
    · exact .inl (Function.update_noteq hL _ _)
  · rw [if_neg h]
    exact .inl rfl

theorem commitSub_sub (files : Files) (idx : Int) (sub : Subcode) {L : Int}
    (h : q.valid (files.sub L) = true) : (commitSub q files idx sub).sub L = files.sub L := by
  unfold commitSub
  by_cases hL : L = idx
  · subst hL
    simp [h]
  · split_ifs <;> simp [Function.update_noteq hL]

theorem commitEntry_state (files : Files) (lba : Int) (e : LeadinEntry) (L : Int) :
    (commitEntry q files lba e).state L = files.state L ∨
      (L = lbaIndex lba ∧ HasBelow (files.state L) .successC2Off ∧
        (commitEntry q files lba e).state L = fun _ => .successC2Off) := by
  unfold commitEntry
  split_ifs
  · exact .inl rfl
  · simpa using commitData_state files (lbaIndex lba) e.data L

theorem commitEntry_sub (files : Files) (lba : Int) (e : LeadinEntry) {L : Int}
    (h : q.valid (files.sub L) = true) : (commitEntry q files lba e).sub L = files.sub L := by
  unfold commitEntry
  split_ifs
  · rfl
  · rw [commitSub_sub _ _ _ (by simpa using h), commitData_sub]

/-! ### The slot a commit writes -/

/-- What a commit leaves in the slot of its LBA: the entry's data and all `SUCCESS_C2_OFF` when a
stored sample is below `SUCCESS_C2_OFF`, the entry's subcode when the stored Q is invalid. -/
theorem commitEntry_slot (files : Files) (lba : Int) (e : LeadinEntry) :
    (commitEntry q files lba e).slot (lbaIndex lba) =
      if e.statusCode ≠ 0 then files.slot (lbaIndex lba)
      else ((if HasBelow (files.state (lbaIndex lba)) .successC2Off then e.data
          else files.scm (lbaIndex lba)),
        (if q.valid (files.sub (lbaIndex lba)) then files.sub (lbaIndex lba) else e.sub),
        (if HasBelow (files.state (lbaIndex lba)) .successC2Off then fun _ => .successC2Off
          else files.state (lbaIndex lba))) := by
  unfold commitEntry commitSub
  by_cases hs : e.statusCode ≠ 0
  · simp only [if_pos hs]
  · by_cases hb : HasBelow (files.state (lbaIndex lba)) .successC2Off <;>
      by_cases hv : q.valid (files.sub (lbaIndex lba)) <;> simp [hs, hb, hv, commitData, Files.slot]

/-- A commit writes the slot of its own LBA and no other. -/
theorem commitEntry_slot_of_ne (files : Files) {lba L : Int} (e : LeadinEntry) (h : L ≠ lba) :
    (commitEntry q files lba e).slot (lbaIndex L) = files.slot (lbaIndex L) := by
  have hL : lbaIndex L ≠ lbaIndex lba := by unfold lbaIndex; omega
  unfold commitEntry commitSub commitData
  split_ifs <;> simp [Files.slot, Function.update_noteq hL]

/-- What a commit leaves in its slot depends only on what the slot held. -/
theorem commitEntry_slot_congr {f g : Files} (lba : Int) (e : LeadinEntry)
    (h : f.slot (lbaIndex lba) = g.slot (lbaIndex lba)) :
    (commitEntry q f lba e).slot (lbaIndex lba) = (commitEntry q g lba e).slot (lbaIndex lba) := by
  simp only [Files.slot, Prod.mk.injEq] at h
  rw [commitEntry_slot, commitEntry_slot, Files.slot, Files.slot, h.1, h.2.1, h.2.2]

/-- Commits at distinct LBAs, one after another: a slot none of them names is left alone, and
the slot of one of them holds what that commit alone makes of it. -/
theorem foldl_commitEntry_slot_of_not_mem (files : Files) {L : Int} :
    ∀ {l : List (Int × LeadinEntry)}, (∀ p ∈ l, p.1 ≠ L) →
      (l.foldl (fun f le => commitEntry q f le.1 le.2) files).slot (lbaIndex L) =
        files.slot (lbaIndex L)
  | [], _ => rfl
  | p :: l, h => by
    rw [List.foldl_cons, foldl_commitEntry_slot_of_not_mem _ fun p' hp' => h p' (.tail _ hp'),
      commitEntry_slot_of_ne _ _ (h p (.head _)).symm]

theorem foldl_commitEntry_slot_of_mem {L : Int} {e : LeadinEntry} :
    ∀ {l : List (Int × LeadinEntry)} (files : Files), (l.map Prod.fst).Nodup → (L, e) ∈ l →
      (l.foldl (fun f le => commitEntry q f le.1 le.2) files).slot (lbaIndex L) =
        (commitEntry q files L e).slot (lbaIndex L)
  | p :: l, files, hl, hm => by
    rw [List.map_cons, List.nodup_cons] at hl
    rw [List.foldl_cons]
    rcases List.mem_cons.1 hm with rfl | hm
    · exact foldl_commitEntry_slot_of_not_mem _ fun p' hp' h =>
        hl.1 (show L ∈ l.map Prod.fst from h ▸ List.mem_map_of_mem Prod.fst hp')
    · have hne : L ≠ p.1 := fun h => hl.1 (h ▸ List.mem_map_of_mem Prod.fst hm)
      rw [foldl_commitEntry_slot_of_mem _ hl.2 hm]
      exact commitEntry_slot_congr _ _ (commitEntry_slot_of_ne _ _ hne)

/-! ### The whole commit -/

/-- What every commit of an entry keeps, the commit of all sessions keeps. -/
theorem plextorStoreSessionsLeadin_induction {P : Files → Prop}
    (hP : ∀ files lba e, P files → P (commitEntry q files lba e))
    (leadin : Nat → List LeadinEntry) (sessionLbaStart : List Int) (pregapStart : Int)
    {files : Files} (h : P files) :
    P (plextorStoreSessionsLeadin q leadin sessionLbaStart pregapStart files) :=
  List.foldlRecOn _ _ _ h fun _ hf _ _ => List.foldlRecOn _ _ _ hf fun _ hf _ _ => hP _ _ _ hf

/-! ### Where a kept buffer is committed -/

/-- The slots the commit of a session walks through, in order: entry `i` of `n` goes to
`session_lba_start + P - (n - i)`. -/
def commitPlan (start P : Int) (buffer : List LeadinEntry) : List (Int × LeadinEntry) :=
  buffer.enum.map fun ie => (start + P - ((buffer.length - ie.1 : Nat) : Int), ie.2)

theorem commitSession_eq (files : Files) (start P : Int) (buffer : List LeadinEntry) :
    commitSession q files start P buffer =
      (commitPlan start P buffer).foldl (fun f le => commitEntry q f le.1 le.2) files := by
  simp only [commitSession, commitPlan, List.foldl_map]

@[simp] theorem length_commitPlan (start P : Int) (buffer : List LeadinEntry) :
    (commitPlan start P buffer).length = buffer.length := by
  simp only [commitPlan, List.length_map, List.enum_length]

theorem getElem?_commitPlan (start P : Int) (buffer : List LeadinEntry) (k : Nat) :
    (commitPlan start P buffer)[k]? =
      buffer[k]?.map fun e => (start + P - ((buffer.length - k : Nat) : Int), e) := by
  simp only [commitPlan, List.getElem?_map, List.getElem?_enum, Option.map_map]
  rfl

/-- The commit of a session names each slot at most once. -/
theorem nodup_commitPlan (start P : Int) (buffer : List LeadinEntry) :
    ((commitPlan start P buffer).map Prod.fst).Nodup := by
  rw [commitPlan, List.map_map, show Prod.fst ∘ (fun ie : Nat × LeadinEntry =>
      (start + P - ((buffer.length - ie.1 : Nat) : Int), ie.2)) =
      (fun i : Nat => start + P - ((buffer.length - i : Nat) : Int)) ∘ Prod.fst from rfl,
    ← List.map_map, List.enum_map_fst]
  refine (List.nodup_range _).map_on fun i hi j hj hij => ?_
  rw [List.mem_range] at hi hj
  omega

/-- The commit of a session of `n` entries names only slots of `[start + P - n, start + P)`. -/
theorem fst_mem_commitPlan {start P : Int} {buffer : List LeadinEntry} {p : Int × LeadinEntry}
    (h : p ∈ commitPlan start P buffer) : start + P - buffer.length ≤ p.1 ∧ p.1 < start + P := by
  obtain ⟨ie, hie, rfl⟩ := List.mem_map.1 h
  have := List.fst_lt_of_mem_enum hie
  dsimp only
  omega

/-- The last entry of a buffer is committed at `session_lba_start + P - 1`. -/
theorem getLast?_commitPlan (start P : Int) (buffer : List LeadinEntry) :
    (commitPlan start P buffer).getLast? = buffer.getLast?.map fun e => (start + P - 1, e) := by
  rw [List.getLast?_eq_getElem?, List.getLast?_eq_getElem?, length_commitPlan, getElem?_commitPlan]
  rcases Nat.eq_zero_or_pos buffer.length with h | h
  · simp [List.length_eq_zero.1 h]
  · congr 2
    funext e
    congr 1
    omega

/-- The entries `[i, T)` of `b` are committed in order up to `session_lba_start + P - 1`:
entry `k` at `session_lba_start + P - (T - k)`. -/
theorem getElem?_commitPlan_drop_take (start P : Int) (b : List LeadinEntry) {i T k : Nat}
    (hT : T ≤ b.length) (hk : k < b.length) (hik : i ≤ k) (hkT : k < T) :
    (commitPlan start P ((b.take T).drop i))[k - i]? =
      some (start + P - ((T - k : Nat) : Int), b[k]) := by
  rw [getElem?_commitPlan, List.getElem?_drop, List.getElem?_take, if_pos (by omega),
    Nat.add_sub_cancel' hik, List.getElem?_eq_getElem hk, Option.map_some', List.length_drop,
    List.length_take]
  congr 3
  omega

/-- What the anchor search found: the entry `a`, read without error, with its position in
the pregap window of session `s`, and `trim_count = a + pregap_end - lba` in `uint32_t`. -/
theorem anchor_eq_some {sessionLbaStart : List Int} {P : Int} {buffer : List LeadinEntry}
    {s trim : Nat} : ∀ {m : Nat}, anchor q sessionLbaStart P buffer m = some (s, trim) →
    ∃ a < m, ∃ ha : a < buffer.length, ∃ lba, buffer[a].statusCode = 0 ∧
      q.position buffer[a].sub = some lba ∧ sessionLbaStart[s]? = some (sessionLbaStart.getD s 0) ∧
      sessionLbaStart.getD s 0 ≤ lba ∧ lba < sessionLbaStart.getD s 0 + P ∧
      trim = uint32 (a + (sessionLbaStart.getD s 0 + P) - lba)
  | 0, h => by simp [anchor] at h
  | j + 1, h => by
    unfold anchor at h
    split at h
    · obtain ⟨a, ha, rest⟩ := anchor_eq_some h
      exact ⟨a, by omega, rest⟩
    next lba hlba =>
      split at h
      · obtain ⟨a, ha, rest⟩ := anchor_eq_some h
        exact ⟨a, by omega, rest⟩
      next s' hs =>
        obtain ⟨rfl, rfl⟩ := Prod.mk.inj (Option.some.inj h)
        obtain ⟨e, he, hpos⟩ := Option.bind_eq_some.1 hlba
        obtain ⟨hj, rfl⟩ := List.getElem?_eq_some_iff.1 he
        obtain ⟨hs', hp, -⟩ := List.findIdx?_eq_some_iff_getElem.1 hs
        have hget : sessionLbaStart.getD s' 0 = sessionLbaStart[s'] := by
          simp [List.getD_eq_getElem?_getD, List.getElem?_eq_getElem hs']
        split at hpos
        · simp only [decide_eq_true_eq] at hp
          exact ⟨j, by omega, hj, lba, ‹_›, hpos, by rw [hget, List.getElem?_eq_getElem hs'],
            hget ▸ hp.1, hget ▸ hp.2, rfl⟩
        · cases hpos

/-- A buffer kept for session `s` is empty, or the start of an attempt's buffer cut at the
`trim_count` its anchor in that session gave. -/
theorem collect_getElem? (leadin : Nat → List LeadinEntry) (sessionLbaStart : List Int) (P : Int)
    {s : Nat} {b : List LeadinEntry} (h : (collect q leadin sessionLbaStart P)[s]? = some b) :
    b = [] ∨ ∃ att < sessionLbaStart.length, ∃ trim,
      anchor q sessionLbaStart P (leadin att) (leadin att).length = some (s, trim) ∧
      trim ≤ (leadin att).length ∧ b = (leadin att).take trim := by
  revert s b
  refine List.foldlRecOn (motive := fun kept => ∀ {s : Nat} {b : List LeadinEntry}, kept[s]? = some b →
    b = [] ∨ ∃ att < sessionLbaStart.length, ∃ trim,
      anchor q sessionLbaStart P (leadin att) (leadin att).length = some (s, trim) ∧
      trim ≤ (leadin att).length ∧ b = (leadin att).take trim) _ _ _ ?_ ?_
  · intro s b h
    rw [List.getElem?_replicate] at h
    split at h
    · exact .inl (Option.some.inj h).symm
    · cases h
  · intro kept ih i hi s b h
    have hi' := List.mem_range.1 hi
    unfold attempt at h
    split at h
    · exact ih h
    split at h
    · exact ih h
    next s' trim ha =>
      split at h
      · exact ih h
      next hlen =>
        have hb : (if trim < (leadin i).length then (leadin i).take trim else leadin i) =
            (leadin i).take trim := by
          split
          · rfl
          · exact (List.take_of_length_le (by omega)).symm
        dsimp only at h
        rw [hb] at h
        split at h
        · rw [List.getElem?_set] at h
          split at h
          next hs =>
            subst hs
            split at h
            · exact .inr ⟨i, hi', trim, ha, by omega, (Option.some.inj h).symm⟩
            · cases h
          · exact ih h
        · exact ih h

/-- PX-760A: a buffer holding an entry with a valid Q loses at most the entries before it. -/
theorem strip_eq_drop {b : List LeadinEntry} {a : Nat} (ha : a < b.length)
    (hv : q.valid b[a].sub = true) : ∃ i ≤ a, strip q b = b.drop i := by
  unfold strip
  split
  next i hi =>
    obtain ⟨hlt, -, hmin⟩ := List.findIdx?_eq_some_iff_getElem.1 hi
    exact ⟨i, Nat.le_of_not_lt fun hlt => hmin a hlt hv, rfl⟩
  next hn =>
    rw [List.findIdx?_eq_none_iff] at hn
    exact absurd (hn _ (List.getElem_mem ha)) (by simp [hv])

end Leadin

open Leadin

variable {q} (leadin : Nat → List LeadinEntry) (sessionLbaStart : List Int) (pregapStart : Int)
  (files : Files)

/-- The lead-in commit never rewrites a subcode slot whose Q is valid. -/
theorem plextorStoreSessionsLeadin_sub {L : Int} (h : q.valid (files.sub L) = true) :
    (plextorStoreSessionsLeadin q leadin sessionLbaStart pregapStart files).sub L = files.sub L :=
  plextorStoreSessionsLeadin_induction (P := fun f => f.sub L = files.sub L)
    (fun _ _ _ hf => (commitEntry_sub _ _ _ (hf ▸ h)).trans hf) leadin sessionLbaStart pregapStart rfl

/-- The lead-in commit leaves a `.state` slot alone, or sets all of it to `SUCCESS_C2_OFF`,
which it does only when some sample stored before was below `SUCCESS_C2_OFF`. -/
theorem plextorStoreSessionsLeadin_state (L : Int) :
    (plextorStoreSessionsLeadin q leadin sessionLbaStart pregapStart files).state L = files.state L ∨
      (HasBelow (files.state L) .successC2Off ∧
        (plextorStoreSessionsLeadin q leadin sessionLbaStart pregapStart files).state L =
          fun _ => .successC2Off) := by
  refine plextorStoreSessionsLeadin_induction (P := fun f => f.state L = files.state L ∨
    (HasBelow (files.state L) .successC2Off ∧ f.state L = fun _ => .successC2Off))
    ?_ leadin sessionLbaStart pregapStart (.inl rfl)
  intro f lba e hf
  rcases commitEntry_state f lba e L with h | ⟨-, hb, h⟩
  · rwa [h]
  · rcases hf with hf | ⟨-, hf⟩
    · exact .inr ⟨hf ▸ hb, h⟩
    · obtain ⟨i, hi⟩ := hb
      rw [hf] at hi
      exact absurd hi (lt_irrefl _)

/-- **Where the lead-in lands.** `plextorStoreSessionsLeadin` commits session `s` by
`commitSession` over the streams the sessions before it left (`files`), walking the buffer kept
for `s` after the strip. That buffer is empty, or it comes from an attempt whose anchor, entry
`a` read without error at position `lba` in the pregap window of `s`, set `trim_count`: the
strip left the entries from some `i ≤ a` on, and the commit writes each surviving entry of
original index `k` at `lba - (a - k)`, the slot holding what the commit of that entry alone
makes of it; so the anchor lands at `lba` and the last entry at `session_lba_start[s] + P - 1`,
and no slot outside the buffer's span is written. The entry counts and `P` fit in `uint32_t`,
as they do for every buffer of less than 4 GiB, where `entries_count` is the number of
entries. -/
theorem leadin_commit_aligned
    (hfit : ∀ i, (leadin i).length + (pregapStart - MSF_LBA_SHIFT).toNat < 2 ^ 32)
    {s : Nat} {start : Int} {buffer : List LeadinEntry}
    (hs : (sessionLbaStart.zip ((collect q leadin sessionLbaStart
      (pregapStart - MSF_LBA_SHIFT)).map (strip q)))[s]? = some (start, buffer)) :
    buffer = [] ∨ ∃ att < sessionLbaStart.length, ∃ a, ∃ ha : a < (leadin att).length, ∃ lba : Int,
      (leadin att)[a].statusCode = 0 ∧ q.position (leadin att)[a].sub = some lba ∧
      start ≤ lba ∧ lba < start + (pregapStart - MSF_LBA_SHIFT) ∧
      ∃ i ≤ a, buffer =
          ((leadin att).take (a + (start + (pregapStart - MSF_LBA_SHIFT) - lba).toNat)).drop i ∧
        (∀ k (hk : k < (leadin att).length), i ≤ k →
          k < a + (start + (pregapStart - MSF_LBA_SHIFT) - lba).toNat →
          (commitSession q files start (pregapStart - MSF_LBA_SHIFT) buffer).slot
              (lbaIndex (lba - (a - k))) =
            (commitEntry q files (lba - (a - k)) (leadin att)[k]).slot (lbaIndex (lba - (a - k)))) ∧
        (commitSession q files start (pregapStart - MSF_LBA_SHIFT) buffer).slot (lbaIndex lba) =
          (commitEntry q files lba (leadin att)[a]).slot (lbaIndex lba) ∧
        (∃ e, buffer.getLast? = some e ∧
          (commitSession q files start (pregapStart - MSF_LBA_SHIFT) buffer).slot
              (lbaIndex (start + (pregapStart - MSF_LBA_SHIFT) - 1)) =
            (commitEntry q files (start + (pregapStart - MSF_LBA_SHIFT) - 1) e).slot
              (lbaIndex (start + (pregapStart - MSF_LBA_SHIFT) - 1))) ∧
        ∀ L, L < start + (pregapStart - MSF_LBA_SHIFT) - buffer.length ∨
            start + (pregapStart - MSF_LBA_SHIFT) ≤ L →
          (commitSession q files start (pregapStart - MSF_LBA_SHIFT) buffer).slot (lbaIndex L) =
            files.slot (lbaIndex L) := by
  generalize pregapStart - MSF_LBA_SHIFT = P at hfit hs ⊢
  obtain ⟨h1, h2⟩ := List.getElem?_zip_eq_some.1 hs
  dsimp only at h1 h2
  rw [List.getElem?_map] at h2
  obtain ⟨c, hc, rfl⟩ := Option.map_eq_some'.1 h2
  rcases collect_getElem? leadin sessionLbaStart P hc with rfl | ⟨att, hatt, trim, ha, htrim, rfl⟩
  · exact .inl rfl
  obtain ⟨a, -, ha', lba, hst, hpos, hs', hlo, hhi, htrimeq⟩ := anchor_eq_some ha
  rw [h1, Option.some_inj] at hs'
  rw [← hs'] at hlo hhi htrimeq
  have hlen := hfit att
  -- `trim_count` does not wrap
  have htrim' : trim = a + (start + P - lba).toNat := by
    rw [htrimeq, uint32, Int.emod_eq_of_lt (by omega) (by omega)]
    omega
  subst htrim'
  obtain ⟨i, hia, hstrip⟩ := strip_eq_drop (q := q)
    (b := (leadin att).take (a + (start + P - lba).toNat)) (a := a)
    (by rw [List.length_take]; omega)
    (by simpa [List.getElem_take] using QDecoder.valid_of_position hpos)
  set buffer := strip q ((leadin att).take (a + (start + P - lba).toNat))
  have hne : buffer ≠ [] := by
    rw [hstrip, ← List.length_pos, List.length_drop, List.length_take]
    omega
  -- each surviving entry is committed at its slot, by the plan of the session
  have hslot : ∀ k (hk : k < (leadin att).length), i ≤ k → k < a + (start + P - lba).toNat →
      (commitSession q files start P buffer).slot (lbaIndex (lba - (a - k))) =
        (commitEntry q files (lba - (a - k)) (leadin att)[k]).slot (lbaIndex (lba - (a - k))) :=
    fun k hk hik hkt => by
      have hplan := getElem?_commitPlan_drop_take start P _ (by omega) hk hik hkt
      rw [← hstrip, show start + P - ((a + (start + P - lba).toNat - k : Nat) : Int) =
        lba - (a - k) by omega] at hplan
      rw [commitSession_eq]
      exact foldl_commitEntry_slot_of_mem _ (nodup_commitPlan start P buffer) (List.getElem?_mem hplan)
  obtain ⟨e, he⟩ := Option.isSome_iff_exists.1 (List.getLast?_isSome.2 hne)
  refine .inr ⟨att, hatt, a, ha', lba, hst, hpos, hlo, hhi, i, hia, hstrip, hslot,
    by simpa using hslot a ha' hia (by omega), ⟨e, he, ?_⟩, fun L hL => ?_⟩ <;>
    rw [commitSession_eq]
  · have hl : (commitPlan start P buffer).getLast? = some (start + P - 1, e) := by
      rw [getLast?_commitPlan, he, Option.map_some']
    exact foldl_commitEntry_slot_of_mem _ (nodup_commitPlan start P buffer)
      (List.mem_of_getLast?_eq_some hl)
  · exact foldl_commitEntry_slot_of_not_mem _ fun p hp => by
      have := fst_mem_commitPlan hp
      omega

/-- One session from `-1` with `P = 2` (`pregap_start = -148`), and a drive that returns
two entries, both read and both at position `0`: the anchor is the last entry, the whole
buffer is kept, and the lead-in commit writes its last entry at `session_lba_start + P - 1 = 0`. -/
theorem leadin_commit_last_at_zero : ∃ (q : QDecoder) (leadin : Nat → List LeadinEntry)
    (buffer : List LeadinEntry) (e : LeadinEntry),
    (∀ i, (leadin i).length + (-148 - MSF_LBA_SHIFT).toNat < 2 ^ 32) ∧
    ([-1].zip ((collect q leadin [-1] (-148 - MSF_LBA_SHIFT)).map (strip q)))[0]? =
      some (-1, buffer) ∧
    buffer.length = 2 ∧ buffer.getLast? = some e ∧
    ∀ files, (plextorStoreSessionsLeadin q leadin [-1] (-148) files).slot (lbaIndex 0) =
      (commitEntry q files 0 e).slot (lbaIndex 0) := by
  have hs : ([-1].zip ((collect ⟨fun _ => true, fun _ => 1, fun _ => 1, fun _ => 0⟩
      (fun _ => [⟨0, fun _ => 0, fun _ => 0⟩, ⟨0, fun _ => 0, fun _ => 0⟩]) [-1]
      (-148 - MSF_LBA_SHIFT)).map (strip ⟨fun _ => true, fun _ => 1, fun _ => 1, fun _ => 0⟩)))[0]? =
      some (-1, [⟨0, fun _ => 0, fun _ => 0⟩, ⟨0, fun _ => 0, fun _ => 0⟩]) := rfl
  have hfit : ∀ i : Nat, ((fun _ => [(⟨0, fun _ => 0, fun _ => 0⟩ : LeadinEntry),
      ⟨0, fun _ => 0, fun _ => 0⟩]) i : List LeadinEntry).length +
      (-148 - MSF_LBA_SHIFT).toNat < 2 ^ 32 := fun _ => show 2 + _ < _ by decide
  refine ⟨_, _, _, ⟨0, fun _ => 0, fun _ => 0⟩, hfit, hs, rfl, rfl, fun files => ?_⟩
  rcases leadin_commit_aligned _ [-1] (-148) files hfit hs with h | ⟨-, -, -, -, -, -, -, -, -, -,
    -, -, -, -, ⟨e, he, hlast⟩, -⟩
  · cases h
  · obtain rfl := Option.some.inj he
    rw [show (-1 : Int) + (-148 - MSF_LBA_SHIFT) - 1 = 0 by decide] at hlast
    exact hlast

end Redumper
