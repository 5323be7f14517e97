import Redumper.Step
import Redumper.Dump
import Redumper.ChannelQ

/-!
# What a refine does to the streams

A refine (`redumper_dump` with `refine`) opens the streams of an earlier dump and writes
them in two places: the Plextor lead-in commit before the loop, and the store of the loop.

## What is proved

* `refine_state_monotone`: no store of the loop lowers a sample of `.state`; the lead-in
  commit leaves a slot alone or sets all of it to `SUCCESS_C2_OFF`, and only when some
  stored sample was below `SUCCESS_C2_OFF`.
* `refine_leadin_lowers_state`: so the lead-in commit can lower a sample: a slot holding
  `SUCCESS` next to `ERROR_C2` comes out all `SUCCESS_C2_OFF`.
* `refine_valid_sub_kept`: no write of a refine rewrites a subcode slot whose Q is valid,
  whatever `subcode_shift` the loop adopts.
-/

namespace Redumper

variable (q : QDecoder) (io : Io) (env : Env)

/-! ### One pass of a refine -/

/-- In a refine a pass never lowers a stored sample. -/
theorem step_state_mono (h : env.refine = true) (s : Loop) (L : Int)
    (i : Fin CD_DATA_SIZE_SAMPLES) : s.files.state L i ≤ (step q io env s).files.state L i := by
  rcases step_files q io env s with h' | h' <;> rw [h']
  simpa using storePhase_state_mono q env (prepare q io env s) h L i

/-- In a refine a pass never rewrites a subcode slot whose Q is valid. -/
theorem step_sub_of_valid (h : env.refine = true) (s : Loop) {L : Int}
    (hv : q.valid (s.files.sub L) = true) : (step q io env s).files.sub L = s.files.sub L := by
  rcases step_files q io env s with h' | h' <;> rw [h']
  simpa using storePhase_sub_of_valid q env (prepare q io env s) h (L := L) (by simpa using hv)

theorem dumpStart_files (leadin : Bool) (sessionStart : List Int) (pregapStart : Int)
    (files : Files) : (dumpStart q io env leadin sessionStart pregapStart files).files =
      if leadin then plextorStoreSessionsLeadin q io.leadin sessionStart pregapStart files
      else files := rfl

/-! ### A whole refine -/

section Run

variable (leadin : Bool) (sessionStart : List Int) (pregapStart : Int) (files : Files)

/-- **What a refine does to `.state`.** The lead-in commit leaves a slot alone, or sets all of it
to `SUCCESS_C2_OFF` when some stored sample was below it; after it, no pass of the loop lowers
a stored sample. -/
theorem refine_state_monotone (h : env.refine = true) (L : Int) :
    ((dumpStart q io env leadin sessionStart pregapStart files).files.state L = files.state L ∨
      (HasBelow (files.state L) .successC2Off ∧
        (dumpStart q io env leadin sessionStart pregapStart files).files.state L =
          fun _ => .successC2Off)) ∧
    ∀ n i, (run q io env n (dumpStart q io env leadin sessionStart pregapStart files)).files.state L i ≤
      (run q io env (n + 1) (dumpStart q io env leadin sessionStart pregapStart files)).files.state L i := by
  refine ⟨?_, fun n i => ?_⟩
  · rw [dumpStart_files]
    split
    · exact plextorStoreSessionsLeadin_state _ _ _ _ L
    · exact .inl rfl
  · rw [run_succ]
    exact step_state_mono q io env h _ L i

theorem refine_valid_sub_kept (h : env.refine = true) :
    (∀ L, q.valid (files.sub L) = true →
      (dumpStart q io env leadin sessionStart pregapStart files).files.sub L = files.sub L) ∧
    ∀ n m L, n ≤ m →
      q.valid ((run q io env n (dumpStart q io env leadin sessionStart pregapStart files)).files.sub L) →
      (run q io env m (dumpStart q io env leadin sessionStart pregapStart files)).files.sub L =
        (run q io env n (dumpStart q io env leadin sessionStart pregapStart files)).files.sub L := by
  refine ⟨fun L hv => ?_, fun n m L hnm hv => ?_⟩
  · rw [dumpStart_files]
    split
    · exact plextorStoreSessionsLeadin_sub _ _ _ _ hv
    · rfl
  · induction m, hnm using Nat.le_induction with
    | base => rfl
    | succ m _ ih =>
      rw [run_succ, step_sub_of_valid q io env h _ (ih ▸ hv), ih]

end Run

/-- A refine of `[0, 1)` from streams holding a valid Q at slot `0`: the slot survives any
number of passes. -/
theorem refine_valid_sub_kept_run : ∃ (io : Io) (env : Env) (files : Files), env.refine = true ∧
    ∀ n m L, n ≤ m →
      ChannelQ.valid ((run ChannelQ.decoder io env n (dumpStart ChannelQ.decoder io env false [] 0
        files)).files.sub L) →
      (run ChannelQ.decoder io env m (dumpStart ChannelQ.decoder io env false [] 0 files)).files.sub L =
        (run ChannelQ.decoder io env n (dumpStart ChannelQ.decoder io env false [] 0 files)).files.sub L :=
  let io : Io := ⟨fun _ _ => ⟨0, false, ⟨fun _ => 0, fun _ => 0, fun _ => 0⟩⟩, fun _ _ => [],
    fun _ => [], fun _ => false⟩
  let env : Env := ⟨true, 0, 1, false, [], [], .generic, true, false, true, 0⟩
  let files : Files := ⟨fun _ _ => 0, fun _ => ChannelQ.ofQ fun k => if k.val < 10 then 0 else 0xFF,
    fun _ _ => .errorSkip⟩
  ⟨io, env, files, rfl,
    (refine_valid_sub_kept ChannelQ.decoder io env false [] 0 files rfl).2⟩

/-- A refine on a Plextor over streams holding `ERROR_C2` everywhere: no pass lowers a
sample. -/
theorem refine_state_monotone_run : ∃ (io : Io) (env : Env) (files : Files), env.refine = true ∧
    ∀ L n i,
      (run ChannelQ.decoder io env n (dumpStart ChannelQ.decoder io env true [-150] (-149)
        files)).files.state L i ≤
      (run ChannelQ.decoder io env (n + 1) (dumpStart ChannelQ.decoder io env true [-150] (-149)
        files)).files.state L i :=
  let io : Io := ⟨fun _ _ => ⟨0, false, ⟨fun _ => 0, fun _ => 0, fun _ => 0⟩⟩, fun _ _ => [],
    fun _ => [], fun _ => false⟩
  let env : Env := ⟨true, 0, 1, false, [], [], .plextor, false, false, false, 0⟩
  let files : Files := ⟨fun _ _ => 0, fun _ _ => 0, fun _ _ => .errorC2⟩
  ⟨io, env, files, rfl, fun L =>
    (refine_state_monotone ChannelQ.decoder io env true [-150] (-149) files rfl L).2⟩

/-! ### The lead-in commit lowers samples -/

set_option maxRecDepth 20000 in
/-- A refine on a Plextor whose stored slot at LBA `-150` holds `SUCCESS` at sample `0` and
`ERROR_C2` elsewhere: the lead-in, one entry at `-150` read without error, rewrites the slot
as `SUCCESS_C2_OFF`, lowering sample `0`. -/
theorem refine_leadin_lowers_state : ∃ (io : Io) (env : Env) (files : Files),
    env.refine = true ∧
    (dumpStart ChannelQ.decoder io env true [-150] (-149) files).files.state (lbaIndex (-150)) 0 <
      files.state (lbaIndex (-150)) 0 := by
  refine ⟨⟨fun _ _ => ⟨2, false, ⟨fun _ => 0, fun _ => 0, fun _ => 0⟩⟩, fun _ _ => [],
      fun _ => [⟨0, fun _ => 7, ChannelQ.ofQ fun k =>
        [0x01, 0x01, 0, 0, 0, 0, 0, 0, 0, 0, 0x7B, 0x99].getD k.val 0⟩], fun _ => false⟩,
    ⟨true, 0, 0, false, [], [], .plextor, false, false, false, 0⟩,
    ⟨fun _ _ => 0, fun _ _ => 0, fun _ i => if i.val = 0 then .success else .errorC2⟩, rfl, ?_⟩
  decide

end Redumper
