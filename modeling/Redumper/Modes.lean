import Redumper.Dump
import Mathlib.Data.String.Basic

/-!
# The modes: `validate_options` and `redumper`

`redumper` (`src/redumper.cc`, lines 34–131) runs the modes its positional arguments name,
in order, once `validate_options` has filled in what they leave out: no argument means
`cd`, and `cd` stands for `dump protection refine split info`; a mode that needs a drive
gets the first ready one when none is given, and a dump gets a generated image name. A
`refine` is skipped when the dump before it reported no errors.

`first_ready_drive` and `system_date_time` ask the system; their answers are parameters.
The build is the one without `_WIN32`, which appends no colon to the drive. The log lines
are left out. A mode is the call `redumper` makes; what the call does is modelled in its own
module, and a dump is the value it returns (`dumpResult` of its loop), given for the `k`-th
dump of the invocation.

## What is proved

* `validateOptions_spec`: the one error `validate_options` throws, exactly when it throws
  it, and what the options hold when it does not: the modes expanded, a drive for the modes
  that need one, an image name for a dump.
* `validateOptions_idempotent`: the options it returns pass through it unchanged, whatever
  the system would answer.
* `redumper_calls`: the calls are the modes in order, except each `refine` whose latest
  earlier `dump` returned `false`, as the comment at line 103 puts it.
-/

namespace Redumper

/-! ### `validate_options` -/

/-- Lines 36–52: no positional argument means `cd`, and `cd` stands for its five modes. -/
def expandPositional (positional : List String) : List String :=
  (if positional.isEmpty then ["cd"] else positional).flatMap fun p =>
    if p = "cd" then ["dump", "protection", "refine", "split", "info"] else [p]

/-- Lines 56–58: a mode that needs a drive. -/
def driveRequired (positional : List String) : Bool :=
  positional.any fun p => p == "dump" || p == "refine" || p == "rings"

/-- Lines 60–61: a mode whose image is named. -/
def nameGenerate (positional : List String) : Bool := positional.any fun p => p == "dump"

/-- Lines 65–71: the drive, the first ready one when a mode needs one and none is given. -/
def autodetectDrive (firstReadyDrive : String) (positional : List String) (drive : String) :
    Except String String :=
  if driveRequired positional && drive.isEmpty then
    if firstReadyDrive.isEmpty then .error "no ready drives detected on the system"
    else .ok firstReadyDrive
  else .ok drive

/-- Lines 81–87: the image name, generated for a dump when none is given. -/
def generateImageName (dateTime : String) (positional : List String) (drive imageName : String) :
    String :=
  if nameGenerate positional && imageName.isEmpty then
    "dump_" ++ dateTime ++ "_" ++ String.mk (drive.toList.filter fun c => c != ':' && c != '/')
  else imageName

/-- `validate_options`, where `first_ready_drive()` returns `firstReadyDrive` and
`system_date_time("%y%m%d_%H%M%S")` returns `dateTime`. -/
def validateOptions (firstReadyDrive dateTime : String) (options : Options) :
    Except String Options :=
  let positional := expandPositional options.positional
  (autodetectDrive firstReadyDrive positional options.drive).map fun drive =>
    { options with positional := positional, drive := drive,
                   imageName := generateImageName dateTime positional drive options.imageName }

theorem expandPositional_ne_nil (positional : List String) :
    expandPositional positional ≠ [] := by
  unfold expandPositional
  split
  · simp
  next h =>
    obtain ⟨p, ps, rfl⟩ := List.exists_cons_of_ne_nil (by simpa using h)
    simp only [List.flatMap_cons]
    split <;> simp

theorem cd_not_mem_expandPositional (positional : List String) :
    "cd" ∉ expandPositional positional := by
  simp only [expandPositional, List.mem_flatMap, not_exists, not_and]
  intro p _
  split
  · simp
  · next h => exact fun h' => h (List.mem_singleton.1 h').symm

/-- `cd` is expanded once: an expanded list has nothing left to expand. -/
theorem expandPositional_expandPositional (positional : List String) :
    expandPositional (expandPositional positional) = expandPositional positional := by
  have hcd := cd_not_mem_expandPositional positional
  rw [expandPositional, if_neg (by simpa using expandPositional_ne_nil positional)]
  conv_rhs => rw [← List.flatMap_singleton' (expandPositional positional)]
  exact List.flatMap_congr fun p hp => if_neg fun (h : p = "cd") => hcd (h ▸ hp)

theorem autodetectDrive_eq_error (firstReadyDrive : String) (positional : List String)
    (drive msg : String) : autodetectDrive firstReadyDrive positional drive = .error msg ↔
      msg = "no ready drives detected on the system" ∧ driveRequired positional = true ∧
        drive = "" ∧ firstReadyDrive = "" := by
  unfold autodetectDrive
  by_cases hreq : driveRequired positional = true <;> by_cases hd : drive = "" <;>
    by_cases hf : firstReadyDrive = "" <;>
    simp [hreq, hd, hf, String.isEmpty_iff, @eq_comm _ msg]

theorem ne_empty_of_autodetectDrive {firstReadyDrive : String} {positional : List String}
    {drive d : String} (h : autodetectDrive firstReadyDrive positional drive = .ok d)
    (hreq : driveRequired positional = true) : d ≠ "" := by
  unfold autodetectDrive at h
  by_cases hd : drive = "" <;> by_cases hf : firstReadyDrive = "" <;>
    simp [hreq, hd, hf, String.isEmpty_iff] at h <;> rw [← h] <;> assumption

theorem dumpName_ne_empty (dateTime x : String) : "dump_" ++ dateTime ++ "_" ++ x ≠ "" := by
  intro h
  have := congrArg String.length h
  simp only [String.length_append, String.length_empty] at this
  have h5 : "dump_".length = 5 := rfl
  omega

theorem generateImageName_ne_empty {dateTime : String} {positional : List String}
    (drive imageName : String) (h : nameGenerate positional = true) :
    generateImageName dateTime positional drive imageName ≠ "" := by
  unfold generateImageName
  split
  · exact dumpName_ne_empty _ _
  next hi => simpa [h, ← String.isEmpty_iff] using hi

/-- **`validate_options`.** It throws one message, `no ready drives detected on the system`,
exactly when a mode needs a drive, none is given and none is detected. Otherwise the modes
are expanded (non-empty, with no `cd` left), every mode that needs a drive has one, a dump
has an image name, and the other options are as given. -/
theorem validateOptions_spec (firstReadyDrive dateTime : String) (options : Options) :
    (∀ msg, validateOptions firstReadyDrive dateTime options = .error msg ↔
      msg = "no ready drives detected on the system" ∧
        driveRequired (expandPositional options.positional) = true ∧ options.drive = "" ∧
        firstReadyDrive = "") ∧
    ∀ o, validateOptions firstReadyDrive dateTime options = .ok o →
      o.positional = expandPositional options.positional ∧ o.positional ≠ [] ∧
      "cd" ∉ o.positional ∧ (driveRequired o.positional = true → o.drive ≠ "") ∧
      (nameGenerate o.positional = true → o.imageName ≠ "") ∧
      o = { options with positional := o.positional, drive := o.drive,
                         imageName := o.imageName } := by
  unfold validateOptions
  dsimp only
  cases h : autodetectDrive firstReadyDrive (expandPositional options.positional) options.drive with
  | error e =>
    refine ⟨fun msg => ?_, fun o h' => by cases h'⟩
    rw [← autodetectDrive_eq_error, h]
    constructor <;> intro h' <;> cases h' <;> rfl
  | ok d =>
    refine ⟨fun msg => ?_, ?_⟩
    · rw [← autodetectDrive_eq_error, h]
      constructor <;> intro h' <;> cases h'
    · rintro o ⟨⟩
      exact ⟨rfl, expandPositional_ne_nil _, cd_not_mem_expandPositional _,
        ne_empty_of_autodetectDrive h, generateImageName_ne_empty _ _, rfl⟩

theorem autodetectDrive_of_ne {firstReadyDrive : String} {positional : List String} {drive : String}
    (h : driveRequired positional = true → drive ≠ "") :
    autodetectDrive firstReadyDrive positional drive = .ok drive := by
  unfold autodetectDrive
  rw [if_neg]
  intro hc
  simp only [Bool.and_eq_true, String.isEmpty_iff] at hc
  exact h hc.1 hc.2

theorem generateImageName_of_ne {dateTime : String} {positional : List String}
    {drive imageName : String} (h : nameGenerate positional = true → imageName ≠ "") :
    generateImageName dateTime positional drive imageName = imageName := by
  unfold generateImageName
  rw [if_neg]
  intro hc
  simp only [Bool.and_eq_true, String.isEmpty_iff] at hc
  exact h hc.1 hc.2

/-- **`validate_options` is a normalisation.** The options it returns pass through it
unchanged, whatever the system answers the second time. -/
theorem validateOptions_idempotent {firstReadyDrive dateTime : String} {options o : Options}
    (h : validateOptions firstReadyDrive dateTime options = .ok o)
    (firstReadyDrive' dateTime' : String) :
    validateOptions firstReadyDrive' dateTime' o = .ok o := by
  obtain ⟨hp, -, -, hd, hn, -⟩ := (validateOptions_spec firstReadyDrive dateTime options).2 o h
  have hx : expandPositional o.positional = o.positional := by
    rw [hp, expandPositional_expandPositional]
  unfold validateOptions
  dsimp only
  rw [hx, autodetectDrive_of_ne hd]
  dsimp only [Except.map]
  rw [generateImageName_of_ne hn]

/-- No argument, no drive and no name: the first pass autodetects `sr0` and names the dump,
the second asks nothing. -/
theorem validateOptions_idempotent_cd :
    validateOptions "sr0" "241109_120000"
        ⟨[], "", "", 0, none, none, [], false, false, false, false, none⟩ =
      .ok ⟨["dump", "protection", "refine", "split", "info"], "sr0", "dump_241109_120000_sr0", 0,
        none, none, [], false, false, false, false, none⟩ ∧
    validateOptions "" "" ⟨["dump", "protection", "refine", "split", "info"], "sr0",
        "dump_241109_120000_sr0", 0, none, none, [], false, false, false, false, none⟩ =
      .ok ⟨["dump", "protection", "refine", "split", "info"], "sr0", "dump_241109_120000_sr0", 0,
        none, none, [], false, false, false, false, none⟩ :=
  have h : validateOptions "sr0" "241109_120000"
      ⟨[], "", "", 0, none, none, [], false, false, false, false, none⟩ =
      .ok ⟨["dump", "protection", "refine", "split", "info"], "sr0", "dump_241109_120000_sr0", 0,
        none, none, [], false, false, false, false, none⟩ := rfl
  ⟨h, validateOptions_idempotent h "" ""⟩

/-! ### `redumper` -/

/-- What `redumper` calls for a mode it runs. -/
inductive Call where
  /-- `redumper_dump(options, false)`. -/
  | dump
  /-- `redumper_dump(options, true)`. -/
  | refine
  /-- `redumper_protection`. -/
  | protection
  /-- `redumper_split`. -/
  | split
  /-- `redumper_info`. -/
  | info
  /-- `redumper_rings`. -/
  | rings
  /-- `redumper_subchannel`. -/
  | subchannel
  /-- `redumper_debug`. -/
  | debug
  /-- `warning: unknown mode, skipping`. -/
  | unknown (mode : String)
  deriving DecidableEq, Repr

/-- Lines 109–128: the call a mode selects. -/
def selectMode (p : String) : Call :=
  if p = "dump" then .dump
  else if p = "refine" then .refine
  else if p = "protection" then .protection
  else if p = "split" then .split
  else if p = "info" then .info
  else if p = "rings" then .rings
  else if p = "subchannel" then .subchannel
  else if p = "debug" then .debug
  else .unknown p

/-- Lines 101–129: the loop over the modes, from `skip_refine`, `k` dumps having run; the
`k`-th dump returns `dumped k`. -/
def runModes (dumped : Nat → Bool) : Bool → Nat → List String → List Call
  | _, _, [] => []
  | skipRefine, k, p :: ps =>
    if skipRefine && p == "refine" then runModes dumped skipRefine k ps
    else if p = "dump" then .dump :: runModes dumped (!dumped k) (k + 1) ps
    else selectMode p :: runModes dumped skipRefine k ps

/-- `redumper`: the calls it makes, or what `validate_options` throws. -/
def redumper (firstReadyDrive dateTime : String) (dumped : Nat → Bool) (options : Options) :
    Except String (List Call) :=
  (validateOptions firstReadyDrive dateTime options).map fun options =>
    runModes dumped false 0 options.positional

/-- The call for the mode `p` after `d` dumps: none for a `refine` whose latest earlier dump
returned `false`. -/
def specCall (dumped : Nat → Bool) (d : Nat) (p : String) : Option Call :=
  if p = "refine" ∧ 0 < d ∧ dumped (d - 1) = false then none else some (selectMode p)

/-- Modelled from the comment at line 103, "skip refine mode if specified after dump mode and
no errors encountered": every mode in order, except a `refine` whose latest earlier `dump`
returned `false`. -/
def callsSpec (dumped : Nat → Bool) (positional : List String) : List Call :=
  positional.enum.filterMap fun ip => specCall dumped ((positional.take ip.1).count "dump") ip.2

section RunModes

variable (dumped : Nat → Bool) (skipRefine : Bool) (k : Nat) (ps : List String)

theorem runModes_dump :
    runModes dumped skipRefine k ("dump" :: ps) =
      .dump :: runModes dumped (!dumped k) (k + 1) ps := by
  simp [runModes]

theorem runModes_refine : runModes dumped skipRefine k ("refine" :: ps) =
    if skipRefine then runModes dumped skipRefine k ps
    else .refine :: runModes dumped skipRefine k ps := by
  cases skipRefine <;> simp [runModes, selectMode]

theorem runModes_other {p : String} (hd : p ≠ "dump") (hr : p ≠ "refine") :
    runModes dumped skipRefine k (p :: ps) = selectMode p :: runModes dumped skipRefine k ps := by
  simp [runModes, hd, hr]

end RunModes

theorem runModes_eq (dumped : Nat → Bool) : ∀ (ps : List String) (k : Nat),
    runModes dumped (decide (0 < k) && !dumped (k - 1)) k ps =
      ps.enum.filterMap fun ip => specCall dumped (k + (ps.take ip.1).count "dump") ip.2
  | [], _ => rfl
  | p :: ps, k => by
    have hF : (fun ip : Nat × String =>
          specCall dumped (k + ((p :: ps).take ip.1).count "dump") ip.2) ∘ Prod.map (· + 1) id =
        fun ip => specCall dumped ((k + if p == "dump" then 1 else 0) + (ps.take ip.1).count "dump")
          ip.2 := by
      funext ip
      simp only [Function.comp, Prod.map, id, List.take_succ_cons, List.count_cons]
      congr 1
      omega
    rw [List.enum_cons', List.filterMap_cons, List.filterMap_map, hF]
    simp only [List.take_zero, List.count_nil, Nat.add_zero]
    by_cases hd : p = "dump"
    · subst hd
      have hsr : (decide (0 < k + 1) && !dumped (k + 1 - 1)) = !dumped k := by simp
      rw [runModes_dump, ← hsr, runModes_eq dumped ps (k + 1)]
      simp [specCall, selectMode]
    · by_cases hr : p = "refine"
      · subst hr
        rw [runModes_refine, runModes_eq dumped ps k]
        by_cases hk : 0 < k ∧ dumped (k - 1) = false <;> simp [specCall, selectMode, hk]
      · rw [runModes_other dumped _ k ps hd hr, runModes_eq dumped ps k]
        simp [specCall, hd, hr]

/-- **The modes `redumper` runs.** After `validate_options`, the calls are the modes in
order, except each `refine` whose latest earlier `dump` returned `false`; a `refine` with no
dump before it always runs. -/
theorem redumper_calls (firstReadyDrive dateTime : String) (dumped : Nat → Bool)
    (options : Options) : redumper firstReadyDrive dateTime dumped options =
      (validateOptions firstReadyDrive dateTime options).map fun o =>
        callsSpec dumped o.positional := by
  unfold redumper
  congr 1
  funext o
  simpa using runModes_eq dumped o.positional 0

/-- The default `cd` run of a dump that found no errors: no refine. -/
example : redumper "sr0" "241109_120000" (fun _ => false)
    ⟨[], "", "", 0, none, none, [], false, false, false, false, none⟩ =
      .ok [.dump, .protection, .split, .info] :=
  rfl

end Redumper
