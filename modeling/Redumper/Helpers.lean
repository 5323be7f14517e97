import Redumper.Modes

/-!
# The drive and the progress line

Three helpers of `src/redumper.cc` around the engine.

`first_ready_drive` (lines 1214–1240) asks each drive that `SPTD::ListDrives` lists, in order,
whether it is ready, and returns the first that is; opening a busy drive throws, and the drive
is skipped. `validate_options` takes its answer for a mode that needs a drive and has none.

`drive_init` (lines 1243–1255) throws when the drive is not ready, and otherwise asks for the
speed `--speed` gives, in multiples of 150 kB/s, or for `0xFFFF`, the drive's maximum. The
request is a `uint16_t`, and `150 * *options.speed` is narrowed to it: past 436 the multiple
wraps around. A failed speed request is only logged.

`percentage` (lines 1203–1211) is the figure of the status line the loop prints after each pass.
Its product `value * 100` is an `int`; past `2^31` it overflows, which the model takes as the
two's complement wrap, and the division converts it to `uint32_t`.

The drives, what `cmd_drive_ready` answers and `SPTD::StatusMessage` are not in `src/`: they are
parameters. `--speed` is an integer option, as the spec describes it.

## What is proved

* `validateOptions_firstReadyDrive`: with the drives of the system asked as `first_ready_drive`
  asks them, `validate_options` throws exactly when a mode needs a drive, none is given, and no
  drive is ready.
* `driveInit_speed`: `drive_init` throws exactly when the drive is not ready, and asks for
  `150 * speed` modulo `2^16`, which is `150 * speed` exactly for a speed from 0 to 436.
* `percentage_le`: the figure never exceeds 100, whatever the values, overflow included, and is
  100 exactly when the value has reached the maximum.
-/

namespace Redumper

/-! ### `first_ready_drive` -/

/-- `first_ready_drive`: the first of `drives` whose `cmd_drive_ready` status is 0, or the empty
string. `probe d` is that status, `none` when opening the drive throws. -/
def firstReadyDrive (drives : List String) (probe : String → Option Nat) : String :=
  (drives.find? fun d => probe d = some 0).getD ""

theorem firstReadyDrive_eq_empty {drives : List String} (probe : String → Option Nat)
    (hnames : ∀ d ∈ drives, d ≠ "") :
    firstReadyDrive drives probe = "" ↔ ∀ d ∈ drives, probe d ≠ some 0 := by
  unfold firstReadyDrive
  cases h : drives.find? fun d => probe d = some 0 with
  | none => simpa using List.find?_eq_none.1 h
  | some d =>
    have hd := List.find?_some h
    simp only [Option.getD_some, decide_eq_true_eq] at hd ⊢
    exact ⟨fun he => absurd he (hnames d (List.mem_of_find?_eq_some h)),
      fun hall => absurd hd (hall d (List.mem_of_find?_eq_some h))⟩

theorem validateOptions_eq_error (firstReadyDrive dateTime : String) (options : Options)
    (msg : String) : validateOptions firstReadyDrive dateTime options = .error msg ↔
      autodetectDrive firstReadyDrive (expandPositional options.positional) options.drive =
        .error msg := by
  dsimp only [validateOptions]
  cases autodetectDrive firstReadyDrive (expandPositional options.positional) options.drive <;>
    simp [Except.map]

/-- **No drive, no ready drive.** With the drives of the system asked in order, as
`first_ready_drive` does, `validate_options` throws exactly when one of the modes needs a drive,
none is given, and no drive of the system is ready; a busy drive counts as not ready. -/
theorem validateOptions_firstReadyDrive {drives : List String} (probe : String → Option Nat)
    (hnames : ∀ d ∈ drives, d ≠ "") (dateTime : String) (options : Options) (msg : String) :
    validateOptions (firstReadyDrive drives probe) dateTime options = .error msg ↔
      msg = "no ready drives detected on the system" ∧
        driveRequired (expandPositional options.positional) = true ∧ options.drive = "" ∧
        ∀ d ∈ drives, probe d ≠ some 0 := by
  rw [validateOptions_eq_error, autodetectDrive_eq_error, firstReadyDrive_eq_empty probe hnames]

/-- Two drives, the first busy and the second not ready, and a dump without a drive. -/
theorem validateOptions_firstReadyDrive_none :
    (∀ d ∈ ["sr0", "sr1"], d ≠ "") ∧
    (validateOptions (firstReadyDrive ["sr0", "sr1"] fun d => if d = "sr0" then none else some 2)
        "" ⟨["dump"], "", "", 0, none, none, [], false, false, false, false, none⟩ =
      .error "no ready drives detected on the system" ↔
      "no ready drives detected on the system" = "no ready drives detected on the system" ∧
        driveRequired (expandPositional ["dump"]) = true ∧ "" = "" ∧
        ∀ d ∈ ["sr0", "sr1"], (if d = "sr0" then none else some 2) ≠ some 0) :=
  have hnames : ∀ d ∈ ["sr0", "sr1"], d ≠ "" := by decide
  ⟨hnames, validateOptions_firstReadyDrive _ hnames "" _ _⟩

/-! ### `drive_init` -/

/-- `drive_init`, given the status code of `cmd_drive_ready` and its message: the error thrown,
or the speed asked of `cmd_set_cd_speed`. -/
def driveInit (readyStatus : Nat) (statusMessage : String) (speed : Option Int) :
    Except String UInt16 :=
  if readyStatus ≠ 0 then .error ("drive not ready, SCSI (" ++ statusMessage ++ ")")
  else .ok (match speed with
    | some s => UInt16.ofNat (150 * s % 65536).toNat
    | none => 0xFFFF)

/-- The request `150 * speed`, narrowed to 16 bits, is the product exactly for a speed from 0
to 436. -/
theorem speed_narrow_eq_iff (s : Int) : 150 * s % 65536 = 150 * s ↔ 0 ≤ s ∧ s ≤ 436 := by
  constructor
  · intro he
    have h1 := Int.emod_nonneg (150 * s) (by decide : (65536 : Int) ≠ 0)
    have h2 := Int.emod_lt_of_pos (150 * s) (by decide : (0 : Int) < 65536)
    omega
  · rintro ⟨h1, h2⟩
    exact Int.emod_eq_of_lt (by omega) (by omega)

/-- **The speed asked of the drive.** `drive_init` throws exactly when the drive is not ready;
otherwise it asks for `0xFFFF` without `--speed`, and for `150 * speed` modulo `2^16` with it,
which is the multiple of 150 kB/s asked for exactly when the speed is from 0 to 436. -/
theorem driveInit_speed (readyStatus : Nat) (statusMessage : String) (speed : Option Int) :
    (∀ msg, driveInit readyStatus statusMessage speed = .error msg ↔
      readyStatus ≠ 0 ∧ msg = "drive not ready, SCSI (" ++ statusMessage ++ ")") ∧
    (readyStatus = 0 → ∃ v, driveInit readyStatus statusMessage speed = .ok v ∧
      (speed = none → v = 0xFFFF) ∧
      ∀ s, speed = some s → (v.toNat : Int) = 150 * s % 65536 ∧
        ((v.toNat : Int) = 150 * s ↔ 0 ≤ s ∧ s ≤ 436)) := by
  refine ⟨fun msg => ?_, fun h0 => ?_⟩
  · unfold driveInit
    by_cases h : readyStatus = 0
    · simp [h]
    · simp [h, @eq_comm _ msg]
  · cases speed with
    | none => exact ⟨0xFFFF, by simp [driveInit, h0], fun _ => rfl, fun _ h => nomatch h⟩
    | some s =>
      have hlt : (150 * s % 65536).toNat < 65536 := by omega
      have hv : ((UInt16.ofNat (150 * s % 65536).toNat).toNat : Int) = 150 * s % 65536 := by
        rw [UInt16.toNat_ofNat_of_lt hlt]
        exact Int.toNat_of_nonneg (Int.emod_nonneg _ (by decide))
      refine ⟨UInt16.ofNat (150 * s % 65536).toNat, by simp [driveInit, h0], by simp, ?_⟩
      rintro t ⟨⟩
      rw [hv]
      exact ⟨rfl, speed_narrow_eq_iff s⟩

/-! ### `percentage` -/

/-- `percentage`: 0 for a negative value, 100 from the maximum on or without one, and the share
of the maximum in hundredths otherwise, from the product wrapped to 32 bits. -/
def percentage (value : Int) (valueMax : Nat) : Nat :=
  if value < 0 then 0
  else if valueMax = 0 ∨ valueMax ≤ value.toNat then 100
  else value.toNat * 100 % 2 ^ 32 / valueMax

/-- Below the maximum, the figure is below 100, even when the product has wrapped: a wrap needs a
value of at least `2^32 / 100`, and a maximum above it leaves less than 100. -/
theorem share_lt_hundred {v m : Nat} (hv : v < m) : v * 100 % 2 ^ 32 / m < 100 := by
  rw [Nat.div_lt_iff_lt_mul (by omega)]
  by_cases hw : v * 100 < 2 ^ 32
  · rw [Nat.mod_eq_of_lt hw]
    omega
  · have := Nat.mod_lt (v * 100) (Nat.two_pow_pos 32)
    omega

/-- **The progress never passes 100%.** For every value and maximum, overflow of the product
included, the figure is at most 100, and it is 100 exactly when the value is not negative and
has reached the maximum, or there is no maximum. -/
theorem percentage_le (value : Int) (valueMax : Nat) :
    percentage value valueMax ≤ 100 ∧
      (percentage value valueMax = 100 ↔
        0 ≤ value ∧ (valueMax = 0 ∨ valueMax ≤ value.toNat)) := by
  unfold percentage
  by_cases hn : value < 0
  · simp [hn]
  by_cases hm : valueMax = 0 ∨ valueMax ≤ value.toNat
  · simp [hn, hm]; omega
  · have hlt := share_lt_hundred (v := value.toNat) (m := valueMax) (by omega)
    simp only [hn, hm, if_false]
    exact ⟨by omega, by omega, fun h => h.2.elim⟩

end Redumper
