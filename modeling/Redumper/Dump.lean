import Redumper.Loop

/-!
# A run of `redumper_dump`

What `redumper_dump` does before and after its main loop (`src/redumper.cc`, lines
134–411 and 812–826): the LBA bounds and the error ranges it takes from the TOC and the
options, the Plextor lead-in capture, the refine prelude that counts the errors already in
the streams, the loop's initial variables, and the result that decides whether a refine
follows.

The TOC is what `TOC` parses from the drive's answers (not in `src/`); of a session the dump
reads only the first index of its first track and the end of its last track.
-/

namespace Redumper

/-- What the dump reads of a session of the TOC: `tracks.front().indices.front()`,
`tracks.back().lba_end`, and whether each track is a data track. -/
structure TocSession where
  /-- The first index of the session's first track. -/
  firstIndex : Int
  /-- The end of the session's last track. -/
  lbaEnd : Int
  /-- `t.control & ChannelQ::Control::DATA` of each track. -/
  dataTracks : List Bool

/-- The sessions of a TOC; a disc has at least one. -/
structure Toc where
  /-- `toc.sessions`. -/
  sessions : List TocSession
  /-- `toc.sessions.back()` exists. -/
  nonempty : sessions ≠ []

/-- The options the modes read. -/
structure Options where
  /-- `options.positional`, the modes to run. -/
  positional : List String
  /-- `options.drive`. -/
  drive : String
  /-- `options.image_name`. -/
  imageName : String
  /-- `options.retries`. -/
  retries : Nat
  /-- `options.lba_start`. -/
  lbaStart : Option Int
  /-- `options.lba_end`. -/
  lbaEnd : Option Int
  /-- `string_to_ranges(options.skip)`. -/
  skip : List (Int × Int)
  /-- `options.refine_subchannel`. -/
  refineSubchannel : Bool
  /-- `options.asus_skip_leadout`. -/
  asusSkipLeadout : Bool
  /-- `options.plextor_skip_leadin`. -/
  plextorSkipLeadin : Bool
  /-- `options.overwrite`. -/
  overwrite : Bool
  /-- `options.drive_type`, when a drive type is given. -/
  driveType : Option String

/-- `DriveConfig::ReadMethod`. -/
inductive ReadMethod where
  | be
  | beCdda
  | d8
  deriving DecidableEq, Repr

/-- The drive configuration the dump reads. -/
structure DriveConfig where
  /-- `drive_config.read_method`. -/
  readMethod : ReadMethod
  /-- `drive_config.type`. -/
  type : DriveType
  /-- `drive_config.pregap_start`. -/
  pregapStart : Int
  /-- `sector_order_layout(drive_config.sector_order).subcode_offset != CD_RAW_DATA_SIZE`. -/
  subcode : Bool

/-- `MSF_to_LBA(MSF{74, 0, 0})`: the default end, a 74 minute disc. -/
def LBA_END_DEFAULT : Int := 74 * 60 * 75 + MSF_LBA_SHIFT

/-- Lines 272–274: the gap between two sessions, from the end of one to the pregap of the
next. -/
def multisessionGaps (pregapStart : Int) : List TocSession → List (Int × Int)
  | s :: t :: rest => (s.lbaEnd, t.firstIndex + pregapStart) :: multisessionGaps pregapStart (t :: rest)
  | _ => []

/-- Lines 170–171, 264–274 and 320–324: the loop's constants. A TOC whose last session
ends below `0` is fake and leaves the 74 minute default. -/
def Env.setup (refine : Bool) (options : Options) (drive : DriveConfig) (toc : Toc) : Env where
  refine := refine
  lbaStart := options.lbaStart.getD drive.pregapStart
  lbaEnd := options.lbaEnd.getD
    (let e := (toc.sessions.getLast toc.nonempty).lbaEnd; if e < 0 then LBA_END_DEFAULT else e)
  optionsLbaEnd := options.lbaEnd.isSome
  skipRanges := options.skip
  errorRanges := multisessionGaps drive.pregapStart toc.sessions
  driveType := drive.type
  subcode := drive.subcode
  asusSkipLeadout := options.asusSkipLeadout
  refineSubchannel := options.refineSubchannel
  retries := options.retries

/-- Lines 313–315: where each session's lead-in ends, `MSF_LBA_SHIFT` after the start of
the session (the first session starting at `0`). -/
def sessionLbaStart (toc : Toc) : List Int :=
  toc.sessions.enum.map fun is => (if is.1 = 0 then 0 else is.2.firstIndex) + MSF_LBA_SHIFT

/-! ### The refine prelude -/

/-- `lba_start ≤ lba < lba_end`, in order. -/
def lbaRange (lbaStart lbaEnd : Int) : List Int :=
  (List.range (lbaEnd - lbaStart).toNat).map fun i : Nat => lbaStart + (i : Int)

theorem mem_lbaRange {a b L : Int} : L ∈ lbaRange a b ↔ a ≤ L ∧ L < b := by
  simp only [lbaRange, List.mem_map, List.mem_range]
  constructor
  · rintro ⟨i, hi, rfl⟩
    omega
  · intro h
    exact ⟨(L - a).toNat, by omega, by omega⟩

theorem lbaRange_nodup (a b : Int) : (lbaRange a b).Nodup :=
  (List.nodup_range _).map fun i j h => Int.ofNat_inj.1 (by simpa using h)

/-- The prelude's counters: `errors_scsi`, `errors_c2`, `errors_q`. -/
structure Counts where
  /-- `errors_scsi`. -/
  scsi : Int
  /-- `errors_c2`. -/
  c2 : Int
  /-- `errors_q`. -/
  q : Int

variable (q : QDecoder) (io : Io) (env : Env)

/-- One LBA of the prelude (lines 348–397): outside the skip and error ranges, a sector
counts as a SCSI error if its stored state has `ERROR_SKIP`, else as a C2 error if it has
`ERROR_C2`, and as a Q error if its stored Q is invalid. -/
def preludeStep (files : Files) (c : Counts) (lba : Int) : Counts :=
  if (insideRange lba env.skipRanges).isSome || (insideRange lba env.errorRanges).isSome then c
  else
    let st := files.state (lbaIndex lba)
    let c := if HasSkip st then { c with scsi := c.scsi + 1 }
      else if HasC2 st then { c with c2 := c.c2 + 1 } else c
    if env.subcode ∧ q.valid (files.sub (lbaIndex lba)) = false then { c with q := c.q + 1 } else c

/-- The refine prelude, over `[lba_start, lba_end)`. -/
def prelude (files : Files) : Counts :=
  (lbaRange env.lbaStart env.lbaEnd).foldl (preludeStep q env files) ⟨0, 0, 0⟩

/-! ### The run -/

/-- The loop's variables when it starts (lines 326–414), after the Plextor lead-in capture
and, in a refine, the prelude. `lead_in` is whether the capture runs: a Plextor drive
without `plextor_skip_leadin`. -/
def dumpStart (leadin : Bool) (sessionStart : List Int) (pregapStart : Int) (files : Files) :
    Loop :=
  let files := if leadin then
      plextorStoreSessionsLeadin q io.leadin sessionStart pregapStart files else files
  let c : Counts := if env.refine then prelude q env files else ⟨0, 0, 0⟩
  { lba := env.lbaStart
    lbaOverread := env.lbaEnd
    errorsScsi := c.scsi
    errorsC2 := c.c2
    errorsQ := c.q
    subcodeShift := 0
    asusLeadoutBuffer := []
    lbaRefine := LBA_START - 1
    refineCounter := 0
    files := files
    reads := []
    caches := 0
    polls := 0 }

section Start

variable (leadin : Bool) (sessionStart : List Int) (pregapStart : Int) (files : Files)

@[simp] theorem dumpStart_lba :
    (dumpStart q io env leadin sessionStart pregapStart files).lba = env.lbaStart := rfl

@[simp] theorem dumpStart_lbaOverread :
    (dumpStart q io env leadin sessionStart pregapStart files).lbaOverread = env.lbaEnd := rfl

@[simp] theorem dumpStart_refineCounter :
    (dumpStart q io env leadin sessionStart pregapStart files).refineCounter = 0 := rfl

@[simp] theorem dumpStart_polls :
    (dumpStart q io env leadin sessionStart pregapStart files).polls = 0 := rfl

@[simp] theorem dumpStart_asusLeadoutBuffer :
    (dumpStart q io env leadin sessionStart pregapStart files).asusLeadoutBuffer = [] := rfl

end Start

/-- The value `redumper_dump` returns when its loop has stopped in `s`: whether a refine
should follow. -/
def dumpResult (s : Loop) : Bool :=
  decide (s.errorsScsi ≠ 0 ∨ s.errorsC2 ≠ 0) || env.asusLeadout

end Redumper
