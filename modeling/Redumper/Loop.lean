import Redumper.Leadin

/-!
# The main loop of `redumper_dump`

The per-LBA loop of `redumper_dump` (`src/redumper.cc`, lines 413–811), in a dump and in a
refine. One pass of its body is `iterate`; `run n` is the loop after `n` passes, a pass
being taken only while `lba < lba_overread`.

The loop's variables are a `Loop`. Inside a pass the body's locals `lba_next`, `read` and
the sector to `store` travel with them in a `Pass`, and the body is the composition of its
blocks, each a function of the `Pass`: the LG/ASUS lead-out cache (`asusLeadout`), the
refine selection with its retry counter (`refineSelect`), `read_sector` and the
classification of its result (`readPhase`), the store with the overread bound
(`storePhase`) and the interrupt latch (`pollSignal`).

The drive is an `Io`: what `read_sector`, the LG/ASUS cache and the interrupt latch answer
to the `k`-th request. Any behaviour of a drive, adaptive or not, is such a function, since
the loop is deterministic between answers. The loop records the LBA of every `read_sector`
call (`reads`), whose number is the index of the next one.

Left out, as nothing the loop stores or counts depends on them: the log and progress lines,
`refine_processed` and `refine_count` (progress only), `errors_q_last` and the `flush`
flag (they only decide when `cmd_flush_drive_cache` is sent, whose effect on the drive is
part of the drive's behaviour), and the read offset, which shifts every access to a stream
alike (`Files`). Counters are integers: that the `uint32_t` counters of the source never
wrap below zero is a statement about the model (`Counters`).
-/

namespace Redumper

/-- `DriveConfig::Type` as the dump tells the types apart: Plextor, the LG/ASUS family
(`drive_is_asus`), any other. -/
inductive DriveType where
  | generic
  | plextor
  | lgAsus
  deriving DecidableEq, Repr

/-- The constants of a run: the mode, the options, the drive configuration and what was
derived from the TOC, as they stand when the main loop starts. -/
structure Env where
  /-- `refine`. -/
  refine : Bool
  /-- `lba_start`. -/
  lbaStart : Int
  /-- `lba_end`. -/
  lbaEnd : Int
  /-- `options.lba_end` was given. -/
  optionsLbaEnd : Bool
  /-- `skip_ranges`. -/
  skipRanges : List (Int × Int)
  /-- `error_ranges`. -/
  errorRanges : List (Int × Int)
  /-- `drive_config.type`. -/
  driveType : DriveType
  /-- The sector order has a subcode plane. -/
  subcode : Bool
  /-- `options.asus_skip_leadout`. -/
  asusSkipLeadout : Bool
  /-- `options.refine_subchannel`. -/
  refineSubchannel : Bool
  /-- `options.retries`. -/
  retries : Nat

/-- `refine_retries`. -/
def Env.refineRetries (env : Env) : Nat := if env.retries = 0 then 1 else env.retries

/-- `drive_is_asus(drive_config) && !options.asus_skip_leadout`. -/
def Env.asusLeadout (env : Env) : Bool := env.driveType == .lgAsus && !env.asusSkipLeadout

/-- What `read_sector` returns. -/
structure ReadResult where
  /-- `status.status_code`; `0` is success. -/
  statusCode : Nat
  /-- The read took longer than `SLOW_SECTOR_TIMEOUT`. -/
  slow : Bool
  /-- The sector `read_sector` assembled. -/
  sector : Sector

/-- The answers of the drive and of the interrupt latch, by the index of the request. -/
structure Io where
  /-- `read_sector` at the `k`-th call, at an LBA. -/
  readSector : Nat → Int → ReadResult
  /-- `asus_cache_extract(asus_cache_read(..), lba, 100, ..)` at the `k`-th cache read. -/
  asusCache : Nat → Int → List Sector
  /-- `plextor_read_leadin` at the `k`-th attempt. -/
  leadin : Nat → List LeadinEntry
  /-- `Signal::GetInstance().Interrupt()` at the `k`-th poll. -/
  interrupt : Nat → Bool

/-- The loop's variables. -/
structure Loop where
  /-- `lba`. -/
  lba : Int
  /-- `lba_overread`. -/
  lbaOverread : Int
  /-- `errors_scsi`. -/
  errorsScsi : Int
  /-- `errors_c2`. -/
  errorsC2 : Int
  /-- `errors_q`. -/
  errorsQ : Int
  /-- `subcode_shift`. -/
  subcodeShift : Int
  /-- `asus_leadout_buffer`, entry by entry. -/
  asusLeadoutBuffer : List Sector
  /-- `lba_refine`. -/
  lbaRefine : Int
  /-- `refine_counter`. -/
  refineCounter : Nat
  /-- The streams. -/
  files : Files
  /-- The LBAs of the `read_sector` calls so far, the last first. -/
  reads : List Int
  /-- The LG/ASUS cache reads so far. -/
  caches : Nat
  /-- The polls of the interrupt latch so far. -/
  polls : Nat

/-- A sector about to be stored: `sector_data`, `sector_subcode`, `sector_state`. -/
structure Stored where
  /-- `sector_data`. -/
  data : Words
  /-- `sector_subcode`. -/
  sub : Subcode
  /-- `sector_state`. -/
  states : States

/-- The loop inside one pass of its body: its variables and the body's locals. -/
structure Pass where
  /-- The loop's variables. -/
  loop : Loop
  /-- `lba_next`. -/
  lbaNext : Int
  /-- `read`. -/
  read : Bool
  /-- `store`, with the sector to store. -/
  store : Option Stored

variable (q : QDecoder) (io : Io) (env : Env)

/-! ### The LG/ASUS lead-out cache -/

/-- The dummy read of `lba - 1` (refine only), then the cache read and extraction. -/
def asusExtract (s : Loop) : Loop :=
  let s := if env.refine then { s with reads := (s.lba - 1) :: s.reads } else s
  { s with asusLeadoutBuffer := io.asusCache s.caches s.lba, caches := s.caches + 1 }

/-- Lines 463–468: inside an error range or from `lba_end` on, the entry `leadout_index`
of the buffer, counted from the range's first LBA or from `lba_end`, if there is one. -/
def asusEntry (s : Loop) : Option Sector :=
  let r := insideRange s.lba env.errorRanges
  if r.any (fun r => decide (r.1 ≤ s.lba)) || decide (env.lbaEnd ≤ s.lba) then
    s.asusLeadoutBuffer[uint32 (s.lba - (r.map Prod.fst).getD env.lbaEnd)]?
  else none

/-- Lines 431–501: at the first LBA of an error range or at `lba_end` the cache is read; a
sector the buffer holds is taken from the cache instead of being read, with the states
`SUCCESS_SCSI_OFF` and `ERROR_C2`, its C2 bits counted in a dump. -/
def asusLeadout (p : Pass) : Pass :=
  if env.asusLeadout then
    let r := insideRange p.loop.lba env.errorRanges
    let s := if r.any (fun r => decide (p.loop.lba = r.1)) || decide (p.loop.lba = env.lbaEnd)
      then asusExtract io env p.loop else p.loop
    match asusEntry env s with
    | some entry =>
      let c2 := stateFromC2 (fun _ => .successScsiOff) entry.c2
      { p with
        loop := if c2.2 ≠ 0 ∧ env.refine = false then { s with errorsC2 := s.errorsC2 + 1 } else s
        read := false
        store := some ⟨entry.data, entry.sub, c2.1⟩ }
    | none => { p with loop := s }
  else p

/-! ### Refine selection -/

/-- Lines 503–575: a refine reads a sector only while its stored state has `ERROR_C2` or
`ERROR_SKIP` (or, with `refine_subchannel`, its stored Q is invalid), at most
`refine_retries` times in a row (`lba_next = lba` re-enters the same LBA). -/
def refineSelect (p : Pass) : Pass :=
  if env.refine ∧ p.read then
    let s := p.loop
    let file := s.files.state (lbaIndex s.lba)
    let read := decide (HasC2 file ∨ HasSkip file) ||
      (env.refineSubchannel && env.subcode &&
        !q.valid (s.files.sub (lbaIndex s.lba + s.subcodeShift)))
    if read then
      if s.lbaRefine = s.lba then
        if s.refineCounter + 1 < env.refineRetries then
          { p with loop := { s with refineCounter := s.refineCounter + 1 }, lbaNext := s.lba }
        else { p with loop := { s with refineCounter := 0 }, read := false }
      else { p with loop := { s with lbaRefine := s.lba }, lbaNext := s.lba }
    else if s.lbaRefine = s.lba then { p with loop := { s with refineCounter := 0 }, read := false }
    else { p with read := false }
  else p

/-! ### Reading -/

/-- Lines 577–646: `read_sector`; a slow read inside an error range on a Plextor is
ignored, a SCSI error is counted in a dump below `lba_end` outside the error ranges, and a
successful read is stored with the states `state_from_c2` gives, its C2 bits counted in a
dump. -/
def readPhase (p : Pass) : Pass :=
  if p.read then
    let res := io.readSector p.loop.reads.length p.loop.lba
    let s := { p.loop with reads := p.loop.lba :: p.loop.reads }
    let inError := (insideRange s.lba env.errorRanges).isSome
    if env.driveType = .plextor ∧ res.slow = true ∧ inError = true then { p with loop := s }
    else if res.statusCode ≠ 0 then
      { p with
        loop := if inError = false ∧ s.lba < env.lbaEnd ∧ env.refine = false then
          { s with errorsScsi := s.errorsScsi + 1 } else s }
    else
      let c2 := stateFromC2 (fun _ => .success) res.sector.c2
      { p with
        loop := if c2.2 ≠ 0 ∧ env.refine = false then { s with errorsC2 := s.errorsC2 + 1 } else s
        store := some ⟨res.sector.data, res.sector.sub, c2.1⟩ }
  else p

/-! ### Storing -/

/-- Lines 650–671: a valid Q of `adr` 1 with a track number sets `subcode_shift`. -/
def subcodeDesync (s : Loop) (sub : Subcode) : Loop :=
  if env.subcode then
    match q.position sub with
    | some lbaq => { s with subcodeShift := lbaq - s.lba }
    | none => s
  else s

/-- Lines 685–707: sample by sample, the stored state and word are kept where the stored
state is better, else the new ones. -/
def refineMerge (file : States) (fileData : Words) (st : Stored) : States × Words :=
  (fun i => if st.states i < file i then file i else st.states i,
   fun i => if st.states i < file i then fileData i else st.data i)

/-- Lines 714–724: the counters follow the sector's class, `ERROR_SKIP` before `ERROR_C2`. -/
def adjustErrors (s : Loop) (file merged : States) : Loop :=
  if HasSkip file ∧ ¬HasSkip merged then
    { s with errorsScsi := s.errorsScsi - 1,
             errorsC2 := if HasC2 merged then s.errorsC2 + 1 else s.errorsC2 }
  else if HasC2 file ∧ ¬HasC2 merged then { s with errorsC2 := s.errorsC2 - 1 }
  else s

/-- Lines 673–745: the refine store. The merged slot is written when some sample improves;
the subcode slot `lba_index + subcode_shift` is written when the new Q is valid and the
stored one is not. -/
def storeRefine (s : Loop) (st : Stored) : Loop :=
  let idx := lbaIndex s.lba
  let file := s.files.state idx
  let merged := refineMerge file (s.files.scm idx) st
  let inError := (insideRange s.lba env.errorRanges).isSome
  let s :=
    if Improves st.states file then
      let s := { s with files := (s.files.writeScm idx merged.2).writeState idx merged.1 }
      if inError = false ∧ s.lba < env.lbaEnd then adjustErrors s file merged.1 else s
    else s
  if env.subcode ∧ q.valid st.sub ∧ q.valid (s.files.sub (idx + s.subcodeShift)) = false then
    let s := { s with files := s.files.writeSub (idx + s.subcodeShift) st.sub }
    if inError = false then { s with errorsQ := s.errorsQ - 1 } else s
  else s

/-- Lines 746–775: the dump store writes data, subcode (at `lba_index + subcode_shift`)
and state, and counts an invalid Q. -/
def storeDump (s : Loop) (st : Stored) : Loop :=
  let idx := lbaIndex s.lba
  let s := { s with files := s.files.writeScm idx st.data }
  let s :=
    if env.subcode then
      let s := { s with files := s.files.writeSub (idx + s.subcodeShift) st.sub }
      if q.valid st.sub then s else { s with errorsQ := s.errorsQ + 1 }
    else s
  { s with files := s.files.writeState idx st.states }

/-- Lines 648–789: the store, and the overread bound: a store at `lba_overread - 1` moves
it one further unless `options.lba_end` is given; no store there ends the loop, and no
store inside an error range jumps to the range's end. -/
def storePhase (p : Pass) : Pass :=
  match p.store with
  | some st =>
    let s := subcodeDesync q env p.loop st.sub
    let s := if env.refine then storeRefine q env s st else storeDump q env s st
    { p with loop := if s.lba + 1 = s.lbaOverread ∧ env.optionsLbaEnd = false then
        { s with lbaOverread := s.lbaOverread + 1 } else s }
  | none =>
    if p.loop.lba + 1 = p.loop.lbaOverread then
      { p with loop := { p.loop with lbaOverread := p.loop.lba } }
    else
      match insideRange p.loop.lba env.errorRanges with
      | some r => { p with lbaNext := r.2 }
      | none => p

/-! ### The loop -/

/-- Lines 791–796: an interrupt ends the loop at the current LBA. -/
def pollSignal (p : Pass) : Pass :=
  { p with loop := { p.loop with
    polls := p.loop.polls + 1,
    lbaOverread := if io.interrupt p.loop.polls then p.loop.lba else p.loop.lbaOverread } }

/-- The body's blocks after the skip-range test up to the store, from `lba_next = lba + 1`,
`read = true` and nothing to store. -/
def prepare (s : Loop) : Pass :=
  readPhase io env (refineSelect q env (asusLeadout io env ⟨s, s.lba + 1, true, none⟩))

/-- The body after the skip-range test. -/
def body (s : Loop) : Pass := pollSignal io (storePhase q env (prepare q io env s))

/-- One pass of the loop body: inside a skip range it jumps to the range's end; then
`lba = lba_next`. -/
def iterate (s : Loop) : Loop :=
  match insideRange s.lba env.skipRanges with
  | some r => { s with lba := r.2 }
  | none => { (body q io env s).loop with lba := (body q io env s).lbaNext }

/-- The loop runs while `lba < lba_overread`. -/
def Loop.Running (s : Loop) : Prop := s.lba < s.lbaOverread

instance (s : Loop) : Decidable s.Running := inferInstanceAs (Decidable (_ < _))

/-- A pass while the loop runs; once it has stopped, nothing. -/
def step (s : Loop) : Loop := if s.Running then iterate q io env s else s

/-- The loop after `n` passes. -/
def run (n : Nat) (s : Loop) : Loop := (step q io env)^[n] s

end Redumper
