import Redumper.Dump

/-!
# The image's files before the loop

What `redumper_dump` checks about the image and the disc before its main loop, in the order it
checks them, and what it does to the image's files: it throws when no image name is given,
when a dump would overwrite an existing `.state` without `--overwrite`, when a BE drive is
given a disc with data and audio tracks and no drive type, when a refine would switch read
methods, and when a refine is given a different disc than the one dumped. A dump deletes the
data file of the other read method (`.scram` or `.scrap`), creates its own and `.state`, and
stores the drive's TOC; a refine opens what it finds.

`ImageFiles` keeps of the file system only what these checks read and write: which data files
and `.state` exist and the bytes of `.toc`.

## What is proved

* `openImage_error_files`: a run refused at any of these checks leaves the files as they were.
* `refine_after_dump`: a refine that gets past its checks on the image a dump has set up uses
  the dump's read method and was given the TOC the dump stored.
* `attemptAll_not_both`: no sequence of dumps and refines, refused or not, leaves both
  `.scram` and `.scrap` on an image that had not both.
-/

namespace Redumper

/-- Which of the image's files exist, and what `read_vector` returns for `.toc`. -/
structure ImageFiles where
  /-- `.scram` exists. -/
  scram : Bool
  /-- `.scrap` exists. -/
  scrap : Bool
  /-- `.state` exists. -/
  state : Bool
  /-- The content of `.toc`. -/
  toc : List UInt8
  deriving DecidableEq, Repr

/-- Lines 215–246: `scrap`, the BE read method on a disc with a data track, which refuses a
disc that also has an audio track unless a drive type is given. -/
def beScrap (readMethod : ReadMethod) (driveTypeGiven : Bool) (toc : Toc) : Except String Bool :=
  let tracks := toc.sessions.flatMap TocSession.dataTracks
  if readMethod = .be ∧ tracks.any id then
    if !driveTypeGiven && tracks.any (!·) then
      .error "unsupported drive read method for mixed data/audio"
    else .ok true
  else .ok false

/-- Lines 248–249: the data file of the other read method exists. -/
def mixedReadMethods (scrap : Bool) (files : ImageFiles) : Bool :=
  files.scram && scrap || files.scrap && !scrap

/-- Lines 254–256: the data file of the other read method is deleted. -/
def removeRemnants (scrap : Bool) (files : ImageFiles) : ImageFiles :=
  if scrap then { files with scram := false } else { files with scrap := false }

/-- Lines 258–262: a dump creates its data stream and `.state` (`std::fstream::trunc`); a
refine opens the ones that exist. -/
def openStreams (refine scrap : Bool) (files : ImageFiles) : ImageFiles :=
  if refine then files
  else if scrap then { files with scrap := true, state := true }
  else { files with scram := true, state := true }

/-- Lines 146–288: the checks `redumper_dump` makes on the image before its loop, in their
order, and what it does to the image's files: `scrap` or the message thrown, and the files
after. `toc` is the TOC the drive returns, parsed (the FULL TOC in its place on a multisession
disc), and `tocBuffer` that TOC as read. -/
def openImage (refine : Bool) (options : Options) (drive : DriveConfig) (toc : Toc)
    (tocBuffer : List UInt8) (files : ImageFiles) : Except String Bool × ImageFiles :=
  if options.imageName.isEmpty then (.error "image name is not provided", files)
  else if !refine && !options.overwrite && files.state then
    (.error ("dump already exists (name: " ++ options.imageName ++ ")"), files)
  else match beScrap drive.readMethod options.driveType.isSome toc with
  | .error e => (.error e, files)
  | .ok scrap =>
    if refine && mixedReadMethods scrap files then
      (.error "refine using mixed read methods is unsupported", files)
    else
      let files := openStreams refine scrap (removeRemnants scrap files)
      if refine then
        if tocBuffer ≠ files.toc then
          (.error "disc / file TOC don't match, refining from a different disc?", files)
        else (.ok scrap, files)
      else (.ok scrap, { files with toc := tocBuffer })

theorem removeRemnants_of_not_mixed {scrap : Bool} {files : ImageFiles}
    (h : mixedReadMethods scrap files = false) : removeRemnants scrap files = files := by
  unfold mixedReadMethods at h
  unfold removeRemnants
  cases scrap <;> cases files <;> simp_all

/-- What a setup can do: throw with the files as they were; or, past its checks, set up a
dump (the data file of its read method and `.state` created, the other data file deleted, the
drive's TOC stored); or continue a refine on files it leaves alone, with no data file of the
other read method and `.toc` holding the drive's TOC. -/
theorem openImage_cases (refine : Bool) (options : Options) (drive : DriveConfig) (toc : Toc)
    (tocBuffer : List UInt8) (files : ImageFiles) :
    (∃ msg, openImage refine options drive toc tocBuffer files = (.error msg, files)) ∨
    ∃ scrap, (refine = false ∧
        openImage refine options drive toc tocBuffer files =
          (.ok scrap, ⟨!scrap, scrap, true, tocBuffer⟩)) ∨
      (refine = true ∧ mixedReadMethods scrap files = false ∧ tocBuffer = files.toc ∧
        openImage refine options drive toc tocBuffer files = (.ok scrap, files)) := by
  unfold openImage
  by_cases h1 : options.imageName.isEmpty = true
  · exact .inl ⟨_, if_pos h1⟩
  rw [if_neg h1]
  by_cases h2 : (!refine && !options.overwrite && files.state) = true
  · exact .inl ⟨_, if_pos h2⟩
  rw [if_neg h2]
  cases beScrap drive.readMethod options.driveType.isSome toc with
  | error e => exact .inl ⟨e, rfl⟩
  | ok scrap =>
    dsimp only
    cases refine
    · refine .inr ⟨scrap, .inl ⟨rfl, ?_⟩⟩
      cases scrap <;> rfl
    · by_cases hm : mixedReadMethods scrap files = true
      · exact .inl ⟨"refine using mixed read methods is unsupported", by simp [hm]⟩
      have hm' : mixedReadMethods scrap files = false := by simpa using hm
      simp only [Bool.true_and, hm', Bool.false_eq_true, if_false, openStreams, if_true,
        removeRemnants_of_not_mixed hm']
      by_cases ht : tocBuffer = files.toc
      · exact .inr ⟨scrap, .inr ⟨trivial, hm', ht, by simp [ht]⟩⟩
      · exact .inl
          ⟨"disc / file TOC don't match, refining from a different disc?", by simp [ht]⟩

/-- **A refused setup changes nothing.** Whatever `redumper_dump` throws before its loop, the
image's files are as they were: every check comes before the first change but the TOC
comparison of a refine, which only follows the deletion of a file the check of line 248 has
found absent and the opening of streams that exist. -/
theorem openImage_error_files (refine : Bool) (options : Options) (drive : DriveConfig)
    (toc : Toc) (tocBuffer : List UInt8) (files : ImageFiles) (msg : String)
    (h : (openImage refine options drive toc tocBuffer files).1 = .error msg) :
    (openImage refine options drive toc tocBuffer files).2 = files := by
  rcases openImage_cases refine options drive toc tocBuffer files with
    ⟨_, he⟩ | ⟨_, ⟨-, he⟩ | ⟨-, -, -, he⟩⟩ <;> rw [he] at h ⊢
  cases h

/-- A dump over an existing dump, refused. -/
theorem openImage_error_files_existing :
    (openImage false ⟨[], "", "a", 0, none, none, [], false, false, false, false, none⟩
        ⟨.d8, .generic, -150, true⟩ ⟨[⟨0, 1000, [false]⟩], List.cons_ne_nil _ _⟩ [1]
        ⟨true, false, true, [1]⟩).1 = .error "dump already exists (name: a)" ∧
    (openImage false ⟨[], "", "a", 0, none, none, [], false, false, false, false, none⟩
        ⟨.d8, .generic, -150, true⟩ ⟨[⟨0, 1000, [false]⟩], List.cons_ne_nil _ _⟩ [1]
        ⟨true, false, true, [1]⟩).2 = ⟨true, false, true, [1]⟩ :=
  have h : (openImage false ⟨[], "", "a", 0, none, none, [], false, false, false, false, none⟩
      ⟨.d8, .generic, -150, true⟩ ⟨[⟨0, 1000, [false]⟩], List.cons_ne_nil _ _⟩ [1]
      ⟨true, false, true, [1]⟩).1 = .error "dump already exists (name: a)" := rfl
  ⟨h, openImage_error_files _ _ _ _ _ _ _ h⟩

section Success

variable {options : Options} {drive : DriveConfig} {toc : Toc} {tocBuffer : List UInt8}
  {files : ImageFiles} {scrap : Bool}

theorem openImage_dump (h : (openImage false options drive toc tocBuffer files).1 = .ok scrap) :
    (openImage false options drive toc tocBuffer files).2 =
      ⟨!scrap, scrap, true, tocBuffer⟩ := by
  rcases openImage_cases false options drive toc tocBuffer files with
    ⟨_, he⟩ | ⟨_, ⟨-, he⟩ | ⟨h', -⟩⟩
  · rw [he] at h; cases h
  · rw [he] at h ⊢; cases h; rfl
  · cases h'

theorem openImage_refine (h : (openImage true options drive toc tocBuffer files).1 = .ok scrap) :
    (openImage true options drive toc tocBuffer files).2 = files ∧
      mixedReadMethods scrap files = false ∧ tocBuffer = files.toc := by
  rcases openImage_cases true options drive toc tocBuffer files with
    ⟨_, he⟩ | ⟨_, ⟨h', -⟩ | ⟨-, hm, ht, he⟩⟩
  · rw [he] at h; cases h
  · cases h'
  · rw [he] at h ⊢; cases h; exact ⟨rfl, hm, ht⟩

end Success

/-- **A refine continues the dump it finds.** A refine that gets past its checks on the
image a dump has just set up uses the dump's read method (`.scram` or `.scrap`) and was given
the TOC the dump stored: a different read method is refused as mixed, a different disc by
the TOC comparison. -/
theorem refine_after_dump {options options' : Options} {drive drive' : DriveConfig}
    {toc toc' : Toc} {tocBuffer tocBuffer' : List UInt8} {files : ImageFiles} {scrap scrap' : Bool}
    (hd : (openImage false options drive toc tocBuffer files).1 = .ok scrap)
    (hr : (openImage true options' drive' toc' tocBuffer'
      (openImage false options drive toc tocBuffer files).2).1 = .ok scrap') :
    scrap' = scrap ∧ tocBuffer' = tocBuffer := by
  obtain ⟨-, hm, ht⟩ := openImage_refine hr
  rw [openImage_dump hd] at hm ht
  refine ⟨?_, ht⟩
  unfold mixedReadMethods at hm
  cases scrap <;> cases scrap' <;> simp_all

/-- A dump on a D8 drive of an audio disc, then a refine of it. -/
theorem refine_after_dump_audio :
    (openImage false ⟨[], "", "a", 0, none, none, [], false, false, false, false, none⟩
        ⟨.d8, .generic, -150, true⟩ ⟨[⟨0, 1000, [false]⟩], List.cons_ne_nil _ _⟩ [1]
        ⟨false, false, false, []⟩).1 = .ok false ∧
    (openImage true ⟨[], "", "a", 0, none, none, [], false, false, false, false, none⟩
        ⟨.d8, .generic, -150, true⟩ ⟨[⟨0, 1000, [false]⟩], List.cons_ne_nil _ _⟩ [1]
        (openImage false ⟨[], "", "a", 0, none, none, [], false, false, false, false, none⟩
          ⟨.d8, .generic, -150, true⟩ ⟨[⟨0, 1000, [false]⟩], List.cons_ne_nil _ _⟩ [1]
          ⟨false, false, false, []⟩).2).1 = .ok false ∧
    (false = false ∧ [(1 : UInt8)] = [1]) :=
  have hd : (openImage false ⟨[], "", "a", 0, none, none, [], false, false, false, false, none⟩
      ⟨.d8, .generic, -150, true⟩ ⟨[⟨0, 1000, [false]⟩], List.cons_ne_nil _ _⟩ [1]
      ⟨false, false, false, []⟩).1 = .ok false := rfl
  have hr : (openImage true ⟨[], "", "a", 0, none, none, [], false, false, false, false, none⟩
      ⟨.d8, .generic, -150, true⟩ ⟨[⟨0, 1000, [false]⟩], List.cons_ne_nil _ _⟩ [1]
      (openImage false ⟨[], "", "a", 0, none, none, [], false, false, false, false, none⟩
        ⟨.d8, .generic, -150, true⟩ ⟨[⟨0, 1000, [false]⟩], List.cons_ne_nil _ _⟩ [1]
        ⟨false, false, false, []⟩).2).1 = .ok false := rfl
  ⟨hd, hr, refine_after_dump hd hr⟩

/-! ### Successive runs -/

/-- A run of `redumper_dump` as far as the image's files go: the mode and what it is given. -/
structure Attempt where
  /-- `refine`. -/
  refine : Bool
  /-- The options. -/
  options : Options
  /-- The drive configuration. -/
  drive : DriveConfig
  /-- The TOC the drive returns, parsed. -/
  toc : Toc
  /-- The TOC the drive returns, as read. -/
  tocBuffer : List UInt8

/-- The image's files after successive runs, each one dumping or refining, refused or not. -/
def attemptAll (attempts : List Attempt) (files : ImageFiles) : ImageFiles :=
  attempts.foldl (fun f a => (openImage a.refine a.options a.drive a.toc a.tocBuffer f).2) files

/-- One run never leaves both data files when there were not both before. -/
theorem openImage_not_both (refine : Bool) (options : Options) (drive : DriveConfig) (toc : Toc)
    (tocBuffer : List UInt8) {files : ImageFiles} (h : (files.scram && files.scrap) = false) :
    ((openImage refine options drive toc tocBuffer files).2.scram &&
      (openImage refine options drive toc tocBuffer files).2.scrap) = false := by
  cases hr : (openImage refine options drive toc tocBuffer files).1 with
  | error msg => rw [openImage_error_files _ _ _ _ _ _ msg hr]; exact h
  | ok scrap =>
    cases refine
    · rw [openImage_dump hr]; cases scrap <;> rfl
    · rw [(openImage_refine hr).1]; exact h

/-- **An image never holds both `.scram` and `.scrap`.** From an image without both, no
sequence of dumps and refines, with any options, drives and discs, refused or not, leaves
both: every run that gets past its checks deletes the data file of the other read method. -/
theorem attemptAll_not_both (attempts : List Attempt) {files : ImageFiles}
    (h : (files.scram && files.scrap) = false) :
    ((attemptAll attempts files).scram && (attemptAll attempts files).scrap) = false := by
  induction attempts generalizing files with
  | nil => exact h
  | cons a as ih => exact ih (openImage_not_both _ _ _ _ _ h)

/-- A new image, then a BE dump of a data disc and a refine with another read method, refused. -/
theorem attemptAll_not_both_new : (false && false) = false ∧
    ((attemptAll
      [⟨false, ⟨[], "", "a", 0, none, none, [], false, false, false, false, none⟩,
      ⟨.be, .generic, -150, true⟩, ⟨[⟨0, 1000, [true]⟩], List.cons_ne_nil _ _⟩, [1]⟩,
      ⟨true, ⟨[], "", "a", 0, none, none, [], false, false, false, false, none⟩,
      ⟨.d8, .generic, -150, true⟩, ⟨[⟨0, 1000, [true]⟩], List.cons_ne_nil _ _⟩, [1]⟩]
      ⟨false, false, false, []⟩).scram &&
    (attemptAll
      [⟨false, ⟨[], "", "a", 0, none, none, [], false, false, false, false, none⟩,
      ⟨.be, .generic, -150, true⟩, ⟨[⟨0, 1000, [true]⟩], List.cons_ne_nil _ _⟩, [1]⟩,
      ⟨true, ⟨[], "", "a", 0, none, none, [], false, false, false, false, none⟩,
      ⟨.d8, .generic, -150, true⟩, ⟨[⟨0, 1000, [true]⟩], List.cons_ne_nil _ _⟩, [1]⟩]
      ⟨false, false, false, []⟩).scrap) = false :=
  ⟨rfl, attemptAll_not_both _ rfl⟩

end Redumper
