import Redumper.Psx
import Redumper.RegexLanguage
import Mathlib.Data.List.Basic
import Mathlib.Data.String.Basic

/-!
# The PSX executable and its serial

How `SystemPSX` names a disc (`src/systems/psx.cc`, lines 45–167): `findEXE` takes the path of
the executable from the first line of `SYSTEM.CNF` that `BOOT = cdrom:\...` matches, uppercased
(`PSX.EXE` when there is no `SYSTEM.CNF`); `deduceSerial` reads the serial's prefix and number
from the executable's name, with two discs set right by hand; the report prints them as
`serial: PREFIX-NUMBER`, and the region `detectRegion` gives the prefix.

Both readers are `std::regex_match` on a pattern, modelled by `Regex.Pattern.m`. What
`SYSTEM.CNF` holds and whether the root directory has `PSX.EXE` come from `ImageBrowser`, which
is not in `src/`: they are parameters. `str_uppercase` is not in `src/` either.

## What is proved

* `deduceSerial_path`: the pattern of `deduceSerial` reads every executable name laid out as
  `DIR\PREFIX_NUMBER.EXT` (any directories, a separator `_`, `-` or none, a letter before the
  number when there is a separator, a letter after the extension) back into its prefix and its
  number and extension run together.
* `findEXE_boot`: `findEXE` reads every `BOOT` line of the forms the comments of `findEXE` list
  back into its path, uppercased.
* `serialLines_boot`: a `SYSTEM.CNF` that boots an executable so named is reported with that
  serial and the region of its prefix.
* `deduceSerial_classes`: for every path, the prefix `deduceSerial` returns is a run of
  capitals and the serial a run of capitals and digits that holds a digit, or both are empty.
* `findEXE_chars`: whatever `SYSTEM.CNF` holds, the path `findEXE` reads from it holds no
  semicolon and no line terminator.

The first three build the first match with the calculus `Regex.Leads`; the last two take the
match apart with the language `Regex.Matches`, and `findEXE_chars` also with the first place a
lazy repetition stops.
-/

namespace Redumper.Psx

open Regex

/-! ### The classes of the characters of a serial -/

theorem isUpper_iff (c : Char) : c.isUpper = true ↔ 65 ≤ c.toNat ∧ c.toNat ≤ 90 := by
  simp only [Char.isUpper, Bool.and_eq_true, decide_eq_true_eq, GE.ge, UInt32.le_def,
    BitVec.le_def]
  rfl

theorem isDigit_iff (c : Char) : c.isDigit = true ↔ 48 ≤ c.toNat ∧ c.toNat ≤ 57 := by
  simp only [Char.isDigit, Bool.and_eq_true, decide_eq_true_eq, GE.ge, UInt32.le_def,
    BitVec.le_def]
  rfl

theorem ne_of_toNat_ne {c d : Char} (h : c.toNat ≠ d.toNat) : c ≠ d :=
  fun e => h (congrArg Char.toNat e)

theorem isDigit_of_isUpper {c : Char} (h : c.isUpper = true) : c.isDigit = false := by
  rw [isUpper_iff] at h
  rw [Bool.eq_false_iff, ne_eq, isDigit_iff]; omega

theorem isUpper_of_isDigit {c : Char} (h : c.isDigit = true) : c.isUpper = false := by
  rw [isDigit_iff] at h
  rw [Bool.eq_false_iff, ne_eq, isUpper_iff]; omega

/-- A character of a serial's class is neither a line terminator nor a backslash. -/
theorem isDot_of_toNat {c : Char} (h : 45 ≤ c.toNat ∧ c.toNat ≤ 95 ∧ c.toNat ≠ 92) :
    isDot c = true ∧ c ≠ '\\' := by
  refine ⟨?_, ne_of_toNat_ne (by simp; omega)⟩
  have h10 : c ≠ '\n' := ne_of_toNat_ne (by simp; omega)
  have h13 : c ≠ '\r' := ne_of_toNat_ne (by simp; omega)
  simp [isDot, h10, h13]

theorem isDot_of_lt {c : Char} (h : 13 < c.toNat) : isDot c = true := by
  have h10 : c ≠ '\n' := ne_of_toNat_ne (by simp; omega)
  have h13 : c ≠ '\r' := ne_of_toNat_ne (by simp; omega)
  simp [isDot, h10, h13]

theorem isSpace_of_lt {c : Char} (h : 32 < c.toNat) : isSpace c = false := by
  have hne : ∀ d : Char, d.toNat ≤ 32 → c ≠ d := fun d hd => ne_of_toNat_ne (by omega)
  simp [isSpace, hne ' ' (by decide), hne '\t' (by decide), hne '\n' (by decide),
    hne '\x0B' (by decide), hne '\x0C' (by decide), hne '\r' (by decide)]

theorem isDot_of_isUpper {c : Char} (h : c.isUpper = true) : isDot c = true ∧ c ≠ '\\' :=
  isDot_of_toNat (by rw [isUpper_iff] at h; omega)

theorem isDot_of_isDigit {c : Char} (h : c.isDigit = true) : isDot c = true ∧ c ≠ '\\' :=
  isDot_of_toNat (by rw [isDigit_iff] at h; omega)

/-! ### `deduceSerial` -/

/-- The pattern of `deduceSerial`, `(.*\\)*([A-Z]*)(_|-)?([A-Z]?[0-9]+)\.([0-9]+[A-Z]?)`: the
directories, the prefix, the separator, the number, the extension. -/
def serialPattern : Pattern :=
  seqs [.star true (.group 1 (.seq (.star true dot) (lit '\\'))), .group 2 (.star true upper),
    opt (.group 3 (.alt (lit '_') (lit '-'))), .group 4 (.seq (opt upper) (plus digit)),
    lit '.', .group 5 (.seq (plus digit) (opt upper))]

/-- Lines 152–162: the two discs whose name the pattern reads wrong, Road Writer (USA), whose
prefix is missing, and GameGenius Ver. 5.0, which has no serial. -/
def serialFixups (serial : List Char × List Char) : List Char × List Char :=
  if serial.1.isEmpty ∧ serial.2 = ['9', '0', '7', '1', '2', '7', '0', '0', '1'] then
    (['L', 'S', 'P'], serial.2)
  else if serial.1 = ['P', 'A', 'R'] ∧ serial.2 = ['9', '0', '0', '0', '1'] then ([], [])
  else serial

/-- `SystemPSX::deduceSerial`: the prefix (group 2) and the number (groups 4 and 5) of a
match of the whole path, set right by `serialFixups`; nothing without a match. -/
def deduceSerial (exePath : String) : String × String :=
  match regexMatch serialPattern exePath.toList with
  | some caps =>
    let serial := serialFixups (capStr caps 2, capStr caps 4 ++ capStr caps 5)
    (String.mk serial.1, String.mk serial.2)
  | none => ("", "")

section Serial

variable {dir pre d1 d2 : List Char} {sep l1 l2 : Option Char}

/-- The directories: none, or up to the last backslash. -/
theorem leads_dirs
    (hdir : dir = [] ∨ ∃ dir', dir = dir' ++ ['\\'] ∧ ∀ c ∈ dir', isDot c = true)
    {rest : List Char} (hrest : ∀ c ∈ rest, c ≠ '\\') :
    Leads (.star true (.group 1 (.seq (.star true dot) (lit '\\')))) dir rest
      (fun caps => if dir = [] then caps else Function.update caps 1 (some dir)) := by
  have hfail : Fails (.group 1 (.seq (.star true dot) (lit '\\'))) rest :=
    Fails.group 1 (Fails.star_lit hrest)
  rcases hdir with rfl | ⟨dir', rfl, hdot⟩
  · simpa using Leads.star_none hfail
  · simpa using Leads.star_once
      (Leads.group 1 (Leads.star_last hdot (by decide : isDot '\\' = true) hrest)) (by simp) hfail

/-- The prefix: the run of capitals. -/
theorem leads_capitals (hpre : ∀ c ∈ pre, c.isUpper = true) {rest : List Char}
    (hrest : ∀ c ∈ rest.head?, c.isUpper = false) :
    Leads (.group 2 (.star true upper)) pre rest
      fun caps => Function.update caps 2 (some pre) :=
  Leads.group 2 (Leads.star_run hpre hrest)

/-- The separator, if any: none before a digit. -/
theorem leads_sep (hsep : ∀ c ∈ sep, c = '_' ∨ c = '-') {rest : List Char}
    (hrest : sep = none → ∃ d ds, rest = d :: ds ∧ d.isDigit = true) :
    Leads (opt (.group 3 (.alt (lit '_') (lit '-')))) sep.toList rest
      fun caps => sep.elim caps fun c => Function.update caps 3 (some [c]) := by
  cases sep with
  | none =>
    obtain ⟨d, ds, rfl, hd⟩ := hrest rfl
    have hd' : d ≠ '_' ∧ d ≠ '-' := by
      rw [isDigit_iff] at hd
      exact ⟨ne_of_toNat_ne (by simp; omega), ne_of_toNat_ne (by simp; omega)⟩
    exact Leads.alt_right (Fails.group 3 (Fails.alt (Fails.atom (by simp [hd'.1]) ds)
      (Fails.atom (by simp [hd'.2]) ds))) (Leads.empty _)
  | some c =>
    refine Leads.alt_left (Leads.group 3 ?_)
    rcases hsep c rfl with rfl | rfl
    · exact Leads.alt_left (Leads.atom (by decide) rest)
    · exact Leads.alt_right (Fails.atom (by decide) rest) (Leads.atom (by decide) rest)

/-- The number: a capital if any, then the run of digits up to the dot. -/
theorem leads_number (hl1 : ∀ c ∈ l1, c.isUpper = true)
    (hd1 : d1 ≠ [] ∧ ∀ c ∈ d1, c.isDigit = true) (rest : List Char) :
    Leads (.group 4 (.seq (opt upper) (plus digit))) (l1.toList ++ d1) ('.' :: rest)
      fun caps => Function.update caps 4 (some (l1.toList ++ d1)) := by
  obtain ⟨d, ds, rfl⟩ := List.exists_cons_of_ne_nil hd1.1
  have hdig := hd1.2
  have hd : d.isDigit = true := hdig d (List.mem_cons_self _ _)
  have hdigits : Leads (plus digit) (d :: ds) ('.' :: rest) id :=
    Leads.seq (Leads.atom hd _)
      (Leads.star_run (fun c hc => hdig c (List.mem_cons_of_mem _ hc)) (by simp))
  have hopt : Leads (opt upper) l1.toList (d :: ds ++ '.' :: rest) id := by
    cases l1 with
    | none => exact Leads.alt_right (Fails.atom (isUpper_of_isDigit hd) _) (Leads.empty _)
    | some c => exact Leads.alt_left (Leads.atom (hl1 c rfl) _)
  exact Leads.group 4 (Leads.seq hopt hdigits)

/-- The extension: the run of digits, then a capital if any, to the end. -/
theorem leads_ext (hd2 : d2 ≠ [] ∧ ∀ c ∈ d2, c.isDigit = true)
    (hl2 : ∀ c ∈ l2, c.isUpper = true) :
    Leads (.group 5 (.seq (plus digit) (opt upper))) (d2 ++ l2.toList) []
      fun caps => Function.update caps 5 (some (d2 ++ l2.toList)) := by
  obtain ⟨d, ds, rfl⟩ := List.exists_cons_of_ne_nil hd2.1
  have hdig := hd2.2
  have hstop : ∀ c ∈ l2.toList.head?, c.isDigit = false := by
    cases l2 with
    | none => simp
    | some c => simpa using isDigit_of_isUpper (hl2 c rfl)
  have hdigits : Leads (plus digit) (d :: ds) (l2.toList ++ []) id := by
    rw [List.append_nil]
    exact Leads.seq (Leads.atom (hdig d (List.mem_cons_self _ _)) _)
      (Leads.star_run (fun c hc => hdig c (List.mem_cons_of_mem _ hc)) hstop)
  have hopt : Leads (opt upper) l2.toList [] id := by
    cases l2 with
    | none => exact Leads.alt_right Fails.atom_nil (Leads.empty _)
    | some c => exact Leads.alt_left (Leads.atom (hl2 c rfl) _)
  exact Leads.group 5 (Leads.seq hdigits hopt)

/-- No character of a serial's class after the directories is a backslash. -/
theorem ne_backslash_of_mem (hpre : ∀ c ∈ pre, c.isUpper = true)
    (hsep : ∀ c ∈ sep, c = '_' ∨ c = '-') (hl1 : ∀ c ∈ l1, c.isUpper = true)
    (hd1 : ∀ c ∈ d1, c.isDigit = true) (hd2 : ∀ c ∈ d2, c.isDigit = true)
    (hl2 : ∀ c ∈ l2, c.isUpper = true) :
    ∀ c ∈ pre ++ sep.toList ++ l1.toList ++ d1 ++ '.' :: (d2 ++ l2.toList), c ≠ '\\' := by
  intro c hc
  simp only [List.mem_append, List.mem_cons, Option.mem_toList] at hc
  rcases hc with ((((h | h) | h) | h) | rfl | h | h)
  · exact (isDot_of_isUpper (hpre c h)).2
  · rcases hsep c h with rfl | rfl <;> decide
  · exact (isDot_of_isUpper (hl1 c h)).2
  · exact (isDot_of_isDigit (hd1 c h)).2
  · decide
  · exact (isDot_of_isDigit (hd2 c h)).2
  · exact (isDot_of_isUpper (hl2 c h)).2

/-- The pattern of `deduceSerial` matches a name laid out as `DIR\PREFIX_NUMBER.EXT` and
captures its prefix, number and extension. -/
theorem regexMatch_serialPattern
    (hdir : dir = [] ∨ ∃ dir', dir = dir' ++ ['\\'] ∧ ∀ c ∈ dir', isDot c = true)
    (hpre : ∀ c ∈ pre, c.isUpper = true) (hsep : ∀ c ∈ sep, c = '_' ∨ c = '-')
    (hl1 : ∀ c ∈ l1, c.isUpper = true ∧ sep.isSome = true)
    (hd1 : d1 ≠ [] ∧ ∀ c ∈ d1, c.isDigit = true)
    (hd2 : d2 ≠ [] ∧ ∀ c ∈ d2, c.isDigit = true) (hl2 : ∀ c ∈ l2, c.isUpper = true) :
    ∃ caps, regexMatch serialPattern
        (dir ++ pre ++ sep.toList ++ l1.toList ++ d1 ++ '.' :: (d2 ++ l2.toList)) = some caps ∧
      capStr caps 2 = pre ∧ capStr caps 4 = l1.toList ++ d1 ∧
        capStr caps 5 = d2 ++ l2.toList := by
  obtain ⟨d, ds, rfl⟩ := List.exists_cons_of_ne_nil hd1.1
  have hd : d.isDigit = true := hd1.2 d (List.mem_cons_self _ _)
  have hl1' : ∀ c ∈ l1, c.isUpper = true := fun c hc => (hl1 c hc).1
  have hext := leads_ext hd2 hl2
  have hdot : Leads (.seq (lit '.') (.group 5 (.seq (plus digit) (opt upper))))
      ('.' :: (d2 ++ l2.toList)) [] _ := Leads.seq (Leads.atom (by decide) _) hext
  have hnum := Leads.seq (leads_number hl1' hd1 _) hdot
  have hsep' := Leads.seq (leads_sep hsep fun hs => ?_) hnum
  · have hpre' := Leads.seq (leads_capitals hpre ?_) hsep'
    · have hall := Leads.seq (leads_dirs hdir ?_) hpre'
      · have e : dir ++ pre ++ sep.toList ++ l1.toList ++ d :: ds ++ '.' :: (d2 ++ l2.toList) =
            dir ++ (pre ++ (sep.toList ++ (l1.toList ++ d :: ds ++ '.' :: (d2 ++ l2.toList)))) := by
          simp
        refine ⟨_, e ▸ regexMatch_of_leads hall, ?_⟩
        cases sep <;> simp [capStr, Function.update_apply]
      · simpa [List.append_assoc] using ne_backslash_of_mem hpre hsep hl1' hd1.2 hd2.2 hl2
    · cases sep with
      | none =>
        cases l1 with
        | none => simpa using isUpper_of_isDigit hd
        | some c => exact absurd (hl1 c rfl).2 (by simp)
      | some c => rcases hsep c rfl with rfl | rfl <;> simp
  · cases l1 with
    | none => exact ⟨d, _, rfl, hd⟩
    | some c => exact absurd (hl1 c rfl).2 (by simp [hs])

/-- **The serial of an executable's name.** `deduceSerial` reads every name laid out as
`DIR\PREFIX_NUMBER.EXT` back into its prefix and its number and extension run together, set
right for the two discs of `serialFixups`: any directories, each ending in a backslash; a run
of capitals; a separator `_`, `-` or none; a capital, when there is a separator, and digits;
a dot; digits and a capital if any. -/
theorem deduceSerial_path
    (hdir : dir = [] ∨ ∃ dir', dir = dir' ++ ['\\'] ∧ ∀ c ∈ dir', isDot c = true)
    (hpre : ∀ c ∈ pre, c.isUpper = true) (hsep : ∀ c ∈ sep, c = '_' ∨ c = '-')
    (hl1 : ∀ c ∈ l1, c.isUpper = true ∧ sep.isSome = true)
    (hd1 : d1 ≠ [] ∧ ∀ c ∈ d1, c.isDigit = true)
    (hd2 : d2 ≠ [] ∧ ∀ c ∈ d2, c.isDigit = true) (hl2 : ∀ c ∈ l2, c.isUpper = true) :
    deduceSerial
        (String.mk (dir ++ pre ++ sep.toList ++ l1.toList ++ d1 ++ '.' :: (d2 ++ l2.toList))) =
      (String.mk (serialFixups (pre, l1.toList ++ d1 ++ (d2 ++ l2.toList))).1,
        String.mk (serialFixups (pre, l1.toList ++ d1 ++ (d2 ++ l2.toList))).2) := by
  obtain ⟨caps, h, h2, h4, h5⟩ := regexMatch_serialPattern hdir hpre hsep hl1 hd1 hd2 hl2
  dsimp only [deduceSerial, String.toList]
  rw [h]
  dsimp only
  rw [h2, h4, h5]

/-- The executable of Wild Arms - 2nd Ignition (Japan) (Demo), from the comments of `findEXE`. -/
theorem deduceSerial_path_wild_arms : deduceSerial "EXE\\PCPX_961.61" = ("PCPX", "96161") :=
  (@deduceSerial_path ['E', 'X', 'E', '\\'] ['P', 'C', 'P', 'X'] ['9', '6', '1'] ['6', '1']
    (some '_') none none (.inr ⟨['E', 'X', 'E'], rfl, by decide⟩) (by decide) (by decide)
    (by decide) (by decide) (by decide) (by decide)).trans (by decide)

end Serial

/-! ### What `deduceSerial` never returns -/

/-- Every way of matching `serialPattern` captures a run of capitals as the prefix, and runs of
capitals and digits as the number and the extension, the number holding a digit. -/
theorem serialPattern_caps {s s' : MatchState} (h : Matches serialPattern s s') :
    ∃ pre d1 d2, s'.caps 2 = some pre ∧ s'.caps 4 = some d1 ∧ s'.caps 5 = some d2 ∧
      (∀ c ∈ pre, c.isUpper = true) ∧ (∀ c ∈ d1 ++ d2, c.isUpper = true ∨ c.isDigit = true) ∧
      ∃ c ∈ d1, c.isDigit = true := by
  obtain ⟨s1, -, h⟩ := h.seq_inv
  obtain ⟨s2, h2, h⟩ := h.seq_inv
  obtain ⟨s3, h3, h⟩ := h.seq_inv
  obtain ⟨s4, h4, h⟩ := h.seq_inv
  obtain ⟨s5, h5, h6⟩ := h.seq_inv
  obtain ⟨pre, hpre, -, hup, -⟩ :=
    h2.group_capture (q := fun c => c.isUpper = true) fun _ hc => hc
  obtain ⟨d1, hd1, -, hc1, hn1⟩ :=
    h4.group_capture (q := fun c => c.isUpper = true ∨ c.isDigit = true)
      ⟨⟨fun _ hc => .inl hc, trivial⟩, fun _ hc => .inr hc, fun _ hc => .inr hc⟩
  obtain ⟨d2, hd2, -, hc2, -⟩ :=
    h6.group_capture (q := fun c => c.isUpper = true ∨ c.isDigit = true)
      ⟨⟨fun _ hc => .inr hc, fun _ hc => .inr hc⟩, fun _ hc => .inl hc, trivial⟩
  obtain ⟨c, hc, hdig⟩ := hn1 (fun c => c.isDigit = true) (Or.inr (Or.inl fun _ hc => hc))
  refine ⟨pre, d1, d2, ?_, ?_, hd2, hup, ?_, c, hc, hdig⟩
  · rw [h6.caps_of_not_captures (n := 2) rfl, h5.caps_of_not_captures (n := 2) rfl,
      h4.caps_of_not_captures (n := 2) rfl, h3.caps_of_not_captures (n := 2) rfl, hpre]
  · rw [h6.caps_of_not_captures (n := 4) rfl, h5.caps_of_not_captures (n := 4) rfl, hd1]
  · simpa [or_imp, forall_and] using And.intro hc1 hc2

/-- **What `deduceSerial` never returns.** For every executable path, the prefix is a run of
capitals and the serial a run of capitals and digits; a prefix never comes without a serial,
and a serial always holds a digit. -/
theorem deduceSerial_classes (exePath : String) :
    (∀ c ∈ (deduceSerial exePath).1.toList, c.isUpper = true) ∧
    (∀ c ∈ (deduceSerial exePath).2.toList, c.isUpper = true ∨ c.isDigit = true) ∧
    (deduceSerial exePath = ("", "") ∨
      ∃ c ∈ (deduceSerial exePath).2.toList, c.isDigit = true) := by
  unfold deduceSerial
  cases hm : regexMatch serialPattern exePath.toList with
  | none => simp
  | some caps =>
    obtain ⟨s', hs', -, rfl⟩ := regexMatch_sound hm
    obtain ⟨pre, d1, d2, h2, h4, h5, hpre, hd, c, hc, hdig⟩ := serialPattern_caps hs'
    simp only [capStr, h2, h4, h5, Option.getD_some, serialFixups]
    split_ifs
    · exact ⟨by simp only [String.toList]; decide, hd, .inr ⟨c, List.mem_append_left _ hc, hdig⟩⟩
    · exact ⟨by simp, by simp, .inl rfl⟩
    · exact ⟨hpre, hd, .inr ⟨c, List.mem_append_left _ hc, hdig⟩⟩

/-! ### `findEXE` -/

/-- The lines `std::getline` reads from a text, one after the other: the pieces between line
feeds, the last one only when it is not empty. -/
def getlines (text : List Char) : List (List Char) :=
  let parts := text.splitOn '\n'
  if parts.getLast? = some [] then parts.dropLast else parts

/-- Modelled from the spec: `str_uppercase` (not in `src/`) uppercases its argument; like
`toupper` in the classic locale, `Char.toUpper` changes `a`–`z` only. -/
def strUppercase (s : List Char) : List Char := s.map Char.toUpper

/-- The pattern of `findEXE`, `^\s*BOOT.*=\s*cdrom.?:\\*(.*?)(?:;.*\s*|\s*$)`: the key, the
device, the path (as short as the rest allows), and a version or blanks to the end. -/
def bootPattern : Pattern :=
  seqs [.bol, .star true space, lits ['B', 'O', 'O', 'T'], .star true dot, lit '=',
    .star true space, lits ['c', 'd', 'r', 'o', 'm'], opt dot, lit ':', .star true (lit '\\'),
    .group 1 (.star false dot),
    .alt (seqs [lit ';', .star true dot, .star true space]) (seqs [.star true space, .eol])]

/-- `SystemPSX::findEXE`: the path that group 1 of `bootPattern` captures in the first line of
`SYSTEM.CNF` it matches, uppercased, or the empty string when no line matches; without
`SYSTEM.CNF`, the name of `PSX.EXE`, if the root directory has it. `systemCnf` is what
`SYSTEM.CNF` holds, a character a byte, if the root directory has it. -/
def findEXE (systemCnf : Option (List Char)) (psxExe : Option String) : String :=
  match systemCnf with
  | some data =>
    match (getlines data).findSome? (regexMatch bootPattern) with
    | some caps => String.mk (strUppercase (capStr caps 1))
    | none => ""
  | none => psxExe.getD ""

/-- A line that a line feed ends is the first line `std::getline` reads. -/
theorem getlines_cons {line : List Char} (hline : ∀ c ∈ line, c ≠ '\n') (more : List Char) :
    getlines (line ++ '\n' :: more) = line :: getlines more := by
  have hsplit : (line ++ '\n' :: more).splitOn '\n' = line :: more.splitOn '\n' :=
    List.splitOnP_first (· == '\n') line (fun c hc => by simpa using hline c hc) '\n' (by simp)
      more
  obtain ⟨q, qs, hq⟩ := List.exists_cons_of_ne_nil (List.splitOnP_ne_nil (· == '\n') more)
  have hq' : more.splitOn '\n' = q :: qs := hq
  simp only [getlines, hsplit, hq', List.getLast?_cons_cons, List.dropLast_cons₂]
  split <;> rfl

section Boot

variable {ws1 mid ws2 bs path u w : List Char} {dev : Option Char}

/-- The end of a `BOOT` line: a version after a semicolon and blanks, or blanks only. -/
theorem leads_version (semi : Bool) (hu : ∀ c ∈ u, isDot c = true)
    (hw : ∀ c ∈ w, isSpace c = true) :
    Leads (.alt (seqs [lit ';', .star true dot, .star true space]) (seqs [.star true space, .eol]))
      ((if semi then ';' :: u else []) ++ w) [] id := by
  have hspaces : ∀ {t : List Char}, (∀ c ∈ t, isSpace c = true) →
      Leads (.star true space) t [] id := fun ht => Leads.star_run ht (by simp)
  cases semi with
  | true =>
    have hrun : Leads (.star true dot) (u ++ w.takeWhile isDot) (w.dropWhile isDot ++ []) id := by
      rw [List.append_nil]
      refine Leads.star_run (fun c hc => ?_) ?_
      · rcases List.mem_append.1 hc with h | h
        exacts [hu c h, List.mem_takeWhile_imp h]
      · have := List.head?_dropWhile_not isDot w
        intro c hc
        rw [Option.mem_def] at hc
        simpa [hc] using this
    have hl := Leads.seq (Leads.atom (p := (· == ';')) (c := ';') rfl _) (Leads.seq hrun
      (hspaces fun c hc => hw c ((List.dropWhile_sublist _).subset hc)))
    have e : [';'] ++ (u ++ w.takeWhile isDot ++ w.dropWhile isDot) =
        (if true = true then ';' :: u else []) ++ w := by
      simp [List.takeWhile_append_dropWhile]
    exact Leads.alt_left (e ▸ hl)
  | false =>
    have hr := Leads.seq (hspaces (t := w) hw) Leads.eol
    rw [List.append_nil] at hr
    refine Leads.alt_right ?_ (by simpa using hr)
    cases w with
    | nil => exact Fails.seq Fails.atom_nil
    | cons c cs =>
      have hc : c ≠ ';' := fun e => absurd (hw c (List.mem_cons_self _ _)) (by rw [e]; decide)
      exact Fails.seq (Fails.atom (by simpa using hc) _)

/-- The path: the shortest run before a version or blanks to the end, since none of its
characters starts either. -/
theorem leads_path {tail : List Char}
    (hpath : ∀ c ∈ path, isDot c = true ∧ isSpace c = false ∧ c ≠ ';')
    (htail : Leads (.alt (seqs [lit ';', .star true dot, .star true space])
      (seqs [.star true space, .eol])) tail [] id) :
    Leads (.seq (.group 1 (.star false dot))
        (.alt (seqs [lit ';', .star true dot, .star true space]) (seqs [.star true space, .eol])))
      (path ++ tail) []
      (id ∘ fun caps => Function.update caps 1 (some path)) := by
  refine Leads.lazy_group 1 (fun c hc => (hpath c hc).1) (fun i hi => ?_) htail
  cases hd : path.drop i with
  | nil => simp at hd; omega
  | cons c cs =>
    have hc := hpath c (List.mem_of_mem_drop (by rw [hd]; exact List.mem_cons_self _ _))
    exact Fails.alt (Fails.seq (Fails.atom (by simpa using hc.2.2) _))
      (Fails.star_eol hc.2.1 _)

/-- A character of one class is not one of another. -/
theorem ne_of_class {p : Char → Bool} {c d : Char} (hc : p c = true) (hd : p d = false) :
    c ≠ d := by
  rintro rfl
  rw [hc] at hd
  exact Bool.noConfusion hd

/-- The device and the path: `cdrom`'s one character or none, the colon, the backslashes, and
the path with its end. -/
theorem leads_device {tail : List Char} (hdev : ∀ c ∈ dev, isDot c = true)
    (hbs : ∀ c ∈ bs, c = '\\') (hpath : path ≠ [] ∧ path.head? ≠ some '\\')
    (hpath' : ∀ c ∈ path, isDot c = true ∧ isSpace c = false ∧ c ≠ ';' ∧ c ≠ ':')
    (htail : Leads (.alt (seqs [lit ';', .star true dot, .star true space])
      (seqs [.star true space, .eol])) tail [] id) :
    Leads (seqs [opt dot, lit ':', .star true (lit '\\'), .group 1 (.star false dot),
        .alt (seqs [lit ';', .star true dot, .star true space]) (seqs [.star true space, .eol])])
      (dev.toList ++ ':' :: (bs ++ (path ++ tail))) []
      fun caps => Function.update caps 1 (some path) := by
  obtain ⟨p0, ps, rfl⟩ := List.exists_cons_of_ne_nil hpath.1
  have hp0 : p0 ≠ '\\' := fun e => hpath.2 (by rw [e]; rfl)
  have hG := leads_path (fun c hc => ⟨(hpath' c hc).1, (hpath' c hc).2.1, (hpath' c hc).2.2.1⟩)
    htail
  have hrun : Leads (.star true (lit '\\')) bs ((p0 :: ps ++ tail) ++ []) id :=
    Leads.star_run (p := (· == '\\')) (fun c hc => by simp [hbs c hc]) (by simpa using hp0)
  have hBS := Leads.seq hrun hG
  cases dev with
  | none =>
    refine Leads.opt_lit_then (by decide) (fun x hx => ?_) hBS
    cases bs with
    | nil =>
      simp only [List.nil_append, List.append_nil, List.cons_append, List.head?_cons,
        Option.mem_def, Option.some.injEq] at hx
      exact hx ▸ (hpath' p0 (List.mem_cons_self _ _)).2.2.2
    | cons b _ =>
      simp only [List.cons_append, List.head?_cons, Option.mem_def, Option.some.injEq] at hx
      rw [← hx, hbs b (List.mem_cons_self _ _)]
      decide
  | some d =>
    exact Leads.seq (Leads.alt_left (Leads.atom (hdev d rfl) _))
      (Leads.seq (Leads.atom (p := (· == ':')) (c := ':') rfl _) hBS)

/-- A whole `BOOT` line, after `^`. -/
theorem leads_boot (semi : Bool) (hws1 : ∀ c ∈ ws1, isSpace c = true)
    (hmid : ∀ c ∈ mid, isDot c = true) (hws2 : ∀ c ∈ ws2, isSpace c = true)
    (hdev : ∀ c ∈ dev, isDot c = true ∧ c ≠ '=') (hbs : ∀ c ∈ bs, c = '\\')
    (hpath : path ≠ [] ∧ path.head? ≠ some '\\')
    (hpath' : ∀ c ∈ path,
      isDot c = true ∧ isSpace c = false ∧ c ≠ ';' ∧ c ≠ '=' ∧ c ≠ ':')
    (hu : ∀ c ∈ u, isDot c = true ∧ c ≠ '=') (hw : ∀ c ∈ w, isSpace c = true) :
    Leads (seqs [.star true space, lits ['B', 'O', 'O', 'T'], .star true dot, lit '=',
        .star true space, lits ['c', 'd', 'r', 'o', 'm'], opt dot, lit ':',
        .star true (lit '\\'), .group 1 (.star false dot),
        .alt (seqs [lit ';', .star true dot, .star true space]) (seqs [.star true space, .eol])])
      (ws1 ++ (['B', 'O', 'O', 'T'] ++ (mid ++ '=' :: (ws2 ++ (['c', 'd', 'r', 'o', 'm'] ++
        (dev.toList ++ ':' :: (bs ++ (path ++ ((if semi then ';' :: u else []) ++ w))))))))) []
      fun caps => Function.update caps 1 (some path) := by
  have hO := leads_device (fun c hc => (hdev c hc).1) hbs hpath
    (fun c hc => have h := hpath' c hc; ⟨h.1, h.2.1, h.2.2.1, h.2.2.2.2⟩)
    (leads_version semi (u := u) (w := w) (fun c hc => (hu c hc).1) hw)
  have hS2 := Leads.seq (Leads.star_run hws2 (by simp; decide))
    (Leads.seq (Leads.lits ['c', 'd', 'r', 'o', 'm'] _) hO)
  have hno : ∀ x ∈ ws2 ++ (['c', 'd', 'r', 'o', 'm'] ++ (dev.toList ++ ':' :: (bs ++ (path ++
      ((if semi then ';' :: u else []) ++ w))))) ++ [], x ≠ '=' := by
    have hu' : ∀ x ∈ (if semi then ';' :: u else []), x ≠ '=' := by
      cases semi
      · simp
      · exact List.forall_mem_cons.2 ⟨by decide, fun x h => (hu x h).2⟩
    simp only [List.append_nil, List.forall_mem_append, List.forall_mem_cons]
    exact ⟨fun x h => ne_of_class (p := isSpace) (hws2 x h) (by decide), by decide,
      fun x h => (hdev x (Option.mem_toList.1 h)).2, by decide, fun x h => by rw [hbs x h]; decide,
      fun x h => (hpath' x h).2.2.2.1, hu',
      fun x h => ne_of_class (p := isSpace) (hw x h) (by decide)⟩
  exact Leads.seq (Leads.star_run hws1 (by simp; decide))
    (Leads.seq (Leads.lits ['B', 'O', 'O', 'T'] _)
      (Leads.star_last_then hmid (by decide : isDot '=' = true) hno hS2))

/-- **The path of a `BOOT` line.** `findEXE` reads the path back, uppercased, from a first line
of `SYSTEM.CNF` made of blanks, `BOOT`, anything but line terminators, `=`, blanks, `cdrom`, one
character or none, `:`, backslashes, the path, a version after a semicolon or none, and blanks,
as are the lines the comments of `findEXE` list. The path starts with no backslash and holds no
blank, semicolon, equals sign, colon or line terminator; nothing after the equals sign is an
equals sign. -/
theorem findEXE_boot (semi : Bool) (more : List Char) (psxExe : Option String)
    (hws1 : ∀ c ∈ ws1, isSpace c = true ∧ c ≠ '\n') (hmid : ∀ c ∈ mid, isDot c = true)
    (hws2 : ∀ c ∈ ws2, isSpace c = true ∧ c ≠ '\n')
    (hdev : ∀ c ∈ dev, isDot c = true ∧ c ≠ '=') (hbs : ∀ c ∈ bs, c = '\\')
    (hpath : path ≠ [] ∧ path.head? ≠ some '\\')
    (hpath' : ∀ c ∈ path,
      isDot c = true ∧ isSpace c = false ∧ c ≠ ';' ∧ c ≠ '=' ∧ c ≠ ':')
    (hu : ∀ c ∈ u, isDot c = true ∧ c ≠ '=')
    (hw : ∀ c ∈ w, isSpace c = true ∧ c ≠ '\n') :
    findEXE (some (ws1 ++ ['B', 'O', 'O', 'T'] ++ mid ++ '=' :: (ws2 ++ ['c', 'd', 'r', 'o', 'm'] ++
      dev.toList ++ ':' :: (bs ++ path ++ ((if semi then ';' :: u else []) ++ w))) ++
      '\n' :: more)) psxExe = String.mk (strUppercase path) := by
  have hL := leads_boot semi (fun c hc => (hws1 c hc).1) hmid (fun c hc => (hws2 c hc).1) hdev
    hbs hpath hpath' hu (fun c hc => (hw c hc).1)
  have hm : regexMatch bootPattern _ = some _ := (regexMatch_bol _ _).trans (regexMatch_of_leads hL)
  have hdot : ∀ {t : List Char}, (∀ c ∈ t, isDot c = true) → ∀ c ∈ t, c ≠ '\n' :=
    fun ht c hc => ne_of_class (p := isDot) (ht c hc) (by decide)
  have htail : ∀ c ∈ (if semi then ';' :: u else []), c ≠ '\n' := by
    cases semi
    · simp
    · exact List.forall_mem_cons.2 ⟨by decide, hdot fun c hc => (hu c hc).1⟩
  have hnl : ∀ c ∈ ws1 ++ (['B', 'O', 'O', 'T'] ++ (mid ++ '=' :: (ws2 ++
      (['c', 'd', 'r', 'o', 'm'] ++ (dev.toList ++ ':' :: (bs ++ (path ++
        ((if semi then ';' :: u else []) ++ w)))))))), c ≠ '\n' := by
    simp only [List.forall_mem_append, List.forall_mem_cons]
    exact ⟨fun c hc => (hws1 c hc).2, by decide, hdot hmid, by decide, fun c hc => (hws2 c hc).2,
      by decide, hdot fun c hc => (hdev c (Option.mem_toList.1 hc)).1, by decide,
      fun c hc => by rw [hbs c hc]; decide, hdot fun c hc => (hpath' c hc).1, htail,
      fun c hc => (hw c hc).2⟩
  have e : ws1 ++ ['B', 'O', 'O', 'T'] ++ mid ++ '=' :: (ws2 ++ ['c', 'd', 'r', 'o', 'm'] ++
      dev.toList ++ ':' :: (bs ++ path ++ ((if semi then ';' :: u else []) ++ w))) =
      ws1 ++ (['B', 'O', 'O', 'T'] ++ (mid ++ '=' :: (ws2 ++ (['c', 'd', 'r', 'o', 'm'] ++
        (dev.toList ++ ':' :: (bs ++ (path ++ ((if semi then ';' :: u else []) ++ w)))))))) := by
    simp only [List.append_assoc, List.cons_append]
  rw [e]
  simp only [findEXE, getlines_cons hnl, List.findSome?_cons, hm, capStr, Option.getD_some,
    Function.update_same]

/-- The line of the 1Xtreme (USA) disc, from the comments of `findEXE`. -/
theorem findEXE_boot_xtreme :
    findEXE (some "BOOT = cdrom:\\\\SCUS_945.03;1\r\n".toList) none = "SCUS_945.03" :=
  (@findEXE_boot [] [' '] [' '] ['\\', '\\'] "SCUS_945.03".toList ['1'] ['\r'] none true []
    none (by decide) (by decide) (by decide) (by decide) (by decide) (by decide) (by decide)
    (by decide) (by decide)).trans (by decide)

end Boot

/-! ### What `findEXE` never returns -/

section BootEnd

variable {pos : Nat} {caps : Nat → Option (List Char)}

/-- What a way of matching the end of a `BOOT` line to the end of the line consumes: a
semicolon, a run of characters other than line terminators and blanks, or blanks only. -/
theorem bootEnd_inv {u : List Char} {s' : MatchState}
    (h : Matches (.alt (seqs [lit ';', .star true dot, .star true space])
      (seqs [.star true space, .eol])) ⟨u, pos, caps⟩ s') (hs : s'.input = []) :
    (∃ v ws, u = ';' :: (v ++ ws) ∧ (∀ c ∈ v, isDot c = true) ∧ ∀ c ∈ ws, isSpace c = true) ∨
      ∀ c ∈ u, isSpace c = true := by
  rcases h.alt_inv with h | h
  · obtain ⟨s1, h1, h⟩ := h.seq_inv
    obtain ⟨s2, h2, h3⟩ := h.seq_inv
    obtain ⟨c, i1, hc⟩ := h1.atom_inv
    obtain ⟨v, i2, -, hv, -⟩ := h2.consumes (q := fun c => isDot c = true) fun _ hc => hc
    obtain ⟨ws, i3, -, hws, -⟩ := h3.consumes (q := fun c => isSpace c = true) fun _ hc => hc
    rw [beq_iff_eq] at hc
    dsimp only at i1
    exact .inl ⟨v, ws, by rw [i1, i2, i3, hs, hc, List.append_nil], hv, hws⟩
  · obtain ⟨ws, i1, -, hws, -⟩ :=
      h.consumes (q := fun c => isSpace c = true) ⟨fun _ hc => hc, trivial⟩
    dsimp only at i1
    rw [i1, hs, List.append_nil]
    exact .inr hws

/-- A semicolon, a run of characters other than line terminators, and blanks end a `BOOT`
line. -/
theorem bootEnd_semi {v ws : List Char} (hv : ∀ c ∈ v, isDot c = true)
    (hws : ∀ c ∈ ws, isSpace c = true) (pos : Nat) (caps : Nat → Option (List Char)) :
    ∃ s', Matches (.alt (seqs [lit ';', .star true dot, .star true space])
      (seqs [.star true space, .eol])) ⟨';' :: (v ++ ws), pos, caps⟩ s' ∧ s'.input = [] := by
  have h3 := Matches.star_atom (g := true) [] (pos + 1 + v.length) caps hws
  rw [List.append_nil] at h3
  exact ⟨_, .alt_left (.seq (.atom (by decide : (';' == ';') = true))
    (.seq (Matches.star_atom _ _ _ hv) h3)), rfl⟩

/-- The end of a `BOOT` line matches from every semicolon before an end it matches, when only
characters other than line terminators stand between them. -/
theorem bootEnd_semi_before {u y : List Char} {s' : MatchState}
    (h : Matches (.alt (seqs [lit ';', .star true dot, .star true space])
      (seqs [.star true space, .eol])) ⟨u, pos, caps⟩ s') (hs : s'.input = [])
    (hy : ∀ c ∈ y, isDot c = true) (pos' : Nat) (caps' : Nat → Option (List Char)) :
    ∃ s'', Matches (.alt (seqs [lit ';', .star true dot, .star true space])
      (seqs [.star true space, .eol])) ⟨';' :: (y ++ u), pos', caps'⟩ s'' ∧ s''.input = [] := by
  rcases bootEnd_inv h hs with ⟨v, ws, rfl, hv, hws⟩ | hsp
  · have hyv : ∀ d ∈ y ++ ';' :: v, isDot d = true := by
      simp only [List.forall_mem_append, List.forall_mem_cons]
      exact ⟨hy, by decide, hv⟩
    simpa using bootEnd_semi hyv hws pos' caps'
  · exact bootEnd_semi hy hsp pos' caps'

/-- The path that `bootPattern` captures holds no line terminator, and no semicolon: the lazy
group stops at the first place the end of the line matches from, and the end of the line
matches from every semicolon after which the line can end. -/
theorem bootPattern_capture {line : List Char} (h : regexMatch bootPattern line = some caps) :
    ∀ c ∈ capStr caps 1, isDot c = true ∧ c ≠ ';' := by
  obtain ⟨r, hr, rfl⟩ := Option.map_eq_some'.1 h
  have hr' : (seqs [.bol, .star true space, lits ['B', 'O', 'O', 'T'], .star true dot, lit '=',
      .star true space, lits ['c', 'd', 'r', 'o', 'm'], opt dot, lit ':',
      .star true (lit '\\')]).m ((Pattern.seq (.group 1 (.star false dot))
        (.alt (seqs [lit ';', .star true dot, .star true space])
          (seqs [.star true space, .eol]))).m
        fun s => if s.input = [] then some s else none) ⟨line, 0, fun _ => none⟩ = some r := hr
  obtain ⟨⟨t, pos, caps₁⟩, -, h₁⟩ := m_sound _ hr'
  rw [m_seq, m_group] at h₁
  obtain ⟨i, -, hdots, hri, hmin⟩ := lazy_star_atom_first h₁
  simp only [Nat.add_sub_cancel_left] at hri hmin
  obtain ⟨s', hs', hk⟩ := m_sound _ hri
  have hsr : s'.input = [] ∧ s' = r := by
    split at hk
    · exact ⟨‹_›, Option.some.inj hk⟩
    · cases hk
  have hcap : r.caps 1 = some (t.take i) := by
    rw [← hsr.2, hs'.caps_of_not_captures (n := 1) rfl]
    simp
  intro c hc
  rw [capStr, hcap, Option.getD_some] at hc
  refine ⟨hdots c hc, ?_⟩
  rintro rfl
  obtain ⟨x, y, hxy⟩ := List.append_of_mem hc
  have hy : ∀ d ∈ y, isDot d = true := fun d hd => hdots d (by rw [hxy]; simp [hd])
  have hlen : x.length < i := by
    have := congrArg List.length hxy
    simp only [List.length_take, List.length_append, List.length_cons] at this
    omega
  have hdrop : t.drop x.length = ';' :: (y ++ t.drop i) := by
    conv_lhs => rw [← List.take_append_drop i t, hxy]
    simp
  have hnone := hmin x.length hlen
  rw [hdrop] at hnone
  obtain ⟨s'', hm, hs''⟩ := bootEnd_semi_before hs' hsr.1 hy (pos + x.length)
    (Function.update caps₁ 1 (some (t.take x.length)))
  exact m_complete hm (k := fun s => if s.input = [] then some s else none) (by simp [hs'']) hnone

end BootEnd

theorem toNat_ofNat_of_lt {n : Nat} (h : n < 0xd800) : (Char.ofNat n).toNat = n := by
  unfold Char.ofNat
  rw [dif_pos (Or.inl h)]
  rfl

/-- `toupper` leaves a character as it is, or makes it a capital. -/
theorem toUpper_cases (c : Char) :
    c.toUpper = c ∨ 65 ≤ c.toUpper.toNat ∧ c.toUpper.toNat ≤ 90 := by
  unfold Char.toUpper
  dsimp only
  split
  · right
    rw [toNat_ofNat_of_lt (by omega)]
    omega
  · exact .inl rfl

theorem toUpper_dot {c : Char} (h : isDot c = true ∧ c ≠ ';') :
    isDot c.toUpper = true ∧ c.toUpper ≠ ';' := by
  rcases toUpper_cases c with e | e
  · rwa [e]
  · exact ⟨isDot_of_lt (by omega), ne_of_toNat_ne (by simp; omega)⟩

/-- **What `findEXE` never returns.** Whatever `SYSTEM.CNF` holds, the path `findEXE` reads from
it holds no semicolon and no line terminator: the version that follows a semicolon, as `;1`
does in the lines the comments of `findEXE` list, never enters the path. -/
theorem findEXE_chars (data : List Char) (psxExe : Option String) :
    (findEXE (some data) psxExe).toList.all (fun c => isDot c && c != ';') = true := by
  rw [List.all_eq_true]
  simp only [findEXE]
  cases h : (getlines data).findSome? (regexMatch bootPattern) with
  | none => simp
  | some caps =>
    obtain ⟨line, -, hline⟩ := List.exists_of_findSome?_eq_some h
    intro c hc
    obtain ⟨d, hd, rfl⟩ := List.mem_map.1 hc
    simpa using toUpper_dot (bootPattern_capture hline d hd)

/-! ### The serial in the report -/

/-- Lines 67–74 of `SystemPSX::operator()`: the serial, when both its parts are known, and the
region of its prefix, when it has one. -/
def serialLines (exePath : String) : List String :=
  let serial := deduceSerial exePath
  let region := detectRegion serial.1
  (if !serial.1.isEmpty && !serial.2.isEmpty then ["  serial: " ++ serial.1 ++ "-" ++ serial.2]
    else []) ++
  (if !region.isEmpty then ["  region: " ++ region] else [])

theorem isEmpty_mk (l : List Char) : (String.mk l).isEmpty = l.isEmpty := by
  cases l with
  | nil => rfl
  | cons c cs =>
    rw [List.isEmpty_cons, Bool.eq_false_iff, ne_eq, String.isEmpty_iff]
    intro h
    simpa using congrArg String.data h

theorem toUpper_of_lt {c : Char} (h : c.toNat < 97) : c.toUpper = c := by
  unfold Char.toUpper
  rw [if_neg (by omega)]

/-- **A disc's serial and region from its `SYSTEM.CNF`.** A `SYSTEM.CNF` whose first line boots
`PREFIX_NUMBER.EXT` from the root, as `BOOT = cdrom:\SCUS_944.23;1` does, is reported with the
serial `PREFIX-NUMBEREXT` and the region of its prefix, if it has one; the prefix is a run of
capitals other than `PAR`, the number and the extension runs of digits. -/
theorem serialLines_boot {pre d1 d2 w : List Char} (more : List Char) (psxExe : Option String)
    (hpre : pre ≠ [] ∧ pre ≠ ['P', 'A', 'R'] ∧ ∀ c ∈ pre, c.isUpper = true)
    (hd1 : d1 ≠ [] ∧ ∀ c ∈ d1, c.isDigit = true)
    (hd2 : d2 ≠ [] ∧ ∀ c ∈ d2, c.isDigit = true)
    (hw : ∀ c ∈ w, isSpace c = true ∧ c ≠ '\n') :
    serialLines (findEXE (some ("BOOT = cdrom:\\".toList ++ pre ++ '_' :: d1 ++ '.' :: d2 ++
      ";1".toList ++ w ++ '\n' :: more)) psxExe) =
      ("  serial: " ++ String.mk pre ++ "-" ++ String.mk (d1 ++ d2)) ::
        if detectRegion (String.mk pre) = "" then []
        else ["  region: " ++ detectRegion (String.mk pre)] := by
  have hname : ∀ c ∈ pre ++ '_' :: d1 ++ '.' :: d2, 45 < c.toNat ∧ c.toNat < 97 ∧
      c.toNat ∉ [58, 59, 61, 92] := by
    have hup : ∀ c ∈ pre, 45 < c.toNat ∧ c.toNat < 97 ∧ c.toNat ∉ [58, 59, 61, 92] :=
      fun c hc => by have := (isUpper_iff c).1 (hpre.2.2 c hc); simp; omega
    have hdig : ∀ {t : List Char}, (∀ c ∈ t, c.isDigit = true) →
        ∀ c ∈ t, 45 < c.toNat ∧ c.toNat < 97 ∧ c.toNat ∉ [58, 59, 61, 92] :=
      fun ht c hc => by have := (isDigit_iff c).1 (ht c hc); simp; omega
    simp only [List.forall_mem_append, List.forall_mem_cons]
    exact ⟨⟨hup, by decide, hdig hd1.2⟩, by decide, hdig hd2.2⟩
  have hpath : ∀ c ∈ pre ++ '_' :: d1 ++ '.' :: d2,
      isDot c = true ∧ isSpace c = false ∧ c ≠ ';' ∧ c ≠ '=' ∧ c ≠ ':' := by
    intro c hc
    obtain ⟨h1, -, h3⟩ := hname c hc
    simp only [List.mem_cons, List.not_mem_nil, or_false, not_or] at h3
    exact ⟨isDot_of_lt (by omega), isSpace_of_lt (by omega),
      ne_of_toNat_ne (by simpa using h3.2.1), ne_of_toNat_ne (by simpa using h3.2.2.1),
      ne_of_toNat_ne (by simpa using h3.1)⟩
  have hupper : strUppercase (pre ++ '_' :: d1 ++ '.' :: d2) = pre ++ '_' :: d1 ++ '.' :: d2 :=
    (List.map_congr_left fun c hc => toUpper_of_lt (hname c hc).2.1).trans (List.map_id' _)
  obtain ⟨p0, ps, hp⟩ := List.exists_cons_of_ne_nil hpre.1
  have hhead : (pre ++ '_' :: d1 ++ '.' :: d2).head? ≠ some '\\' := by
    rw [hp]
    simpa using (isDot_of_isUpper (hpre.2.2 p0 (by simp [hp]))).2
  have hf := @findEXE_boot [] [' '] [' '] ['\\'] (pre ++ '_' :: d1 ++ '.' :: d2) ['1'] w none true
    more psxExe (by simp) (by decide) (by decide) (by simp) (by decide) ⟨by simp, hhead⟩ hpath
    (by decide) hw
  have e : "BOOT = cdrom:\\".toList ++ pre ++ '_' :: d1 ++ '.' :: d2 ++ ";1".toList ++ w ++
      '\n' :: more = [] ++ ['B', 'O', 'O', 'T'] ++ [' '] ++ '=' :: ([' '] ++
      ['c', 'd', 'r', 'o', 'm'] ++ (none : Option Char).toList ++ ':' :: (['\\'] ++
      (pre ++ '_' :: d1 ++ '.' :: d2) ++ ((if true then ';' :: ['1'] else []) ++ w))) ++
      '\n' :: more := by
    simp
  have hd := @deduceSerial_path [] pre d1 d2 (some '_') none none (.inl rfl) hpre.2.2 (by simp)
    (by simp) hd1 hd2 (by simp)
  have hfix : serialFixups (pre, d1 ++ d2) = (pre, d1 ++ d2) := by
    simp [serialFixups, hpre.1, hpre.2.1]
  simp only [List.nil_append, List.append_nil, Option.toList_some, Option.toList_none,
    List.append_assoc, List.singleton_append, List.cons_append] at hd
  rw [e, hf, hupper]
  have hne : (d1 ++ d2).isEmpty = false := by simp [hd1.1]
  have hpe : pre.isEmpty = false := by simp [hp]
  simp only [List.append_assoc, List.cons_append, serialLines, hd, hfix, isEmpty_mk, hne, hpe,
    Bool.not_false, Bool.and_true, if_true, List.singleton_append]
  by_cases hr : detectRegion (String.mk pre) = "" <;> simp [hr, String.isEmpty_iff]

/-- The line `BOOT = cdrom:\SCUS_944.23;1`: serial `SCUS-94423`, region USA. -/
theorem serialLines_boot_scus :
    serialLines (findEXE (some "BOOT = cdrom:\\SCUS_944.23;1\n".toList) none) =
      ["  serial: SCUS-94423", "  region: USA"] :=
  (@serialLines_boot ['S', 'C', 'U', 'S'] ['9', '4', '4'] ['2', '3'] [] [] none
    ⟨by decide, by decide, by decide⟩ ⟨by decide, by decide⟩ ⟨by decide, by decide⟩
    (by decide)).trans (by decide)

end Redumper.Psx
