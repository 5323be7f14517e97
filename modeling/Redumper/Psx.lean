import Redumper.ChannelQ
import Redumper.Read

/-!
# The PSX protection detector

Two of the checks of `SystemPSX` (`src/systems/psx.cc`): the LibCrypt signature in the
track's `.subcode` file, and the anti-modchip messages in the files of the image.

## LibCrypt

LibCrypt corrupts the CRC of channel Q at fixed pairs of sectors, `base` and `base + 5` for
`base` in `_LIBCRYPT_SECTORS_BASE`. `detectLibCrypt` takes
`lba_end = _trackSize / CD_DATA_SIZE` into an `int32_t`, skips each pair that does not lie
before it, collects the pairs whose two Q are both invalid, and reports LibCrypt when the
number of collected sectors is in `_LIBCRYPT_SECTORS_COUNT = {16, 32}`; it then prints one
line per collected sector, from the sector's LBA and its Q.

The `.subcode` file is what `read_entry` reads at each slot `lba - LBA_START` (`none` when
it does not open), and channel Q is read through a `QDecoder`, as in the dump engine. A
report line is the pair of the LBA and the subcode its text is printed from.

`_trackSize` is the track file's `std::filesystem::file_size`, a 64-bit count. The quotient
`_trackSize / CD_DATA_SIZE` is stored in an `int32_t` (`int32`): past `2^31` sectors it
wraps, and from `2^31` to `2^32` sectors `lba_end` is negative, so that every pair is
skipped.

## Anti-modchip messages

`findAntiModchipStrings` searches every entry the image browser visits, other than dummies
and interleaved files, for an English and a Shift JIS message with `std::search`, and
reports each hit as `path @ 0x<offset>: EN` or `JP`. The English message is a `char` array
initialised by a string literal, and `std::end` of it is past the literal's terminating
zero: the bytes searched are the 80 characters and a zero. The entries, their flags and
their bytes come from `ImageBrowser`, which is not in `src/`.

## What is proved

* `foldl_libCryptPair`: the loop collects, in base-table order, the pairs of the bases
  that qualify (`qualifies`).
* `detectLibCrypt_pairs`: the detector answers yes exactly when twice the number of
  qualifying bases is 16 or 32, and then reports those sectors pairwise in base-table order;
  `lba_end` is `_trackSize / CD_DATA_SIZE` below `2^31` sectors.
* `detectLibCrypt_first_pairs`: scenario S6 of the spec, the first 16 pairs with invalid Q,
  is reported as LibCrypt with its 32 sectors.
* `detectLibCrypt_narrowed_track`: the same subcode file on a track of `2^31` sectors has 16
  pairs before `_trackSize / CD_DATA_SIZE`, and the detector answers no.
* `search_spec`: `std::search` returns the first position of the pattern, and the end
  exactly when the pattern does not occur.
* `findAntiModchipStrings_spec`: the report is, entry by entry, a line for each message a
  readable entry holds, at its first occurrence, and the scan answers yes exactly when a
  readable entry holds one of the messages; `antiModchipLines_of_zero_not_mem`: an entry
  without a zero byte gets no `EN` line.
* `detectRegion_eq`: the region tables are disjoint, so a prefix gets the region of the one
  table that holds it.
-/

namespace Redumper.Psx

/-! ### The tables -/

/-- `_LIBCRYPT_SECTORS_BASE`: the first LBA of each LibCrypt pair. -/
def LIBCRYPT_SECTORS_BASE : List Nat :=
  [13955, 14081, 14335, 14429, 14499, 14749, 14906, 14980,
   15092, 15162, 15228, 15478, 15769, 15881, 15951, 16017,
   41895, 42016, 42282, 42430, 42521, 42663, 42862, 43027,
   43139, 43204, 43258, 43484, 43813, 43904, 44009, 44162]

/-- `_LIBCRYPT_SECTORS_SHIFT`: the second LBA of a pair is the first plus this. -/
def LIBCRYPT_SECTORS_SHIFT : Nat := 5

/-- `_LIBCRYPT_SECTORS_COUNT`: the numbers of collected sectors that mean LibCrypt. -/
def LIBCRYPT_SECTORS_COUNT : List Nat := [16, 32]

/-- An unsigned value stored in an `int32_t`: its low 32 bits, in two's complement. -/
def int32 (v : Nat) : Int :=
  if v % 4294967296 < 2147483648 then ((v % 4294967296 : Nat) : Int)
  else ((v % 4294967296 : Nat) : Int) - 4294967296

theorem int32_of_lt {v : Nat} (h : v < 2147483648) : int32 v = v := by
  have hv : v % 4294967296 = v := Nat.mod_eq_of_lt (by omega)
  simp only [int32, hv, h, if_true]

/-- Every LBA of the table fits an `int32_t`. -/
theorem base_add_shift_lt : ∀ b ∈ LIBCRYPT_SECTORS_BASE, b + LIBCRYPT_SECTORS_SHIFT < 2147483648 := by
  decide

/-! ### The detector -/

variable (q : QDecoder) (sub : Int → Subcode)

/-- One pass of the loop over `_LIBCRYPT_SECTORS_BASE`: the pair `lba1 = base`,
`lba2 = base + _LIBCRYPT_SECTORS_SHIFT` is skipped unless both lie before `lba_end`, and
joins the candidates when neither Q is valid. -/
def libCryptPair (lbaEnd : Int) (candidates : List Int) (base : Nat) : List Int :=
  let lba1 := int32 base
  let lba2 := int32 (base + LIBCRYPT_SECTORS_SHIFT)
  if lba1 ≥ lbaEnd ∨ lba2 ≥ lbaEnd then candidates
  else if !q.valid (sub (lbaIndex lba1)) && !q.valid (sub (lbaIndex lba2)) then
    candidates ++ [lba1, lba2]
  else candidates

/-- `SystemPSX::detectLibCrypt`: the verdict, and the lines written to `os`, each the LBA
of a candidate and the subcode it is printed from. A `.subcode` file that does not open
throws. -/
def detectLibCrypt (trackSize : Nat) (subName : String) :
    Option (Int → Subcode) → Except String (Bool × List (Int × Subcode))
  | none => .error ("unable to open file (" ++ subName ++ ")")
  | some sub =>
    let lbaEnd := int32 (trackSize / CD_DATA_SIZE)
    let candidates := LIBCRYPT_SECTORS_BASE.foldl (libCryptPair q sub lbaEnd) []
    if candidates.length ∈ LIBCRYPT_SECTORS_COUNT then
      .ok (true, candidates.map fun c => (c, sub (lbaIndex c)))
    else .ok (false, [])

/-! ### What the loop collects -/

/-- A base of the table qualifies when its pair lies before `lba_end` and channel Q fails
its check at both sectors. -/
def qualifies (lbaEnd : Int) (b : Nat) : Bool :=
  decide ((b : Int) + 5 < lbaEnd) && !q.valid (sub (lbaIndex b)) &&
    !q.valid (sub (lbaIndex ((b : Int) + 5)))

/-- The qualifying bases, in table order. -/
def libCryptPairs (lbaEnd : Int) : List Nat := LIBCRYPT_SECTORS_BASE.filter (qualifies q sub lbaEnd)

/-- The sectors of the qualifying bases, pairwise. -/
def pairSectors (bases : List Nat) : List Int := bases.flatMap fun b => [(b : Int), b + 5]

theorem length_pairSectors (bases : List Nat) : (pairSectors bases).length = 2 * bases.length := by
  induction bases with
  | nil => rfl
  | cons b bases ih =>
    simp only [pairSectors, List.flatMap_cons, List.length_append, List.length_cons,
      List.length_nil] at ih ⊢
    omega

theorem libCryptPair_eq {lbaEnd : Int} (candidates : List Int) {b : Nat}
    (hb : b + LIBCRYPT_SECTORS_SHIFT < 2147483648) :
    libCryptPair q sub lbaEnd candidates b =
      candidates ++ if qualifies q sub lbaEnd b then [(b : Int), b + 5] else [] := by
  have h1 : int32 b = b := int32_of_lt (by omega)
  have h2 : int32 (b + LIBCRYPT_SECTORS_SHIFT) = (b : Int) + 5 := by
    rw [int32_of_lt hb]; rfl
  by_cases he : (b : Int) + 5 < lbaEnd
  · have hg : ¬((b : Int) ≥ lbaEnd ∨ (b : Int) + 5 ≥ lbaEnd) := by omega
    simp only [libCryptPair, h1, h2, if_neg hg, qualifies, he, decide_True, Bool.true_and]
    generalize (!q.valid (sub (lbaIndex b)) && !q.valid (sub (lbaIndex ((b : Int) + 5)))) = c
    cases c <;> simp only [Bool.false_eq_true, if_false, if_true, List.append_nil]
  · have hg : (b : Int) ≥ lbaEnd ∨ (b : Int) + 5 ≥ lbaEnd := by omega
    simp only [libCryptPair, h1, h2, if_pos hg, qualifies, he, decide_False, Bool.false_and,
      Bool.false_eq_true, if_false, List.append_nil]

/-- The loop collects the pairs of the qualifying bases, in table order. -/
theorem foldl_libCryptPair (lbaEnd : Int) (bases : List Nat)
    (hb : ∀ b ∈ bases, b + LIBCRYPT_SECTORS_SHIFT < 2147483648) (candidates : List Int) :
    bases.foldl (libCryptPair q sub lbaEnd) candidates =
      candidates ++ pairSectors (bases.filter (qualifies q sub lbaEnd)) := by
  induction bases generalizing candidates with
  | nil => simp [pairSectors]
  | cons b bases ih =>
    rw [List.foldl_cons, libCryptPair_eq q sub _ (hb b (List.mem_cons_self b bases)),
      ih (fun b' h => hb b' (List.mem_cons_of_mem b h)), List.filter_cons]
    split <;> simp [pairSectors]

/-- The verdict and the report of `detectLibCrypt` on a `.subcode` file that opens: LibCrypt
exactly when twice the number of qualifying bases is 16 or 32, and then one line per
sector of the qualifying pairs, pairwise in table order. `lba_end` is
`_trackSize / CD_DATA_SIZE` taken as an `int32_t`, which is the quotient itself below `2^31`
sectors. -/
theorem detectLibCrypt_pairs (trackSize : Nat) (subName : String) :
    ∃ libcrypt lines, detectLibCrypt q trackSize subName (some sub) = .ok (libcrypt, lines) ∧
      (libcrypt = true ↔
        2 * (libCryptPairs q sub (int32 (trackSize / CD_DATA_SIZE))).length = 16 ∨
          2 * (libCryptPairs q sub (int32 (trackSize / CD_DATA_SIZE))).length = 32) ∧
      lines = (if libcrypt then
        (pairSectors (libCryptPairs q sub (int32 (trackSize / CD_DATA_SIZE)))).map
          fun c => (c, sub (lbaIndex c))
        else []) ∧
      (trackSize / CD_DATA_SIZE < 2147483648 →
        int32 (trackSize / CD_DATA_SIZE) = (trackSize / CD_DATA_SIZE : Nat)) := by
  have hc := foldl_libCryptPair q sub (int32 (trackSize / CD_DATA_SIZE)) LIBCRYPT_SECTORS_BASE
    base_add_shift_lt []
  rw [List.nil_append] at hc
  simp only [detectLibCrypt, hc, length_pairSectors, LIBCRYPT_SECTORS_COUNT, List.mem_cons,
    List.mem_singleton, List.not_mem_nil, or_false]
  split
  · exact ⟨true, _, rfl, iff_of_true rfl ‹_›, rfl, int32_of_lt⟩
  · exact ⟨false, [], rfl, iff_of_false Bool.false_ne_true ‹_›, rfl, int32_of_lt⟩

/-! ### A LibCrypt subcode file -/

/-- A subcode slot whose Q is ten zero bytes and the CRC bytes `FF FF`. CRC-16/GSM of ten zero
bytes is `0xFFFF`, so this Q is valid. -/
def validQ : Subcode := ChannelQ.ofQ fun k => if k.val < 10 then 0 else 0xFF

/-- A `.subcode` file as scenario S6 of the spec has it: every slot before LBA 41895 is all
zero, so that its Q fails the CRC, and every slot from it on is `validQ`. The sectors of the
first 16 pairs of the table have invalid Q, those of the last 16 valid Q. -/
def libCryptSubcode (idx : Int) : Subcode := if idx < lbaIndex 41895 then fun _ => 0 else validQ

set_option maxRecDepth 20000 in
theorem valid_validQ : ChannelQ.valid validQ = true := by decide

set_option maxRecDepth 20000 in
theorem valid_zero : ChannelQ.valid (fun _ => 0) = false := by decide

theorem valid_libCryptSubcode (b : Int) :
    ChannelQ.valid (libCryptSubcode (lbaIndex b)) = decide (41895 ≤ b) := by
  unfold libCryptSubcode lbaIndex
  by_cases h : 41895 ≤ b
  · rw [if_neg (by omega), valid_validQ, decide_eq_true h]
  · rw [if_pos (by omega), valid_zero, decide_eq_false h]

theorem qualifies_libCryptSubcode (lbaEnd : Int) :
    qualifies ChannelQ.decoder libCryptSubcode lbaEnd = fun b : Nat =>
      decide ((b : Int) + 5 < lbaEnd) && !decide (41895 ≤ (b : Int)) &&
        !decide (41895 ≤ (b : Int) + 5) :=
  funext fun b => by simp only [qualifies, ChannelQ.decoder, valid_libCryptSubcode]

/-- Scenario S6 of the spec, on a track of 50000 sectors: the 32 sectors of the first 16
pairs have invalid Q. LibCrypt is reported, with those 32 sectors in table order. -/
theorem detectLibCrypt_first_pairs :
    ∃ lines, detectLibCrypt ChannelQ.decoder (CD_DATA_SIZE * 50000) "" (some libCryptSubcode) =
      .ok (true, lines) ∧ lines.map Prod.fst = pairSectors (LIBCRYPT_SECTORS_BASE.take 16) := by
  obtain ⟨libcrypt, lines, h, hv, hl, hE⟩ :=
    detectLibCrypt_pairs ChannelQ.decoder libCryptSubcode (CD_DATA_SIZE * 50000) ""
  have hp : libCryptPairs ChannelQ.decoder libCryptSubcode
      (int32 (CD_DATA_SIZE * 50000 / CD_DATA_SIZE)) = LIBCRYPT_SECTORS_BASE.take 16 := by
    rw [hE (by decide), libCryptPairs, qualifies_libCryptSubcode]; decide
  rw [hp] at hv hl
  obtain rfl : libcrypt = true := hv.2 (.inr (by decide))
  exact ⟨lines, h, by simp [hl, Function.comp_def]⟩

/-! ### A track of `2^31` sectors -/

/-- The subcode file of scenario S6 on a track of `2^31` sectors: against
`_trackSize / CD_DATA_SIZE` the 16 first pairs qualify, 32 sectors, but `lba_end` taken as
an `int32_t` is `-2^31`, every pair is skipped, and the detector answers no. -/
theorem detectLibCrypt_narrowed_track :
    2 * (libCryptPairs ChannelQ.decoder libCryptSubcode
        ((CD_DATA_SIZE * 2147483648 / CD_DATA_SIZE : Nat) : Int)).length = 32 ∧
      int32 (CD_DATA_SIZE * 2147483648 / CD_DATA_SIZE) = -2147483648 ∧
      detectLibCrypt ChannelQ.decoder (CD_DATA_SIZE * 2147483648) "" (some libCryptSubcode) =
        .ok (false, []) :=
  ⟨by rw [libCryptPairs, qualifies_libCryptSubcode]; decide, by decide, rfl⟩

/-! ### The anti-modchip scan -/

/-- `std::search(data.begin(), data.end(), first, last) - data.begin()` (the C++ standard
library): the first position at which `pattern` starts in `data`, or `data.size()` when it
starts nowhere. -/
def search (pattern : List UInt8) : List UInt8 → Nat
  | [] => 0
  | d :: ds => if pattern.isPrefixOf (d :: ds) then 0 else search pattern ds + 1

theorem search_le_length (p : List UInt8) : ∀ d : List UInt8, search p d ≤ d.length
  | [] => le_rfl
  | d :: ds => by
    have := search_le_length p ds
    unfold search
    split <;> simp only [List.length_cons] <;> omega

theorem prefix_drop_search (p : List UInt8) :
    ∀ d : List UInt8, search p d < d.length → p <+: d.drop (search p d)
  | [] => fun h => absurd h (Nat.lt_irrefl 0)
  | d :: ds => by
    unfold search
    split
    next h => exact fun _ => List.isPrefixOf_iff_prefix.1 h
    next => exact fun h => prefix_drop_search p ds (by simp only [List.length_cons] at h; omega)

theorem not_prefix_drop_of_lt_search (p : List UInt8) :
    ∀ (d : List UInt8) (i : Nat), i < search p d → ¬p <+: d.drop i
  | [], i, h => absurd h (Nat.not_lt_zero i)
  | d :: ds, i, h => by
    unfold search at h
    split at h
    · omega
    next hp =>
      cases i with
      | zero => simpa only [List.drop_zero, ← List.isPrefixOf_iff_prefix] using hp
      | succ i => exact not_prefix_drop_of_lt_search p ds i (by omega)

theorem search_lt_length_iff {p : List UInt8} (hp : p ≠ []) (d : List UInt8) :
    search p d < d.length ↔ p <:+: d := by
  refine ⟨fun h => (prefix_drop_search p d h).isInfix.trans (List.drop_suffix _ _).isInfix,
    fun h => ?_⟩
  induction d with
  | nil => exact absurd (List.infix_nil.1 h) hp
  | cons x ds ih =>
    unfold search
    split
    · simp only [List.length_cons]; omega
    next hx =>
      rcases List.infix_cons_iff.1 h with h' | h'
      · exact absurd (List.isPrefixOf_iff_prefix.2 h') hx
      · simp only [List.length_cons]; exact Nat.succ_lt_succ (ih h')

/-- **`std::search`.** The position returned is the first at which the pattern starts, and it
is `data.size()` exactly when a non-empty pattern does not occur. -/
theorem search_spec {p : List UInt8} (hp : p ≠ []) (d : List UInt8) :
    (search p d < d.length ↔ p <:+: d) ∧
      (search p d < d.length → p <+: d.drop (search p d)) ∧
      ∀ i < search p d, ¬p <+: d.drop i :=
  ⟨search_lt_length_iff hp d, prefix_drop_search p d, not_prefix_drop_of_lt_search p d⟩

/-- A one-byte pattern occurring twice: the search stops at the first occurrence. -/
theorem search_spec_first_of_two : ([7] : List UInt8) ≠ [] ∧
    ((search [7] [1, 7, 7] < 3 ↔ ([7] : List UInt8) <:+: [1, 7, 7]) ∧
      (search [7] [1, 7, 7] < 3 → ([7] : List UInt8) <+: [1, 7, 7].drop (search [7] [1, 7, 7])) ∧
      ∀ i < search [7] [1, 7, 7], ¬([7] : List UInt8) <+: [1, 7, 7].drop i) :=
  ⟨by decide, @search_spec [7] (by decide) [1, 7, 7]⟩

/-- `ANTIMOD_MESSAGE_EN`, taken from DIC. `std::end` of a `char` array initialised by a string
literal is past its terminating zero, so the zero is part of what is searched. -/
def ANTIMOD_MESSAGE_EN : List UInt8 :=
  "     SOFTWARE TERMINATED\nCONSOLE MAY HAVE BEEN MODIFIED\n     CALL 1-888-780-7690".toUTF8.data.toList ++
    [0]

/-- `ANTIMOD_MESSAGE_JP`, the message in Shift JIS. -/
def ANTIMOD_MESSAGE_JP : List UInt8 :=
  [0x8b, 0xad, 0x90, 0xa7, 0x8f, 0x49, 0x97, 0xb9, 0x82, 0xb5, 0x82, 0xdc, 0x82, 0xb5, 0x82, 0xbd,
   0x81, 0x42, 0x0a,
   0x96, 0x7b, 0x91, 0xcc, 0x82, 0xaa, 0x89, 0xfc, 0x91, 0xa2, 0x82, 0xb3, 0x82, 0xea, 0x82, 0xc4,
   0x82, 0xa2, 0x82, 0xe9, 0x0a,
   0x82, 0xa8, 0x82, 0xbb, 0x82, 0xea, 0x82, 0xaa, 0x82, 0xa0, 0x82, 0xe8, 0x82, 0xdc, 0x82, 0xb7,
   0x81, 0x42]

/-- An entry `ImageBrowser::Iterate` hands the callback (not in `src/`): the directory path,
the entry's name, whether it is a dummy or interleaved, and what `Read(false, false)` returns. -/
structure BrowserEntry where
  path : String
  name : String
  dummy : Bool
  interleaved : Bool
  data : List UInt8

/-- `fp`: the entry's path in the image. -/
def BrowserEntry.fp (e : BrowserEntry) : String :=
  (if e.path.isEmpty then "" else e.path ++ "/") ++ e.name

/-- One line of the report, `fp @ 0x<offset>: <language>`, the offset in lower-case hex. -/
def hitLine (fp : String) (offset : Nat) (language : String) : String :=
  fp ++ " @ 0x" ++ String.mk (Nat.toDigits 16 offset) ++ ": " ++ language

/-- The callback of `browser.Iterate`: the lines it adds to `entries` for one entry. -/
def antiModchipLines (e : BrowserEntry) : List String :=
  if !e.dummy && !e.interleaved then
    let itEn := search ANTIMOD_MESSAGE_EN e.data
    let itJp := search ANTIMOD_MESSAGE_JP e.data
    (if itEn ≠ e.data.length then [hitLine e.fp itEn "EN"] else []) ++
      (if itJp ≠ e.data.length then [hitLine e.fp itJp "JP"] else [])
  else []

/-- `SystemPSX::findAntiModchipStrings`: whether a message was found, and the lines written to
`os`, over the entries in the order `Iterate` visits them (the callback never stops it). -/
def findAntiModchipStrings (files : List BrowserEntry) : Bool × List String :=
  let entries := files.foldl (fun entries e => entries ++ antiModchipLines e) []
  (!entries.isEmpty, entries)

/-- A readable entry gets a line for each message that occurs in it, at the first place it
occurs; a dummy or interleaved entry gets none. -/
theorem antiModchipLines_eq (e : BrowserEntry) :
    antiModchipLines e =
      if e.dummy = false ∧ e.interleaved = false then
        (if ANTIMOD_MESSAGE_EN <:+: e.data then
          [hitLine e.fp (search ANTIMOD_MESSAGE_EN e.data) "EN"] else []) ++
        (if ANTIMOD_MESSAGE_JP <:+: e.data then
          [hitLine e.fp (search ANTIMOD_MESSAGE_JP e.data) "JP"] else [])
      else [] := by
  have found : ∀ p : List UInt8, p ≠ [] → (search p e.data ≠ e.data.length ↔ p <:+: e.data) :=
    fun p hp => by
      rw [← search_lt_length_iff hp e.data]
      have := search_le_length p e.data
      omega
  unfold antiModchipLines
  simp only [Bool.and_eq_true, Bool.not_eq_true',
    found ANTIMOD_MESSAGE_EN (by simp [ANTIMOD_MESSAGE_EN]),
    found ANTIMOD_MESSAGE_JP (by simp [ANTIMOD_MESSAGE_JP])]

theorem antiModchipLines_ne_nil (e : BrowserEntry) :
    antiModchipLines e ≠ [] ↔ e.dummy = false ∧ e.interleaved = false ∧
      (ANTIMOD_MESSAGE_EN <:+: e.data ∨ ANTIMOD_MESSAGE_JP <:+: e.data) := by
  rw [antiModchipLines_eq]
  by_cases hr : e.dummy = false ∧ e.interleaved = false <;>
    by_cases hen : ANTIMOD_MESSAGE_EN <:+: e.data <;> by_cases hjp : ANTIMOD_MESSAGE_JP <:+: e.data <;>
    simp [hr, hen, hjp]

/-- The report is the callback's lines of every entry, in the order the browser visits them. -/
theorem findAntiModchipStrings_snd (files : List BrowserEntry) :
    (findAntiModchipStrings files).2 = files.flatMap antiModchipLines := by
  have hfold : ∀ acc : List String,
      files.foldl (fun entries e => entries ++ antiModchipLines e) acc =
        acc ++ files.flatMap antiModchipLines := by
    induction files with
    | nil => simp
    | cons e files ih => intro acc; simp [ih, List.append_assoc]
  simp only [findAntiModchipStrings, hfold, List.nil_append]

/-- **The anti-modchip scan.** The report is, entry by entry in the order the browser visits
them, an `EN` line and a `JP` line for each message an entry that is neither a dummy nor
interleaved holds, at the offset `std::search` returns, the first place the message occurs
(`search_spec`); the scan answers yes exactly when some such entry holds one of the two
messages, the English one with its terminating zero. -/
theorem findAntiModchipStrings_spec (files : List BrowserEntry) :
    (findAntiModchipStrings files).2 = files.flatMap (fun e =>
      if e.dummy = false ∧ e.interleaved = false then
        (if ANTIMOD_MESSAGE_EN <:+: e.data then
          [hitLine e.fp (search ANTIMOD_MESSAGE_EN e.data) "EN"] else []) ++
        (if ANTIMOD_MESSAGE_JP <:+: e.data then
          [hitLine e.fp (search ANTIMOD_MESSAGE_JP e.data) "JP"] else [])
      else []) ∧
      ((findAntiModchipStrings files).1 = true ↔ ∃ e ∈ files, e.dummy = false ∧
        e.interleaved = false ∧ (ANTIMOD_MESSAGE_EN <:+: e.data ∨ ANTIMOD_MESSAGE_JP <:+: e.data)) := by
  refine ⟨(findAntiModchipStrings_snd files).trans (congrArg files.flatMap (funext antiModchipLines_eq)),
    ?_⟩
  rw [show (findAntiModchipStrings files).1 = !(findAntiModchipStrings files).2.isEmpty from rfl,
    findAntiModchipStrings_snd]
  simp only [Bool.not_eq_true', List.isEmpty_eq_false, ne_eq, List.flatMap_eq_nil_iff, not_forall,
    exists_prop]
  exact exists_congr fun e => and_congr_right fun _ => antiModchipLines_ne_nil e

example : findAntiModchipStrings [⟨"EXE", "MAIN.EXE", false, false, 7 :: ANTIMOD_MESSAGE_EN⟩] =
    (true, ["EXE/MAIN.EXE @ 0x1: EN"]) := by decide

theorem not_infix_en_of_zero_not_mem {d : List UInt8} (h0 : (0 : UInt8) ∉ d) :
    ¬ANTIMOD_MESSAGE_EN <:+: d :=
  fun h => h0 (h.subset (by simp [ANTIMOD_MESSAGE_EN]))

/-- The English message is searched with the zero that ends its array: an entry without a zero
byte gets no `EN` line, even when it holds the message's text, and at most its `JP` line. -/
theorem antiModchipLines_of_zero_not_mem (e : BrowserEntry) (h0 : (0 : UInt8) ∉ e.data) :
    antiModchipLines e =
      if e.dummy = false ∧ e.interleaved = false ∧ ANTIMOD_MESSAGE_JP <:+: e.data then
        [hitLine e.fp (search ANTIMOD_MESSAGE_JP e.data) "JP"] else [] := by
  rw [antiModchipLines_eq, if_neg (not_infix_en_of_zero_not_mem h0), List.nil_append]
  by_cases hr : e.dummy = false ∧ e.interleaved = false
  · rw [if_pos hr]
    simp only [hr, true_and]
  · simp only [if_neg hr]
    exact (if_neg fun h => hr ⟨h.1, h.2.1⟩).symm

/-- A file holding the English message's text alone, without the zero, gets no line. -/
theorem antiModchipLines_message_text :
    (0 : UInt8) ∉
        "     SOFTWARE TERMINATED\nCONSOLE MAY HAVE BEEN MODIFIED\n     CALL 1-888-780-7690".toUTF8.data.toList ∧
      antiModchipLines ⟨"", "SLUS_000.01", false, false,
        "     SOFTWARE TERMINATED\nCONSOLE MAY HAVE BEEN MODIFIED\n     CALL 1-888-780-7690".toUTF8.data.toList⟩ =
        [] :=
  ⟨by decide, (antiModchipLines_of_zero_not_mem _ (by decide)).trans <| if_neg fun h =>
    (by decide : (0x8b : UInt8) ∉
        "     SOFTWARE TERMINATED\nCONSOLE MAY HAVE BEEN MODIFIED\n     CALL 1-888-780-7690".toUTF8.data.toList)
      (h.2.2.subset (by decide))⟩

/-! ### The region -/

/-- `REGION_J`, the serial prefixes of Japanese discs. -/
def REGION_J : List String :=
  ["ESPM", "PAPX", "PCPX", "PDPX", "SCPM", "SCPS", "SCZS", "SIPS", "SLKA", "SLPM", "SLPS"]

/-- `REGION_U`, the serial prefixes of American discs. -/
def REGION_U : List String := ["LSP", "PEPX", "SCUS", "SLUS", "SLUSP"]

/-- `REGION_E`, the serial prefixes of European discs. -/
def REGION_E : List String := ["PUPX", "SCED", "SCES", "SLED", "SLES"]

/-- `SystemPSX::detectRegion`: the region of a serial prefix, tried in the order Japan, USA,
Europe, or the empty string. -/
def detectRegion (serialPrefix : String) : String :=
  if serialPrefix ∈ REGION_J then "Japan"
  else if serialPrefix ∈ REGION_U then "USA"
  else if serialPrefix ∈ REGION_E then "Europe"
  else ""

/-- No prefix is in two of the tables. -/
theorem region_tables_disjoint :
    (∀ c ∈ REGION_J, c ∉ REGION_U ∧ c ∉ REGION_E) ∧ ∀ c ∈ REGION_U, c ∉ REGION_E := by
  decide

/-- **The region.** Since the tables are disjoint, the order of the tests does not matter: a
prefix gets the region of the one table that holds it, and no region when none does. -/
theorem detectRegion_eq (c : String) :
    (detectRegion c = "Japan" ↔ c ∈ REGION_J) ∧ (detectRegion c = "USA" ↔ c ∈ REGION_U) ∧
      (detectRegion c = "Europe" ↔ c ∈ REGION_E) ∧
      (detectRegion c = "" ↔ c ∉ REGION_J ∧ c ∉ REGION_U ∧ c ∉ REGION_E) := by
  have hJ := region_tables_disjoint.1 c
  have hU := region_tables_disjoint.2 c
  unfold detectRegion
  by_cases j : c ∈ REGION_J
  · simp [j, (hJ j).1, (hJ j).2]
  by_cases u : c ∈ REGION_U
  · simp [j, u, (hU u)]
  by_cases e : c ∈ REGION_E <;> simp [j, u, e]

example : detectRegion "SCUS" = "USA" := by decide

end Redumper.Psx
