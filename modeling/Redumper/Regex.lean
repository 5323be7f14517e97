import Mathlib.Logic.Function.Basic

/-!
# `std::regex_match`, as `psx.cc` uses it

`SystemPSX` reads the path of the executable from `SYSTEM.CNF` (`findEXE`) and the serial from
that path (`deduceSerial`) with `std::regex_match` and the default grammar of `std::regex`,
ECMAScript. ECMAScript gives a pattern its meaning as a matcher in continuation-passing style:
a matcher takes a state (where in the input it is, what each group has captured) and a
continuation (what the rest of the pattern does from the state it reaches), and the first
alternative, in the pattern's order of preference, whose continuation succeeds is the match.
`Pattern.m` is that definition for the constructs the two patterns use; `regexMatch` asks, as
`std::regex_match` does, for a match of the whole string.

* A character, a class and `.` are an `atom`. `.` matches every character but the line
  terminators a `char` can hold, `\n` and `\r`; `\s` is `isspace` of the classic locale.
* `a*` and `a*?` are `star`, greedy or lazy: a greedy repetition tries one more iteration
  before the continuation, a lazy one after, and an iteration that consumes nothing fails.
* `a?` is `a|` (`opt`) and `a+` is `aa*` (`plus`): the same matchers when `a` cannot match the
  empty string, as in both patterns.
* A group records what it has matched when it ends. A group inside a repetition keeps what its
  last iteration matched; no group the code reads is inside one.

A state keeps the input left, so that a capture is the start of the input the group began at,
as long as the distance walked.

## What is proved

The matcher's equations for each construct (`m_star`, with the repetition's fuel shown to be
enough, `repeatMatcher_fuel`), and how a repetition of a class walks a run of the class:
greedily to its end and back (`star_atom_append_some`, `star_atom_none`), lazily from its start
(`lazy_star_atom_append`) to the first place the continuation succeeds from
(`lazy_star_atom_first`).
-/

namespace Redumper.Regex

/-- A state of a match: the input left, the number of characters behind it, and what each
group has captured. -/
structure MatchState where
  /-- The input left. -/
  input : List Char
  /-- The number of characters matched so far. -/
  pos : Nat
  /-- The text each group has captured, if it has. -/
  caps : Nat → Option (List Char)

/-- What the rest of a pattern does from a state: the final state of the match, or failure. -/
abbrev Cont := MatchState → Option MatchState

/-- The constructs of the ECMAScript grammar that the patterns of `psx.cc` use. -/
inductive Pattern where
  /-- A character of a class. -/
  | atom (p : Char → Bool)
  /-- Nothing. -/
  | empty
  /-- `ab`. -/
  | seq (a b : Pattern)
  /-- `a|b`. -/
  | alt (a b : Pattern)
  /-- `a*`, or `a*?` when not `greedy`. -/
  | star (greedy : Bool) (a : Pattern)
  /-- The `n`-th capturing group. -/
  | group (n : Nat) (a : Pattern)
  /-- `^`. -/
  | bol
  /-- `$`. -/
  | eol

/-- The repetition of the matcher `m` from the state `s`, with `fuel` iterations at most: one
more iteration is tried before the continuation `k` when `greedy`, after it when not, and an
iteration that consumes nothing fails. -/
def repeatMatcher (m : Cont → Cont) (greedy : Bool) (k : Cont) : Nat → Cont
  | 0, _ => none
  | fuel + 1, s =>
    let more := m (fun s' => if s'.input.length < s.input.length then
      repeatMatcher m greedy k fuel s' else none) s
    if greedy then more <|> k s else k s <|> more

/-- The matcher of a pattern: from a state and a continuation, the final state of the first
way, in the pattern's order of preference, in which the pattern and then the continuation
match. -/
def Pattern.m : Pattern → Cont → Cont
  | .atom p, k, s =>
    match s.input with
    | c :: cs => if p c then k ⟨cs, s.pos + 1, s.caps⟩ else none
    | [] => none
  | .empty, k, s => k s
  | .seq a b, k, s => a.m (b.m k) s
  | .alt a b, k, s => a.m k s <|> b.m k s
  | .star g a, k, s => repeatMatcher a.m g k (s.input.length + 1) s
  | .group n a, k, s =>
    a.m (fun s' => k ⟨s'.input, s'.pos,
      Function.update s'.caps n (some (s.input.take (s'.pos - s.pos)))⟩) s
  | .bol, k, s => if s.pos = 0 then k s else none
  | .eol, k, s => if s.input = [] then k s else none

/-- `std::regex_match`: the captures of the first match of the whole string, if any. -/
def regexMatch (p : Pattern) (str : List Char) : Option (Nat → Option (List Char)) :=
  (p.m (fun s => if s.input = [] then some s else none) ⟨str, 0, fun _ => none⟩).map
    MatchState.caps

/-- `matches.str(n)`: what the `n`-th group captured, or the empty string. -/
def capStr (caps : Nat → Option (List Char)) (n : Nat) : List Char := (caps n).getD []

/-! ### The classes and shorthands -/

/-- A character. -/
def lit (c : Char) : Pattern := .atom (· == c)

/-- `.`: any character but a line terminator. -/
def isDot (c : Char) : Bool := c != '\n' && c != '\r'

/-- `\s`: the characters `isspace` accepts in the classic locale. -/
def isSpace (c : Char) : Bool :=
  c == ' ' || c == '\t' || c == '\n' || c == '\x0B' || c == '\x0C' || c == '\r'

/-- `.` -/
def dot : Pattern := .atom isDot

/-- `\s` -/
def space : Pattern := .atom isSpace

/-- `[A-Z]` -/
def upper : Pattern := .atom Char.isUpper

/-- `[0-9]` -/
def digit : Pattern := .atom Char.isDigit

/-- `a?` -/
def opt (a : Pattern) : Pattern := .alt a .empty

/-- `a+` -/
def plus (a : Pattern) : Pattern := .seq a (.star true a)

/-- The patterns of a list, one after the other. -/
def seqs : List Pattern → Pattern
  | [] => .empty
  | [a] => a
  | a :: as => .seq a (seqs as)

/-- A string of characters. -/
def lits : List Char → Pattern
  | [] => .empty
  | c :: cs => .seq (lit c) (lits cs)

/-! ### The matcher's equations -/

section Equations

variable {k : Cont} {s : MatchState}

@[simp] theorem m_empty : Pattern.empty.m k s = k s := rfl

@[simp] theorem m_seq (a b : Pattern) : (Pattern.seq a b).m k s = a.m (b.m k) s := rfl

@[simp] theorem m_alt (a b : Pattern) : (Pattern.alt a b).m k s = (a.m k s <|> b.m k s) := rfl

@[simp] theorem m_atom_nil (p : Char → Bool) (pos : Nat) (caps : Nat → Option (List Char)) :
    (Pattern.atom p).m k ⟨[], pos, caps⟩ = none := rfl

@[simp] theorem m_atom_cons (p : Char → Bool) (c : Char) (cs : List Char) (pos : Nat)
    (caps : Nat → Option (List Char)) :
    (Pattern.atom p).m k ⟨c :: cs, pos, caps⟩ =
      if p c then k ⟨cs, pos + 1, caps⟩ else none := rfl

/-- What a group captures: the characters between where it starts and where it ends. -/
@[simp] theorem take_consumed (pos : Nat) (xs rest : List Char) :
    (xs ++ rest).take (pos + xs.length - pos) = xs := by
  rw [Nat.add_sub_cancel_left, List.take_left]

theorem m_group (n : Nat) (a : Pattern) :
    (Pattern.group n a).m k s = a.m (fun s' => k ⟨s'.input, s'.pos,
      Function.update s'.caps n (some (s.input.take (s'.pos - s.pos)))⟩) s := rfl


/-- A string of characters matches exactly itself. -/
theorem m_lits (w rest : List Char) (pos : Nat) (caps : Nat → Option (List Char)) :
    (lits w).m k ⟨w ++ rest, pos, caps⟩ = k ⟨rest, pos + w.length, caps⟩ := by
  induction w generalizing pos with
  | nil => rfl
  | cons c w ih =>
    simp only [lits, m_seq, lit, List.cons_append, m_atom_cons, beq_self_eq_true, if_true,
      List.length_cons] at ih ⊢
    rw [ih]; congr 2; omega

/-- Enough fuel: a repetition from a state does the same with any fuel beyond the input left. -/
theorem repeatMatcher_fuel (m : Cont → Cont) (g : Bool) (k : Cont) :
    ∀ f f' (s : MatchState), s.input.length < f → s.input.length < f' →
      repeatMatcher m g k f s = repeatMatcher m g k f' s
  | 0, _, _, h, _ | _, 0, _, _, h => absurd h (Nat.not_lt_zero _)
  | f + 1, f' + 1, s, _, _ => by
    have hk : (fun s' : MatchState => if s'.input.length < s.input.length then
        repeatMatcher m g k f s' else none) =
        fun s' => if s'.input.length < s.input.length then repeatMatcher m g k f' s' else none := by
      funext s'
      split
      · exact repeatMatcher_fuel m g k f f' s' (by omega) (by omega)
      · rfl
    simp only [repeatMatcher, hk]

/-- A repetition: one more iteration, from which the repetition goes on if it consumed
something, and the continuation, in the order `greedy` says. -/
theorem m_star (g : Bool) (a : Pattern) :
    (Pattern.star g a).m k s =
      let more := a.m (fun s' => if s'.input.length < s.input.length then
        (Pattern.star g a).m k s' else none) s
      if g then more <|> k s else k s <|> more := by
  have hk : (fun s' : MatchState => if s'.input.length < s.input.length then
      repeatMatcher a.m g k s.input.length s' else none) =
      fun s' => if s'.input.length < s.input.length then (Pattern.star g a).m k s' else none := by
    funext s'
    split
    · exact repeatMatcher_fuel a.m g k _ _ s' ‹_› (Nat.lt_succ_self _)
    · rfl
  simp only [Pattern.m, repeatMatcher, hk]

end Equations

/-! ### Repetitions of a class -/

section Star

variable {p : Char → Bool} {k : Cont} {pos : Nat} {caps : Nat → Option (List Char)}

/-- A greedy repetition of a class over a character of the class: the repetition goes on
from the next character, and the continuation is tried here only if that fails. -/
theorem star_atom_cons {c : Char} (cs : List Char) (hc : p c = true) :
    (Pattern.star true (.atom p)).m k ⟨c :: cs, pos, caps⟩ =
      ((Pattern.star true (.atom p)).m k ⟨cs, pos + 1, caps⟩ <|>
        k ⟨c :: cs, pos, caps⟩) := by
  rw [m_star]
  simp [hc]

/-- A greedy repetition of a class stops where the class does not match. -/
theorem star_atom_stop (rest : List Char) (h : ∀ c ∈ rest.head?, p c = false) :
    (Pattern.star true (.atom p)).m k ⟨rest, pos, caps⟩ = k ⟨rest, pos, caps⟩ := by
  rw [m_star]
  cases rest with
  | nil => rfl
  | cons c cs => simp [h c rfl]

/-- A greedy repetition of a class over a run of the class: whatever succeeds from the end of
the run is the match. -/
theorem star_atom_append_some {xs : List Char} (hxs : ∀ c ∈ xs, p c = true) (rest : List Char)
    {r : MatchState}
    (h : (Pattern.star true (.atom p)).m k ⟨rest, pos + xs.length, caps⟩ = some r) :
    (Pattern.star true (.atom p)).m k ⟨xs ++ rest, pos, caps⟩ = some r := by
  induction xs generalizing pos with
  | nil => exact h
  | cons c xs ih =>
    rw [List.cons_append, star_atom_cons _ (hxs c (List.mem_cons_self _ _)),
      ih (fun d hd => hxs d (List.mem_cons_of_mem _ hd)) (by simpa [Nat.add_right_comm,
        Nat.add_assoc] using h)]
    rfl

/-- A greedy repetition of a class to the end of a run: the continuation from there. -/
theorem star_atom_run {xs : List Char} (hxs : ∀ c ∈ xs, p c = true) (rest : List Char)
    (hrest : ∀ c ∈ rest.head?, p c = false) {r : MatchState}
    (h : k ⟨rest, pos + xs.length, caps⟩ = some r) :
    (Pattern.star true (.atom p)).m k ⟨xs ++ rest, pos, caps⟩ = some r :=
  star_atom_append_some hxs rest (by rw [star_atom_stop rest hrest]; exact h)

/-- A greedy repetition of a class fails when the continuation fails wherever the repetition
can stop. -/
theorem star_atom_none (t : List Char)
    (h : ∀ i ≤ t.length, (∀ c ∈ t.take i, p c = true) →
      k ⟨t.drop i, pos + i, caps⟩ = none) :
    (Pattern.star true (.atom p)).m k ⟨t, pos, caps⟩ = none := by
  induction t generalizing pos with
  | nil => rw [star_atom_stop [] (by simp)]; exact h 0 (Nat.zero_le _) (by simp)
  | cons c cs ih =>
    have h0 : k ⟨c :: cs, pos, caps⟩ = none := h 0 (Nat.zero_le _) (by simp)
    cases hc : p c
    · rw [star_atom_stop _ (by simpa using hc)]; exact h0
    · rw [star_atom_cons _ hc, h0, Option.orElse_none]
      refine ih fun i hi hp => ?_
      have hp' : ∀ d ∈ (c :: cs).take (i + 1), p d = true := by
        rw [List.take_succ_cons]
        exact fun d hd => (List.mem_cons.1 hd).elim (fun e => e ▸ hc) (hp d)
      simpa [Nat.add_right_comm, Nat.add_assoc, Nat.add_comm 1] using
        h (i + 1) (by simp; omega) hp'

/-- A lazy repetition of a class over a character of the class: the continuation first, and
the repetition from the next character if it fails. -/
theorem lazy_star_atom_cons {c : Char} (cs : List Char) (hc : p c = true) :
    (Pattern.star false (.atom p)).m k ⟨c :: cs, pos, caps⟩ =
      (k ⟨c :: cs, pos, caps⟩ <|>
        (Pattern.star false (.atom p)).m k ⟨cs, pos + 1, caps⟩) := by
  rw [m_star]
  simp [hc]

/-- A lazy repetition of a class over a run of the class, the continuation failing before the
run's end: the continuation from the end of the run. -/
theorem lazy_star_atom_append {xs : List Char} (hxs : ∀ c ∈ xs, p c = true) (rest : List Char)
    (h : ∀ i < xs.length, k ⟨xs.drop i ++ rest, pos + i, caps⟩ = none) :
    (Pattern.star false (.atom p)).m k ⟨xs ++ rest, pos, caps⟩ =
      (Pattern.star false (.atom p)).m k ⟨rest, pos + xs.length, caps⟩ := by
  induction xs generalizing pos with
  | nil => rfl
  | cons c xs ih =>
    have h0 : k ⟨c :: (xs ++ rest), pos, caps⟩ = none := h 0 (by simp)
    rw [List.cons_append, lazy_star_atom_cons _ (hxs c (List.mem_cons_self _ _)), h0,
      Option.none_orElse, ih (fun d hd => hxs d (List.mem_cons_of_mem _ hd))]
    · simp [Nat.add_right_comm, Nat.add_assoc, Nat.add_comm 1]
    · intro i hi
      simpa [Nat.add_right_comm, Nat.add_assoc, Nat.add_comm 1] using
        h (i + 1) (by simp; omega)

/-- A lazy repetition of a class stops at the first place the continuation succeeds from: the
match is the continuation's from there, the characters before it are of the class, and the
continuation fails from every place before it. -/
theorem lazy_star_atom_first {t : List Char} {r : MatchState}
    (h : (Pattern.star false (.atom p)).m k ⟨t, pos, caps⟩ = some r) :
    ∃ i ≤ t.length, (∀ c ∈ t.take i, p c = true) ∧ k ⟨t.drop i, pos + i, caps⟩ = some r ∧
      ∀ j < i, k ⟨t.drop j, pos + j, caps⟩ = none := by
  induction t generalizing pos with
  | nil =>
    rw [m_star] at h
    exact ⟨0, Nat.zero_le _, by simp, by simpa using h, fun j hj => absurd hj (Nat.not_lt_zero _)⟩
  | cons c cs ih =>
    cases hk : k ⟨c :: cs, pos, caps⟩ with
    | some r' =>
      rw [m_star] at h
      simp only [Bool.false_eq_true, if_false, hk, Option.some_orElse, Option.some.injEq] at h
      exact ⟨0, Nat.zero_le _, by simp, by simpa [h] using hk,
        fun j hj => absurd hj (Nat.not_lt_zero _)⟩
    | none =>
      cases hc : p c
      · rw [m_star] at h
        simp [hc, hk] at h
      · rw [lazy_star_atom_cons _ hc, hk, Option.none_orElse] at h
        obtain ⟨i, hi, hp, hr, hmin⟩ := ih h
        refine ⟨i + 1, by simp; omega, ?_, by simpa [Nat.add_assoc, Nat.add_comm 1] using hr,
          fun j hj => ?_⟩
        · rw [List.take_succ_cons]
          exact fun d hd => (List.mem_cons.1 hd).elim (fun e => e ▸ hc) (hp d)
        · cases j with
          | zero => exact hk
          | succ j => simpa [Nat.add_assoc, Nat.add_comm 1] using hmin j (by omega)

end Star

/-! ### What a pattern matches first

`Leads a xs rest f` says that `a`, from the start of `xs ++ rest`, matches `xs` first: whatever
the continuation makes of the state after `xs`, with the captures changed by `f`, is the match,
since every way of matching `a` tried before that one fails whatever the continuation. `Fails a t`
says that `a` cannot start a match at `t`. Both compose along the pattern's syntax, and the
round trips of the two patterns of `psx.cc` are built from them. -/

/-- `a` matches `xs` first in front of `rest`, changing the captures by `f`. -/
def Leads (a : Pattern) (xs rest : List Char)
    (f : (Nat → Option (List Char)) → Nat → Option (List Char)) : Prop :=
  ∀ (k : Cont) pos caps r, k ⟨rest, pos + xs.length, f caps⟩ = some r →
    a.m k ⟨xs ++ rest, pos, caps⟩ = some r

/-- `a` matches nothing at `t`. -/
def Fails (a : Pattern) (t : List Char) : Prop :=
  ∀ (k : Cont) pos caps, a.m k ⟨t, pos, caps⟩ = none

section Leads

variable {a b : Pattern} {xs ys rest : List Char}
  {f g : (Nat → Option (List Char)) → Nat → Option (List Char)}

theorem Leads.atom {p : Char → Bool} {c : Char} (hc : p c = true) (rest : List Char) :
    Leads (.atom p) [c] rest id :=
  fun k pos caps r h => by simpa [hc] using h

theorem Leads.empty (rest : List Char) : Leads .empty [] rest id :=
  fun _ _ _ _ h => h

theorem Leads.eol : Leads .eol [] [] id :=
  fun _ _ _ _ h => h

theorem Leads.seq (ha : Leads a xs (ys ++ rest) f) (hb : Leads b ys rest g) :
    Leads (.seq a b) (xs ++ ys) rest (g ∘ f) := fun k pos caps r h => by
  rw [List.append_assoc]
  exact ha _ _ _ _ (hb _ _ _ _ (by simpa [Nat.add_assoc] using h))

theorem Leads.alt_left (ha : Leads a xs rest f) : Leads (.alt a b) xs rest f :=
  fun k pos caps r h => by simp [ha k pos caps r h]

theorem Leads.alt_right (ha : Fails a (xs ++ rest)) (hb : Leads b xs rest f) :
    Leads (.alt a b) xs rest f :=
  fun k pos caps r h => by simp [ha k pos caps, hb k pos caps r h]

theorem Leads.group (n : Nat) (ha : Leads a xs rest f) :
    Leads (.group n a) xs rest fun caps => Function.update (f caps) n (some xs) :=
  fun k pos caps r h => ha _ _ _ _ (by simpa using h)

theorem Leads.lits (w rest : List Char) : Leads (lits w) w rest id :=
  fun k pos caps r h => by rw [m_lits]; exact h

/-- A greedy repetition of a class matches a run of the class to its end first. -/
theorem Leads.star_run {p : Char → Bool} (hxs : ∀ c ∈ xs, p c = true)
    (hrest : ∀ c ∈ rest.head?, p c = false) : Leads (.star true (.atom p)) xs rest id :=
  fun _ _ _ _ h => star_atom_run hxs rest hrest h

/-- `x*c` fails where no `c` follows. -/
theorem Fails.star_lit {p : Char → Bool} {c : Char} {t : List Char} (ht : ∀ x ∈ t, x ≠ c) :
    Fails (.seq (.star true (.atom p)) (lit c)) t := fun k pos caps => by
  rw [m_seq]
  refine star_atom_none t fun i _ _ => ?_
  cases hd : t.drop i with
  | nil => rfl
  | cons x _ =>
    have hx : x ≠ c := ht x (List.mem_of_mem_drop (by rw [hd]; exact List.mem_cons_self _ _))
    simp [lit, hx]

/-- `x*c` for a class `x` holding `c`, over a run of `x` and a `c` that no `c` follows: the
repetition gives the run back to that `c`. -/
theorem star_lit_last {p : Char → Bool} {c : Char} (hxs : ∀ x ∈ xs, p x = true)
    (hc : p c = true) (hrest : ∀ x ∈ rest, x ≠ c) {k : Cont} {pos : Nat}
    {caps : Nat → Option (List Char)} {r : MatchState}
    (h : k ⟨rest, pos + xs.length + 1, caps⟩ = some r) :
    (Pattern.star true (.atom p)).m ((lit c).m k) ⟨xs ++ c :: rest, pos, caps⟩ = some r := by
  refine star_atom_append_some hxs _ ?_
  have hnone : (Pattern.star true (.atom p)).m ((lit c).m k) ⟨rest, pos + xs.length + 1, caps⟩ =
      none := Fails.star_lit hrest k _ _
  rw [star_atom_cons _ hc, hnone, Option.none_orElse]
  simpa [lit] using h

/-- `x*c` for a class `x` holding `c` matches a run of `x` up to the last `c` first, when no
`c` follows. -/
theorem Leads.star_last {p : Char → Bool} {c : Char} (hxs : ∀ x ∈ xs, p x = true)
    (hc : p c = true) (hrest : ∀ x ∈ rest, x ≠ c) :
    Leads (.seq (.star true (.atom p)) (lit c)) (xs ++ [c]) rest id := fun k pos caps r h => by
  rw [m_seq, List.append_assoc, List.singleton_append]
  exact star_lit_last hxs hc hrest (by simpa [Nat.add_assoc] using h)

/-- `x*cb` for a class `x` holding `c`: the run of `x` up to the last `c`, then `b`. -/
theorem Leads.star_last_then {p : Char → Bool} {c : Char} (hxs : ∀ x ∈ xs, p x = true)
    (hc : p c = true) (hys : ∀ x ∈ ys ++ rest, x ≠ c) (hb : Leads b ys rest g) :
    Leads (.seq (.star true (.atom p)) (.seq (lit c) b)) (xs ++ c :: ys) rest g :=
  fun k pos caps r h => by
    rw [m_seq, List.append_assoc, List.cons_append]
    exact star_lit_last hxs hc hys (hb _ _ _ _ (by simpa [Nat.add_assoc, Nat.add_comm 1] using h))

/-- A greedy repetition of a pattern that fails: the continuation. -/
theorem Leads.star_none (ha : Fails a rest) : Leads (.star true a) [] rest id :=
  fun k pos caps r h => by
    rw [List.nil_append, m_star]
    simpa [ha _ pos caps] using h

/-- A greedy repetition of a pattern that matches `xs` first and nothing after it: one
iteration. -/
theorem Leads.star_once (ha : Leads a xs rest f) (hne : xs ≠ []) (hfail : Fails a rest) :
    Leads (.star true a) xs rest f := fun k pos caps r h => by
  have h1 : (Pattern.star true a).m k ⟨rest, pos + xs.length, f caps⟩ = some r :=
    Leads.star_none hfail k _ _ r (by simpa using h)
  have hlt : rest.length < (xs ++ rest).length := by
    simpa using List.length_pos.2 hne
  rw [m_star]
  simp only [if_true]
  rw [ha _ _ _ _ (by simp only [hlt, if_true]; exact h1), Option.some_orElse]

/-- `x?cb` for a class `x` holding `c`, in front of a `c` that no `c` follows: `x` gives up
the `c` to the literal. -/
theorem Leads.opt_lit_then {p : Char → Bool} {c : Char} (hc : p c = true)
    (hys : ∀ x ∈ (ys ++ rest).head?, x ≠ c) (hb : Leads b ys rest g) :
    Leads (.seq (opt (.atom p)) (.seq (lit c) b)) (c :: ys) rest g := fun k pos caps r h => by
  have hnone : (lit c).m (b.m k) ⟨ys ++ rest, pos + 1, caps⟩ = none := by
    cases hd : ys ++ rest with
    | nil => rfl
    | cons x _ => simp [lit, hys x (by simp [hd])]
  have hk : (lit c).m (b.m k) ⟨c :: (ys ++ rest), pos, caps⟩ = some r := by
    simpa [lit] using hb _ _ _ _ (by simpa [Nat.add_assoc, Nat.add_comm 1] using h)
  simp only [List.cons_append, m_seq, opt, m_alt, m_atom_cons, hc, if_true, hnone,
    Option.none_orElse, m_empty, hk]

/-- A lazy group of a class, then `b`: the group takes the shortest run of the class after
which `b` can start. -/
theorem Leads.lazy_group {p : Char → Bool} (n : Nat) (hxs : ∀ c ∈ xs, p c = true)
    (hb : ∀ i < xs.length, Fails b (xs.drop i ++ ys ++ rest)) (hys : Leads b ys rest g) :
    Leads (.seq (.group n (.star false (.atom p))) b) (xs ++ ys) rest
      (g ∘ fun caps => Function.update caps n (some xs)) := fun k pos caps r h => by
  rw [m_seq, m_group, List.append_assoc, lazy_star_atom_append hxs _ fun i hi => by
    simpa using hb i hi _ _ _]
  rw [m_star]
  simp only [Bool.false_eq_true, if_false]
  have hk := hys k (pos + xs.length) (Function.update caps n (some xs)) r
    (by simpa [Nat.add_assoc] using h)
  simp only [List.append_assoc, take_consumed]
  rw [hk, Option.some_orElse]

/-- A match of the whole string that `Leads` to its end. -/
theorem regexMatch_of_leads {p : Pattern} {str : List Char} (h : Leads p str [] f) :
    regexMatch p str = some (f fun _ => none) := by
  have := h (fun s => if s.input = [] then some s else none) 0 (fun _ => none) _ rfl
  rw [List.append_nil] at this
  simp [regexMatch, this]

/-- `^` first holds where `std::regex_match` starts. -/
theorem regexMatch_bol (p : Pattern) (str : List Char) :
    regexMatch (.seq .bol p) str = regexMatch p str := rfl

theorem Fails.atom {p : Char → Bool} {c : Char} (hc : p c = false) (cs : List Char) :
    Fails (.atom p) (c :: cs) :=
  fun _ _ _ => by simp [hc]

theorem Fails.atom_nil {p : Char → Bool} : Fails (.atom p) [] :=
  fun _ _ _ => rfl

theorem Fails.seq {t : List Char} (ha : Fails a t) : Fails (.seq a b) t :=
  fun _ _ _ => ha _ _ _

theorem Fails.alt {t : List Char} (ha : Fails a t) (hb : Fails b t) : Fails (.alt a b) t :=
  fun _ _ _ => by simp [ha _ _ _, hb _ _ _]

theorem Fails.group {t : List Char} (n : Nat) (ha : Fails a t) : Fails (.group n a) t :=
  fun _ _ _ => ha _ _ _

/-- A greedy repetition of a class, then `$`, fails before a character out of the class. -/
theorem Fails.star_eol {p : Char → Bool} {c : Char} (hc : p c = false) (cs : List Char) :
    Fails (.seq (.star true (.atom p)) .eol) (c :: cs) :=
  fun _ _ _ => by rw [m_seq, star_atom_stop _ (by simpa using hc)]; rfl

end Leads

end Redumper.Regex
