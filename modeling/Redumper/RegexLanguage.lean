import Redumper.Regex

/-!
# The language of a pattern

`Pattern.m` tries the ways of matching a pattern in the order ECMAScript prefers, and stops at
the first one the continuation accepts. `Matches` lists the ways without an order: `Matches a s
s'` when `a` can take the state `s` to `s'`, consuming a start of the input and recording what
its groups capture. A repetition's iteration must consume something, as in the matcher.

The backtracking matcher is exact for this relation. Whatever state it hands on to its
continuation is reached by a way of matching (`m_sound`), and when some way of matching reaches
a state that the continuation accepts, the matcher succeeds (`m_complete`): backtracking loses
no way of matching, and the rule on empty iterations loses none either.

## What is proved

* `regexMatch_language`: `std::regex_match` accepts exactly the strings of the pattern's
  language, and the captures it reports are those of one way of matching the whole string.
* What one way of matching does: it consumes a start of the input, made of characters of the
  pattern's classes and holding a character of each class the pattern needs
  (`Matches.consumes`); a group captures what it consumed (`Matches.group_capture`); the
  capture of a group the pattern does not hold is kept (`Matches.caps_of_not_captures`).
-/

namespace Redumper.Regex

/-- The ways of matching a pattern: `a` can take the state `s` to `s'`. -/
inductive Matches : Pattern → MatchState → MatchState → Prop
  | atom {p : Char → Bool} {c : Char} {cs : List Char} {pos : Nat}
      {caps : Nat → Option (List Char)} (hc : p c = true) :
      Matches (.atom p) ⟨c :: cs, pos, caps⟩ ⟨cs, pos + 1, caps⟩
  | empty {s : MatchState} : Matches .empty s s
  | seq {a b : Pattern} {s s₁ s₂ : MatchState} (ha : Matches a s s₁) (hb : Matches b s₁ s₂) :
      Matches (.seq a b) s s₂
  | alt_left {a b : Pattern} {s s' : MatchState} (ha : Matches a s s') : Matches (.alt a b) s s'
  | alt_right {a b : Pattern} {s s' : MatchState} (hb : Matches b s s') :
      Matches (.alt a b) s s'
  | star_nil {g : Bool} {a : Pattern} {s : MatchState} : Matches (.star g a) s s
  | star_cons {g : Bool} {a : Pattern} {s s₁ s₂ : MatchState} (ha : Matches a s s₁)
      (hlt : s₁.input.length < s.input.length) (hs : Matches (.star g a) s₁ s₂) :
      Matches (.star g a) s s₂
  | group {n : Nat} {a : Pattern} {s s' : MatchState} (ha : Matches a s s') :
      Matches (.group n a) s ⟨s'.input, s'.pos,
        Function.update s'.caps n (some (s.input.take (s'.pos - s.pos)))⟩
  | bol {s : MatchState} (h : s.pos = 0) : Matches .bol s s
  | eol {s : MatchState} (h : s.input = []) : Matches .eol s s

/-! ### The matcher is exact -/

section Exact

variable {x y : Option MatchState} {r : MatchState}

theorem orElse_eq_some (h : (x <|> y) = some r) : x = some r ∨ y = some r := by
  cases x with
  | none => exact .inr h
  | some v => exact .inl h

theorem orElse_ne_none (h : x ≠ none ∨ y ≠ none) : (x <|> y) ≠ none := by
  cases x with
  | none => simpa using h
  | some v => simp

/-- A repetition of a sound matcher is sound. -/
theorem repeatMatcher_sound {a : Pattern} {g : Bool} {k : Cont}
    (ha : ∀ {k : Cont} {s r : MatchState}, a.m k s = some r →
      ∃ s', Matches a s s' ∧ k s' = some r) :
    ∀ (fuel : Nat) {s r : MatchState}, repeatMatcher a.m g k fuel s = some r →
      ∃ s', Matches (.star g a) s s' ∧ k s' = some r
  | 0, _, _, h => nomatch h
  | fuel + 1, s, r, h => by
    have hmore : a.m (fun s' => if s'.input.length < s.input.length then
        repeatMatcher a.m g k fuel s' else none) s = some r →
        ∃ s', Matches (.star g a) s s' ∧ k s' = some r := fun hm => by
      obtain ⟨s₁, h₁, hk⟩ := ha hm
      split at hk
      · obtain ⟨s₂, h₂, hk₂⟩ := repeatMatcher_sound ha fuel hk
        exact ⟨s₂, .star_cons h₁ ‹_› h₂, hk₂⟩
      · cases hk
    dsimp only [repeatMatcher] at h
    split at h
    · exact (orElse_eq_some h).elim hmore fun h => ⟨s, .star_nil, h⟩
    · exact (orElse_eq_some h).elim (fun h => ⟨s, .star_nil, h⟩) hmore

/-- **Soundness.** What the matcher hands on to its continuation is reached by a way of
matching the pattern. -/
theorem m_sound (a : Pattern) : ∀ {k : Cont} {s r : MatchState}, a.m k s = some r →
    ∃ s', Matches a s s' ∧ k s' = some r := by
  induction a with
  | atom p =>
    rintro k ⟨_ | ⟨c, cs⟩, pos, caps⟩ r h
    · cases h
    · rw [m_atom_cons] at h
      split at h
      · exact ⟨_, .atom ‹_›, h⟩
      · cases h
  | empty => exact fun h => ⟨_, .empty, h⟩
  | seq a b iha ihb =>
    intro k s r h
    obtain ⟨s₁, ha, h₁⟩ := iha h
    obtain ⟨s₂, hb, h₂⟩ := ihb h₁
    exact ⟨s₂, .seq ha hb, h₂⟩
  | alt a b iha ihb =>
    intro k s r h
    rcases orElse_eq_some h with h | h
    · obtain ⟨s', ha, h'⟩ := iha h
      exact ⟨s', .alt_left ha, h'⟩
    · obtain ⟨s', hb, h'⟩ := ihb h
      exact ⟨s', .alt_right hb, h'⟩
  | star g a iha => exact fun h => repeatMatcher_sound iha _ h
  | group n a iha =>
    intro k s r h
    obtain ⟨s', ha, h'⟩ := iha h
    exact ⟨_, .group ha, h'⟩
  | bol =>
    intro k s r h
    simp only [Pattern.m] at h
    split at h
    · exact ⟨s, .bol ‹_›, h⟩
    · cases h
  | eol =>
    intro k s r h
    simp only [Pattern.m] at h
    split at h
    · exact ⟨s, .eol ‹_›, h⟩
    · cases h

/-- A repetition succeeds when one more iteration does, or the continuation does. -/
theorem star_ne_none {g : Bool} {a : Pattern} {k : Cont} {s : MatchState}
    (h : a.m (fun s' => if s'.input.length < s.input.length then
        (Pattern.star g a).m k s' else none) s ≠ none ∨ k s ≠ none) :
    (Pattern.star g a).m k s ≠ none := by
  rw [m_star]
  cases g
  · exact orElse_ne_none h.symm
  · exact orElse_ne_none h

/-- **Completeness.** When a way of matching the pattern reaches a state the continuation
accepts, the matcher succeeds. -/
theorem m_complete {a : Pattern} {s s' : MatchState} (h : Matches a s s') :
    ∀ {k : Cont}, k s' ≠ none → a.m k s ≠ none := by
  induction h with
  | atom hc => intro k hk; simpa [hc] using hk
  | empty => exact id
  | seq _ _ iha ihb => exact fun hk => iha (ihb hk)
  | alt_left _ ih => exact fun hk => orElse_ne_none (.inl (ih hk))
  | alt_right _ ih => exact fun hk => orElse_ne_none (.inr (ih hk))
  | star_nil => exact fun hk => star_ne_none (.inr hk)
  | star_cons _ hlt _ iha ihs =>
    intro k hk
    exact star_ne_none (.inl (iha (by simpa [hlt] using ihs hk)))
  | group _ ih => intro k hk; exact ih hk
  | bol h => intro k hk; simpa [Pattern.m, h] using hk
  | eol h => intro k hk; simpa [Pattern.m, h] using hk

end Exact

/-- The captures `std::regex_match` reports are those of a way of matching the whole string. -/
theorem regexMatch_sound {p : Pattern} {str : List Char} {caps : Nat → Option (List Char)}
    (h : regexMatch p str = some caps) :
    ∃ s', Matches p ⟨str, 0, fun _ => none⟩ s' ∧ s'.input = [] ∧ s'.caps = caps := by
  obtain ⟨r, hr, rfl⟩ := Option.map_eq_some'.1 h
  obtain ⟨s', hm, hk⟩ := m_sound p hr
  split at hk
  · cases hk
    exact ⟨_, hm, ‹_›, rfl⟩
  · cases hk

/-- `std::regex_match` accepts a string that a way of matching consumes whole. -/
theorem regexMatch_complete {p : Pattern} {str : List Char} {s' : MatchState}
    (h : Matches p ⟨str, 0, fun _ => none⟩ s') (hs : s'.input = []) :
    (regexMatch p str).isSome := by
  have hne := m_complete h (k := fun s => if s.input = [] then some s else none) (by simp [hs])
  rw [regexMatch, Option.isSome_map', Option.isSome_iff_ne_none]
  exact hne

/-- **The language of `std::regex_match`.** A string is accepted exactly when a way of matching
the pattern consumes it whole, and the captures reported are those of such a way. -/
theorem regexMatch_language (p : Pattern) (str : List Char) :
    (∀ caps, regexMatch p str = some caps →
      ∃ s', Matches p ⟨str, 0, fun _ => none⟩ s' ∧ s'.input = [] ∧ s'.caps = caps) ∧
    ((regexMatch p str).isSome ↔
      ∃ s', Matches p ⟨str, 0, fun _ => none⟩ s' ∧ s'.input = []) := by
  refine ⟨fun _ h => regexMatch_sound h, fun h => ?_, fun ⟨s', hm, hs⟩ => regexMatch_complete hm hs⟩
  obtain ⟨caps, hcaps⟩ := Option.isSome_iff_exists.1 h
  obtain ⟨s', hm, hs, -⟩ := regexMatch_sound hcaps
  exact ⟨s', hm, hs⟩

/-! ### What a way of matching consumes -/

/-- Every character of a class of the pattern satisfies `q`. -/
def Pattern.Within (q : Char → Prop) : Pattern → Prop
  | .atom p => ∀ c, p c = true → q c
  | .seq a b | .alt a b => a.Within q ∧ b.Within q
  | .star _ a | .group _ a => a.Within q
  | .empty | .bol | .eol => True

/-- Every way of matching the pattern consumes a character of a class whose characters satisfy
`q`. -/
def Pattern.Needs (q : Char → Prop) : Pattern → Prop
  | .atom p => ∀ c, p c = true → q c
  | .seq a b => a.Needs q ∨ b.Needs q
  | .alt a b => a.Needs q ∧ b.Needs q
  | .group _ a => a.Needs q
  | .empty | .star _ _ | .bol | .eol => False

/-- Whether the pattern holds the `n`-th group. -/
def Pattern.Captures (n : Nat) : Pattern → Bool
  | .seq a b | .alt a b => a.Captures n || b.Captures n
  | .star _ a => a.Captures n
  | .group m a => m == n || a.Captures n
  | .atom _ | .empty | .bol | .eol => false

variable {a b : Pattern} {s s' : MatchState} {q : Char → Prop}

/-- A way of matching consumes a start `w` of the input, and moves the position by its length;
`w` is made of characters of the pattern's classes, and holds one of each class the pattern
needs. -/
theorem Matches.consumes (h : Matches a s s') (hq : a.Within q) :
    ∃ w, s.input = w ++ s'.input ∧ s'.pos = s.pos + w.length ∧ (∀ c ∈ w, q c) ∧
      ∀ r, a.Needs r → ∃ c ∈ w, r c := by
  induction h with
  | @atom p c cs pos caps hc =>
    exact ⟨[c], rfl, rfl, by simpa using hq c hc, fun r hr => ⟨c, by simp, hr c hc⟩⟩
  | empty | star_nil | bol _ | eol _ =>
    exact ⟨[], rfl, by simp, by simp, fun _ hr => hr.elim⟩
  | seq _ _ iha ihb =>
    obtain ⟨w₁, hi₁, hp₁, hq₁, hn₁⟩ := iha hq.1
    obtain ⟨w₂, hi₂, hp₂, hq₂, hn₂⟩ := ihb hq.2
    refine ⟨w₁ ++ w₂, by rw [hi₁, hi₂, List.append_assoc], by simp [hp₁, hp₂, Nat.add_assoc],
      by simpa [or_imp, forall_and] using And.intro hq₁ hq₂, fun r hr => ?_⟩
    rcases hr with hr | hr
    · obtain ⟨c, hc, hrc⟩ := hn₁ r hr
      exact ⟨c, List.mem_append_left _ hc, hrc⟩
    · obtain ⟨c, hc, hrc⟩ := hn₂ r hr
      exact ⟨c, List.mem_append_right _ hc, hrc⟩
  | alt_left _ ih =>
    obtain ⟨w, hi, hp, hw, hn⟩ := ih hq.1
    exact ⟨w, hi, hp, hw, fun r hr => hn r hr.1⟩
  | alt_right _ ih =>
    obtain ⟨w, hi, hp, hw, hn⟩ := ih hq.2
    exact ⟨w, hi, hp, hw, fun r hr => hn r hr.2⟩
  | star_cons _ _ _ iha ihs =>
    obtain ⟨w₁, hi₁, hp₁, hq₁, -⟩ := iha hq
    obtain ⟨w₂, hi₂, hp₂, hq₂, -⟩ := ihs hq
    exact ⟨w₁ ++ w₂, by rw [hi₁, hi₂, List.append_assoc], by simp [hp₁, hp₂, Nat.add_assoc],
      by simpa [or_imp, forall_and] using And.intro hq₁ hq₂, fun _ hr => hr.elim⟩
  | group _ ih => exact ih hq

/-- A group captures what its pattern consumed. -/
theorem Matches.group_capture {n : Nat} (h : Matches (.group n a) s s') (hq : a.Within q) :
    ∃ w, s'.caps n = some w ∧ s.input = w ++ s'.input ∧ (∀ c ∈ w, q c) ∧
      ∀ r, a.Needs r → ∃ c ∈ w, r c := by
  cases h with
  | group ha =>
    obtain ⟨w, hi, hp, hw, hn⟩ := ha.consumes hq
    exact ⟨w, by simp [hi, hp], hi, hw, hn⟩

/-- The capture of a group the pattern does not hold is kept. -/
theorem Matches.caps_of_not_captures {n : Nat} (h : Matches a s s')
    (hn : a.Captures n = false) : s'.caps n = s.caps n := by
  induction h with
  | seq _ _ iha ihb =>
    simp only [Pattern.Captures, Bool.or_eq_false_iff] at hn
    rw [ihb hn.2, iha hn.1]
  | alt_left _ ih =>
    simp only [Pattern.Captures, Bool.or_eq_false_iff] at hn
    exact ih hn.1
  | alt_right _ ih =>
    simp only [Pattern.Captures, Bool.or_eq_false_iff] at hn
    exact ih hn.2
  | star_cons _ _ _ iha ihs => rw [ihs hn, iha hn]
  | group _ ih =>
    simp only [Pattern.Captures, Bool.or_eq_false_iff, beq_eq_false_iff_ne] at hn
    simp [Function.update_noteq (Ne.symm hn.1), ih hn.2]
  | atom _ | empty | star_nil | bol _ | eol _ => rfl

/-- A way of matching a class consumes one character of the class. -/
theorem Matches.atom_inv {p : Char → Bool} (h : Matches (.atom p) s s') :
    ∃ c, s.input = c :: s'.input ∧ p c = true := by
  cases h with
  | atom hc => exact ⟨_, rfl, hc⟩

/-- A way of matching `ab` goes through a way of matching `a`. -/
theorem Matches.seq_inv {s₂ : MatchState} (h : Matches (.seq a b) s s₂) :
    ∃ s₁, Matches a s s₁ ∧ Matches b s₁ s₂ := by
  cases h with
  | seq ha hb => exact ⟨_, ha, hb⟩

/-- A way of matching `a|b` is one of `a` or one of `b`. -/
theorem Matches.alt_inv (h : Matches (.alt a b) s s') : Matches a s s' ∨ Matches b s s' := by
  cases h with
  | alt_left ha => exact .inl ha
  | alt_right hb => exact .inr hb

/-- A repetition of a class takes a run of the class. -/
theorem Matches.star_atom {g : Bool} {p : Char → Bool} {w : List Char} (rest : List Char)
    (pos : Nat) (caps : Nat → Option (List Char)) (hw : ∀ c ∈ w, p c = true) :
    Matches (.star g (.atom p)) ⟨w ++ rest, pos, caps⟩ ⟨rest, pos + w.length, caps⟩ := by
  induction w generalizing pos with
  | nil => exact .star_nil
  | cons c w ih =>
    refine .star_cons (.atom (hw c (List.mem_cons_self _ _))) (by simp) ?_
    simpa [Nat.add_assoc, Nat.add_comm 1] using
      ih (pos + 1) fun d hd => hw d (List.mem_cons_of_mem _ hd)

end Redumper.Regex
