import GlyphLexer.Proofs.Grammar.Vocabulary

/-!
# The lexical grammar

Which texts are lexemes, said without a reader: a name, a whole number, a
number with a point, a string literal or an operator. `Lexeme` also fixes
what kind of token each one makes and what a string literal stands for.

A lexer takes the longest lexeme that the text begins with. The definition of
`LongestLexeme` ranges over every beginning of the text, but no reader can
try them all. What makes reading unit by unit enough is
`IsLexeme.snoc_of_append`: between a lexeme and a longer one there is a
lexeme at every length, so a lexeme is the longest one as soon as the next
unit does not go on it. This is `longestLexeme_iff`.

The classes are told apart by their first units (`Lexeme.of_isDigit` and its
companions). Within string literals it is the items that are told apart, a
plain unit never being a backslash, and so the items of a text are determined
as far as they go (`StringItems.length_le_or_more`).

## Main definitions

* `StringItems`: The inside of a string literal and what it stands for.
* `IsDigits`: One digit or more.
* `Lexeme`, `IsLexeme`: The lexemes with their kinds and literals.
* `LongestLexeme`: A lexeme that is the longest one its text begins with.
* `Detached`: What follows a number does not run into it.

## Theorems

* `StringItems.length_le_or_more`: Two runs of items of one text, of which
  one ends where no item begins.
* `Lexeme.of_isNameStart`, `Lexeme.of_isDigit`, `Lexeme.of_quote`,
  `Lexeme.of_mayStart`: The first unit decides the class.
* `IsLexeme.snoc_of_append`: A lexeme that can be extended can be extended by
  one unit.
* `longestLexeme_iff`: A lexeme is the longest one if the next unit does not
  extend it.
-/

namespace GlyphLexer

/-- The inside of a string literal, item by item, and the text that the items
    stand for. -/
inductive StringItems : Text → Text → Prop where
  | nil : StringItems [] []
  | plain {u : CodeUnit} {body decoded : Text} (hquote : u ≠ CodeUnit.quote)
      (hbackslash : u ≠ CodeUnit.backslash) (hnewline : u ≠ CodeUnit.newline)
      (h : StringItems body decoded) : StringItems (u :: body) (u :: decoded)
  | escape {v d : CodeUnit} {body decoded : Text} (hentry : (v, d) ∈ Escape.table)
      (h : StringItems body decoded) :
      StringItems (CodeUnit.backslash :: v :: body) (d :: decoded)

/-- A digit or more. -/
def IsDigits (t : Text) : Prop := t ≠ [] ∧ ∀ u ∈ t, u.isDigit = true

/-- A lexeme, the kind of token it makes, and what it stands for if it is a
    string literal. -/
inductive Lexeme : Text → TokenType → Option Text → Prop where
  | identifier {u : CodeUnit} {t : Text} (hstart : u.isNameStart = true)
      (hpart : ∀ v ∈ t, v.isNamePart = true) : Lexeme (u :: t) .identifier none
  | integer {t : Text} (h : IsDigits t) : Lexeme t .integer none
  | float {whole fraction : Text} (h : IsDigits whole)
      (hfraction : ∀ u ∈ fraction, u.isDigit = true) :
      Lexeme (whole ++ CodeUnit.dot :: fraction) .float none
  | string {body decoded : Text} (h : StringItems body decoded) :
      Lexeme (CodeUnit.quote :: (body ++ [CodeUnit.quote])) .string (some decoded)
  | operator {t : Text} {type : TokenType} (h : (t, type) ∈ Operator.all) : Lexeme t type none

/-- A lexeme of some kind. -/
def IsLexeme (t : Text) : Prop := ∃ type literal, Lexeme t type literal

/-- The lexeme `l` is the longest one that the text `l ++ tail` begins
    with. -/
def LongestLexeme (l tail : Text) : Prop :=
  IsLexeme l ∧ ∀ m, m <+: l ++ tail → IsLexeme m → m.length ≤ l.length

/-- No number is followed at once by the beginning of a name, and no number
    with a point by another point. -/
def Detached (type : TokenType) (tail : Text) : Prop :=
  ∀ u, tail.head? = some u →
    (type = .integer ∨ type = .float → u.isNameStart = false) ∧ (type = .float → u ≠ CodeUnit.dot)

theorem IsDigits.head_of_append {u : CodeUnit} {whole t rest : Text} (h : IsDigits whole)
    (heq : u :: rest = whole ++ t) : u.isDigit = true := by
  cases whole with
  | nil => exact absurd rfl h.1
  | cons v whole =>
      rw [List.cons_append, List.cons.injEq] at heq
      rw [heq.1]
      exact h.2 v List.mem_cons_self

theorem IsDigits.head {u : CodeUnit} {t : Text} (h : IsDigits (u :: t)) : u.isDigit = true :=
  h.2 u List.mem_cons_self

theorem IsDigits.dot_notMem {t : Text} (h : IsDigits t) : CodeUnit.dot ∉ t := by
  intro hmem
  exact (CodeUnit.ne_of_isDigit (h.2 _ hmem)).2.1 rfl

namespace StringItems

theorem newline_notMem {body decoded : Text} (h : StringItems body decoded) :
    CodeUnit.newline ∉ body := by
  induction h with
  | nil => exact List.not_mem_nil
  | plain _ _ hnewline _ ih => exact List.not_mem_cons_of_ne_of_not_mem hnewline.symm ih
  | escape hentry _ ih =>
      refine List.not_mem_cons_of_ne_of_not_mem (by decide) ?_
      exact List.not_mem_cons_of_ne_of_not_mem (Escape.no_newline _ hentry).symm ih

/-- Items are read in one way only. Of two runs of items that a text begins
    with, the second goes no further than the first unless an item begins
    where the first one ends. -/
theorem length_le_or_more {body decoded : Text} (h : StringItems body decoded) :
    ∀ (m literal tail : Text), StringItems m literal → m <+: body ++ tail →
      m.length ≤ body.length ∨ ∃ more rest, more ≠ [] ∧ StringItems more rest ∧ more <+: tail := by
  induction h with
  | nil =>
      intro m literal tail hm hp
      by_cases hnil : m = []
      · exact Or.inl (by rw [hnil])
      · exact Or.inr ⟨m, literal, hnil, hm, hp⟩
  | plain _ hbackslash _ _ ih =>
      intro m literal tail hm hp
      cases hm with
      | nil => exact Or.inl (Nat.zero_le _)
      | plain _ _ _ hm =>
          rcases ih _ _ tail hm (List.cons_prefix_cons.1 hp).2 with hle | hmore
          · exact Or.inl (Nat.succ_le_succ hle)
          · exact Or.inr hmore
      | escape _ _ => exact absurd (List.cons_prefix_cons.1 hp).1.symm hbackslash
  | escape _ _ ih =>
      intro m literal tail hm hp
      cases hm with
      | nil => exact Or.inl (Nat.zero_le _)
      | plain _ hbackslash _ _ => exact absurd (List.cons_prefix_cons.1 hp).1 hbackslash
      | escape _ hm =>
          have hp' := (List.cons_prefix_cons.1 (List.cons_prefix_cons.1 hp).2).2
          rcases ih _ _ tail hm hp' with hle | hmore
          · exact Or.inl (Nat.succ_le_succ (Nat.succ_le_succ hle))
          · exact Or.inr hmore

/-- No item begins with a quotation mark or a newline. -/
theorem head_ne {u : CodeUnit} {body decoded : Text} (h : StringItems (u :: body) decoded) :
    u ≠ CodeUnit.quote ∧ u ≠ CodeUnit.newline := by
  cases h with
  | plain hquote _ hnewline _ => exact ⟨hquote, hnewline⟩
  | escape _ _ => exact ⟨by decide, by decide⟩

/-- The run of items before a closing quotation mark is determined. -/
theorem eq_of_append_quote {body decoded body' decoded' rest rest' : Text}
    (h : StringItems body decoded) (h' : StringItems body' decoded')
    (heq : body ++ CodeUnit.quote :: rest = body' ++ CodeUnit.quote :: rest') : body = body' := by
  -- No item begins with the closing mark, so neither run of items goes further
  -- than the other.
  have hstop : ∀ more d t, more ≠ [] → StringItems more d → ¬ more <+: CodeUnit.quote :: t := by
    intro more d t hne hmore hp
    cases more with
    | nil => exact hne rfl
    | cons u more => exact (head_ne hmore).1 (List.cons_prefix_cons.1 hp).1
  have hp' : body' <+: body ++ CodeUnit.quote :: rest := ⟨_, heq.symm⟩
  have hp : body <+: body' ++ CodeUnit.quote :: rest' := ⟨_, heq⟩
  rcases length_le_or_more h _ _ _ h' hp' with hle' | ⟨more, d, hne, hmore, hpre⟩
  · rcases length_le_or_more h' _ _ _ h hp with hle | ⟨more, d, hne, hmore, hpre⟩
    · exact (List.append_inj heq (by omega)).1
    · exact absurd hpre (hstop more d _ hne hmore)
  · exact absurd hpre (hstop more d _ hne hmore)

end StringItems

namespace Lexeme

theorem ne_nil {l : Text} {type : TokenType} {literal : Option Text} (h : Lexeme l type literal) :
    l ≠ [] := by
  cases h with
  | identifier _ _ => exact List.cons_ne_nil _ _
  | integer h => exact h.1
  | float _ _ => simp
  | string _ => exact List.cons_ne_nil _ _
  | operator h => exact Operator.ne_nil_of_mem _ h

/-- The first unit of a lexeme shows its class. -/
theorem head_cases {u : CodeUnit} {t : Text} {type : TokenType} {literal : Option Text}
    (h : Lexeme (u :: t) type literal) :
    (u.isNameStart = true ∧ type = .identifier ∧ literal = none ∧
      ∀ v ∈ t, v.isNamePart = true) ∨
    (u.isDigit = true ∧ literal = none ∧ ((type = .integer ∧ IsDigits (u :: t)) ∨
      type = .float ∧ ∃ whole fraction, u :: t = whole ++ CodeUnit.dot :: fraction ∧
        IsDigits whole ∧ ∀ v ∈ fraction, v.isDigit = true)) ∨
    (u = CodeUnit.quote ∧ type = .string ∧ ∃ body decoded, t = body ++ [CodeUnit.quote] ∧
      literal = some decoded ∧ StringItems body decoded) ∨
    (Operator.mayStart u = true ∧ literal = none ∧ (u :: t, type) ∈ Operator.all) := by
  generalize hl : u :: t = l at h
  cases h with
  | identifier hstart hpart =>
      rw [List.cons.injEq] at hl
      rw [hl.1, hl.2]
      exact Or.inl ⟨hstart, rfl, rfl, hpart⟩
  | integer h =>
      rw [← hl] at h
      exact Or.inr (Or.inl ⟨h.head, rfl, Or.inl ⟨rfl, by rwa [← hl]⟩⟩)
  | @float whole fraction h hfraction =>
      exact Or.inr (Or.inl ⟨h.head_of_append hl, rfl, Or.inr ⟨rfl, _, _, rfl, h, hfraction⟩⟩)
  | string h =>
      rw [List.cons.injEq] at hl
      exact Or.inr (Or.inr (Or.inl ⟨hl.1, rfl, _, _, hl.2, rfl, h⟩))
  | operator h =>
      rw [← hl] at h ⊢
      exact Or.inr (Or.inr (Or.inr ⟨Operator.mayStart_of_mem h, rfl, h⟩))

/-- A lexeme that begins like a name is one. -/
theorem of_isNameStart {u : CodeUnit} {t : Text} {type : TokenType} {literal : Option Text}
    (hu : u.isNameStart = true) (h : Lexeme (u :: t) type literal) :
    type = .identifier ∧ literal = none ∧ ∀ v ∈ t, v.isNamePart = true := by
  have hne := CodeUnit.ne_of_isNameStart hu
  rcases h.head_cases with hname | ⟨hdigit, _⟩ | ⟨hquote, _⟩ | ⟨hop, _⟩
  · exact hname.2
  · exact absurd hdigit (by simp [hne.2.2])
  · exact absurd hquote hne.1
  · exact absurd hop (by simp [Operator.mayStart, hu])

/-- A lexeme that begins with a digit is a number. -/
theorem of_isDigit {u : CodeUnit} {t : Text} {type : TokenType} {literal : Option Text}
    (hu : u.isDigit = true) (h : Lexeme (u :: t) type literal) :
    literal = none ∧ ((type = .integer ∧ IsDigits (u :: t)) ∨
      type = .float ∧ ∃ whole fraction, u :: t = whole ++ CodeUnit.dot :: fraction ∧
        IsDigits whole ∧ ∀ v ∈ fraction, v.isDigit = true) := by
  rcases h.head_cases with ⟨hname, _⟩ | hdigit | ⟨hquote, _⟩ | ⟨hop, _⟩
  · exact absurd hname (by simp [CodeUnit.not_isNameStart_of_isDigit hu])
  · exact hdigit.2
  · exact absurd hquote (CodeUnit.ne_of_isDigit hu).1
  · exact absurd hop (by simp [Operator.mayStart, hu])

/-- A lexeme that begins with a quotation mark is a string literal. -/
theorem of_quote {t : Text} {type : TokenType} {literal : Option Text}
    (h : Lexeme (CodeUnit.quote :: t) type literal) :
    type = .string ∧ ∃ body decoded, t = body ++ [CodeUnit.quote] ∧ literal = some decoded ∧
      StringItems body decoded := by
  rcases h.head_cases with ⟨hname, _⟩ | ⟨hdigit, _⟩ | hquote | ⟨hop, _⟩
  · exact absurd hname (by decide)
  · exact absurd hdigit (by decide)
  · exact hquote.2
  · exact absurd hop (by decide)

/-- A lexeme that begins like an operator is one. -/
theorem of_mayStart {u : CodeUnit} {t : Text} {type : TokenType} {literal : Option Text}
    (hu : Operator.mayStart u = true) (h : Lexeme (u :: t) type literal) :
    literal = none ∧ (u :: t, type) ∈ Operator.all := by
  have hne := Operator.mayStart_iff.1 hu
  rcases h.head_cases with ⟨hname, _⟩ | ⟨hdigit, _⟩ | ⟨hquote, _⟩ | hop
  · exact absurd hname (by simp [hne.2.1])
  · exact absurd hdigit (by simp [hne.1])
  · exact absurd hquote hne.2.2.2
  · exact hop.2

theorem isDigits_of_integer {t : Text} {literal : Option Text} (h : Lexeme t .integer literal) :
    IsDigits t := by
  cases h with
  | integer h => exact h
  | operator h => exact absurd rfl (Operator.type_of_mem _ h).2.1

theorem exists_of_float {t : Text} {literal : Option Text} (h : Lexeme t .float literal) :
    ∃ whole fraction, t = whole ++ CodeUnit.dot :: fraction ∧ IsDigits whole ∧
      ∀ u ∈ fraction, u.isDigit = true := by
  cases h with
  | float h hfraction => exact ⟨_, _, rfl, h, hfraction⟩
  | operator h => exact absurd rfl (Operator.type_of_mem _ h).2.2.1

/-- String literals, and they alone, stand for something. -/
theorem literal_isSome_iff {l : Text} {type : TokenType} {literal : Option Text}
    (h : Lexeme l type literal) : literal.isSome = true ↔ type = .string := by
  cases h with
  | identifier _ _ => simp
  | integer _ => simp
  | float _ _ => simp
  | string _ => simp
  | operator h => simp [(Operator.type_of_mem _ h).2.2.2.1]

theorem type_ne_eof {l : Text} {type : TokenType} {literal : Option Text}
    (h : Lexeme l type literal) : type ≠ .eof := by
  cases h with
  | identifier _ _ => simp
  | integer _ => simp
  | float _ _ => simp
  | string _ => simp
  | operator h => exact (Operator.type_of_mem _ h).2.2.2.2

/-- No lexeme begins with trivia. -/
theorem head_not_isTrivia {u : CodeUnit} {t : Text} {type : TokenType} {literal : Option Text}
    (h : Lexeme (u :: t) type literal) : u.isTrivia = false := by
  rcases h.head_cases with ⟨hname, _⟩ | ⟨hdigit, _⟩ | ⟨hquote, _⟩ | ⟨hop, _⟩
  · exact CodeUnit.not_isTrivia_of_isNamePart (CodeUnit.isNamePart_of_isNameStart hname)
  · exact CodeUnit.not_isTrivia_of_isNamePart (CodeUnit.isNamePart_of_isDigit hdigit)
  · rw [hquote]
    decide
  · exact (Operator.mayStart_iff.1 hop).2.2.1

/-- No lexeme ends with trivia. -/
theorem last_not_isTrivia {l : Text} {u : CodeUnit} {type : TokenType} {literal : Option Text}
    (h : Lexeme (l ++ [u]) type literal) : u.isTrivia = false := by
  have hlast : u ∈ l ++ [u] := List.mem_append_right _ (List.mem_singleton_self u)
  have hdigit : ∀ v : CodeUnit, v.isDigit = true → v.isTrivia = false := fun v hv =>
    CodeUnit.not_isTrivia_of_isNamePart (CodeUnit.isNamePart_of_isDigit hv)
  generalize hl : l ++ [u] = m at h hlast
  cases h with
  | identifier hstart hpart =>
      refine CodeUnit.not_isTrivia_of_isNamePart ?_
      rcases List.mem_cons.1 hlast with rfl | hmem
      · exact CodeUnit.isNamePart_of_isNameStart hstart
      · exact hpart u hmem
  | integer h => exact hdigit u (h.2 u hlast)
  | float h hfraction =>
      rcases List.mem_append.1 hlast with hmem | hmem
      · exact hdigit u (h.2 u hmem)
      · rcases List.mem_cons.1 hmem with rfl | hmem
        · decide
        · exact hdigit u (hfraction u hmem)
  | string _ =>
      rw [← List.cons_append] at hl
      have hquote := (List.append_inj' hl rfl).2
      rw [List.cons.injEq] at hquote
      rw [hquote.1]
      decide
  | operator h => exact Operator.no_trivia _ h u hlast

/-- No lexeme goes over the end of a line. -/
theorem newline_notMem {l : Text} {type : TokenType} {literal : Option Text}
    (h : Lexeme l type literal) : CodeUnit.newline ∉ l := by
  have hpart : ∀ u : CodeUnit, u.isNamePart = true → CodeUnit.newline ≠ u := by
    rintro u hu rfl
    exact absurd hu (by decide)
  cases h with
  | identifier hstart hp =>
      rintro (_ | ⟨_, hmem⟩)
      · exact absurd hstart (by decide)
      · exact hpart _ (hp _ hmem) rfl
  | integer h => exact fun hmem => (CodeUnit.ne_of_isDigit (h.2 _ hmem)).2.2 rfl
  | float h hfraction =>
      intro hmem
      rcases List.mem_append.1 hmem with hmem | hmem
      · exact (CodeUnit.ne_of_isDigit (h.2 _ hmem)).2.2 rfl
      · rcases List.mem_cons.1 hmem with heq | hmem
        · exact absurd heq (by decide)
        · exact (CodeUnit.ne_of_isDigit (hfraction _ hmem)).2.2 rfl
  | string h =>
      intro hmem
      rcases List.mem_cons.1 hmem with heq | hmem
      · exact absurd heq (by decide)
      · rcases List.mem_append.1 hmem with hmem | hmem
        · exact h.newline_notMem hmem
        · exact absurd (List.mem_singleton.1 hmem) (by decide)
  | operator h => exact fun hmem => absurd (Operator.no_trivia _ h _ hmem) (by decide)

end Lexeme

namespace IsDigits

/-- The whole part of a number is the run of digits that the number begins
    with. -/
theorem takeWhile_append {whole t : Text} {u : CodeUnit} (h : IsDigits whole)
    (hu : u.isDigit = false) : (whole ++ u :: t).takeWhile CodeUnit.isDigit = whole := by
  refine Text.takeWhile_append_of_head h.2 ?_
  rintro v ⟨⟩
  exact hu

theorem eq_of_append_dot {whole whole' t t' : Text} (h : IsDigits whole) (h' : IsDigits whole')
    (heq : whole ++ CodeUnit.dot :: t = whole' ++ CodeUnit.dot :: t') : t = t' := by
  have hwhole : whole = whole' := by
    rw [← h.takeWhile_append (t := t) (by decide : CodeUnit.dot.isDigit = false), heq,
      h'.takeWhile_append (by decide)]
  rw [hwhole, List.append_cancel_left_eq, List.cons.injEq] at heq
  exact heq.2

/-- Behind some digits a number goes on with a digit or with its point. -/
theorem next_of_append {t m whole fraction : Text} {u : CodeUnit} (h : IsDigits t)
    (hwhole : IsDigits whole) (heq : t ++ u :: m = whole ++ CodeUnit.dot :: fraction) :
    u.isDigit = true ∨ u = CodeUnit.dot := by
  by_cases hu : u.isDigit = true
  · exact Or.inl hu
  · have ht : t = whole := by
      rw [← h.takeWhile_append (t := m) (by simpa using hu), heq,
        hwhole.takeWhile_append (by decide)]
    rw [ht, List.append_cancel_left_eq, List.cons.injEq] at heq
    exact Or.inr heq.1

theorem snoc {t : Text} {u : CodeUnit} (h : IsDigits t) (hu : u.isDigit = true) :
    IsDigits (t ++ [u]) := by
  refine ⟨by simp, fun v hv => ?_⟩
  rcases List.mem_append.1 hv with hv | hv
  · exact h.2 v hv
  · rwa [List.mem_singleton.1 hv]

end IsDigits

namespace IsLexeme

/-! What follows a lexeme within a longer one, class by class. -/

theorem next_of_identifier {v u : CodeUnit} {t m : Text} (hstart : v.isNameStart = true)
    (h : IsLexeme (v :: t ++ u :: m)) : u.isNamePart = true := by
  rcases h with ⟨type, literal, h⟩
  exact (Lexeme.of_isNameStart hstart h).2.2 u (by simp)

theorem next_of_integer {t m : Text} {u : CodeUnit} (ht : IsDigits t)
    (h : IsLexeme (t ++ u :: m)) : u.isDigit = true ∨ u = CodeUnit.dot := by
  rcases h with ⟨type, literal, h⟩
  cases t with
  | nil => exact absurd rfl ht.1
  | cons d t =>
      rcases (Lexeme.of_isDigit ht.head h).2 with ⟨_, hdigits⟩ | ⟨_, _, _, heq, hwhole, _⟩
      · exact Or.inl (hdigits.2 u (by simp))
      · exact ht.next_of_append hwhole heq

theorem next_of_float {whole fraction m : Text} {u : CodeUnit} (hw : IsDigits whole)
    (h : IsLexeme (whole ++ CodeUnit.dot :: fraction ++ u :: m)) : u.isDigit = true := by
  rcases h with ⟨type, literal, h⟩
  cases whole with
  | nil => exact absurd rfl hw.1
  | cons d whole =>
      rcases (Lexeme.of_isDigit hw.head h).2 with ⟨_, hdigits⟩ | ⟨_, _, _, heq, hwhole, hall⟩
      · exact absurd (by simp) hdigits.dot_notMem
      · -- Both numbers have their point at one place, and `u` is behind it.
        have hrest := hw.eq_of_append_dot hwhole (t := fraction ++ u :: m) (by rw [← heq]; simp)
        exact hall u (by rw [← hrest]; simp)

/-- A longer literal would have the closing quotation mark of the shorter one
    in its inside. -/
theorem not_string_append {body decoded m : Text} {u : CodeUnit}
    (hbody : StringItems body decoded) :
    ¬ IsLexeme (CodeUnit.quote :: (body ++ [CodeUnit.quote]) ++ u :: m) := by
  rintro ⟨type, literal, h⟩
  rcases (Lexeme.of_quote h).2 with ⟨body', _, heq, _, h'⟩
  have heq' : body ++ CodeUnit.quote :: u :: m = body' ++ [CodeUnit.quote] := by
    rw [← heq]
    simp
  rw [hbody.eq_of_append_quote h' heq', List.append_cancel_left_eq, List.cons.injEq] at heq'
  exact absurd heq'.2 (by simp)

theorem operator_append {l m : Text} {type : TokenType} {u : CodeUnit}
    (hl : (l, type) ∈ Operator.all) (h : IsLexeme (l ++ u :: m)) :
    ∃ type', (l ++ u :: m, type') ∈ Operator.all := by
  rcases h with ⟨type', literal, h⟩
  cases l with
  | nil => exact absurd rfl (Operator.ne_nil_of_mem _ hl)
  | cons v l =>
      exact ⟨type', (Lexeme.of_mayStart (Operator.mayStart_of_mem hl) h).2⟩

/-! One more unit at the end of a lexeme. -/

theorem identifier_snoc {v u : CodeUnit} {t : Text} (hstart : v.isNameStart = true)
    (hpart : ∀ w ∈ t, w.isNamePart = true) (hu : u.isNamePart = true) :
    IsLexeme (v :: t ++ [u]) := by
  refine ⟨_, _, Lexeme.identifier hstart fun w hw => ?_⟩
  rcases List.mem_append.1 hw with hw | hw
  · exact hpart w hw
  · rwa [List.mem_singleton.1 hw]

theorem integer_snoc {t : Text} {u : CodeUnit} (h : IsDigits t)
    (hu : u.isDigit = true ∨ u = CodeUnit.dot) : IsLexeme (t ++ [u]) := by
  rcases hu with hu | hu
  · exact ⟨_, _, Lexeme.integer (h.snoc hu)⟩
  · rw [hu]
    exact ⟨_, _, @Lexeme.float t [] h (by simp)⟩

theorem float_snoc {whole fraction : Text} {u : CodeUnit} (h : IsDigits whole)
    (hfraction : ∀ v ∈ fraction, v.isDigit = true) (hu : u.isDigit = true) :
    IsLexeme (whole ++ CodeUnit.dot :: fraction ++ [u]) := by
  rw [List.append_assoc, List.cons_append]
  refine ⟨_, _, Lexeme.float h fun v hv => ?_⟩
  rcases List.mem_append.1 hv with hv | hv
  · exact hfraction v hv
  · rwa [List.mem_singleton.1 hv]

/-- A lexeme that can be extended can be extended by one unit. -/
theorem snoc_of_append {l m : Text} {u : CodeUnit} (h : IsLexeme l)
    (hm : IsLexeme (l ++ u :: m)) : IsLexeme (l ++ [u]) := by
  rcases h with ⟨type, literal, h⟩
  cases h with
  | identifier hstart hpart => exact identifier_snoc hstart hpart (next_of_identifier hstart hm)
  | integer h => exact integer_snoc h (next_of_integer h hm)
  | float h hfraction => exact float_snoc h hfraction (next_of_float h hm)
  | string h => exact absurd hm (not_string_append h)
  | operator h =>
      rcases operator_append h hm with ⟨type', hmem⟩
      rcases Operator.mem_of_prefix (p := l ++ [u]) hmem ⟨m, by simp⟩ (by simp) with
        ⟨type'', hmem'⟩
      exact ⟨_, _, Lexeme.operator hmem'⟩

end IsLexeme

/-- A lexeme is the longest one that its text begins with if the next unit
    does not extend it. -/
theorem longestLexeme_iff {l tail : Text} :
    LongestLexeme l tail ↔ IsLexeme l ∧ ∀ u, tail.head? = some u → ¬ IsLexeme (l ++ [u]) := by
  constructor
  · intro hlongest
    rcases hlongest with ⟨hl, hmax⟩
    refine ⟨hl, fun u hu hlong => ?_⟩
    rcases List.head?_eq_some_iff.1 hu with ⟨rest, hrest⟩
    have hp : l ++ [u] <+: l ++ tail := ⟨rest, by rw [hrest]; simp⟩
    have := hmax _ hp hlong
    rw [List.length_append, List.length_singleton] at this
    omega
  · intro hboth
    rcases hboth with ⟨hl, hnext⟩
    refine ⟨hl, fun m hp hm => ?_⟩
    by_contra hlt
    -- A longer lexeme has `l` as a beginning, and goes on it by the next unit
    -- of the text.
    rcases List.prefix_of_prefix_length_le (List.prefix_append l tail) hp (by omega) with
      ⟨more, hmore⟩
    cases more with
    | nil =>
        rw [← hmore, List.append_nil] at hlt
        exact hlt (le_refl _)
    | cons u more =>
        rw [← hmore] at hm
        rw [← hmore, List.prefix_append_right_inj] at hp
        rcases hp with ⟨rest, hrest⟩
        exact hnext u (by rw [← hrest]; rfl) (hl.snoc_of_append hm)

end GlyphLexer
