import GlyphLexer.Fault
import GlyphLexer.Proofs.Grammar.Lexeme

/-!
# Text that begins with no token

The six shapes of text that the lexical grammar has no token for, each with
the place at which it goes wrong and the fault that is met there.

A shape speaks about the text in two parts: what is passed before the place
of the fault, and what begins at that place. A stray unit is a fault at once.
A number is passed before a second point or before the beginning of a name. A
string literal is passed as far as its items go, and what stands behind them
is a newline, the end of the text, or a backslash; a backslash is passed as
well, and the fault is then met at the unit that makes no escape with it, or
at the end of the text.

Nothing else can happen: a text that is not empty begins with a longest
lexeme or has one of the shapes (`exists_lexeme_or_breakage`). For string
literals this rests on what may stand behind a run of items that cannot go on
(`StringItems.exists_stop`). That no text does both, or has two of the
shapes, is not shown here: it follows from the reader, which gives one
answer.

## Main definitions

* `Breakage`: The names of the six shapes.
* `LongestItems`: A run of string items that is the longest one its text
  begins with.
* `Breakage.Fits`: A text of a shape, cut at the place of the fault, and the
  fault.
* `Breakage.ofFault`: The shape that a fault shows.

## Theorems

* `StringItems.longestItems`: A run of items before something that begins no
  item is longest.
* `StringItems.exists_stop`: Every text is a run of items and something that
  begins no item.
* `Breakage.Fits.eq_ofFault`: The fault shows the shape.
* `exists_lexeme_or_breakage`: A text begins with a longest lexeme or has one
  of the shapes.
-/

namespace GlyphLexer

/-- The shapes of text that begins with no token. -/
inductive Breakage where
  /-- A unit that begins no lexeme. -/
  | stray
  /-- A number with a second point. -/
  | secondPoint
  /-- A number that runs into a name. -/
  | nameBehindNumber
  /-- A string literal that the end of a line cuts. -/
  | newlineInString
  /-- A string literal that the end of the text cuts. -/
  | endInString
  /-- A string literal with an escape that does not exist. -/
  | unknownEscape
  deriving DecidableEq, Repr

/-- The items `body` are the longest run of string items that `body ++ tail`
    begins with. -/
def LongestItems (body tail : Text) : Prop :=
  (∃ decoded, StringItems body decoded) ∧
    ∀ m decoded, m <+: body ++ tail → StringItems m decoded → m.length ≤ body.length

/-- A text of a shape, as what is passed and what begins at the place of the
    fault. -/
inductive Breakage.Fits : Breakage → Text → Text → Fault → Prop where
  | stray {u : CodeUnit} {rest : Text} (hquote : u ≠ CodeUnit.quote) (hdigit : u.isDigit = false)
      (hname : u.isNameStart = false) (hop : ∀ entry ∈ Operator.one, entry.1 ≠ [u]) :
      Fits .stray [] (u :: rest) (.unexpectedSymbol u)
  | secondPoint {number rest : Text} (h : Lexeme number .float none) :
      Fits .secondPoint number (CodeUnit.dot :: rest) (.symbolBehindNumber CodeUnit.dot)
  | nameBehindNumber {number rest : Text} {u : CodeUnit}
      (h : Lexeme number .integer none ∨ Lexeme number .float none) (hu : u.isNameStart = true) :
      Fits .nameBehindNumber number (u :: rest) (.symbolBehindNumber u)
  | newlineInString {body rest : Text} (h : LongestItems body (CodeUnit.newline :: rest)) :
      Fits .newlineInString (CodeUnit.quote :: body) (CodeUnit.newline :: rest) .endOfLine
  | endInString {body : Text} (h : LongestItems body []) :
      Fits .endInString (CodeUnit.quote :: body) [] .endOfFile
  | endBehindBackslash {body : Text} (h : LongestItems body [CodeUnit.backslash]) :
      Fits .endInString (CodeUnit.quote :: (body ++ [CodeUnit.backslash])) [] .endOfFile
  | unknownEscape {body rest : Text} {v : CodeUnit}
      (h : LongestItems body (CodeUnit.backslash :: v :: rest))
      (hv : ∀ entry ∈ Escape.table, v ≠ entry.1) :
      Fits .unknownEscape (CodeUnit.quote :: (body ++ [CodeUnit.backslash])) (v :: rest)
        (.invalidEscape v)

/-- What may stand behind a run of items that cannot go on. -/
inductive StringItems.Stop : Text → Prop where
  | endOfText : Stop []
  | quote {rest : Text} : Stop (CodeUnit.quote :: rest)
  | newline {rest : Text} : Stop (CodeUnit.newline :: rest)
  | backslash : Stop [CodeUnit.backslash]
  | unknownEscape {v : CodeUnit} {rest : Text} (hv : ∀ entry ∈ Escape.table, v ≠ entry.1) :
      Stop (CodeUnit.backslash :: v :: rest)

namespace StringItems

theorem Stop.no_item {tail more decoded : Text} (h : Stop tail) (hmore : StringItems more decoded)
    (hp : more <+: tail) : more = [] := by
  cases hmore with
  | nil => rfl
  | plain hquote hbackslash hnewline _ =>
      exfalso
      cases h with
      | endOfText => exact absurd (List.prefix_nil.1 hp) (List.cons_ne_nil _ _)
      | quote => exact hquote (List.cons_prefix_cons.1 hp).1
      | newline => exact hnewline (List.cons_prefix_cons.1 hp).1
      | backslash => exact hbackslash (List.cons_prefix_cons.1 hp).1
      | unknownEscape _ => exact hbackslash (List.cons_prefix_cons.1 hp).1
  | escape hentry _ =>
      exfalso
      cases h with
      | endOfText => exact absurd (List.prefix_nil.1 hp) (List.cons_ne_nil _ _)
      | quote => exact absurd (List.cons_prefix_cons.1 hp).1 (by decide)
      | newline => exact absurd (List.cons_prefix_cons.1 hp).1 (by decide)
      | backslash =>
          have := (List.cons_prefix_cons.1 hp).2
          exact absurd (List.prefix_nil.1 this) (List.cons_ne_nil _ _)
      | unknownEscape hv =>
          have := (List.cons_prefix_cons.1 hp).2
          exact hv _ hentry (List.cons_prefix_cons.1 this).1.symm

/-- A run of items is the longest one if it stands before a stop. -/
theorem longestItems {body decoded tail : Text} (h : StringItems body decoded)
    (hstop : Stop tail) : LongestItems body tail := by
  refine ⟨⟨decoded, h⟩, fun m literal hp hm => ?_⟩
  rcases h.length_le_or_more m literal tail hm hp with hle | ⟨more, rest, hne, hmore, hpre⟩
  · exact hle
  · exact absurd (hstop.no_item hmore hpre) hne

/-- Every text is a run of items and a stop behind it. -/
theorem exists_stop (t : Text) :
    ∃ body decoded tail, t = body ++ tail ∧ StringItems body decoded ∧ Stop tail := by
  induction hn : t.length using Nat.strong_induction_on generalizing t with
  | _ n ih =>
      cases t with
      | nil => exact ⟨[], [], [], rfl, StringItems.nil, Stop.endOfText⟩
      | cons u t =>
          by_cases hquote : u = CodeUnit.quote
          · exact ⟨[], [], u :: t, rfl, StringItems.nil, by rw [hquote]; exact Stop.quote⟩
          by_cases hnewline : u = CodeUnit.newline
          · exact ⟨[], [], u :: t, rfl, StringItems.nil, by rw [hnewline]; exact Stop.newline⟩
          by_cases hbackslash : u = CodeUnit.backslash
          · rw [hbackslash]
            cases t with
            | nil => exact ⟨[], [], _, rfl, StringItems.nil, Stop.backslash⟩
            | cons v t =>
                rcases hv : Escape.decode? v with _ | d
                · exact ⟨[], [], _, rfl, StringItems.nil,
                    Stop.unknownEscape (Escape.decode?_eq_none_iff.1 hv)⟩
                · rcases ih t.length (by simp only [List.length_cons] at hn; omega) t rfl with
                    ⟨body, decoded, tail, heq, hbody, hstop⟩
                  exact ⟨CodeUnit.backslash :: v :: body, d :: decoded, tail, by rw [heq]; rfl,
                    StringItems.escape (Escape.mem_table_iff.2 hv) hbody, hstop⟩
          · rcases ih t.length (by simp only [List.length_cons] at hn; omega) t rfl with
              ⟨body, decoded, tail, heq, hbody, hstop⟩
            exact ⟨u :: body, u :: decoded, tail, by rw [heq]; rfl,
              StringItems.plain hquote hbackslash hnewline hbody, hstop⟩

end StringItems

/-- The shape that a fault shows. -/
def Breakage.ofFault : Fault → Breakage
  | .endOfFile => .endInString
  | .endOfLine => .newlineInString
  | .invalidEscape _ => .unknownEscape
  | .unexpectedSymbol _ => .stray
  | .symbolBehindNumber u => if u = CodeUnit.dot then .secondPoint else .nameBehindNumber

theorem Breakage.Fits.ne_nil {b : Breakage} {passed rest : Text} {f : Fault}
    (h : b.Fits passed rest f) : passed ++ rest ≠ [] := by
  cases h <;> simp

/-- What a fault shows is the shape. -/
theorem Breakage.Fits.eq_ofFault {b : Breakage} {passed rest : Text} {f : Fault}
    (h : b.Fits passed rest f) : b = Breakage.ofFault f := by
  cases h with
  | stray _ _ _ _ => rfl
  | secondPoint _ => rw [Breakage.ofFault, if_pos rfl]
  | nameBehindNumber _ hu => rw [Breakage.ofFault, if_neg (CodeUnit.ne_of_isNameStart hu).2.1]
  | newlineInString _ => rfl
  | endInString _ => rfl
  | endBehindBackslash _ => rfl
  | unknownEscape _ _ => rfl

/-- A text begins with a longest lexeme that stands free, or has one of the
    shapes. -/
def LexemeOrBreakage (t : Text) : Prop :=
  (∃ l tail type literal, t = l ++ tail ∧ Lexeme l type literal ∧ LongestLexeme l tail ∧
    Detached type tail) ∨
  ∃ b passed rest f, t = passed ++ rest ∧ Breakage.Fits b passed rest f

theorem lexemeOrBreakage_of_quote (rest : Text) : LexemeOrBreakage (CodeUnit.quote :: rest) := by
  -- What stands behind the items decides: the closing mark, or one of four
  -- faults.
  rcases StringItems.exists_stop rest with ⟨body, decoded, tail, heq, hbody, hstop⟩
  have hlong := hbody.longestItems hstop
  rw [heq]
  cases hstop with
  | endOfText => exact Or.inr ⟨_, _, [], _, by simp, Breakage.Fits.endInString hlong⟩
  | @quote rest =>
      refine Or.inl ⟨CodeUnit.quote :: (body ++ [CodeUnit.quote]), rest, _, _, by simp,
        Lexeme.string hbody, ?_, fun u _ => ⟨by simp, by simp⟩⟩
      exact longestLexeme_iff.2 ⟨⟨_, _, Lexeme.string hbody⟩,
        fun u _ => IsLexeme.not_string_append hbody⟩
  | newline => exact Or.inr ⟨_, _, _, _, rfl, Breakage.Fits.newlineInString hlong⟩
  | backslash => exact Or.inr ⟨_, _, [], _, by simp, Breakage.Fits.endBehindBackslash hlong⟩
  | @unknownEscape v rest hv =>
      exact Or.inr ⟨_, _, v :: rest, _, by simp, Breakage.Fits.unknownEscape hlong hv⟩

/-- Behind a number there is nothing, a unit that the number may stand
    before, or the beginning of a name. -/
theorem lexemeOrBreakage_of_number {number tail : Text} {type : TokenType}
    (h : Lexeme number type none) (htype : type = .integer ∨ type = .float)
    (hlong : LongestLexeme number tail)
    (hdot : type = .float → ∀ u, tail.head? = some u → u ≠ CodeUnit.dot) :
    LexemeOrBreakage (number ++ tail) := by
  by_cases hfree : Detached type tail
  · exact Or.inl ⟨number, tail, type, none, rfl, h, hlong, hfree⟩
  · right
    cases tail with
    | nil => exact absurd (fun u hu => by simp at hu) hfree
    | cons u rest =>
        by_cases hu : u.isNameStart = true
        · refine ⟨_, number, u :: rest, _, rfl, Breakage.Fits.nameBehindNumber ?_ hu⟩
          rcases htype with rfl | rfl
          · exact Or.inl h
          · exact Or.inr h
        · refine absurd ?_ hfree
          rintro v ⟨⟩
          exact ⟨fun _ => by simpa using hu, fun htype => hdot htype u rfl⟩

theorem lexemeOrBreakage_of_isDigit {u : CodeUnit} (hu : u.isDigit = true) (rest : Text) :
    LexemeOrBreakage (u :: rest) := by
  rcases Text.exists_run CodeUnit.isDigit (u :: rest) with ⟨whole, tail, heq, hrun, htail⟩
  have hwhole : IsDigits whole := by
    refine ⟨?_, hrun⟩
    rintro rfl
    rw [List.nil_append] at heq
    exact absurd (htail u (by rw [← heq]; rfl)) (by simp [hu])
  rw [heq]
  -- A point behind the digits is the number's own, and a point behind its
  -- fraction is the second.
  by_cases hdot : tail.head? = some CodeUnit.dot
  · rcases List.head?_eq_some_iff.1 hdot with ⟨behind, hbehind⟩
    rcases Text.exists_run CodeUnit.isDigit behind with ⟨fraction, tail', heq', hrun', htail'⟩
    have hfloat : Lexeme (whole ++ CodeUnit.dot :: fraction) .float none :=
      Lexeme.float hwhole hrun'
    rw [hbehind, heq', ← List.cons_append, ← List.append_assoc]
    by_cases hdot' : tail'.head? = some CodeUnit.dot
    · rcases List.head?_eq_some_iff.1 hdot' with ⟨behind', hbehind'⟩
      rw [hbehind']
      exact Or.inr ⟨_, _, _, _, rfl, Breakage.Fits.secondPoint hfloat⟩
    · refine lexemeOrBreakage_of_number hfloat (Or.inr rfl) ?_ ?_
      · refine longestLexeme_iff.2 ⟨⟨_, _, hfloat⟩, fun v hv hlong => ?_⟩
        exact absurd (htail' v hv) (by simp [IsLexeme.next_of_float hwhole hlong])
      · rintro _ v hv rfl
        exact hdot' hv
  · have hinteger : Lexeme whole .integer none := Lexeme.integer hwhole
    refine lexemeOrBreakage_of_number hinteger (Or.inl rfl) ?_ (by simp)
    refine longestLexeme_iff.2 ⟨⟨_, _, hinteger⟩, fun v hv hlong => ?_⟩
    rcases IsLexeme.next_of_integer hwhole hlong with hdigit | rfl
    · exact absurd (htail v hv) (by simp [hdigit])
    · exact hdot hv

theorem lexemeOrBreakage_of_isNameStart {u : CodeUnit} (hu : u.isNameStart = true)
    (rest : Text) : LexemeOrBreakage (u :: rest) := by
  rcases Text.exists_run CodeUnit.isNamePart rest with ⟨run, tail, heq, hrun, htail⟩
  have hname : Lexeme (u :: run) .identifier none := Lexeme.identifier hu hrun
  rw [heq, ← List.cons_append]
  refine Or.inl ⟨_, tail, _, _, rfl, hname, ?_, fun v _ => ⟨by simp, by simp⟩⟩
  refine longestLexeme_iff.2 ⟨⟨_, _, hname⟩, fun v hv hlong => ?_⟩
  exact absurd (htail v hv) (by simp [IsLexeme.next_of_identifier hu hlong])

/-- The operator that the tables give is the longest lexeme, and a unit
    without one is stray. -/
theorem lexemeOrBreakage_of_other {u : CodeUnit} (hquote : u ≠ CodeUnit.quote)
    (hdigit : u.isDigit = false) (hname : u.isNameStart = false) (rest : Text) :
    LexemeOrBreakage (u :: rest) := by
  rcases hfound : Operator.longest? (u :: rest) with _ | ⟨l, type⟩
  · refine Or.inr ⟨_, [], u :: rest, _, rfl, Breakage.Fits.stray hquote hdigit hname ?_⟩
    intro entry hentry heq
    refine Operator.longest?_eq_none_iff.1 hfound ?_
    rw [← heq]
    exact List.mem_map_of_mem hentry
  · have hmem := Operator.mem_of_longest? hfound
    have htype := Operator.type_of_mem _ hmem
    rcases Operator.isPrefix_of_longest? hfound with ⟨tail, htail⟩
    rw [← htail]
    refine Or.inl ⟨l, tail, type, none, rfl, Lexeme.operator hmem, ?_, fun v _ => ?_⟩
    · refine longestLexeme_iff.2 ⟨⟨_, _, Lexeme.operator hmem⟩, fun v hv hlong => ?_⟩
      rcases IsLexeme.operator_append hmem hlong with ⟨type', hmem'⟩
      rcases List.head?_eq_some_iff.1 hv with ⟨behind, hbehind⟩
      have hle := Operator.length_le_of_longest? hfound hmem'
        ⟨behind, by rw [← htail, hbehind]; simp⟩
      simp only [List.length_append, List.length_singleton] at hle
      omega
    · refine ⟨fun hnumber => ?_, fun hfloat => absurd hfloat htype.2.2.1⟩
      rcases hnumber with hinteger | hfloat
      · exact absurd hinteger htype.2.1
      · exact absurd hfloat htype.2.2.1

theorem exists_lexeme_or_breakage (u : CodeUnit) (rest : Text) : LexemeOrBreakage (u :: rest) := by
  by_cases hquote : u = CodeUnit.quote
  · rw [hquote]
    exact lexemeOrBreakage_of_quote rest
  by_cases hdigit : u.isDigit = true
  · exact lexemeOrBreakage_of_isDigit hdigit rest
  by_cases hname : u.isNameStart = true
  · exact lexemeOrBreakage_of_isNameStart hname rest
  · exact lexemeOrBreakage_of_other hquote (by simpa using hdigit) (by simpa using hname) rest

end GlyphLexer
