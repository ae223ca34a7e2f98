import GlyphLexer.CharacterClass
import GlyphLexer.Fault
import GlyphLexer.Operator

/-!
# Readings

One token read from the front of a text.

A reader looks at nothing but the text still unread and gives a `Reading`:
the lexeme it took, which is what the text begins with, or the units it
passed before it met a fault. Offsets and lines are not its business; whoever
called it knows where the text begins and moves a cursor over the units of
the reading.

`Reading.string` reads from behind the opening quote, so that the quote
itself may be passed by other means. `Reading.number` and `Reading.name` take
the longest run of their units, and the run may be empty: it is
`Reading.token` that asks which of the readers the first unit calls for.

A number has at most one decimal point, and neither a second point nor the
beginning of a name may follow it at once. In a string literal a backslash
takes the next unit with it, whatever that is.

## Main definitions

* `Reading`: A lexeme with its kind and literal, or the fault met and the
  units before it.
* `Reading.string`, `Reading.number`, `Reading.name`: The three readers of
  more than one unit.
* `Reading.token`: The reader of any token.

## Theorems

* `Reading.numeral_prefix`: A number takes its units off the front of the
  text.
* `Reading.token_lexeme_ne_nil`: No token is read from nothing.
-/

namespace GlyphLexer

/-- What reading one token from the front of a text gives. -/
inductive Reading where
  /-- The lexeme, its kind, and what a string literal stands for. -/
  | lexeme (taken : Text) (type : TokenType) (literal : Option Text)
  /-- The units before the place of a fault, and the fault. -/
  | fault (passed : Text) (fault : Fault)
  deriving DecidableEq, Repr

namespace Reading

/-- The units that a reading is about: the lexeme, or what comes before the
    place of the fault. -/
def units : Reading → Text
  | lexeme taken _ _ => taken
  | fault passed _ => passed

/-- The reading of a text that has more units in front, which add `decoded`
    to the literal. -/
def after (front decoded : Text) : Reading → Reading
  | lexeme taken type literal => lexeme (front ++ taken) type (literal.map (decoded ++ ·))
  | fault passed f => fault (front ++ passed) f

/-- Reads a string literal from behind its opening quote. -/
def string : Text → Reading
  | [] => fault [] .endOfFile
  | u :: rest =>
    if u = CodeUnit.quote then lexeme [u] .string (some [])
    else if u = CodeUnit.newline then fault [] .endOfLine
    else if u = CodeUnit.backslash then
      match rest with
      | [] => fault [u] .endOfFile
      | v :: rest =>
        match Escape.decode? v with
        | some decoded => (string rest).after [u, v] [decoded]
        | none => fault [u] (.invalidEscape v)
    else (string rest).after [u] [u]

/-- The units of a number: its digits, then, if a point follows, the point
    and the digits after it. -/
def numeral (t : Text) : Text × TokenType :=
  let whole := t.takeWhile CodeUnit.isDigit
  match t.dropWhile CodeUnit.isDigit with
  | u :: rest =>
    if u = CodeUnit.dot then (whole ++ u :: rest.takeWhile CodeUnit.isDigit, .float)
    else (whole, .integer)
  | [] => (whole, .integer)

/-- A unit that may not follow a number of this kind. -/
def cutsNumber (type : TokenType) (u : CodeUnit) : Bool :=
  u.isNameStart || (type == .float && u == CodeUnit.dot)

/-- Reads digits with at most one decimal point. -/
def number (t : Text) : Reading :=
  let (taken, type) := numeral t
  match t.drop taken.length with
  | u :: _ =>
    if cutsNumber type u then fault taken (.symbolBehindNumber u) else lexeme taken type none
  | [] => lexeme taken type none

/-- Reads the units of a name. -/
def name (t : Text) : Reading := lexeme (t.takeWhile CodeUnit.isNamePart) .identifier none

/-- Reads the token that a text beginning with `u` begins with, where `u` is
    no trivia. -/
def token (u : CodeUnit) (rest : Text) : Reading :=
  if u = CodeUnit.quote then (string rest).after [u] []
  else if u.isDigit then number (u :: rest)
  else if u.isNameStart then name (u :: rest)
  else match Operator.longest? (u :: rest) with
    | some (operator, type) => lexeme operator type none
    | none => fault [] (.unexpectedSymbol u)

@[simp] theorem units_after (front decoded : Text) (r : Reading) :
    (r.after front decoded).units = front ++ r.units := by
  cases r <;> rfl

theorem numeral_prefix (t : Text) : (numeral t).1 <+: t := by
  have split := List.takeWhile_append_dropWhile (p := CodeUnit.isDigit) (l := t)
  unfold numeral
  cases h : t.dropWhile CodeUnit.isDigit with
  | nil => exact List.takeWhile_prefix _
  | cons u rest =>
      simp only
      by_cases hu : u = CodeUnit.dot
      · rw [if_pos hu]
        rw [h] at split
        conv => rhs; rw [← split]
        exact (List.prefix_append_right_inj _).2
          ((List.prefix_append_right_inj [u]).2 (List.takeWhile_prefix _))
      · rw [if_neg hu]
        exact List.takeWhile_prefix _

theorem number_units (t : Text) : (number t).units = (numeral t).1 := by
  unfold number
  simp only
  split
  · split <;> rfl
  · rfl

theorem numeral_ne_nil {u : CodeUnit} (h : u.isDigit = true) (rest : Text) :
    (numeral (u :: rest)).1 ≠ [] := by
  unfold numeral
  rw [List.takeWhile_cons_of_pos h]
  simp only
  split
  · split <;> simp
  · simp

theorem token_lexeme_ne_nil {u : CodeUnit} {rest taken : Text} {type : TokenType}
    {literal : Option Text} (h : token u rest = lexeme taken type literal) : taken ≠ [] := by
  have hu : (token u rest).units = taken := by rw [h]; rfl
  rw [← hu]
  unfold token at h ⊢
  split
  · simp
  · next hquote =>
    rw [if_neg hquote] at h
    split
    · next hdigit =>
      rw [number_units]
      exact numeral_ne_nil hdigit rest
    · next hdigit =>
      rw [if_neg hdigit] at h
      split
      · next hname =>
        simp [name, units, CodeUnit.isNamePart, hname]
      · next hname =>
        rw [if_neg hname] at h
        split at h
        · next hop => exact Operator.ne_nil_of_longest? hop
        · cases h

end Reading

end GlyphLexer
