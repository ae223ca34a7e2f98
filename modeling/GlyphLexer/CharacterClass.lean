import GlyphLexer.Text

/-!
# Character classes

The classes of code units that the lexer tells apart, all of them within
ASCII: digits, the units that begin a name, the units that go on a name,
blanks, and trivia, which adds the newline to the blanks. A newline is no
blank because it also ends a line.

The same classes are asked of whole texts by comparing in the order of texts,
so that a digit lies between `0` and `9`. On a text of one unit this is the
class of that unit, and `10` is a digit while the empty text is nothing.

## Main definitions

* `CodeUnit.isDigit`, `CodeUnit.isNameStart`, `CodeUnit.isNamePart`: The
  units of numbers and names.
* `CodeUnit.isBlank`, `CodeUnit.isTrivia`: The units between tokens.
* `Text.isDigit`, `Text.isNameStart`, `Text.isNamePart`, `Text.isBlank`: The
  classes on whole texts.

## Theorems

* `Text.singleton_le_singleton`: Texts of one unit are ordered as their units
  are.
* `Text.isDigit_singleton`, `Text.isNameStart_singleton`,
  `Text.isNamePart_singleton`, `Text.isBlank_singleton`: On one unit both
  forms of a class agree.
-/

namespace GlyphLexer

namespace CodeUnit

/-- A decimal digit. -/
def isDigit (u : CodeUnit) : Bool := 48 ≤ u && u ≤ 57

/-- A letter of the English alphabet. -/
def isLetter (u : CodeUnit) : Bool := (97 ≤ u && u ≤ 122) || (65 ≤ u && u ≤ 90)

/-- A unit that may begin a name. -/
def isNameStart (u : CodeUnit) : Bool := u.isLetter || u == underscore

/-- A unit that may go on a name. -/
def isNamePart (u : CodeUnit) : Bool := u.isNameStart || u.isDigit

/-- White space within a line. -/
def isBlank (u : CodeUnit) : Bool := u == space || u == tab || u == carriageReturn

/-- What may stand between tokens. -/
def isTrivia (u : CodeUnit) : Bool := u.isBlank || u == newline

end CodeUnit

namespace Text

/-- Lies between two one-unit texts in the order of texts, ends included. -/
def isBetween (low high : CodeUnit) (t : Text) : Bool := decide ([low] ≤ t) && decide (t ≤ [high])

/-- Lies between the digits. -/
def isDigit (t : Text) : Bool := t.isBetween 48 57

/-- Lies between the letters of one case, or is the low line. -/
def isNameStart (t : Text) : Bool :=
  t.isBetween 97 122 || t.isBetween 65 90 || t == [CodeUnit.underscore]

/-- May begin a name or lies between the digits. -/
def isNamePart (t : Text) : Bool := t.isNameStart || t.isDigit

/-- Is one blank. -/
def isBlank (t : Text) : Bool :=
  t == [CodeUnit.space] || t == [CodeUnit.tab] || t == [CodeUnit.carriageReturn]

theorem singleton_le_singleton (u v : CodeUnit) : ([u] : Text) ≤ [v] ↔ u ≤ v := by
  rw [← List.not_lt, List.cons_lt_cons_iff]
  simp only [List.not_lt_nil, and_false, or_false, UInt16.not_lt]

theorem isBetween_singleton (low high u : CodeUnit) :
    isBetween low high [u] = (decide (low ≤ u) && decide (u ≤ high)) := by
  simp only [isBetween, singleton_le_singleton]

theorem isDigit_singleton (u : CodeUnit) : isDigit [u] = u.isDigit := by
  simp only [isDigit, isBetween_singleton, CodeUnit.isDigit]

theorem isNameStart_singleton (u : CodeUnit) : isNameStart [u] = u.isNameStart := by
  simp [isNameStart, isBetween_singleton, CodeUnit.isNameStart, CodeUnit.isLetter]

theorem isNamePart_singleton (u : CodeUnit) : isNamePart [u] = u.isNamePart := by
  simp only [isNamePart, CodeUnit.isNamePart, isNameStart_singleton, isDigit_singleton]

theorem isBlank_singleton (u : CodeUnit) : isBlank [u] = u.isBlank := by
  simp [isBlank, CodeUnit.isBlank]

end Text

end GlyphLexer
