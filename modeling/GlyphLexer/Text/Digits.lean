import GlyphLexer.Text

/-!
# Digits

Reading whole numbers written in a base of at most sixteen.

## Main definitions

* `CodeUnit.digitValue?`: The value of a digit.
* `Text.natural?`: The number that digits stand for.
-/

namespace GlyphLexer

/-- The value of a digit: decimal digits, then letters of either case from
    ten on. -/
def CodeUnit.digitValue? (u : CodeUnit) : Option Nat :=
  let n := u.toNat
  if 48 ≤ n ∧ n ≤ 57 then some (n - 48)
  else if 97 ≤ n ∧ n ≤ 102 then some (n - 87)
  else if 65 ≤ n ∧ n ≤ 70 then some (n - 55)
  else none

namespace Text

/-- Adds a digit of a base to the digits before it. -/
def addDigit? (base acc : Nat) (u : CodeUnit) : Option Nat :=
  match u.digitValue? with
  | some n => if n < base then some (acc * base + n) else none
  | none => none

/-- The number that digits of a base stand for, or nothing if there is no
    digit or a unit that is no digit of the base. -/
def natural? (base : Nat) (t : Text) : Option Nat :=
  if t.isEmpty then none else t.foldlM (addDigit? base) 0

end Text

end GlyphLexer
