import GlyphLexer.Text

/-!
# Numbers

The numbers of contexts and configuration files: binary floating point of 64
bits.

Every finite number of that format is a whole multiple of the least positive
one, `2 ^ (-1074)`, so a finite number is stored as that multiple, `scaled`,
beside its sign. Arithmetic on numbers is then arithmetic on natural numbers:
`round` takes an exact quotient to the nearest number by keeping 53 binary
digits of it and letting a tie go to the even neighbour, and from the
overflow threshold on the result is infinite.

Powers are written `Nat.pow`, which is the same function whether or not
Mathlib is there to read `^` as the power of a monoid.

## Main definitions

* `Number`: Not a number, an infinity, or a sign and a multiple of the least
  positive number.
* `Number.round`: The number nearest a quotient of natural numbers.
* `Number.ofDecimal`: The number nearest a decimal.
* `Number.equals`: Equality of numbers, where zero has one value and
  not-a-number has none.
-/

namespace GlyphLexer

/-- A binary floating-point number of 64 bits. The magnitude of a finite one
    is `scaled / 2 ^ 1074`. -/
inductive Number where
  | nan
  | infinite (negative : Bool)
  | finite (negative : Bool) (scaled : Nat)
  deriving DecidableEq, Repr

namespace Number

/-- Zero. -/
def zero : Number := finite false 0

/-- The magnitudes per unit: the least positive number is one over this. -/
def scale : Nat := Nat.pow 2 1074

/-- The number of binary digits that a magnitude has below the 53 that a
    number keeps. -/
def dropped (scaled : Nat) : Nat := if scaled = 0 then 0 else Nat.log2 scaled - 52

/-- The quotient of two natural numbers to the nearest whole number, a tie
    going to the even one. -/
def nearest (n d : Nat) : Nat :=
  let quotient := n / d
  let twice := 2 * (n % d)
  if twice < d || (twice == d && quotient % 2 == 0) then quotient else quotient + 1

/-- The number nearest `n / d`, with a sign. -/
def round (negative : Bool) (n d : Nat) : Number :=
  let unit := Nat.pow 2 (dropped (n * scale / d))
  let scaled := nearest (n * scale) (d * unit) * unit
  if scaled < Nat.pow 2 1024 * scale then finite negative scaled else infinite negative

/-- The number nearest `digits * 10 ^ exponent`, with a sign. Decimals far
    beyond the range of numbers are told by their size and never multiplied
    out. -/
def ofDecimal (negative : Bool) (digits : Nat) (exponent : Int) : Number :=
  let size := (Nat.toDigits 10 digits).length + exponent
  if digits = 0 || size < -400 then finite negative 0
  else if size > 400 then infinite negative
  else if exponent < 0 then round negative digits (Nat.pow 10 exponent.natAbs)
  else round negative (digits * Nat.pow 10 exponent.natAbs) 1

/-- Equality as the numbers' own: the two zeros are one, and not-a-number
    equals nothing. -/
def equals : Number → Number → Bool
  | infinite s, infinite t => s == t
  | finite s m, finite t n => m == n && (s == t || m == 0)
  | _, _ => false

end Number

end GlyphLexer
