import GlyphLexer.Number

/-!
# Numerals

How a number is written: with the fewest decimal digits that read back as the
same number, and of several such decimals the nearest to it.

A decimal reads back as a number when it lies in the interval of quotients
that round to that number. For one digit, two digits and so on the two
neighbours of the number among the decimals with so many digits are tried;
the first that lies in the interval gives the digits. Seventeen digits always
suffice.

The layout of the digits follows one rule for the whole program: a decimal
point stands among the digits while the number is below `10 ^ 21` and not
below `10 ^ (-6)`, zeros are filled in where the point needs them, and
outside that range the first digit, a point, the other digits and a signed
exponent are written.

## Main definitions

* `Decimal`: A whole number times a power of ten.
* `Number.shortest`: The shortest decimal that reads back as a number.
* `Decimal.layout`: The written form of a decimal.
* `Number.numeral`, `Number.scientific`: The written form of a number, and
  that with an exponent.
-/

namespace GlyphLexer

/-- The decimal `digits * 10 ^ exponent`. -/
structure Decimal where
  digits : Nat
  exponent : Int
  deriving DecidableEq, Repr

namespace Number

/-- The power of ten of the leading digit of a positive magnitude. -/
def leading (scaled : Nat) : Int :=
  ((Nat.toDigits 10 (scaled * Nat.pow 10 400 / scale)).length : Int) - 401

/-- The decimal with the given last place reads back as the magnitude: it
    lies no further away than half the distance to the next number on its
    side, and at exactly half only if the magnitude is even in its last kept
    digit. -/
def readsBack (scaled : Nat) (candidate : Nat) (place : Int) : Bool :=
  let unit := Nat.pow 2 (dropped scaled)
  let even := scaled / unit % 2 == 0
  let below := if scaled = Nat.pow 2 52 * unit && 1 < unit then unit else 2 * unit
  let decimal := 4 * (candidate * scale * Nat.pow 10 place.toNat)
  let binary := Nat.pow 10 (-place).toNat
  let low := (4 * scaled - below) * binary
  let high := (4 * scaled + 2 * unit) * binary
  if even then low ≤ decimal && decimal ≤ high else low < decimal && decimal < high

/-- The neighbours of a magnitude among the decimals with the given last
    place, the nearer first; of two equally near ones the even comes
    first. -/
def neighbours (scaled : Nat) (place : Int) : List Nat :=
  let n := scaled * Nat.pow 10 (-place).toNat
  let d := scale * Nat.pow 10 place.toNat
  if nearest n d = n / d then [n / d, n / d + 1] else [n / d + 1, n / d]

/-- The shortest decimal that reads back as a positive magnitude, trying
    `count` lengths from `length` on. -/
def shortestFrom (scaled : Nat) : Nat → Nat → Decimal
  | 0, _ => ⟨scaled, 0⟩
  | count + 1, length =>
    let place := leading scaled - length + 1
    match (neighbours scaled place).find? fun candidate => readsBack scaled candidate place with
    | some candidate => ⟨candidate, place⟩
    | none => shortestFrom scaled count (length + 1)

/-- The shortest decimal that reads back as a positive magnitude. -/
def shortest (scaled : Nat) : Decimal := shortestFrom scaled 17 1

end Number

namespace Decimal

/-- Drops the zeros at the end of the digits. -/
def trimZeros : Nat → Decimal → Decimal
  | 0, d => d
  | n + 1, d =>
    if d.digits % 10 = 0 && d.digits ≠ 0 then trimZeros n ⟨d.digits / 10, d.exponent + 1⟩ else d

/-- Writes a decimal with an exponent: the first digit, a point and the other
    digits if there are any, and the exponent with its sign. -/
def scientific (d : Decimal) : Text :=
  let digits := Text.ofNat d.digits
  let exponent : Int := digits.length + d.exponent - 1
  let fraction := if digits.length ≤ 1 then [] else text "." ++ digits.drop 1
  let sign := if exponent < 0 then text "-" else text "+"
  digits.take 1 ++ fraction ++ text "e" ++ sign ++ Text.ofNat exponent.natAbs

/-- Writes a positive decimal: with a point among the digits for a value from
    `10 ^ (-6)` up to `10 ^ 21`, and with an exponent otherwise. -/
def layout (d : Decimal) : Text :=
  let digits := Text.ofNat d.digits
  let point : Int := digits.length + d.exponent
  if d.exponent ≥ 0 && point ≤ 21 then
    digits ++ List.replicate d.exponent.toNat (CodeUnit.ofChar '0')
  else if 0 < point && point ≤ 21 then
    digits.take point.toNat ++ text "." ++ digits.drop point.toNat
  else if -6 < point && point ≤ 0 then
    text "0." ++ List.replicate (-point).toNat (CodeUnit.ofChar '0') ++ digits
  else d.scientific

end Decimal

namespace Number

/-- The shortest decimal of a positive magnitude without zeros at its end. -/
def decimal (scaled : Nat) : Decimal :=
  let d := shortest scaled
  d.trimZeros (Text.ofNat d.digits).length

/-- The written form of a number. Zero is written without a sign. -/
def numeral : Number → Text
  | nan => text "NaN"
  | infinite negative => (if negative then text "-" else []) ++ text "Infinity"
  | finite negative scaled =>
    if scaled = 0 then text "0"
    else (if negative then text "-" else []) ++ (decimal scaled).layout

/-- The written form of a number with an exponent, whatever its size.
    Infinities and not-a-number have none and are written as ever. -/
def scientific : Number → Text
  | finite negative scaled =>
    if scaled = 0 then Decimal.scientific ⟨0, 0⟩
    else (if negative then text "-" else []) ++ (decimal scaled).scientific
  | n => n.numeral

end Number

end GlyphLexer
