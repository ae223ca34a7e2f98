import GlyphLexer.CharacterClass
import GlyphLexer.Text.Digits
import GlyphLexer.Value

/-!
# YAML scalars

What the text of a scalar stands for.

A plain scalar is more than its text. `Scalar.ofPlain` decides what it stands
for: null, a boolean, a whole number in one of three bases, a number with a
point or an exponent, an infinity, not-a-number, or else itself. Quoted
scalars always stand for themselves.

## Main definitions

* `Yaml.Style`: Plain and quoted scalars.
* `Yaml.Scalar`: What a scalar stands for.
* `Yaml.Scalar.ofPlain`, `Yaml.Scalar.ofText`: What a text stands for as a
  plain scalar, and as a scalar of any style.
* `Yaml.Scalar.equals`: When two keys of a mapping are the same.
-/

namespace GlyphLexer

namespace Yaml

/-- How a scalar is marked in a document. -/
inductive Style where
  | plain
  | singleQuoted
  | doubleQuoted
  deriving DecidableEq, Inhabited, Repr

/-- What a scalar stands for. -/
inductive Scalar where
  | null
  | boolean (b : Bool)
  | number (n : Number)
  | string (t : Text)
  deriving Inhabited, Repr

namespace Scalar

/-- A sign in front of a text, and the text behind it. -/
def unsigned : Text → Bool × Text
  | [] => (false, [])
  | u :: rest =>
    if u = CodeUnit.ofChar '-' then (true, rest)
    else if u = CodeUnit.ofChar '+' then (false, rest)
    else (false, u :: rest)

/-- The exponent part of a number: the letter, a sign or none, and digits.
    The empty text is the exponent zero. -/
def exponent? : Text → Option Int
  | [] => some 0
  | u :: rest =>
    if u = CodeUnit.ofChar 'e' ∨ u = CodeUnit.ofChar 'E' then
      let (negative, digits) := unsigned rest
      (Text.natural? 10 digits).map fun n => if negative then -(n : Int) else n
    else none

/-- A decimal number: a sign or none, one digit or more with at most one
    point before, among or behind them, and an exponent or none. -/
def decimal? (t : Text) : Option Number := do
  let (negative, body) := unsigned t
  let whole := body.takeWhile CodeUnit.isDigit
  let behind := body.dropWhile CodeUnit.isDigit
  let (fraction, tail) ← match behind with
    | u :: rest =>
      if u = CodeUnit.dot then
        some (rest.takeWhile CodeUnit.isDigit, rest.dropWhile CodeUnit.isDigit)
      else some ([], behind)
    | [] => some ([], [])
  let digits ← Text.natural? 10 (whole ++ fraction)
  let exponent ← exponent? tail
  return Number.ofDecimal negative digits (exponent - fraction.length)

/-- A whole number in base eight or sixteen, behind the mark of its base. -/
def marked? (t : Text) : Option Number :=
  let digits :=
    if (text "0x").isPrefixOf t then Text.natural? 16 (t.drop 2)
    else if (text "0o").isPrefixOf t then Text.natural? 8 (t.drop 2)
    else none
  digits.map fun n => Number.ofDecimal false n 0

/-- An infinity or not-a-number, behind a point. -/
def special? (t : Text) : Option Number :=
  if t ∈ [text ".nan", text ".NaN", text ".NAN"] then some .nan
  else
    let (negative, body) := unsigned t
    if body ∈ [text ".inf", text ".Inf", text ".INF"] then some (.infinite negative) else none

/-- What a plain scalar stands for. -/
def ofPlain (t : Text) : Scalar :=
  if t ∈ [[], text "~", text "null", text "Null", text "NULL"] then null
  else if t ∈ [text "true", text "True", text "TRUE"] then boolean true
  else if t ∈ [text "false", text "False", text "FALSE"] then boolean false
  else match marked? t <|> special? t <|> decimal? t with
    | some n => number n
    | none => string t

/-- What the text of a scalar stands for. -/
def ofText : Style → Text → Scalar
  | .plain, t => ofPlain t
  | _, t => string t

/-- Two scalars stand for the same. Not-a-number is the same as nothing. -/
def equals : Scalar → Scalar → Bool
  | null, null => true
  | boolean a, boolean b => a == b
  | number m, number n => m.equals n
  | string s, string t => s == t
  | _, _ => false

/-- The data of a scalar. -/
def toValue : Scalar → Value
  | null => .null
  | boolean b => .boolean b
  | number n => .number n
  | string t => .string t

end Scalar

end Yaml

end GlyphLexer
