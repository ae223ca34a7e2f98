import GlyphLexer.CharacterClass
import GlyphLexer.Json
import GlyphLexer.Proofs.Numerals
import Mathlib.Algebra.Field.Rat

/-!
# The grammar of JSON

Which texts are JSON documents, and what each of them says. This is the
grammar of RFC 8259 over UTF-16 code units, and it is wider than what this
program writes: it has the names of constants, fractions and exponents, the
escape of the solidus, capital hexadecimal digits and any white space.

The grammar lets white space stand around a whole document and around each of
the six structural marks. Said of the values that is white space around a
value, and it may be nothing. `Denotes` has a rule of its own for that, so
that a member of an array and a name in an object are texts of the same kind
as a whole document. What is left is white space between the brackets of an
array without members, and the rule for arrays allows it before the closing
bracket, whether there are members or not.

An array is not given by a first member and further ones but by the list of
all of them, each with the text it is written as. The rule for arrays then
has one premise for every member, and so has an induction on how a text was
derived.

A number is a rational number, since no decimal is rounded by the grammar. An
object keeps its members in order, and names that are given twice.

## Main definitions

* `Json.Value`: What a document says.
* `Json.IsSpace`: White space.
* `Json.Characters`: What stands between quotation marks.
* `Json.Fraction`, `Json.Exponent`, `Json.Magnitude`, `Json.Numeral`:
  Numbers.
* `Json.bracketed`, `Json.Entry`: Members between brackets, and one member of
  an object.
* `Json.Denotes`: A text says a value.

## Theorems

* `Json.Characters.append`: Two texts between quotation marks one after the
  other.
* `Json.denotes_spaced_before`: White space before a value.
-/

namespace GlyphLexer

namespace Json

/-- What a document says. -/
inductive Value where
  | null
  | boolean (b : Bool)
  | number (q : ℚ)
  | string (t : Text)
  | array (values : List Value)
  | object (members : List (Text × Value))

/-- Plus sign. -/
abbrev plus : CodeUnit := 43

/-- Comma. -/
abbrev comma : CodeUnit := 44

/-- Hyphen-minus. -/
abbrev minus : CodeUnit := 45

/-- Colon. -/
abbrev colon : CodeUnit := 58

/-- Left square bracket. -/
abbrev leftBracket : CodeUnit := 91

/-- Right square bracket. -/
abbrev rightBracket : CodeUnit := 93

/-- The unit behind the backslash of an escape that gives a number. -/
abbrev numericMark : CodeUnit := 117

/-- White space. -/
def isSpace (u : CodeUnit) : Bool :=
  u == CodeUnit.space || u == CodeUnit.tab || u == CodeUnit.newline || u == CodeUnit.carriageReturn

theorem isSpace_iff {u : CodeUnit} : isSpace u = true ↔
    u = CodeUnit.space ∨ u = CodeUnit.tab ∨ u = CodeUnit.newline ∨ u = CodeUnit.carriageReturn := by
  simp only [isSpace, Bool.or_eq_true, beq_iff_eq, or_assoc]

/-- A text of white space only. -/
def IsSpace (w : Text) : Prop := ∀ u ∈ w, isSpace u = true

/-! ## Strings -/

/-- A unit that stands for itself between quotation marks. -/
def isPlain (u : CodeUnit) : Bool := 32 ≤ u && u != CodeUnit.quote && u != CodeUnit.backslash

/-- The units that may follow a backslash, and what each pair stands for. -/
def shortEscapes : List (CodeUnit × CodeUnit) :=
  [(CodeUnit.quote, CodeUnit.quote), (CodeUnit.backslash, CodeUnit.backslash),
    (CodeUnit.ofChar '/', CodeUnit.ofChar '/'), (CodeUnit.ofChar 'b', 8), (CodeUnit.ofChar 'f', 12),
    (CodeUnit.ofChar 'n', CodeUnit.newline), (CodeUnit.ofChar 'r', CodeUnit.carriageReturn),
    (CodeUnit.ofChar 't', CodeUnit.tab)]

/-- What stands between quotation marks, and the text that it stands for. -/
inductive Characters : Text → Text → Prop where
  | nil : Characters [] []
  | plain {u : CodeUnit} {t s : Text} (hu : isPlain u = true) (h : Characters t s) :
      Characters (u :: t) (u :: s)
  | short {mark u : CodeUnit} {t s : Text} (hmark : (mark, u) ∈ shortEscapes) (h : Characters t s) :
      Characters (CodeUnit.backslash :: mark :: t) (u :: s)
  | numeric {a b c d : CodeUnit} {n : Nat} {t s : Text}
      (hn : Text.natural? 16 [a, b, c, d] = some n) (h : Characters t s) :
      Characters (CodeUnit.backslash :: numericMark :: a :: b :: c :: d :: t) (UInt16.ofNat n :: s)

theorem Characters.append {t t' s s' : Text} (h : Characters t s) (h' : Characters t' s') :
    Characters (t ++ t') (s ++ s') := by
  induction h with
  | nil => exact h'
  | plain hu _ ih => exact .plain hu ih
  | short hmark _ ih => exact .short hmark ih
  | numeric hn _ ih => exact .numeric hn ih

/-! ## Numbers -/

/-- The digits before the point: one zero, or digits that begin with another
    one. -/
def Whole (t : Text) (n : Nat) : Prop :=
  Text.natural? 10 t = some n ∧ (t.head? = some CodeUnit.zero → t = [CodeUnit.zero])

/-- The point and the digits behind it, which may be missing together. -/
inductive Fraction : Text → ℚ → Prop where
  | missing : Fraction [] 0
  | digits {t : Text} {n : Nat} (h : Text.natural? 10 t = some n) :
      Fraction (CodeUnit.dot :: t) (n / 10 ^ t.length)

/-- The letter before an exponent. -/
def isExponentMark (u : CodeUnit) : Bool := u == CodeUnit.ofChar 'e' || u == CodeUnit.ofChar 'E'

theorem isExponentMark_iff {u : CodeUnit} :
    isExponentMark u = true ↔ u = CodeUnit.ofChar 'e' ∨ u = CodeUnit.ofChar 'E' := by
  simp only [isExponentMark, Bool.or_eq_true, beq_iff_eq]

/-- The exponent of a power of ten, which may be missing. -/
inductive Exponent : Text → ℤ → Prop where
  | missing : Exponent [] 0
  | unsigned {mark : CodeUnit} {t : Text} {n : Nat} (hmark : isExponentMark mark = true)
      (h : Text.natural? 10 t = some n) : Exponent (mark :: t) n
  | positive {mark : CodeUnit} {t : Text} {n : Nat} (hmark : isExponentMark mark = true)
      (h : Text.natural? 10 t = some n) : Exponent (mark :: plus :: t) n
  | negative {mark : CodeUnit} {t : Text} {n : Nat} (hmark : isExponentMark mark = true)
      (h : Text.natural? 10 t = some n) : Exponent (mark :: minus :: t) (-n)

/-- A number without a sign. -/
inductive Magnitude : Text → ℚ → Prop where
  | mk {whole fraction exponent : Text} {n : Nat} {q : ℚ} {k : ℤ} (hwhole : Whole whole n)
      (hfraction : Fraction fraction q) (hexponent : Exponent exponent k) :
      Magnitude (whole ++ (fraction ++ exponent)) ((n + q) * 10 ^ k)

/-- A number. There is no plus sign before it. -/
inductive Numeral : Text → ℚ → Prop where
  | unsigned {t : Text} {q : ℚ} (h : Magnitude t q) : Numeral t q
  | negative {t : Text} {q : ℚ} (h : Magnitude t q) : Numeral (minus :: t) (-q)

/-! ## Values -/

/-- Texts between brackets, with a comma between each two of them and space
    before the closing one. -/
def bracketed (left : CodeUnit) (parts : List Text) (w : Text) (right : CodeUnit) : Text :=
  left :: (List.intercalate [comma] parts ++ (w ++ [right]))

/-- One member of an object: its name and its value, and the text that each
    of them is written as. -/
structure Entry where
  label : Text
  name : Text
  body : Text
  value : Value

/-- The text of a member. -/
def Entry.written (e : Entry) : Text := e.label ++ colon :: e.body

/-- What a member says. -/
def Entry.member (e : Entry) : Text × Value := (e.name, e.value)

/-- A text says a value. There may be white space around it. -/
inductive Denotes : Text → Value → Prop where
  | spaced {w t w' : Text} {v : Value} (hw : IsSpace w) (h : Denotes t v) (hw' : IsSpace w') :
      Denotes (w ++ (t ++ w')) v
  | null : Denotes (text "null") .null
  | false : Denotes (text "false") (.boolean false)
  | true : Denotes (text "true") (.boolean true)
  | number {t : Text} {q : ℚ} (h : Numeral t q) : Denotes t (.number q)
  | string {t s : Text} (h : Characters t s) :
      Denotes (CodeUnit.quote :: (t ++ [CodeUnit.quote])) (.string s)
  | array {parts : List (Text × Value)} {w : Text} (h : ∀ p ∈ parts, Denotes p.1 p.2)
      (hw : IsSpace w) :
      Denotes (bracketed leftBracket (parts.map Prod.fst) w rightBracket)
        (.array (parts.map Prod.snd))
  | object {entries : List Entry} {w : Text}
      (hname : ∀ e ∈ entries, Denotes e.label (.string e.name))
      (hbody : ∀ e ∈ entries, Denotes e.body e.value) (hw : IsSpace w) :
      Denotes (bracketed CodeUnit.leftBrace (entries.map Entry.written) w CodeUnit.rightBrace)
        (.object (entries.map Entry.member))

theorem isSpace_nil : IsSpace [] := by
  intro u hu
  exact absurd hu List.not_mem_nil

theorem denotes_spaced_before {w t : Text} {v : Value} (hw : IsSpace w) (h : Denotes t v) :
    Denotes (w ++ t) v := by
  have hspaced := Denotes.spaced hw h isSpace_nil
  rwa [List.append_nil] at hspaced

end Json

end GlyphLexer
