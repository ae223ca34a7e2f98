/-!
# Text

Program text, messages and everything the command line prints, as sequences
of UTF-16 code units.

Every offset, column and length of the lexer counts code units. A character
outside the basic plane takes two of them, and the lexer looks at the two
halves one by one, so a half that stands alone is an ordinary inhabitant of
`Text`: cutting a text between the halves of a pair, or reading arbitrary
bytes, produces it. That is why text is not `String` here. `text` writes
constants, and `Text.toString` leaves this world at the edge of the program.

Positions given by callers may be negative. `Text.slice` reads a negative
index from the end of the text and clamps what falls outside, so it never
fails; a slice whose end is not after its start is empty.

## Main definitions

* `CodeUnit`, `Text`: A code unit, and a sequence of them.
* `text`: The code units of a string constant.
* `Text.slice`: The part between two indices, counted from the end when
  negative.
* `Text.lines`, `Text.unlines`: Cutting at newlines and joining with them.
* `Text.ofNat`, `Text.ofInt`: Decimal numerals.
* `Text.toString`: The characters of a text.
-/

namespace GlyphLexer

/-- A UTF-16 code unit. -/
abbrev CodeUnit := UInt16

/-- A sequence of UTF-16 code units, halves of surrogate pairs included. -/
abbrev Text := List CodeUnit

/-- Comparing texts unit by unit decides whether they are equal. -/
instance : LawfulBEq Text := List.instLawfulBEq

namespace CodeUnit

/-- Tab. -/
abbrev tab : CodeUnit := 9

/-- Line feed, the only unit that ends a line. -/
abbrev newline : CodeUnit := 10

/-- Carriage return. -/
abbrev carriageReturn : CodeUnit := 13

/-- Space. -/
abbrev space : CodeUnit := 32

/-- Double quotation mark. -/
abbrev quote : CodeUnit := 34

/-- Full stop. -/
abbrev dot : CodeUnit := 46

/-- Reverse solidus. -/
abbrev backslash : CodeUnit := 92

/-- Low line. -/
abbrev underscore : CodeUnit := 95

/-- Left curly bracket. -/
abbrev leftBrace : CodeUnit := 123

/-- Right curly bracket. -/
abbrev rightBrace : CodeUnit := 125

/-- The first half of a surrogate pair. -/
def isHighSurrogate (u : CodeUnit) : Bool := 0xD800 ≤ u && u ≤ 0xDBFF

/-- The second half of a surrogate pair. -/
def isLowSurrogate (u : CodeUnit) : Bool := 0xDC00 ≤ u && u ≤ 0xDFFF

/-- The code unit of a character of the basic plane. -/
def ofChar (c : Char) : CodeUnit := c.val.toUInt16

end CodeUnit

/-- The code units of a code point: one in the basic plane, a surrogate pair
    beyond it. -/
def Text.ofCodePoint (n : Nat) : Text :=
  if n < 0x10000 then [UInt16.ofNat n]
  else [UInt16.ofNat (0xD800 + (n - 0x10000) / 0x400),
    UInt16.ofNat (0xDC00 + (n - 0x10000) % 0x400)]

/-- The code units of a string. -/
def text (s : String) : Text := s.toList.flatMap fun c => Text.ofCodePoint c.toNat

namespace Text

/-- The number of units before index `i`, where a negative index counts from
    the end. -/
def index (t : Text) (i : Int) : Nat :=
  if i < 0 then (t.length + i).toNat else i.toNat

/-- The units from index `start` up to, and without, index `stop`. -/
def slice (t : Text) (start stop : Int) : Text :=
  (t.drop (t.index start)).take (t.index stop - t.index start)

/-- The unit at a place that may lie outside the text, as a text of at most
    one unit. -/
def unitAt (t : Text) (i : Int) : Text :=
  if i < 0 then [] else (t[i.toNat]?).toList

/-- The lines of a text: its parts between newlines. -/
def lines (t : Text) : List Text := List.splitOn CodeUnit.newline t

/-- The lines in order with a newline between each two of them. -/
def unlines (ls : List Text) : Text := List.intercalate [CodeUnit.newline] ls

/-- Right-justifies in a field of `width` units; a longer text stays as it
    is. -/
def padLeft (width : Nat) (t : Text) : Text :=
  List.replicate (width - t.length) CodeUnit.space ++ t

/-- The decimal numeral of a natural number. -/
def ofNat (n : Nat) : Text := (Nat.toDigits 10 n).map CodeUnit.ofChar

/-- The decimal numeral of an integer, with a minus sign before a negative
    one. -/
def ofInt (n : Int) : Text :=
  if n < 0 then text "-" ++ ofNat n.natAbs else ofNat n.natAbs

/-- Adds the characters of a text to a string. A half of a surrogate pair
    that stands alone becomes the replacement character. -/
def pushTo (acc : String) : Text → String
  | [] => acc
  | [u] => acc.push (character u.toNat)
  | u :: v :: rest =>
    if u.isHighSurrogate && v.isLowSurrogate then
      pushTo
        (acc.push (Char.ofNat (0x10000 + (u.toNat - 0xD800) * 0x400 + (v.toNat - 0xDC00)))) rest
    else pushTo (acc.push (character u.toNat)) (v :: rest)
where
  /-- The character of one unit. -/
  character (n : Nat) : Char :=
    if 0xD800 ≤ n && n ≤ 0xDFFF then Char.ofNat 0xFFFD else Char.ofNat n

/-- The characters of a text. -/
def toString (t : Text) : String := pushTo "" t

end Text

end GlyphLexer
