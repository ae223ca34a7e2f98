import GlyphLexer.Text

/-!
# Bytes and text

The two readings of bytes as text, and the one writing of text as bytes.

Program text that arrives as bytes is read as Latin-1: each byte is the code
unit of the same number, so offsets into the text are offsets into the bytes
and reading never fails. Configuration files are read as UTF-8. There a byte
sequence that is no encoding reads as the replacement character: one for each
longest part that some encoding begins with, and one for each other byte.

The UTF-8 reader goes byte by byte. What it carries along is the value of the
bytes of an unfinished sequence and, for each byte still missing, the range
that byte has to lie in; the ranges of the first missing byte are what rules
out overlong forms, surrogates and values past the last code point.

## Main definitions

* `Text.ofLatin1`: Each byte as the code unit of the same number.
* `Text.ofUtf8`: The text that UTF-8 bytes encode.
* `Text.toUtf8`: The UTF-8 bytes of a text.
-/

namespace GlyphLexer

/-- A sequence of bytes. -/
abbrev Bytes := List UInt8

namespace Text

/-- Reads each byte as the code unit of the same number. -/
def ofLatin1 (bytes : Bytes) : Text := bytes.map UInt8.toUInt16

/-- What stands in a text for bytes that encode nothing, and in bytes for
    half a surrogate pair. -/
abbrev replacement : CodeUnit := 0xFFFD

/-- An unfinished UTF-8 sequence: the bits read so far and the ranges of the
    bytes still missing. No range is left when no sequence is open. -/
structure OpenSequence where
  bits : Nat
  missing : List (UInt8 × UInt8)

namespace OpenSequence

/-- No sequence is open. -/
def closed : OpenSequence := ⟨0, []⟩

/-- Begins a sequence at a byte that may begin one: the text that is complete
    with this byte, and the sequence that stays open after it. -/
def begin (b : UInt8) : Text × OpenSequence :=
  let tail : UInt8 × UInt8 := (0x80, 0xBF)
  if b < 0x80 then ([b.toUInt16], closed)
  else if b < 0xC2 then ([replacement], closed)
  else if b < 0xE0 then ([], ⟨b.toNat - 0xC0, [tail]⟩)
  else if b < 0xF0 then
    let second := if b = 0xE0 then (0xA0, 0xBF) else if b = 0xED then (0x80, 0x9F) else tail
    ([], ⟨b.toNat - 0xE0, [second, tail]⟩)
  else if b < 0xF5 then
    let second := if b = 0xF0 then (0x90, 0xBF) else if b = 0xF4 then (0x80, 0x8F) else tail
    ([], ⟨b.toNat - 0xF0, [second, tail, tail]⟩)
  else ([replacement], closed)

end OpenSequence

/-- Reads UTF-8 bytes that go on an open sequence. A byte that the sequence
    cannot go on with closes it as one replacement character and begins
    anew. -/
def ofUtf8From : OpenSequence → Bytes → Text
  | s, [] => if s.missing.isEmpty then [] else [replacement]
  | s, b :: rest =>
    match s.missing with
    | [] =>
      let (out, next) := OpenSequence.begin b
      out ++ ofUtf8From next rest
    | (low, high) :: missing =>
      if low ≤ b && b ≤ high then
        let bits := s.bits * 64 + (b.toNat - 0x80)
        if missing.isEmpty then ofCodePoint bits ++ ofUtf8From OpenSequence.closed rest
        else ofUtf8From ⟨bits, missing⟩ rest
      else
        let (out, next) := OpenSequence.begin b
        replacement :: (out ++ ofUtf8From next rest)

/-- The text that UTF-8 bytes encode. -/
def ofUtf8 (bytes : Bytes) : Text := ofUtf8From OpenSequence.closed bytes

/-- The UTF-8 bytes of a code point. -/
def utf8OfCodePoint (n : Nat) : Bytes :=
  if n < 0x80 then [n.toUInt8]
  else if n < 0x800 then [(0xC0 + n / 0x40).toUInt8, (0x80 + n % 0x40).toUInt8]
  else if n < 0x10000 then
    [(0xE0 + n / 0x1000).toUInt8, (0x80 + n / 0x40 % 0x40).toUInt8, (0x80 + n % 0x40).toUInt8]
  else
    [(0xF0 + n / 0x40000).toUInt8, (0x80 + n / 0x1000 % 0x40).toUInt8,
      (0x80 + n / 0x40 % 0x40).toUInt8, (0x80 + n % 0x40).toUInt8]

/-- The UTF-8 bytes of a text. Half a surrogate pair that stands alone is
    encoded as the replacement character. -/
def toUtf8 : Text → Bytes
  | [] => []
  | u :: rest =>
    if u.isHighSurrogate then
      match rest with
      | v :: rest =>
        if v.isLowSurrogate then
          utf8OfCodePoint (0x10000 + (u.toNat - 0xD800) * 0x400 + (v.toNat - 0xDC00)) ++ toUtf8 rest
        else utf8OfCodePoint replacement.toNat ++ toUtf8 (v :: rest)
      | [] => utf8OfCodePoint replacement.toNat
    else if u.isLowSurrogate then utf8OfCodePoint replacement.toNat ++ toUtf8 rest
    else utf8OfCodePoint u.toNat ++ toUtf8 rest

end Text

end GlyphLexer
