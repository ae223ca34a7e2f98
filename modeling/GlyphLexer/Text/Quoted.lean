import GlyphLexer.Text

/-!
# Quoted text

Text made fit to stand between quotation marks: the marks themselves,
backslashes and control characters are written as escapes, and so is half a
surrogate pair that stands alone, which no output encoding could carry.
Everything else stands for itself.

## Main definitions

* `Text.escaped`: A text with its escapes written out.
* `Text.quoted`: The same between quotation marks.
* `Text.escapedUnit`: One unit that is not part of a surrogate pair.
-/

namespace GlyphLexer

namespace Text

/-- The lower-case hexadecimal digit of a number below sixteen. -/
def hexDigit (n : Nat) : CodeUnit := CodeUnit.ofChar (Nat.digitChar (n % 16))

/-- The escape that names a unit by its number. -/
def numericEscape (u : CodeUnit) : Text :=
  let n := u.toNat
  text "\\u" ++ [hexDigit (n / 4096), hexDigit (n / 256), hexDigit (n / 16), hexDigit n]

/-- One unit that is not part of a surrogate pair, as it stands in quoted
    text. -/
def escapedUnit (u : CodeUnit) : Text :=
  if u = CodeUnit.quote then text "\\\""
  else if u = CodeUnit.backslash then text "\\\\"
  else if u = 8 then text "\\b"
  else if u = CodeUnit.tab then text "\\t"
  else if u = CodeUnit.newline then text "\\n"
  else if u = 12 then text "\\f"
  else if u = CodeUnit.carriageReturn then text "\\r"
  else if u < 32 || u.isHighSurrogate || u.isLowSurrogate then numericEscape u
  else [u]

/-- A text as it stands between quotation marks. -/
def escaped : Text → Text
  | [] => []
  | [u] => escapedUnit u
  | u :: v :: rest =>
    if u.isHighSurrogate && v.isLowSurrogate then u :: v :: escaped rest
    else escapedUnit u ++ escaped (v :: rest)

/-- A text between quotation marks. -/
def quoted (t : Text) : Text := text "\"" ++ escaped t ++ text "\""

end Text

end GlyphLexer
