import GlyphLexer.Text.Encoding

/-!
# Sources

Program text as it arrives: as text already, or as the bytes of a file or of
standard input. Bytes are read as Latin-1, so that an offset into the text is
an offset into the bytes.

## Main definitions

* `Source`: Text or bytes.
* `Source.toText`: The text that is scanned.
-/

namespace GlyphLexer

/-- Program text as it arrives. -/
inductive Source where
  | ofText (t : Text)
  | ofBytes (b : Bytes)
  deriving DecidableEq, Repr

/-- The text that is scanned. -/
def Source.toText : Source → Text
  | ofText t => t
  | ofBytes b => Text.ofLatin1 b

end GlyphLexer
