import GlyphLexer.Error

/-!
# Diagnostics

An error shown against the program text it came from, in three lines: what it
is and where, the line of the text with its number, and a caret below.

The line shown is found from the offset and the column of the location alone.
It begins so many units before the offset as the column says, or at the
beginning of the text, and ends before the next newline. The number before it
is right-justified to five places, and the caret stands one place further in
than the column, counted from the bar behind those five places.

## Main definitions

* `Diagnostic.sourceLine`: The line of the text that a location is on.
* `Diagnostic.pointer`: The three lines for an error.
* `Diagnostic.render`: The three lines, unless the caret would stand left of
  the margin.
-/

namespace GlyphLexer

namespace Diagnostic

/-- The width to which line numbers are right-justified. -/
def lineNumberWidth : Nat := 5

/-- The line of a text that has the given column at the given offset. -/
def sourceLine (source : Text) (offset column : Int) : Text :=
  (source.drop (offset - (column - 1)).toNat).takeWhile (· ≠ CodeUnit.newline)

/-- How far the caret for a column is indented. -/
def caretIndent (column : Int) : Int := lineNumberWidth + 1 + column

/-- The three lines that show an error against its text. -/
def pointer (e : LexError) (source : Text) : Text :=
  Text.unlines
    [e.kind.name ++ text " at " ++ e.location.display,
      (Text.ofInt e.location.line).padLeft lineNumberWidth ++ text "| " ++
        sourceLine source e.location.offset e.location.column,
      List.replicate (caretIndent e.location.column).toNat CodeUnit.space ++ text "^"]

/-- Shows an error against its text. There must be an error, and its caret
    must not stand left of the margin. -/
def render (error : Option LexError) (source : Text) : Except Misuse Text :=
  match error with
  | none => .error .nothingToRender
  | some e =>
    if caretIndent e.location.column < 0 then
      .error (.negativeIndent (caretIndent e.location.column))
    else .ok (pointer e source)

end Diagnostic

end GlyphLexer
