import GlyphLexer.Fault
import GlyphLexer.Template

/-!
# The catalogue of faults

What is known about each kind of fault: a short description, the template of
its message, its cause, the remedy, and examples of code that has it. Entries
are found by identifier.

## Main definitions

* `Catalogue.Entry`, `Catalogue.Example`: One entry, and one example in it.
* `FaultKind.entry`: The entry of a kind.
* `Catalogue.ids`, `Catalogue.find?`: The identifiers in order, and the entry
  of an identifier.
* `FaultKind.message`, `FaultKind.message?`: The message of a kind filled
  from a context, in any case or if the values have texts.
-/

namespace GlyphLexer

namespace Catalogue

/-- Code that has a fault, and what is wrong with it. -/
structure Example where
  description : Text
  code : Text
  deriving DecidableEq, Repr

/-- What is known about a kind of fault. -/
structure Entry where
  kind : FaultKind
  description : Text
  template : Text
  cause : Text
  resolution : Text
  examples : List Example
  deriving DecidableEq, Repr

end Catalogue

/-- The catalogue entry of a kind. -/
def FaultKind.entry : FaultKind → Catalogue.Entry
  | unexpectedEndOfFile =>
    { kind := unexpectedEndOfFile
      description := text "Unexpected end of file"
      template := text "Unexpected end of file"
      cause := text
        "Input ended in the middle of a token, usually a string literal that was never closed."
      resolution := text "Add the closing quote. " ++
        text "A backslash at the very end of a string also needs a character after it."
      examples :=
        [⟨text "Missing closing quote at end of file", text "say(\"hello"⟩,
          ⟨text "Dangling backslash at end of file", text "\"path\\"⟩] }
  | unexpectedSymbol =>
    { kind := unexpectedSymbol
      description := text "Unexpected symbol"
      template := text "Unexpected symbol '\x7bchar\x7d'"
      cause := text "Character is not part of Glyph syntax, " ++
        text "a number has a second decimal point, or a number runs into a name."
      resolution := text "Remove the character, keep one decimal point per number, " ++
        text "and separate numbers from names with a space or operator."
      examples :=
        [⟨text "Character outside the language", text "score @ 2"⟩,
          ⟨text "Two decimal points", text "speed = 1.2.3"⟩,
          ⟨text "Number followed by a name", text "move 3tiles"⟩] }
  | invalidEscapeCharacter =>
    { kind := invalidEscapeCharacter
      description := text "Invalid escape sequence"
      template := text "Invalid escape sequence '\\\x7bchar\x7d'"
      cause := text "Backslash followed by an unsupported character in a string literal."
      resolution := text "Use one of \\a \\b \\e \\f \\n \\r \\t \\v \\\\ \\' \\\" \\?. " ++
        text "For a literal backslash, write \\\\."
      examples := [⟨text "Backslash followed by a space", text "\"bad\\ escape\""⟩] }
  | unexpectedEndOfLine =>
    { kind := unexpectedEndOfLine
      description := text "Unterminated string literal"
      template := text "Unexpected end of line in string literal"
      cause := text "String literal contains a raw line break before its closing quote."
      resolution := text "Close the string on the same line, or write the line break as \\n."
      examples := [⟨text "Line break inside a string", text "say(\"hello\nworld\")"⟩] }

namespace Catalogue

/-- The identifiers in catalogue order. -/
def ids : List Text := FaultKind.all.map FaultKind.id

/-- The entry of an identifier. -/
def find? (id : Text) : Option Entry := (FaultKind.ofId? id).map FaultKind.entry

theorem find?_id (kind : FaultKind) : find? kind.id = some kind.entry := by
  rw [find?, FaultKind.ofId?_id]
  rfl

end Catalogue

/-- The message of a kind filled from a context. -/
def FaultKind.message (kind : FaultKind) (context : Context) : Text :=
  Template.render kind.entry.template context

/-- The message of a kind filled from a context, or nothing if a value that
    it shows has no text. -/
def FaultKind.message? (kind : FaultKind) (context : Context) : Option Text :=
  Template.render? kind.entry.template context

end GlyphLexer
