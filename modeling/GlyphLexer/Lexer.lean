import GlyphLexer.Error
import GlyphLexer.Reading
import GlyphLexer.Token

/-!
# The lexer, step by step

A `Lexer` is a source and a cursor in it. Everything it does is decided by
the text still unread, `Lexer.unread`: a step reads from the front of it and
moves the cursor over what was read.

The steps that read a token may be taken anywhere, whatever stands there, and
a step that fails leaves the lexer at the place of the fault, from where the
next step goes on. After an escape that does not exist, the unit behind the
backslash has been passed as well. A string literal may be read where no
quotation mark stands: the first unit is then taken for the opening one. The
cursor may move past the end of the source, where nothing is unread.

## Main definitions

* `Lexer`, `Lexer.ofSource`: A source being read, from its beginning.
* `Lexer.unread`: The text that no step has passed yet.
* `Lexer.peek`, `Lexer.peekString`: Looking without moving.
* `Lexer.advance`, `Lexer.take`: Moving over so many units.
* `Lexer.string`, `Lexer.number`, `Lexer.name`: Reading a token of one sort.
* `Lexer.next`: Reading the next token of any sort, or the end of the source.
-/

namespace GlyphLexer

/-- What a fault leaves behind the cursor besides the units before its place:
    after an escape that does not exist, the unit behind the backslash. -/
def Fault.passed : Fault → Text
  | invalidEscape u => [u]
  | _ => []

/-- The token that stands for the end of a source. -/
def Token.endOfFile (location : Location) : Token := ⟨.eof, location, location, none⟩

/-- A source and how far it has been read. -/
structure Lexer where
  source : Text
  cursor : Cursor
  deriving DecidableEq, Repr

namespace Lexer

/-- A source of which nothing has been read. -/
def ofSource (source : Text) : Lexer := ⟨source, Cursor.start⟩

/-- The text that no step has passed yet. -/
def unread (l : Lexer) : Text := l.source.drop l.cursor.pos

/-- The location of the next unit. -/
def location (l : Lexer) : Location := l.cursor.location

/-- Nothing is unread. -/
def atEnd (l : Lexer) : Bool := decide (l.source.length ≤ l.cursor.pos)

/-- The unit `k` places behind the next one, as a text of at most one
    unit. -/
def peek (l : Lexer) (k : Int) : Text := l.source.unitAt (l.cursor.pos + k)

/-- The slice of the source from the next unit to the place `n` units behind
    it. -/
def peekString (l : Lexer) (n : Int) : Text := l.source.slice l.cursor.pos (l.cursor.pos + n)

/-- Moves `n` places on. -/
def moved (l : Lexer) (n : Nat) : Lexer := { l with cursor := l.cursor.advance n l.unread }

/-- Moves over the next unit, and gives it as a text of at most one unit. -/
def advance (l : Lexer) : Text × Lexer := (l.peek 0, l.moved 1)

/-- Moves `n` places on and makes a token of them. -/
def take (l : Lexer) (n : Nat) (type : TokenType) : Token × Lexer :=
  (⟨type, l.location, (l.moved n).location, none⟩, l.moved n)

/-- Moves over what was read. The token, or the error, of the reading begins
    at `start`. -/
def finish (l : Lexer) (start : Location) : Reading → Except LexError Token × Lexer
  | .lexeme taken type literal =>
    let cursor := l.cursor.beyond taken
    (.ok ⟨type, start, cursor.location, literal⟩, { l with cursor := cursor })
  | .fault passed f =>
    let place := l.cursor.beyond passed
    (.error (f.toError place.location), { l with cursor := place.beyond f.passed })

/-- Reads a string literal, taking the next unit for its opening quotation
    mark. -/
def string (l : Lexer) : Except LexError Token × Lexer :=
  (l.moved 1).finish l.location (Reading.string (l.moved 1).unread)

/-- Reads a number, which may have no digit. -/
def number (l : Lexer) : Except LexError Token × Lexer :=
  l.finish l.location (Reading.number l.unread)

/-- Reads a name, which may have no unit. -/
def name (l : Lexer) : Except LexError Token × Lexer := l.finish l.location (Reading.name l.unread)

/-- Moves over white space and line breaks. -/
def skipTrivia (l : Lexer) : Lexer :=
  { l with cursor := l.cursor.beyond (l.unread.takeWhile CodeUnit.isTrivia) }

/-- Reads the next token, or the end of the source, after white space and
    line breaks. -/
def next (l : Lexer) : Except LexError Token × Lexer :=
  let placed := l.skipTrivia
  match placed.unread with
  | [] => (.ok (Token.endOfFile placed.location), placed)
  | u :: rest => placed.finish placed.location (Reading.token u rest)

end Lexer

end GlyphLexer
