import GlyphLexer.Text

/-!
# Faults

The four ways in which program text fails to be a sequence of tokens. A
`Fault` is what a reader meets; where the offending unit matters to the
message it is part of the fault. `FaultKind` is the fault without that unit,
and is what identifiers, catalogue entries and listings go by. A symbol is
unexpected in two situations, by itself or behind a number, and both are of
one kind.

## Main definitions

* `FaultKind`: The kinds of fault, with `FaultKind.all` in catalogue order.
* `FaultKind.name`, `FaultKind.ofName?`, `FaultKind.id`, `FaultKind.ofId?`:
  Their written names and identifiers.
* `Fault`, `Fault.kind`, `Fault.unit?`: A fault, its kind, and the offending
  unit.
-/

namespace GlyphLexer

/-- The kinds of lexical fault. -/
inductive FaultKind where
  | unexpectedEndOfFile
  | unexpectedSymbol
  | invalidEscapeCharacter
  | unexpectedEndOfLine
  deriving DecidableEq, Repr

namespace FaultKind

/-- Every kind, in catalogue order. -/
def all : List FaultKind :=
  [unexpectedEndOfFile, unexpectedSymbol, invalidEscapeCharacter, unexpectedEndOfLine]

/-- The name of a kind. -/
def name : FaultKind → Text
  | unexpectedEndOfFile => text "UnexpectedEndOfFile"
  | unexpectedSymbol => text "UnexpectedSymbol"
  | invalidEscapeCharacter => text "InvalidEscapeCharacter"
  | unexpectedEndOfLine => text "UnexpectedEndOfLine"

/-- The identifier of a kind in the catalogue. -/
def id : FaultKind → Text
  | unexpectedEndOfFile => text "GLY-L001"
  | unexpectedSymbol => text "GLY-L002"
  | invalidEscapeCharacter => text "GLY-L003"
  | unexpectedEndOfLine => text "GLY-L004"

/-- The kind of a name. -/
def ofName? (t : Text) : Option FaultKind := all.find? fun kind => kind.name == t

/-- The kind of an identifier. -/
def ofId? (t : Text) : Option FaultKind := all.find? fun kind => kind.id == t

theorem ofId?_id (kind : FaultKind) : ofId? kind.id = some kind := by
  cases kind <;> rfl

end FaultKind

/-- What a reader meets instead of a token. -/
inductive Fault where
  /-- The text ends within a string literal. -/
  | endOfFile
  /-- A unit that begins no token. -/
  | unexpectedSymbol (u : CodeUnit)
  /-- A unit that a number runs into and may not run into. -/
  | symbolBehindNumber (u : CodeUnit)
  /-- A backslash before a unit that makes no escape. -/
  | invalidEscape (u : CodeUnit)
  /-- A line ends within a string literal. -/
  | endOfLine
  deriving DecidableEq, Repr

namespace Fault

/-- The kind of a fault. -/
def kind : Fault → FaultKind
  | endOfFile => .unexpectedEndOfFile
  | unexpectedSymbol _ => .unexpectedSymbol
  | symbolBehindNumber _ => .unexpectedSymbol
  | invalidEscape _ => .invalidEscapeCharacter
  | endOfLine => .unexpectedEndOfLine

/-- The offending unit, for the faults whose message shows it. -/
def unit? : Fault → Option CodeUnit
  | unexpectedSymbol u => some u
  | symbolBehindNumber u => some u
  | invalidEscape u => some u
  | _ => none

end Fault

end GlyphLexer
