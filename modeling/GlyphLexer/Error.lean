import GlyphLexer.Catalogue
import GlyphLexer.Location
import GlyphLexer.Text.Quoted

/-!
# Errors

The records that describe what went wrong, for a host program to store, show
or pass on.

A `GlyphError` names its kind and has a message of its own, which need not be
the one of the catalogue; it may have a location and the context its message
was filled from. A `LexError` is one that always has a location, and is what
the lexer raises. The message shown ends in the location if there is one;
`detail` is the message without it.

Only identifiers of the catalogue can be given to an error. `Misuse` lists
what is refused: it is the caller's mistake and not a fault of any program
text.

An error that the lexer raises shows the offending unit in its context, under
the name `char`, in the form it would have in quoted text, so that control
characters and halves of surrogate pairs can be seen. A unit that a number
runs into is shown as it is. `Fault.context` is where that is decided.

## Main definitions

* `GlyphError`, `LexError`: An error record, and one with a location.
* `Misuse`: What callers can do wrong.
* `GlyphError.ofId`, `GlyphError.create`, `LexError.ofId`, `LexError.ofKind`,
  `LexError.create`: Making errors.
* `GlyphError.message`, `GlyphError.format`: The message with its location,
  and with the identifier.
* `Fault.context`, `Fault.toError`: The error that the lexer raises for a
  fault.

## Theorems

* `LexError.create_of_hasText`: Making an error from values that have texts
  does not fail.
* `Fault.create_eq_toError`: The error of a fault can always be made.
-/

namespace GlyphLexer

/-- An error: its kind, its message, and, if known, its place and what the
    message was filled from. -/
structure GlyphError where
  kind : FaultKind
  detail : Text
  location : Option Location
  context : Option Context

/-- An error with a place. -/
structure LexError where
  kind : FaultKind
  detail : Text
  location : Location
  context : Option Context

/-- What callers can do wrong. -/
inductive Misuse where
  /-- An error without an identifier. -/
  | missingId
  /-- An identifier that the catalogue does not have. -/
  | unknownId (id : Text)
  /-- A message that shows a named value, without a context to take it
      from. -/
  | missingContext (name : Text)
  /-- A message that shows a value which has no text. -/
  | valueWithoutText
  /-- A diagnostic of no error. -/
  | nothingToRender
  /-- A caret to the left of the first column, at a negative indentation. -/
  | negativeIndent (indent : Int)
  deriving DecidableEq, Repr

/-- What a misuse is reported as. -/
def Misuse.message : Misuse → Text
  | missingId => text "errorId is required"
  | unknownId id => text "Unknown error ID: " ++ id
  | missingContext name =>
    text "Cannot read properties of undefined (reading '" ++ name ++ text "')"
  | valueWithoutText => text "Cannot convert object to primitive value"
  | nothingToRender => text "No lexer error to render"
  | negativeIndent indent => text "Invalid count value: " ++ Text.ofInt indent

/-- The kind of an identifier of the catalogue. -/
def FaultKind.ofCatalogueId (id : Text) : Except Misuse FaultKind :=
  match FaultKind.ofId? id with
  | some kind => .ok kind
  | none => .error (.unknownId id)

/-- Line and column as they are written. -/
def Location.display (l : Location) : Text := Text.ofInt l.line ++ text ":" ++ Text.ofInt l.column

namespace GlyphError

/-- The identifier of an error. -/
def id (e : GlyphError) : Text := e.kind.id

/-- The message of an error with its place behind it. -/
def message (e : GlyphError) : Text :=
  match e.location with
  | some location => e.detail ++ text " at " ++ location.display
  | none => e.detail

/-- The message of an error behind its identifier. -/
def format (e : GlyphError) : Text := text "[" ++ e.id ++ text "] " ++ e.message

/-- An error with the given identifier and message. -/
def ofId (id detail : Text) (location : Option Location) (context : Option Context) :
    Except Misuse GlyphError :=
  if id.isEmpty then .error .missingId
  else do
    let kind ← FaultKind.ofCatalogueId id
    return ⟨kind, detail, location, context⟩

/-- The message that the catalogue has for a kind. Only a message that shows
    no named value can do without a context. -/
def catalogueMessage (kind : FaultKind) : Option Context → Except Misuse Text
  | some context =>
    match kind.message? context with
    | some detail => .ok detail
    | none => .error .valueWithoutText
  | none =>
    match Template.names kind.entry.template with
    | [] => .ok (kind.message [])
    | name :: _ => .error (.missingContext name)

/-- An error with the message that the catalogue has for its identifier. -/
def create (id : Text) (context : Option Context) (location : Option Location) :
    Except Misuse GlyphError := do
  let kind ← FaultKind.ofCatalogueId id
  let detail ← catalogueMessage kind context
  return ⟨kind, detail, location, context⟩

end GlyphError

namespace LexError

/-- An error with a place, seen as one that may have none. -/
def toGlyphError (e : LexError) : GlyphError := ⟨e.kind, e.detail, some e.location, e.context⟩

/-- The identifier of an error. -/
def id (e : LexError) : Text := e.kind.id

/-- The message of an error with its place behind it. -/
def message (e : LexError) : Text := e.toGlyphError.message

/-- An error with the given identifier and message. -/
def ofId (id detail : Text) (location : Location) (context : Option Context) :
    Except Misuse LexError := do
  let kind ← FaultKind.ofCatalogueId id
  return ⟨kind, detail, location, context⟩

/-- An error with the message that the catalogue has for its kind. -/
def ofKind (kind : FaultKind) (location : Location) (context : Context) : LexError :=
  ⟨kind, kind.message context, location, some context⟩

/-- An error with the message that the catalogue has for its kind, if the
    values it shows have texts. -/
def create (kind : FaultKind) (location : Location) (context : Context) :
    Except Misuse LexError := do
  let detail ← GlyphError.catalogueMessage kind (some context)
  return ⟨kind, detail, location, some context⟩

theorem create_of_hasText {context : Context} (h : ∀ entry ∈ context, entry.2.hasText = true)
    (kind : FaultKind) (location : Location) :
    create kind location context = .ok (ofKind kind location context) := by
  have hmessage : kind.message? context = some (kind.message context) :=
    Template.render?_of_hasText h _
  have hdetail : GlyphError.catalogueMessage kind (some context) = .ok (kind.message context) := by
    simp only [GlyphError.catalogueMessage, hmessage]
  rw [create, hdetail]
  rfl

end LexError

namespace Fault

/-- What the message of a fault is filled from: the offending unit, made
    visible. A unit that a number runs into is given as it is. -/
def context : Fault → Context
  | unexpectedSymbol u => [(text "char", .string (Text.escaped [u]))]
  | symbolBehindNumber u => [(text "char", .string [u])]
  | invalidEscape u => [(text "char", .string (Text.escaped [u]))]
  | endOfFile => []
  | endOfLine => []

/-- The error that the lexer raises for a fault at a place. -/
def toError (f : Fault) (location : Location) : LexError :=
  LexError.ofKind f.kind location f.context

/-- A fault has nothing to show that has no text. -/
theorem create_eq_toError (f : Fault) (location : Location) :
    LexError.create f.kind location f.context = .ok (f.toError location) := by
  have hall : (f.context.all fun entry => entry.2.hasText) = true := by
    cases f <;> rfl
  exact LexError.create_of_hasText (List.all_eq_true.1 hall) f.kind location

end Fault

end GlyphLexer
