import GlyphLexer.Diagnostic
import GlyphLexer.Json
import GlyphLexer.Scan

/-!
# Listings

Tokens and errors as they are printed, in either of two formats.

In the text format each token is described behind its type: the line it
begins on, the two offsets, the lexeme, and the literal, where `null` stands
for none. Descriptions are joined by newlines; neither lexemes nor literals
are escaped in them. An error is its diagnostic.

In the JSON format the tokens are a list of objects, and an error is one
object in the shape that editors take.

`lexSource` is a whole run over a source: the tokens if there is no fault,
and otherwise the error alone.

## Main definitions

* `OutputFormat`, `OutputFormat.ofValue?`: The formats, and the value that
  names one.
* `Options`: What a listing looks like.
* `Listing.ofToken`, `Listing.ofTokens`: A token, and the tokens of a source.
* `Listing.ofLexError`, `Listing.ofError`: An error that the lexer raised,
  and any error.
* `LexOutput`, `lexSource`: What a run over a source prints, and how it ends.
-/

namespace GlyphLexer

/-- The formats of listings. -/
inductive OutputFormat where
  | text
  | json
  deriving DecidableEq, Repr

namespace OutputFormat

/-- The name of a format. -/
def name : OutputFormat → Text
  | text => GlyphLexer.text "text"
  | json => GlyphLexer.text "json"

/-- The format of a name. -/
def ofName? (t : Text) : Option OutputFormat :=
  if t = name text then some text else if t = name json then some json else none

/-- The format that a value names. Only text names one. -/
def ofValue? : Value → Option OutputFormat
  | .string t => ofName? t
  | _ => none

theorem ofName?_name (f : OutputFormat) : ofName? f.name = some f := by
  cases f <;> decide

theorem name_of_ofName? {t : Text} {f : OutputFormat} (h : ofName? t = some f) : t = f.name := by
  unfold ofName? at h
  split at h
  · next ht => rw [ht, ← Option.some.inj h]
  · split at h
    · next ht => rw [ht, ← Option.some.inj h]
    · cases h

end OutputFormat

/-- What a listing looks like. -/
structure Options where
  format : OutputFormat
  /-- The token for the end of the source is shown. -/
  showEof : Bool
  deriving DecidableEq, Repr

namespace Listing

/-- One token in the text format. -/
def ofToken (source : Text) (t : Token) : Text :=
  t.type.name ++ text " on line " ++ Text.ofInt t.start.line ++ text " in pos " ++
    Text.ofInt t.start.offset ++ text "-" ++ Text.ofInt t.stop.offset ++ text " " ++
    t.lexeme source ++ text " " ++ t.literal.getD (text "null")

/-- One token in the JSON format. -/
def jsonOfToken (source : Text) (t : Token) : Json :=
  .object
    ([(text "type", .string t.type.name), (text "line", .number t.start.line),
        (text "start", .number t.start.offset), (text "end", .number t.stop.offset),
        (text "lexeme", .string (t.lexeme source))] ++
      (t.literal.map fun literal => (text "literal", Json.string literal)).toList)

/-- The tokens that are shown: all of them, or all but those for the end of a
    source. -/
def shown (showEof : Bool) (tokens : List Token) : List Token :=
  if showEof then tokens else tokens.filter fun t => t.type ≠ .eof

/-- The tokens of a source. -/
def ofTokens (source : Text) (tokens : List Token) (options : Options) : Text :=
  match options.format with
  | .json => (Json.array ((shown options.showEof tokens).map (jsonOfToken source))).pretty
  | .text => Text.unlines ((shown options.showEof tokens).map (ofToken source))

/-- An error in the JSON format. -/
def jsonOfError (e : LexError) : Json :=
  .object
    [(text "errorId", .string e.id), (text "kind", .string e.kind.name),
      (text "message", .string e.detail), (text "line", .number e.location.line),
      (text "column", .number e.location.column), (text "source", .string (text "glyph"))]

/-- An error against the source it came from. -/
def ofLexError (e : LexError) (source : Text) : OutputFormat → Text
  | .json => (jsonOfError e).pretty
  | .text => Diagnostic.pointer e source

/-- Any error against any source. The diagnostic needs a place for its
    caret. -/
def ofError (e : LexError) (source : Text) : OutputFormat → Except Misuse Text
  | .json => .ok (ofLexError e source .json)
  | .text => Diagnostic.render (some e) source

end Listing

/-- What a run over a source prints. A fault is printed on the error stream,
    and nothing else is. -/
inductive LexOutput where
  | listed (stdout : Text)
  | failed (stderr : Text)
  deriving DecidableEq, Repr

/-- Scans a source and lists its tokens, or its error alone. -/
def lexSource (source : Text) (options : Options) : LexOutput :=
  match scan source with
  | ⟨tokens, none⟩ => .listed (Listing.ofTokens source tokens options)
  | ⟨_, some e⟩ => .failed (Listing.ofLexError e source options.format)

end GlyphLexer
