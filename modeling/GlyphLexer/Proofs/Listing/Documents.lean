import GlyphLexer.Listing
import GlyphLexer.Proofs.Json.Layout
import GlyphLexer.Source

/-!
# What a listing as JSON tells

The listing of tokens as JSON, and the listing of an error, are documents
that say what was listed.

Nothing is asked of the tokens here. They need not come from a scan, and
their offsets may lie anywhere, since a lexeme is a slice that is always
there. What is in the source does not matter either: a document has its marks
only where the layout puts them, as everything that comes from the source
stands in a string. So there is nothing to be said about tokens that was not
said about documents already, and the fields are those of the records below.

Decoders differ in what they make of a name that an object has twice. No
record has one (`Token.nodup_names_record`), so it does not matter here that
ours keeps both.

## Main definitions

* `Token.record`: What is told of a token.
* `LexError.record`: What is told of an error.
* `Json.Value.names`: The names that an object has.

## Theorems

* `Token.nodup_names_record`, `LexError.nodup_names_record`: No record has a
  name twice.
* `Listing.value_jsonOfToken`, `Listing.value_jsonOfError`: The records are
  what is written.
* `json_listing`: The listings of tokens and of errors as JSON say the
  records.
-/

namespace GlyphLexer

/-- What is told of a token of a source. There is a literal if the token has
    one. -/
def Token.record (source : Text) (t : Token) : Json.Value :=
  .object
    ([(text "type", .string t.type.name), (text "line", .number t.start.line),
        (text "start", .number t.start.offset), (text "end", .number t.stop.offset),
        (text "lexeme", .string (source.slice t.start.offset t.stop.offset))] ++
      match t.literal with
      | some literal => [(text "literal", .string literal)]
      | none => [])

/-- What is told of an error. -/
def LexError.record (e : LexError) : Json.Value :=
  .object
    [(text "errorId", .string e.kind.id), (text "kind", .string e.kind.name),
      (text "message", .string e.detail), (text "line", .number e.location.line),
      (text "column", .number e.location.column), (text "source", .string (text "glyph"))]

/-- The names of the members of an object, in order. -/
def Json.Value.names : Json.Value → List Text
  | .object members => members.map Prod.fst
  | _ => []

theorem Token.nodup_names_record (source : Text) (t : Token) : (t.record source).names.Nodup := by
  unfold record
  cases t.literal with
  | none =>
      show [text "type", text "line", text "start", text "end", text "lexeme"].Nodup
      decide
  | some literal =>
      show [text "type", text "line", text "start", text "end", text "lexeme", text "literal"].Nodup
      decide

theorem LexError.nodup_names_record (e : LexError) : e.record.names.Nodup := by
  show [text "errorId", text "kind", text "message", text "line", text "column",
    text "source"].Nodup
  decide

namespace Listing

theorem value_jsonOfToken (source : Text) (t : Token) :
    (jsonOfToken source t).value = t.record source := by
  cases hliteral : t.literal with
  | none =>
      simp [jsonOfToken, Token.record, Json.value, Json.members_eq_map, hliteral, Token.lexeme]
  | some literal =>
      simp [jsonOfToken, Token.record, Json.value, Json.members_eq_map, hliteral, Token.lexeme]

theorem value_jsonOfError (e : LexError) : (jsonOfError e).value = e.record := rfl

end Listing

/-- Listings as JSON are documents, and they are decoded to the records of
    what was listed. No record has a name twice. -/
theorem json_listing (source : Source) :
    (∀ (tokens : List Token) (showEof : Bool),
      Json.IsDocument (Listing.ofTokens source.toText tokens ⟨.json, showEof⟩)
        (.array ((if showEof then tokens else tokens.filter fun t => t.type ≠ .eof).map
          (Token.record source.toText)))) ∧
      (∀ e : LexError, Json.IsDocument (Listing.ofLexError e source.toText .json) e.record) ∧
      (∀ t : Token, (t.record source.toText).names.Nodup) ∧
      ∀ e : LexError, e.record.names.Nodup := by
  refine ⟨?_, ?_, Token.nodup_names_record source.toText, LexError.nodup_names_record⟩
  · intro tokens showEof
    have h := Json.isDocument_pretty
      (.array ((Listing.shown showEof tokens).map (Listing.jsonOfToken source.toText)))
    have hvalue : Json.value ∘ Listing.jsonOfToken source.toText = Token.record source.toText :=
      funext (Listing.value_jsonOfToken source.toText)
    rw [Json.value, Json.values_eq_map, List.map_map, hvalue] at h
    exact h
  · intro e
    have h := Json.isDocument_pretty (Listing.jsonOfError e)
    rw [Listing.value_jsonOfError] at h
    exact h

end GlyphLexer
