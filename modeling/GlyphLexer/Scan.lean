import GlyphLexer.Lexer

/-!
# Scanning

All tokens of a source, up to its end or to the first fault.

`scanFrom` goes through the unread text once. Each round passes the trivia in
front, and reads one token behind it; it ends when nothing is left, with the
token for the end of the source, or at a fault. A token has at least one
unit, so the unread text gets shorter with every round.

## Main definitions

* `Scan`: The tokens found, and the error that ended the scan, if one did.
* `scan`: The scan of a text from its beginning.
* `tokenize`: The tokens of a text, or its error.

## Theorems

* `length_drop_lexeme_lt`: What is left behind a token is shorter than the
  unread text.
-/

namespace GlyphLexer

/-- What a scan found: tokens in order, and the error that ended it, if one
    did. The token for the end of the source is there if and only if there is
    no error. -/
structure Scan where
  tokens : List Token
  error : Option LexError

/-- The scan came to the end of the source. -/
def Scan.success (s : Scan) : Bool := s.error.isNone

theorem length_drop_lexeme_lt {unread rest taken : Text} {u : CodeUnit} {type : TokenType}
    {literal : Option Text} (hrest : unread.dropWhile CodeUnit.isTrivia = u :: rest)
    (hread : Reading.token u rest = .lexeme taken type literal) :
    ((u :: rest).drop taken.length).length < unread.length := by
  have hle : (u :: rest).length ≤ unread.length := by
    rw [← hrest]
    exact (List.dropWhile_suffix _).length_le
  have hpos := List.length_pos_iff.2 (Reading.token_lexeme_ne_nil hread)
  rw [List.length_drop]
  simp only [List.length_cons] at hle ⊢
  omega

/-- Scans the unread text behind a cursor. The tokens found before are given
    last first. -/
def scanFrom (c : Cursor) (found : List Token) (unread : Text) : Scan :=
  let place := c.beyond (unread.takeWhile CodeUnit.isTrivia)
  match _hrest : unread.dropWhile CodeUnit.isTrivia with
  | [] => ⟨(Token.endOfFile place.location :: found).reverse, none⟩
  | u :: rest =>
    match _hread : Reading.token u rest with
    | .lexeme taken type literal =>
      let stop := place.beyond taken
      scanFrom stop (⟨type, place.location, stop.location, literal⟩ :: found)
        ((u :: rest).drop taken.length)
    | .fault passed f => ⟨found.reverse, some (f.toError (place.beyond passed).location)⟩
termination_by unread.length
decreasing_by exact length_drop_lexeme_lt _hrest _hread

/-- Scans a text from its beginning. -/
def scan (source : Text) : Scan := scanFrom Cursor.start [] source

/-- The tokens of a text, or the error that ended its scan. -/
def tokenize (source : Text) : Except LexError (List Token) :=
  match scan source with
  | ⟨_, some error⟩ => .error error
  | ⟨tokens, none⟩ => .ok tokens

end GlyphLexer
