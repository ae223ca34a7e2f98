import GlyphLexer.Proofs.Scan.Append
import GlyphLexer.Proofs.Stepping.Calls

/-!
# Going on from anywhere

A lexer that is somewhere in a text goes on as a new one would that is given
the rest of the text.

A caller may have driven the lexer in any way: past a quotation mark with the
reader of names, into the middle of an operator, up to a fault and beyond.
What is remembered of that is the cursor, and the cursor is the one of its
offset. So calls from there on give what the scan of the rest gives, with
every place counted from where the cursor is. The rest has its own first
line, which goes on the line of the cursor, and that line is the only one on
which columns differ.

`Location.behind` counts from the end of a text that was read before. Here
the place to count from is a cursor, whose fields a caller can see, and
`Location.behind_take` says that this is the same.

## Main definitions

* `Location.countedFrom`, `Token.countedFrom`, `LexError.countedFrom`,
  `Scan.countedFrom`: Places in the rest of a text, counted from where a
  cursor is.

## Theorems

* `Location.behind_take`: Counting from a cursor is counting behind what is
  before its offset.
* `Lexer.calls_ofOffset`: Calls from an offset give what the scan of the rest
  gives.
* `Lexer.calls_reached`: So do calls after any steps.
* `Lexer.calls_reached_insideString`: A string literal that was left at an
  unknown escape.
-/

namespace GlyphLexer

/-- A location in the rest of a text, counted from where the cursor is. -/
def Location.countedFrom (c : Cursor) (l : Location) : Location :=
  ⟨l.line + (c.line - 1), if l.line = 1 then l.column + (c.pos - c.lineStart) else l.column,
    l.offset + c.pos⟩

/-- A token of the rest of a text, counted from where the cursor is. -/
def Token.countedFrom (c : Cursor) (t : Token) : Token :=
  { t with start := t.start.countedFrom c, stop := t.stop.countedFrom c }

/-- An error in the rest of a text, counted from where the cursor is. -/
def LexError.countedFrom (c : Cursor) (e : LexError) : LexError :=
  { e with location := e.location.countedFrom c }

/-- What a scan of the rest of a text found, counted from where the cursor
    is. -/
def Scan.countedFrom (c : Cursor) (sc : Scan) : Scan :=
  ⟨sc.tokens.map (Token.countedFrom c), sc.error.map (LexError.countedFrom c)⟩

theorem Location.behind_take {s : Text} {p : Nat} (hp : p ≤ s.length) :
    Location.behind (s.take p) = Location.countedFrom (Cursor.ofOffset s p) := by
  funext l
  have hlength : (s.take p).length = p := List.length_take_of_le hp
  have hlast := Text.length_lastLine_le (s.take p)
  have hcolumn : ((Location.after (s.take p)).column - 1 : Int) =
      (p : Int) - (Text.lineStart (s.take p) : Int) := by
    unfold Location.after Text.lineStart
    simp only [hlength] at hlast ⊢
    omega
  unfold behind countedFrom Cursor.ofOffset
  simp only [hcolumn, hlength, Location.mk.injEq, and_true]
  omega

namespace Lexer

/-- Calls from an offset give what the scan of the rest gives, counted from
    there. -/
theorem calls_ofOffset {s : Text} {p : Nat} (hp : p ≤ s.length) :
    (ofOffset s p).calls = ((scan (s.drop p)).countedFrom (Cursor.ofOffset s p)).results := by
  have htoken : Token.behind (s.take p) = Token.countedFrom (Cursor.ofOffset s p) := by
    unfold Token.behind Token.countedFrom
    rw [Location.behind_take hp]
  have herror : LexError.behind (s.take p) = LexError.countedFrom (Cursor.ofOffset s p) := by
    unfold LexError.behind LexError.countedFrom
    rw [Location.behind_take hp]
  -- The calls are a scan that begins at the cursor, and that one stands behind
  -- what is before the offset.
  have hcalls := results_scanFrom (ofOffset s p) []
  rw [List.reverse_nil, List.map_nil, List.nil_append] at hcalls
  rw [← hcalls, unread_ofOffset, ofOffset, Cursor.ofOffset_of_le hp, scanFrom_beyond, htoken,
    herror, ← Cursor.ofOffset_of_le hp]
  rfl

/-- Whatever was done with a lexer before, if it is not past the end of its
    text then calls of `next` give what the scan of the rest of the text
    gives, token by token and with the same error, and only the places are
    counted from where the lexer is. -/
theorem calls_reached {s : Text} {steps : List Step} {l : Lexer}
    (hl : reached (ofSource s) steps = l) (hp : l.cursor.pos ≤ s.length) :
    l.calls = ((scan (s.drop l.cursor.pos)).countedFrom l.cursor).results := by
  rcases exists_reached_eq_ofOffset s steps with ⟨p, hreached⟩
  rw [hreached] at hl
  rw [← hl] at hp ⊢
  exact calls_ofOffset hp

/-- An unknown escape leaves the lexer within a string literal, behind the
    escape. The rest is a name on the same line, and on the next line a sign
    that is no token. -/
theorem calls_reached_insideString :
    (reached (ofSource (text "x\n\"a\\q b\n$")) [.next, .next]).cursor = ⟨6, 2, 2⟩ ∧
      (reached (ofSource (text "x\n\"a\\q b\n$")) [.next, .next]).calls =
        ((scan (text " b\n$")).countedFrom ⟨6, 2, 2⟩).results := by
  have hcursor :
      (reached (ofSource (text "x\n\"a\\q b\n$")) [.next, .next]).cursor = ⟨6, 2, 2⟩ := by
    decide +kernel
  refine ⟨hcursor, ?_⟩
  have hcalls := calls_reached (s := text "x\n\"a\\q b\n$")
    (l := reached (ofSource (text "x\n\"a\\q b\n$")) [.next, .next]) rfl (by rw [hcursor]; decide)
  rw [hcursor] at hcalls
  exact hcalls

end Lexer

end GlyphLexer
