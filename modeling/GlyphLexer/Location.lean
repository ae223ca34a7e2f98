import GlyphLexer.Text

/-!
# Locations

Where something stands in a program text, and how far reading has come.

A `Location` is what tokens and errors carry. Its fields are integers because
callers may write any location into an error or a token; the ones that the
lexer makes count lines and columns from one and offsets from zero.

A `Cursor` is what reading moves. It keeps the offset of the next unit, the
number of the current line, and the offset at which that line begins, from
which the column follows. Passing a newline begins a line; `Cursor.advance`
may also move past the end of the text, and then only the offset grows.

## Main definitions

* `Location`: Line, column and offset.
* `Cursor`: The offset of the next unit and the line it is on.
* `Cursor.beyond`: The cursor after passing a text.
* `Cursor.advance`: The cursor after so many units of a text, or so many
  places when it ends before.

## Theorems

* `Cursor.beyond_append`: Passing two texts is passing one and then the
  other.
* `Cursor.pos_beyond`: Passing a text moves the offset by its length.
* `Cursor.advance_length`: Advancing by the length of a text is passing it.
-/

namespace GlyphLexer

/-- A place in a text: line and column counted from one, offset counted from
    zero. -/
structure Location where
  line : Int
  column : Int
  offset : Int
  deriving DecidableEq, Repr

/-- How far reading has come: the offset of the next unit, the number of its
    line, and the offset at which that line begins. -/
structure Cursor where
  pos : Nat
  line : Nat
  lineStart : Nat
  deriving DecidableEq, Repr

namespace Cursor

/-- Nothing has been read. -/
def start : Cursor := ⟨0, 1, 0⟩

/-- The location of the next unit. -/
def location (c : Cursor) : Location := ⟨c.line, c.pos - c.lineStart + 1, c.pos⟩

/-- The cursor after one unit. A newline begins the next line. -/
def past (c : Cursor) (u : CodeUnit) : Cursor :=
  if u = CodeUnit.newline then ⟨c.pos + 1, c.line + 1, c.pos + 1⟩
  else ⟨c.pos + 1, c.line, c.lineStart⟩

/-- The cursor after every unit of a text. -/
def beyond (c : Cursor) (t : Text) : Cursor := t.foldl past c

/-- The cursor `n` places further on in a text. Places past its end are on no
    new line. -/
def advance (c : Cursor) : Nat → Text → Cursor
  | 0, _ => c
  | n + 1, [] => ⟨c.pos + (n + 1), c.line, c.lineStart⟩
  | n + 1, u :: rest => (c.past u).advance n rest

@[simp] theorem beyond_nil (c : Cursor) : c.beyond [] = c := rfl

@[simp] theorem beyond_cons (c : Cursor) (u : CodeUnit) (t : Text) :
    c.beyond (u :: t) = (c.past u).beyond t := rfl

theorem beyond_append (c : Cursor) (s t : Text) : c.beyond (s ++ t) = (c.beyond s).beyond t :=
  List.foldl_append

@[simp] theorem pos_past (c : Cursor) (u : CodeUnit) : (c.past u).pos = c.pos + 1 := by
  unfold past
  split <;> rfl

theorem pos_beyond (c : Cursor) (t : Text) : (c.beyond t).pos = c.pos + t.length := by
  induction t generalizing c with
  | nil => rfl
  | cons u t ih => rw [beyond_cons, ih, pos_past, List.length_cons]; omega

theorem advance_length (c : Cursor) (t rest : Text) :
    c.advance t.length (t ++ rest) = c.beyond t := by
  induction t generalizing c with
  | nil => cases rest <;> rfl
  | cons u t ih => exact ih (c.past u)

end Cursor

end GlyphLexer
