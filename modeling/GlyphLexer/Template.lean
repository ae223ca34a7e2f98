import GlyphLexer.Value

/-!
# Message templates

Templates are texts with placeholders. A placeholder is a name in braces, and
filling a template puts the value of that name in its place, or nothing if
the context does not have the name. What is put in is never looked at again,
so a value may hold braces.

An opening brace directly before another one stands for itself. An opening
brace that should begin a placeholder but has no closing brace after it
spoils the template: it is then taken as it stands, all of it.

Values are asked for their texts from left to right, and a brace that is not
closed is met only after the placeholders before it. A value that has no text
is therefore a failure in a spoiled template too.

## Main definitions

* `Template.Piece`: A unit that stands for itself, or a placeholder.
* `Template.cut`: The pieces of a template up to a placeholder that is not
  closed, and what is left.
* `Template.render`: A template filled from a context.
* `Template.names`, `Template.hasTexts`: The names that a template asks for,
  and whether their values have texts.
* `Template.render?`: The same as `Template.render`, if the values that are
  asked for have texts.

## Theorems

* `Template.length_dropWhile_le`: What is left behind a run is no longer than
  the whole.
* `Template.render?_of_hasText`: Values that have texts fill any template.
-/

namespace GlyphLexer

namespace Template

/-- A part of a template. -/
inductive Piece where
  | plain (u : CodeUnit)
  | placeholder (name : Text)
  deriving DecidableEq, Repr

/-- What a piece turns into: itself, or the text of the value it names. -/
def Piece.fill (context : Context) : Piece → Text
  | plain u => [u]
  | placeholder name =>
    match context.lookup name with
    | some value => value.display
    | none => []

/-- The name that a piece asks for. -/
def Piece.name? : Piece → Option Text
  | plain _ => none
  | placeholder name => some name

theorem length_dropWhile_le (p : CodeUnit → Bool) (t : Text) : (t.dropWhile p).length ≤ t.length :=
  (List.dropWhile_suffix p).length_le

/-- The pieces of a template up to a placeholder that is not closed, and what
    is left from there on, which is nothing if every placeholder is
    closed. -/
def cut : Text → List Piece × Text
  | [] => ([], [])
  | u :: rest =>
    if u = CodeUnit.leftBrace ∧ rest.head? ≠ some CodeUnit.leftBrace then
      match _hrest : rest.dropWhile (· ≠ CodeUnit.rightBrace) with
      | [] => ([], u :: rest)
      | _ :: behind =>
        (cut behind).map (.placeholder (rest.takeWhile (· ≠ CodeUnit.rightBrace)) :: ·) id
    else (cut rest).map (.plain u :: ·) id
termination_by t => t.length
decreasing_by
  · have := length_dropWhile_le (· ≠ CodeUnit.rightBrace) rest
    rw [_hrest] at this
    simp only [List.length_cons] at this ⊢
    omega
  · simp only [List.length_cons]
    omega

/-- A template filled from a context; a template with a placeholder that is
    not closed is taken as it stands. -/
def render (template : Text) (context : Context) : Text :=
  match cut template with
  | (pieces, []) => pieces.flatMap (Piece.fill context)
  | (_, _ :: _) => template

/-- The names that a template asks for, in order, up to a placeholder that is
    not closed. -/
def names (template : Text) : List Text := (cut template).1.filterMap Piece.name?

/-- The values that a template asks for have texts, as far as the context has
    them. -/
def hasTexts (template : Text) (context : Context) : Bool :=
  (names template).all fun name => (context.lookup name).all Value.hasText

/-- A template filled from a context, or nothing if a value that it asks for
    has no text. -/
def render? (template : Text) (context : Context) : Option Text :=
  if hasTexts template context then some (render template context) else none

/-- Values that have texts fill any template. -/
theorem render?_of_hasText {context : Context} (h : ∀ entry ∈ context, entry.2.hasText = true)
    (template : Text) : render? template context = some (render template context) := by
  have hall : hasTexts template context = true := by
    rw [hasTexts, List.all_eq_true]
    intro name _
    cases hlookup : context.lookup name with
    | none => rfl
    | some value =>
        rcases List.lookup_eq_some_iff.1 hlookup with ⟨before, behind, hcontext, _⟩
        have hmem : (name, value) ∈ context := by
          rw [hcontext]
          exact List.mem_append_right before List.mem_cons_self
        exact h (name, value) hmem
  rw [render?, if_pos hall]

end Template

end GlyphLexer
