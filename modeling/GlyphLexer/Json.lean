import GlyphLexer.Text.Quoted

/-!
# JSON documents

The JSON that listings are written in: whole numbers, strings, lists and
objects whose fields keep their order.

A document is laid out over lines. Every member of a list and every field of
an object has a line of its own, two blanks further in than the brackets
around it; a list or an object without any is just its brackets.

## Main definitions

* `Json`: A document.
* `Json.layout`: Its text at a given indentation.
* `Json.pretty`: Its text.
-/

namespace GlyphLexer

/-- A JSON document of whole numbers, strings, lists and objects. -/
inductive Json where
  | number (n : Int)
  | string (t : Text)
  | array (items : List Json)
  | object (fields : List (Text × Json))
  deriving Inhabited, Repr

namespace Json

/-- Parts between brackets, each on a line of its own at the inner
    indentation; `indent` is that of the brackets. -/
def block (left right : Text) (indent : Nat) (parts : List Text) : Text :=
  let line (n : Nat) : Text := CodeUnit.newline :: List.replicate n CodeUnit.space
  if parts.isEmpty then left ++ right
  else
    left ++ line (indent + 2) ++ List.intercalate (text "," ++ line (indent + 2)) parts ++
      line indent ++ right

mutual

/-- The text of a document whose brackets are indented by `indent`. -/
def layout (indent : Nat) : Json → Text
  | number n => Text.ofInt n
  | string t => t.quoted
  | array items => block (text "[") (text "]") indent (layoutItems (indent + 2) items)
  | object fields => block (text "\x7b") (text "\x7d") indent (layoutFields (indent + 2) fields)

/-- The texts of the members of a list. -/
def layoutItems (indent : Nat) : List Json → List Text
  | [] => []
  | item :: rest => layout indent item :: layoutItems indent rest

/-- The texts of the fields of an object. -/
def layoutFields (indent : Nat) : List (Text × Json) → List Text
  | [] => []
  | (name, value) :: rest =>
    (name.quoted ++ text ": " ++ layout indent value) :: layoutFields indent rest

end

/-- The text of a document. -/
def pretty (j : Json) : Text := layout 0 j

end Json

end GlyphLexer
