import GlyphLexer.Number.Numeral

/-!
# Values

Data of no fixed shape: what a message template is filled from, and what a
configuration file holds.

`Value.display` is the text of a value inside a message. Text stands for
itself, and a list is the texts of its members with commas between, where
null members leave nothing and inner lists are not bracketed. A mapping shows
only that it is one.

A value is asked for its text under the name `toString`. A mapping that has
an entry of this name has another answer there, which is no text, and then
there is none (`Value.hasText`).

## Main definitions

* `Value`: Null, a boolean, a number, text, a list, or a mapping from texts
  to values.
* `Value.display`: The text of a value inside a message.
* `Value.hasText`: The values that have a text.
* `Context`: The named values that a template is filled from.
-/

namespace GlyphLexer

/-- Data of no fixed shape. The entries of a mapping keep their order. -/
inductive Value where
  | null
  | boolean (b : Bool)
  | number (n : Number)
  | string (t : Text)
  | list (items : List Value)
  | mapping (entries : List (Text × Value))
  deriving Inhabited, Repr

mutual

/-- The text of a value inside a message. -/
def Value.display : Value → Text
  | .null => text "null"
  | .boolean b => if b then text "true" else text "false"
  | .number n => n.numeral
  | .string t => t
  | .list items => List.intercalate (text ",") (Value.displayItems items)
  | .mapping _ => text "[object Object]"

/-- The texts of the members of a list, where null has none. -/
def Value.displayItems : List Value → List Text
  | [] => []
  | .null :: rest => [] :: Value.displayItems rest
  | item :: rest => item.display :: Value.displayItems rest

end

mutual

/-- There is a text for a value: all of it that is shown may be asked for its
    text. -/
def Value.hasText : Value → Bool
  | .mapping entries => entries.all fun entry => entry.1 ≠ text "toString"
  | .list items => Value.haveText items
  | _ => true

/-- There is a text for each of the members of a list. -/
def Value.haveText : List Value → Bool
  | [] => true
  | item :: rest => item.hasText && Value.haveText rest

end

/-- Named values. -/
abbrev Context := List (Text × Value)

end GlyphLexer
