import GlyphLexer.Yaml.KeyText

/-!
# The data of YAML nodes

Data is plainer than nodes, for its mappings have texts as keys.
`Node.toValue` writes each key as text and lets the later of two entries with
one text win. The entries of the result come in a fixed order: first those
whose key is an index, by increasing index, then the others as they stand in
the document. An index is a natural number below `2 ^ 32 - 1` in its shortest
decimal form.

## Main definitions

* `Yaml.index?`: The index that a key is.
* `Yaml.orderEntries`: Entries in the order of data.
* `Yaml.Node.toValue`: The data of a node.
-/

namespace GlyphLexer

namespace Yaml

/-- The index that a text is, if it is one. -/
def index? (t : Text) : Option Nat :=
  match Text.natural? 10 t with
  | some n => if Text.ofNat n = t ∧ n < Nat.pow 2 32 - 1 then some n else none
  | none => none

/-- Puts an entry among others, in the place of an earlier one with the same
    key if there is one. -/
def putEntry (entry : Text × Value) : List (Text × Value) → List (Text × Value)
  | [] => [entry]
  | other :: rest => if other.1 = entry.1 then entry :: rest else other :: putEntry entry rest

/-- Puts an entry whose key is an index among others by increasing index. -/
def insertByIndex (index : Nat) (entry : Text × Value) :
    List (Nat × Text × Value) → List (Nat × Text × Value)
  | [] => [(index, entry)]
  | other :: rest =>
    if other.1 ≤ index then other :: insertByIndex index entry rest
    else (index, entry) :: other :: rest

/-- Entries in the order of data: those with an index for a key by increasing
    index, then the others in the order given. -/
def orderEntries (entries : List (Text × Value)) : List (Text × Value) :=
  let indexed := entries.foldl (fun sorted entry =>
    match index? entry.1 with
    | some n => insertByIndex n entry sorted
    | none => sorted) []
  indexed.map Prod.snd ++ entries.filter fun entry => (index? entry.1).isNone

mutual

/-- The data of a node. -/
def Node.toValue : Node → Value
  | .scalar style t => (Scalar.ofText style t).toValue
  | .list items => .list (Node.toValues items)
  | .mapping entries =>
    .mapping
      (orderEntries ((Node.toEntries entries).foldl (fun acc entry => putEntry entry acc) []))

/-- The data of the members of a list. -/
def Node.toValues : List Node → List Value
  | [] => []
  | item :: rest => item.toValue :: Node.toValues rest

/-- The data of the entries of a mapping, in the order of the document. -/
def Node.toEntries : List (Node × Option Node) → List (Text × Value)
  | [] => []
  | (key, some value) :: rest => (key.keyText, value.toValue) :: Node.toEntries rest
  | (key, none) :: rest => (key.keyText, .null) :: Node.toEntries rest

end

end Yaml

end GlyphLexer
