import GlyphLexer.Yaml.Scalar

/-!
# YAML nodes

What a YAML document says: scalars, lists and mappings, where the keys of a
mapping are nodes again. A scalar keeps its style beside its text, and an
entry of a mapping may have no value at all, which differs from a value that
is null only in how the entry is written.

## Main definitions

* `Yaml.Node`: A node of a document.
* `Yaml.Node.null`: The node of nothing.
* `Yaml.Node.equals`: When two keys of a mapping are the same.
-/

namespace GlyphLexer

namespace Yaml

/-- A node of a document. Entries of a mapping stand in the order of the
    document. -/
inductive Node where
  | scalar (style : Style) (t : Text)
  | list (items : List Node)
  | mapping (entries : List (Node × Option Node))
  deriving Inhabited, Repr

namespace Node

/-- A node of which nothing is written. -/
def null : Node := scalar .plain []

/-- A list or a mapping. -/
def isCollection : Node → Bool
  | scalar _ _ => false
  | _ => true

/-- Two keys are the same. Only scalars can be. -/
def equals : Node → Node → Bool
  | scalar style s, scalar style' t => (Scalar.ofText style s).equals (Scalar.ofText style' t)
  | _, _ => false

end Node

end Yaml

end GlyphLexer
