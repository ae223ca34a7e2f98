import GlyphLexer.Catalogue
import GlyphLexer.CharacterClass

/-!
# Explanations

The catalogue entry of a fault written out for a reader: identifier, kind and
description in one line, then sections for the message template, the cause,
the remedy and the examples.

Section bodies are indented by two blanks and code by four, line by line.
Blanks and line breaks at the end of the whole are dropped.

## Main definitions

* `Explanation.isErrorId`: The form of identifiers.
* `Explanation.ofEntry`: An entry written out.
* `explain?`: The explanation of an identifier.
-/

namespace GlyphLexer

namespace Explanation

/-- Has the form of an identifier: `GLY-L` and three digits. -/
def isErrorId (id : Text) : Bool :=
  (text "GLY-L").isPrefixOf id && (id.drop 5).length == 3 && (id.drop 5).all CodeUnit.isDigit

/-- The lines of a text, each indented by `width` blanks. -/
def indented (width : Nat) (t : Text) : List Text :=
  t.lines.map fun line => List.replicate width CodeUnit.space ++ line

/-- A titled section and the empty line behind it. -/
def titled (title : Text) (body : List Text) : List Text := (title ++ text ":") :: body ++ [[]]

/-- An example: what is wrong, and the code that has it. -/
def ofExample (e : Catalogue.Example) : List Text :=
  indented 2 e.description ++ [[]] ++ indented 4 e.code ++ [[]]

/-- The lines of an entry written out. -/
def ofEntry (e : Catalogue.Entry) : List Text :=
  [e.kind.id ++ text " (" ++ e.kind.name ++ text "): " ++ e.description, []] ++
    titled (text "Message") (indented 2 e.template) ++
    titled (text "Cause") (indented 2 e.cause) ++
    titled (text "Resolution") (indented 2 e.resolution) ++
    text "Examples:" :: e.examples.flatMap ofExample

/-- Drops blanks and line breaks at the end of a text. -/
def trimEnd (t : Text) : Text := (t.reverse.dropWhile CodeUnit.isTrivia).reverse

end Explanation

/-- The explanation of an identifier, if it has the form of one and the
    catalogue has it. -/
def explain? (id : Text) : Option Text :=
  if Explanation.isErrorId id then
    (Catalogue.find? id).map fun entry =>
      Explanation.trimEnd (Text.unlines (Explanation.ofEntry entry))
  else none

end GlyphLexer
