import GlyphLexer.Text.Quoted
import GlyphLexer.Yaml.Node

/-!
# Keys as text

The text of a node that is the key of an entry.

A scalar is the text of what it stands for, and null is the empty text. A
collection is written out between brackets, and its scalars as in a document:
quoted ones with their own marks, plain ones as they were, unless plain text
would be taken for something else, and numbers in one form for each way to
write them. It stands on one line if it fits into eighty units, and otherwise
has one line for each member, indented by two.

## Main definitions

* `Yaml.doubleQuoted`, `Yaml.singleQuoted`: A text between quotation marks.
* `Yaml.writtenScalar`: A scalar within a key.
* `Yaml.bracketed`: The members of a collection between brackets.
* `Yaml.Node.written`: A node within a key.
* `Yaml.Node.keyText`: The text of a key.
-/

namespace GlyphLexer

namespace Yaml

/-! ### Text between quotation marks -/

/-- A unit between double quotation marks. Of the control characters, those
    without an escape of one letter are named by two digits. -/
def doubleQuotedUnit (u : CodeUnit) : Text :=
  if u = 0 then text "\\0"
  else if u = 7 then text "\\a"
  else if u = 11 then text "\\v"
  else if u = 27 then text "\\e"
  else if u < 32 ∧ (Text.escapedUnit u).length = 6 then
    text "\\x" ++ (Text.escapedUnit u).drop 4
  else if u < 128 then Text.escapedUnit u
  else [u]

/-- A text between double quotation marks. -/
def doubleQuoted (t : Text) : Text :=
  CodeUnit.quote :: t.flatMap doubleQuotedUnit ++ [CodeUnit.quote]

/-- A text between single quotation marks, with each mark inside written
    twice. -/
def singleQuoted (t : Text) : Text :=
  39 :: (t.flatMap fun u => if u = 39 then [39, 39] else [u]) ++ [39]

/-- A control character, which only double quotation marks can hold. -/
def isControl (u : CodeUnit) : Bool :=
  (u < 32 && u != CodeUnit.tab && u != CodeUnit.newline) || (127 ≤ u && u < 160)

/-- A text that plain would be read as something else: with a unit in front,
    inside or at the end that has a meaning there. -/
def needsMarks (t : Text) : Bool :=
  (t.getLast?.map fun u => u == CodeUnit.ofChar ':' || u == CodeUnit.ofChar '-').getD false

/-- A plain text within a key. It gets marks if it needs them, single ones
    only to save escapes. -/
def writtenPlain (t : Text) : Text :=
  if t.any isControl then doubleQuoted t
  else if needsMarks t then
    if CodeUnit.quote ∈ t ∧ (39 : CodeUnit) ∉ t then singleQuoted t else doubleQuoted t
  else t

/-! ### Numbers -/

/-- A numeral with at least so many digits behind its point, unless it is
    negative. -/
def withFraction (digits : Nat) (numeral : Text) : Text :=
  let fraction := (numeral.dropWhile (· ≠ CodeUnit.dot)).drop 1
  if digits = 0 ∨ numeral.head? = some (CodeUnit.ofChar '-') then numeral
  else
    (if CodeUnit.dot ∈ numeral then numeral else numeral ++ [CodeUnit.dot]) ++
      List.replicate (digits - fraction.length) (CodeUnit.ofChar '0')

/-- The number of digits behind the point that a number keeps: those that it
    was written with, if the last of them is a zero. -/
def keptFraction (t : Text) : Nat :=
  if CodeUnit.dot ∈ t ∧ t.getLast? = some (CodeUnit.ofChar '0') then
    ((t.dropWhile (· ≠ CodeUnit.dot)).drop 1).length
  else 0

/-- A whole magnitude in a base of at most sixteen. -/
def inBase (base scaled : Nat) : Text :=
  (Nat.toDigits base (scaled / Number.scale)).map CodeUnit.ofChar

/-- A number within a key, where `t` is how it was written: in the base that
    it was written in, with an exponent if it had one, and otherwise as its
    numeral. -/
def writtenNumber (t : Text) : Number → Text
  | .nan => text ".nan"
  | .infinite negative => if negative then text "-.inf" else text ".inf"
  | .finite negative scaled =>
    if (text "0x").isPrefixOf t then text "0x" ++ inBase 16 scaled
    else if (text "0o").isPrefixOf t then text "0o" ++ inBase 8 scaled
    else if CodeUnit.ofChar 'e' ∈ t ∨ CodeUnit.ofChar 'E' ∈ t then
      (Number.finite negative scaled).scientific
    else withFraction (keptFraction t) (Number.finite negative scaled).numeral

/-! ### Nodes -/

/-- A scalar within a key. -/
def writtenScalar (style : Style) (t : Text) : Text :=
  match style, Scalar.ofText style t with
  | .plain, .number n => writtenNumber t n
  | .plain, .string t => writtenPlain t
  | .plain, _ => t
  | .singleQuoted, _ => if t.any isControl then doubleQuoted t else singleQuoted t
  | .doubleQuoted, _ => doubleQuoted t

/-- Adds a comma to all parts but the last. -/
def separated : List Text → List Text
  | [] => []
  | [last] => [last]
  | part :: rest => (part ++ text ",") :: separated rest

/-- The width of a line that a bracketed collection may have. -/
def lineWidth : Nat := 80

/-- The parts of a collection between brackets, on one line, or on a line
    each if they do not fit into one. `indent` is that of the brackets. -/
def bracketed (indent : Nat) (left right : Text) (parts : List Text) : Text :=
  let parts := separated parts
  let width := parts.foldl (fun width part => width + part.length + 2) 2
  if parts.isEmpty then left ++ right
  else if lineWidth < width ∨ parts.any (·.contains CodeUnit.newline) then
    let line (part : Text) : Text :=
      CodeUnit.newline :: List.replicate (indent + 2) CodeUnit.space ++ part
    left ++ parts.flatMap line ++ CodeUnit.newline :: List.replicate indent CodeUnit.space ++ right
  else left ++ text " " ++ List.intercalate (text " ") parts ++ text " " ++ right

/-- An entry: its key and its value, if it has one. A collection as a key has
    a mark in front, and its value in a line below, which is indented by
    `indent`. -/
def writtenEntry (indent : Nat) (isCollection : Bool) (key : Text) (value : Option Text) : Text :=
  let front := if isCollection then text "? " ++ key else key
  match value with
  | none => front
  | some value =>
    front ++
      (if isCollection then CodeUnit.newline :: List.replicate indent CodeUnit.space else []) ++
      text ":" ++ (if value.isEmpty then [] else text " " ++ value)

mutual

/-- A node within a key, where `indent` is the indentation of the line it is
    in. -/
def Node.written (indent : Nat) : Node → Text
  | .scalar style t => writtenScalar style t
  | .list items => bracketed indent (text "[") (text "]") (Node.writtenItems (indent + 2) items)
  | .mapping entries =>
    bracketed indent (text "\x7b") (text "\x7d") (Node.writtenEntries (indent + 2) entries)

/-- The members of a list within a key. -/
def Node.writtenItems (indent : Nat) : List Node → List Text
  | [] => []
  | item :: rest => item.written indent :: Node.writtenItems indent rest

/-- The entries of a mapping within a key. -/
def Node.writtenEntries (indent : Nat) : List (Node × Option Node) → List Text
  | [] => []
  | (key, some value) :: rest =>
    writtenEntry indent key.isCollection (key.written (indent + 2))
        (some (value.written (indent + 2)))
      :: Node.writtenEntries indent rest
  | (key, none) :: rest =>
    writtenEntry indent key.isCollection (key.written (indent + 2)) none
      :: Node.writtenEntries indent rest

end

/-- The text of a key. -/
def Node.keyText : Node → Text
  | .scalar style t =>
    match Scalar.ofText style t with
    | .null => []
    | s => s.toValue.display
  | key => key.written 0

end Yaml

end GlyphLexer
