import GlyphLexer.CharacterClass

/-!
# Lines of a YAML document

What the layout of a YAML document is made of: indentation, empty lines,
comments, and the two marks that begin and end a document.

Indentation is made of spaces alone. A tab may separate things within a line,
but what stands behind a tab at the beginning of a line is not indented by
it. A comment begins at a number sign that begins its line or has white space
before it, and ends with the line.

`Line.content` goes over everything that says nothing and stops at the first
unit that does, which it gives as a `Spot`. A mark of a document counts as
the end of what can be read, so readers of nodes never look past it. Before a
document and behind its closing mark, a line may also begin with a byte order
mark, and `Line.prologue` goes over such lines.

## Main definitions

* `Yaml.Line.isGap`, `Yaml.Line.beginsGap`: White space and line breaks.
* `Yaml.Spot`: The first unit of a line that says something, and how it is
  indented.
* `Yaml.Line.content`: The next such place at or below the beginning of a
  line.
* `Yaml.Line.isStrayTab`: An empty line with a tab where an entry could
  begin.
* `Yaml.Line.leftOver`, `Yaml.Line.keeper?`: Empty lines and comments between
  nodes, and the collection they belong to.
* `Yaml.Line.close`: The next line, if nothing but a comment is left of this
  one.
* `Yaml.Line.prologue`: The first line of a document, and whether it has a
  byte order mark.
* `Yaml.Line.isMark`, `Yaml.Spot.isOver`: The marks of documents.

## Theorems

* `Yaml.Line.length_of_close`: The next line is shorter than the text it is
  found in.
-/

namespace GlyphLexer

namespace Yaml

/-- The first unit of a line that says something: the text from there on, the
    number of spaces before it, whether there was a tab between them, and the
    least indentation of what goes on a scalar that begins there. -/
structure Spot where
  rest : Text
  indent : Nat
  tabbed : Bool
  minIndent : Nat
  deriving Inhabited, Repr

namespace Line

/-- A number sign, which begins a comment. -/
abbrev commentSign : CodeUnit := 35

/-- A hyphen, which begins a member of a list. -/
abbrev hyphen : CodeUnit := 45

/-- A colon, which stands between a key and its value. -/
abbrev colon : CodeUnit := 58

/-- A space or a tab. -/
def isSpacing (u : CodeUnit) : Bool := u == CodeUnit.space || u == CodeUnit.tab

/-- White space of any kind, line breaks among it. -/
def isGap (u : CodeUnit) : Bool := u.isTrivia

/-- Begins with white space, or is empty. -/
def beginsGap : Text → Bool
  | [] => true
  | u :: _ => isGap u

/-- The text behind the line break in front: a newline, or a carriage return
    and a newline. A carriage return anywhere else is a unit like others. -/
def behindBreak? : Text → Option Text
  | [] => none
  | [u] => if u = CodeUnit.newline then some [] else none
  | u :: v :: rest =>
    if u = CodeUnit.newline then some (v :: rest)
    else if u = CodeUnit.carriageReturn ∧ v = CodeUnit.newline then some rest
    else none

/-- Writes every line break as one newline. -/
def normalize : Text → Text
  | [] => []
  | u :: rest =>
    if u = CodeUnit.carriageReturn ∧ rest.head? = some CodeUnit.newline then normalize rest
    else u :: normalize rest

/-- Begins with a mark of three units and white space behind it. -/
def beginsMark (mark t : Text) : Bool := mark.isPrefixOf t && beginsGap (t.drop 3)

/-- Begins with the mark that begins a document. -/
def isStart (t : Text) : Bool := beginsMark (text "---") t

/-- Begins with the mark that ends a document. -/
def isStop (t : Text) : Bool := beginsMark (text "...") t

/-- Begins with a mark of a document. -/
def isMark (t : Text) : Bool := isStart t || isStop t

/-- The number of spaces that a line begins with. -/
def indentOf (t : Text) : Nat := (t.takeWhile (· = CodeUnit.space)).length

/-- The least indentation of what goes on a scalar, once the line that `t`
    begins with has been come to. A line that is indented less brings it down
    to its own indentation, but not if only one unit of the line stands
    before the next white space. -/
def lowered (minIndent : Nat) (t : Text) : Nat :=
  if beginsGap (t.drop (indentOf t + 1)) then minIndent else min minIndent (indentOf t)

/-- Goes over spaces, empty lines and comments. `indent` and `tabbed` are
    about the white space so far that the line begins with, and `comment` is
    set within a comment. -/
def contentFrom (minIndent indent : Nat) (tabbed comment : Bool) : Text → Spot
  | [] => ⟨[], indent, tabbed, minIndent⟩
  | u :: rest =>
    if u = CodeUnit.newline then contentFrom (lowered minIndent rest) 0 false false rest
    else if comment then contentFrom minIndent 0 false true rest
    else if (behindBreak? (u :: rest)).isSome then contentFrom minIndent indent tabbed false rest
    else if u = CodeUnit.space then
      contentFrom minIndent (if tabbed then indent else indent + 1) tabbed false rest
    else if u = CodeUnit.tab then contentFrom minIndent indent true false rest
    else if u = commentSign then contentFrom minIndent 0 false true rest
    else ⟨u :: rest, indent, tabbed, minIndent⟩

/-- The first place that says something, from the beginning of a line on,
    where a scalar would have had to be indented by `minIndent` so far. -/
def contentBelow (minIndent : Nat) (t : Text) : Spot :=
  contentFrom (lowered minIndent t) 0 false false t

/-- The first place that says something, from the beginning of a line on. -/
def content (t : Text) : Spot := contentBelow 0 t

/-- The text from the next line on, if nothing but white space and a comment
    is left of this one. A comment needs white space before it; `spaced` says
    that there is some. -/
def close (spaced : Bool) : Text → Option Text
  | [] => some []
  | u :: rest =>
    match behindBreak? (u :: rest) with
    | some next => some next
    | none =>
      if isSpacing u then close true rest
      else if u = commentSign ∧ spaced then
        some ((rest.dropWhile (· ≠ CodeUnit.newline)).drop 1)
      else none

theorem length_of_behindBreak? {t rest : Text} (h : behindBreak? t = some rest) :
    rest.length ≤ t.length - 1 := by
  revert h
  fun_cases behindBreak? t with
  | case1 => simp
  | case2 => simp
  | case3 => simp
  | case4 => rintro ⟨⟩; simp
  | case5 => rintro ⟨⟩; simp
  | case6 => simp

theorem length_of_close {spaced : Bool} {t rest : Text} (h : close spaced t = some rest) :
    rest.length ≤ t.length - 1 := by
  fun_induction close spaced t with
  | case1 => simp_all
  | case2 _ u t next hbreak =>
      rw [← Option.some.inj h]
      exact length_of_behindBreak? hbreak
  | case3 _ u t _ _ ih =>
      have := ih h
      simp only [List.length_cons]
      omega
  | case4 _ u t =>
      rw [← Option.some.inj h, List.length_drop]
      have := (List.dropWhile_suffix (l := t) (· ≠ CodeUnit.newline)).length_le
      simp only [List.length_cons]
      omega
  | case5 => cases h

/-- The mark that a text in UTF-8 or UTF-16 may begin with. -/
abbrev byteOrderMark : CodeUnit := 0xFEFF

/-- Goes over the lines outside of documents: empty lines and comments, each
    of which may have a byte order mark in front. Gives the first other line
    from behind its mark on, and whether there is one. -/
def prologue (t : Text) : Text × Bool :=
  let marked := t.head? = some byteOrderMark
  let line := if marked then t.drop 1 else t
  match _hclose : close true line with
  | some (u :: rest) => prologue (u :: rest)
  | some [] => ([], false)
  | none => (line, marked)
termination_by t.length
decreasing_by
  have hlen := length_of_close _hclose
  have hle : line.length ≤ t.length := by
    simp only [line]
    split
    · rw [List.length_drop]
      omega
    · omega
  simp only [List.length_cons] at hlen ⊢
  omega

/-- The text behind the spaces and tabs in front. -/
def skipSpacing (t : Text) : Text := t.dropWhile isSpacing

/-- A comment that is indented by more than `column`. -/
def isDeepComment (column : Nat) (line : Text) : Bool :=
  decide (column < indentOf line) && (skipSpacing line).head? = some commentSign

/-- Of the lines between a key without a value and the next key, the first
    one, or the first one behind the last deep comment, is white space with a
    tab that is not indented further than the keys. -/
def isStrayTab (column : Nat) (lines : List Text) : Bool :=
  let line := ((lines.reverse.takeWhile fun line => !isDeepComment column line).getLast?).getD []
  decide (indentOf line ≤ column) && line.contains CodeUnit.tab && (skipSpacing line).isEmpty

/-- The lines between a node and the next one that are left to a collection,
    given by the indentation of each comment among them; nothing if no line
    is left. The lines begin with the one below the node, which is a member
    of a list or mapping in column `holder`, and end with the one that the
    next node is in, as far as it goes before that node. A comment that is
    indented further than the holder belongs to the node before it, with the
    empty lines above it, unless another comment stands between them. `found`
    is what the lines before have left. -/
def leftOver (holder : Nat) (found : Option (List Nat)) : List Text → Option (List Nat)
  | [] => found
  | line :: rest =>
    if (skipSpacing line).head? = some commentSign then
      if holder < indentOf line && (found.getD []).isEmpty then leftOver holder none rest
      else leftOver holder (some (found.getD [] ++ [indentOf line])) rest
    else if line.isEmpty && rest.isEmpty then found
    else leftOver holder (some (found.getD [])) rest

/-- The collection that lines with the given comments stay in, among those
    that end with them, which are given by their columns, innermost first.
    Lines leave a collection if all their comments are indented less. -/
def keeper? (columns comments : List Nat) : Option Nat :=
  columns.find? fun column =>
    decide (column ≠ 0) && comments.any fun indent => decide (column ≤ indent)

/-- Begins with a unit that stands for itself where white space follows
    it. -/
def beginsIndicator (u : CodeUnit) : Text → Bool
  | [] => false
  | v :: rest => v == u && beginsGap rest

end Line

/-- Nothing is left of the document: its text or its mark ends here. -/
def Spot.isOver (s : Spot) : Bool :=
  s.rest.isEmpty || (s.indent == 0 && !s.tabbed && Line.isMark s.rest)

end Yaml

end GlyphLexer
