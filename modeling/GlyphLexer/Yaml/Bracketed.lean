import GlyphLexer.Yaml.Node
import GlyphLexer.Yaml.ScalarText

/-!
# YAML nodes within lines

Scalars, and the collections that are written between brackets.

Such a node ends by what stands behind it, and layout matters only where
lines begin: whatever goes on in a new line has to be indented as far as the
node asks for. White space, line breaks and comments may stand between the
parts of a collection. What stands between two commas is a node or a key with
its value; a colon makes a key of what is in front of it, and needs no white
space behind it if the key ends by a mark of its own. A key in a list has to
be on one line with its colon.

Readers give the text behind what they read and have no say about it, and how
the node goes over lines: whether it counts as more than one line, and where
its last line begins. The number that bounds their depth has to be chosen so
large that no text reaches it.

## Main definitions

* `Yaml.LineStart`, `Yaml.Extent`: How a part of a document goes over lines.
* `Yaml.Read`: A node and the text behind it.
* `Yaml.Pair`: A key and its value within brackets.
* `Yaml.flowGap`: What may stand between the parts of a collection.
* `Yaml.node?`: A scalar or a collection.
-/

namespace GlyphLexer

namespace Yaml

/-- How a line begins: the number of its spaces, and the column of what
    stands behind them and behind a colon that the line begins with. -/
structure LineStart where
  indent : Nat
  column : Nat
  deriving Repr

/-- How a part of a document goes over lines. -/
structure Extent where
  /-- It counts as more than one line. -/
  multiline : Bool
  /-- The last line that begins within it, but not within a scalar. -/
  line : Option LineStart
  deriving Repr

/-- The extent of two parts, one behind the other. -/
def Extent.append (first second : Extent) : Extent :=
  ⟨first.multiline || second.multiline, second.line <|> first.line⟩

instance : Append Extent := ⟨Extent.append⟩

/-- The extent of what stands within its line. -/
def Extent.inLine : Extent := ⟨false, none⟩

/-- The indentation of the line that a part ends in if it begins in one that
    is indented by `indent`. -/
def Extent.indentFrom (extent : Extent) (indent : Nat) : Nat :=
  (extent.line.map LineStart.indent).getD indent

/-- How far what stands behind a part is indented if the part begins in
    `column`, where a colon indents what stands behind it in a line. -/
def Extent.columnFrom (extent : Extent) (column : Nat) : Nat :=
  (extent.line.map LineStart.column).getD column

/-- A node and what follows it. -/
structure Read where
  node : Node
  rest : Text
  extent : Extent
  /-- It ends by a mark of its own: a quotation mark or a bracket. -/
  marked : Bool

/-- What stands between the parts of a bracketed collection: the text behind
    it, the number of its line breaks, and the indentation of the line behind
    them. -/
structure Gap where
  rest : Text
  breaks : Nat
  indent : Nat

/-- The indentation of the line that begins with what is behind the gap, if a
    line does. -/
def Gap.start? (gap : Gap) : Option Nat := if gap.breaks = 0 then none else some gap.indent

/-- The extent of a gap of which so many line breaks do not count. -/
def Gap.extent (gap : Gap) (uncounted : Nat) : Extent :=
  ⟨decide (uncounted < gap.breaks), gap.start?.map fun indent => ⟨indent, indent⟩⟩

/-- A closing bracket of either kind. -/
def isClosing (u : CodeUnit) : Bool := u == CodeUnit.ofChar ']' || u == CodeUnit.rightBrace

/-- A place where a bracketed collection may go on in a new line. It must be
    indented like the node it belongs to, but the bracket that closes the
    outermost collection may stand one column to the left of that. A mark of
    a document is one here even behind a tab. -/
def flowResumes (minIndent : Nat) (outer : Bool) (s : Spot) : Bool :=
  !s.rest.isEmpty && !(s.indent == 0 && Line.isMark s.rest) &&
    (decide (minIndent ≤ s.indent) ||
      (outer && s.indent + 1 == minIndent && (s.rest.head?.map isClosing).getD false))

/-- Goes over white space, line breaks and comments between the parts of a
    bracketed collection. Behind a value, and behind a collection that is a
    key, the next line may not begin with a comment. -/
def flowGap (minIndent : Nat) (outer behindValue : Bool) (t : Text) : Option Gap :=
  match Line.skipSpacing t with
  | [] => none
  | u :: rest =>
    if (Line.behindBreak? (u :: rest)).isSome ∨ u = Line.commentSign then
      match Line.close false t with
      | some next =>
        let spot := Line.content next
        if behindValue && next.head? = some Line.commentSign then none
        else if flowResumes minIndent outer spot then
          let breaks := (t.take (t.length - spot.rest.length)).count CodeUnit.newline
          some ⟨spot.rest, breaks, spot.indent⟩
        else none
      | none => none
    else some ⟨u :: rest, 0, 0⟩

/-- The line breaks behind a node that do not make more than one line of what
    it is in. A collection takes the first of them with it. -/
def ownBreaks (node : Node) : Nat := if node.isCollection then 1 else 0

/-- The extent of a colon in front of a text, where `start?` is the
    indentation of the line if the colon begins one. -/
def colonExtent (start? : Option Nat) (behind : Text) : Extent :=
  let gap := behind.takeWhile Line.isSpacing
  let width := if gap.head? = some CodeUnit.space then gap.length else 0
  ⟨false, start?.map fun indent => ⟨indent, indent + 1 + width⟩⟩

/-- A scalar as a node. -/
def Folded.toRead (f : Folded) (style : Style) : Read :=
  ⟨.scalar style f.value, f.rest, ⟨f.multiline, none⟩, decide (style ≠ .plain)⟩

/-- The key is among those of the entries. -/
def hasKey (key : Node) (entries : List (Node × Option Node)) : Bool :=
  entries.any fun entry => entry.1.equals key

/-- A key that is not written. -/
def emptyRead (t : Text) : Read := ⟨.null, t, .inLine, false⟩

/-- What stands between two commas of a bracketed collection: a node, or a
    key and its value. -/
structure Pair where
  key : Node
  value : Option Node
  /-- What comes before the colon is on one line and not too long. -/
  inLine : Bool
  rest : Text
  extent : Extent

/-- The most units that a key may have, counted up to its colon. -/
def longestKey : Nat := 1024

mutual

/-- Reads a scalar or a bracketed collection. `inFlow` says that it stands
    within brackets. -/
def node? (inFlow : Bool) (minIndent : Nat) : Nat → Text → Option Read
  | 0, _ => none
  | _, [] => none
  | depth + 1, u :: rest =>
    if u = CodeUnit.quote then
      (doubleQuoted? minIndent rest).map fun f => f.toRead .doubleQuoted
    else if u = 39 then
      (singleQuoted? minIndent rest).map fun f => f.toRead .singleQuoted
    else if u = CodeUnit.ofChar '[' then
      flowItems? minIndent (!inFlow) depth [] .inLine rest
    else if u = CodeUnit.leftBrace then
      flowEntries? minIndent (!inFlow) depth [] .inLine rest
    else (plain? inFlow minIndent (u :: rest)).map fun f => f.toRead .plain

/-- Reads what stands between two commas, and goes over the line breaks
    behind it. `start?` is the indentation of the line if the pair begins
    one. -/
def flowPair? (minIndent : Nat) (outer inMapping : Bool) :
    Nat → Option Nat → Text → Option Pair
  | 0, _, _ => none
  | depth + 1, start?, t => do
    let isEmpty := beginsColon true t
    let key ← if isEmpty then some (emptyRead t) else node? true minIndent depth t
    let gap ← flowGap minIndent outer (inMapping && key.node.isCollection) key.rest
    let extent := key.extent ++ gap.extent (ownBreaks key.node)
    if gap.rest.head? = some Line.colon ∧ (key.marked ∨ beginsColon true gap.rest) then
      let inLine := !extent.multiline && decide (t.length - gap.rest.length ≤ longestKey)
      let behind := gap.rest.drop 1
      let inner ← flowGap minIndent outer false behind
      let extent :=
        extent ++ colonExtent (if isEmpty then start? else gap.start?) behind ++ inner.extent 0
      if (inner.rest.head?.map fun u => u == CodeUnit.ofChar ',' || isClosing u).getD false then
        return ⟨key.node, some .null, inLine, inner.rest, extent⟩
      else
        let value ← node? true minIndent depth inner.rest
        let next ← flowGap minIndent outer true value.rest
        return ⟨key.node, some value.node, inLine, next.rest,
          extent ++ value.extent ++ next.extent (ownBreaks value.node)⟩
    else
      let uncounted := if !inMapping && key.node.isCollection then gap.breaks
        else ownBreaks key.node
      return ⟨key.node, none, true, gap.rest, key.extent ++ gap.extent uncounted⟩

/-- Reads the members of a bracketed list from behind its opening bracket or
    a comma. A member with a colon is a mapping of one entry. The members
    before are given last first, with their extent. -/
def flowItems? (minIndent : Nat) (outer : Bool) : Nat → List Node → Extent → Text → Option Read
  | 0, _, _, _ => none
  | depth + 1, found, extent, t => do
    let gap ← flowGap minIndent outer false t
    let extent := extent ++ gap.extent 0
    if gap.rest.head? = some (CodeUnit.ofChar ']') then
      return ⟨.list found.reverse, gap.rest.drop 1, extent, true⟩
    else
      let pair ← flowPair? minIndent outer false depth gap.start? gap.rest
      let item ← match pair.value with
        | none => some pair.key
        | some value => if pair.inLine then some (.mapping [(pair.key, some value)]) else none
      let extent := extent ++ pair.extent
      if pair.rest.head? = some (CodeUnit.ofChar ',') then
        flowItems? minIndent outer depth (item :: found) extent (pair.rest.drop 1)
      else if pair.rest.head? = some (CodeUnit.ofChar ']') then
        return ⟨.list (item :: found).reverse, pair.rest.drop 1, extent, true⟩
      else none

/-- Reads the entries of a bracketed mapping from behind its opening bracket
    or a comma. A key alone has no value. The entries before are given last
    first, with their extent. -/
def flowEntries? (minIndent : Nat) (outer : Bool) :
    Nat → List (Node × Option Node) → Extent → Text → Option Read
  | 0, _, _, _ => none
  | depth + 1, found, extent, t => do
    let gap ← flowGap minIndent outer false t
    let extent := extent ++ gap.extent 0
    if gap.rest.head? = some CodeUnit.rightBrace then
      return ⟨.mapping found.reverse, gap.rest.drop 1, extent, true⟩
    else
      let pair ← flowPair? minIndent outer true depth gap.start? gap.rest
      let extent := extent ++ pair.extent
      let entries := (pair.key, pair.value) :: found
      if hasKey pair.key found then none
      else if pair.rest.head? = some (CodeUnit.ofChar ',') then
        flowEntries? minIndent outer depth entries extent (pair.rest.drop 1)
      else if pair.rest.head? = some CodeUnit.rightBrace then
        return ⟨.mapping entries.reverse, pair.rest.drop 1, extent, true⟩
      else none

end

end Yaml

end GlyphLexer
