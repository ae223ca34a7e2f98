import GlyphLexer.Yaml.Bracketed

/-!
# YAML nodes over lines

Mappings and lists without brackets, which are known by their layout.

The entries of a mapping begin in one column, the members of a list have
their hyphens in one column, and what belongs to an entry or member is
indented further. Only a list may stand in the column of the mapping that it
is a value of. A mapping is known by its first key, so whatever could be a
key is read first and then looked at from behind: a colon makes it a key, and
the end of the line makes it the node itself. Keys stand on one line and
differ from each other.

A colon usually follows its key in the same line. It may also begin a line:
without a key, in which case the line may be indented further than the other
keys, or below its key, unless that is the first of its mapping. Behind a
value in brackets, a colon begins an entry without a key.

A bracketed key may end in a later line than it begins in, and what is behind
its colon is then indented as that line is. If that is less than the mapping
asks for, the mapping ends with a key without a value, and what is behind
goes on one of the collections that the mapping is in, as if it began its
line there. So a node may end in the middle of a line.

How far a line has to be indented to go on a scalar is told by the line of
the last hyphen or colon, and lowered by the lines in between. Comments and
empty lines between two nodes belong to the first, to one of the collections
that end with it, or to the one that goes on. That shows in two places: a tab
at their end may count as indentation, and a bracketed key may follow lines
that its mapping keeps only if the mapping also ends with such lines.

Readers give the text from the beginning of the next line on, or the rest of
the line with its indentation. The number that bounds their depth has to be
chosen so large that no text reaches it.

## Main definitions

* `Yaml.BlockRead`: A node and what is behind it.
* `Yaml.Entry`, `Yaml.entry?`: An entry of a mapping up to its colon.
* `Yaml.blockNode?`: A node that may be laid out over lines.
* `Yaml.valueBelow?`: A value in the lines below its key or hyphen.
* `Yaml.blockEntries?`, `Yaml.blockItems?`: The entries of a mapping, and the
  members of a list, each read from one of them on.
* `Yaml.moreEntries?`, `Yaml.moreItems?`: The same from behind one of them
  on.
-/

namespace GlyphLexer

namespace Yaml

/-- A node and the text behind it. -/
structure BlockRead where
  node : Node
  /-- The text from the beginning of the next line on, unless `beside` is
      set. -/
  rest : Text
  /-- The least indentation of what would go on a scalar at the end of the
      node. -/
  minIndent : Nat
  /-- The text goes on in the line that the node ends in, and is indented by
      so much. -/
  beside : Option Nat
  /-- The columns of the collections that end with the node, innermost first.
      There is nothing to say about them if what ends is null for lack of a
      value. -/
  ending : Option (List Nat)

/-- A value that is not there, with the text from the next line on. -/
def BlockRead.missing (rest : Text) (minIndent : Nat) : BlockRead :=
  ⟨.null, rest, minIndent, none, none⟩

/-- A value that is not there, with text behind it in its line. -/
def BlockRead.missingBeside (rest : Text) (minIndent column : Nat) : BlockRead :=
  ⟨.null, rest, minIndent, some column, none⟩

/-- The first place behind a node, which is in a later line, that says
    something. -/
def BlockRead.spot (read : BlockRead) : Spot := Line.contentBelow read.minIndent read.rest

/-- A collection that ends with the given node. -/
def BlockRead.close (read : BlockRead) (column : Nat) (node : Node) : BlockRead :=
  { read with node := node, ending := read.ending.map (· ++ [column]) }

/-- The lines of a text as far as its rest. -/
def linesBefore (t rest : Text) : List Text :=
  (Line.normalize (t.take (t.length - rest.length))).lines

/-- The lines behind a node as far as a spot, as they are left to the
    collections that end with it, if any is left. The node is a member of a
    collection in `column`, or of the innermost that ends with it. -/
def BlockRead.leftOver (read : BlockRead) (column : Nat) (spot : Spot) : Option (List Nat) :=
  match read.ending with
  | some columns =>
    Line.leftOver (columns.head?.getD column) none (linesBefore read.rest spot.rest)
  | none => none

/-- Begins with an opening bracket. -/
def beginsBracket (t : Text) : Bool :=
  (t.head?.map fun u => u == CodeUnit.leftBrace || u == CodeUnit.ofChar '[').getD false

/-- Reads what may be a key, and what follows it on its line. -/
def keyOrNode? (minIndent depth : Nat) (t : Text) : Option (Read × Text) := do
  let read ← if beginsColon false t then some (emptyRead t) else node? false minIndent depth t
  return (read, Line.skipSpacing read.rest)

/-- The colon in front of `behind` makes a key of what was read from the
    front of `t`: the key is on one line, and the colon not too far from its
    beginning. -/
def isKey (t : Text) (read : Read) (behind : Text) : Bool :=
  beginsColon false behind && !read.extent.multiline &&
    decide (t.length - behind.length ≤ longestKey)

/-- An entry of which the colon has been read. -/
structure Entry where
  key : Node
  /-- The text behind the colon. -/
  value : Text
  /-- How far that is indented. -/
  column : Nat
  /-- The least indentation of what goes on a scalar in the entry. -/
  minIndent : Nat
  /-- The colon is in a line below its key. -/
  isBelow : Bool

/-- The entry of a key in front of `t`, in a line that is indented by
    `indent`. The key begins in `column`, and its colon is in front of
    `behind`. A colon that begins its line indents what is behind it. -/
def Entry.ofKey (key : Read) (t behind : Text) (indent column : Nat) : Entry :=
  ⟨key.node, behind.drop 1,
    if beginsColon false t then column + 1 else key.extent.columnFrom column,
    key.extent.indentFrom indent + 1, false⟩

/-- The entry of a colon without a key that begins a line which is indented
    by `column`. -/
def Entry.ofColon (t : Text) (column : Nat) : Entry := .ofKey (emptyRead t) t t column column

/-- The comments in the lines behind a value of a mapping in `column`, given
    by their indentation, if lines are left there and no collection that ends
    with the value keeps them. -/
def commentsBehind? (column : Nat) (read : BlockRead) (spot : Spot) : Option (List Nat) :=
  match read.leftOver column spot with
  | some comments =>
    if (Line.keeper? (read.ending.getD []) comments).isNone then some comments else none
  | none => none

/-- A bracketed collection that is a key begins behind lines that are left to
    its mapping in `column`. -/
def isDetached (column : Nat) (read : BlockRead) (spot : Spot) : Bool :=
  beginsBracket spot.rest && (commentsBehind? column read spot).isSome

/-- The lines behind a mapping in `column` that ends with the given value are
    its own. -/
def keepsLines (column : Nat) (read : BlockRead) (spot : Spot) : Bool :=
  ((commentsBehind? column read spot).bind (Line.keeper? [column])).isSome

/-- Reads the key of an entry of a mapping in `column`, from the beginning of
    the key to behind the colon. Unless the key is the first of its mapping,
    the colon may also begin a later line that is indented further than the
    keys. Below a bracketed key `beside` another entry, the next line may not
    begin with a comment, and may begin with the colon if it is indented like
    the keys. -/
def entry? (column depth : Nat) (beside : Bool) (key : Spot) : Option Entry := do
  let (read, behind) ← keyOrNode? key.minIndent depth key.rest
  if isKey key.rest read behind then
    let entry := Entry.ofKey read key.rest behind key.indent column
    if entry.column < column then none else return entry
  else
    let below ← Line.close false read.rest
    let spot := Line.content below
    let takesLine := beside && read.node.isCollection
    let isNext := takesLine && (linesBefore below spot.rest).length == 1
    let isBelow := decide (column < spot.indent) && !spot.tabbed
    if !isKey key.rest read spot.rest then none
    else if takesLine && below.head? = some Line.commentSign then none
    else if isBelow || (isNext && decide (column ≤ spot.indent)) then
      return ⟨read.node, spot.rest.drop 1, spot.indent + 1, spot.indent + 1, !isNext⟩
    else none

/-- Reads a value in the line of its colon. Behind a bracketed collection
    that is indented just like the mapping in `column`, a colon may follow,
    which begins another entry. -/
def inlineValue? (column : Nat) (entry : Entry) (depth : Nat) (t : Text) : Option BlockRead := do
  let (read, behind) ← keyOrNode? entry.minIndent depth t
  if beginsColon false behind then
    if entry.column = column ∧ read.node.isCollection then
      return ⟨read.node, behind, read.extent.indentFrom (entry.minIndent - 1) + 1,
        some (read.extent.columnFrom entry.column), none⟩
    else none
  else
    let rest ← Line.close false read.rest
    return ⟨read.node, rest, entry.minIndent, none, some []⟩

/-- The lines behind a node end in a tab, and are left to a collection that
    ends with the node and is indented no less. -/
def endsInTab (read : BlockRead) (spot : Spot) : Bool :=
  spot.tabbed &&
    match (read.leftOver 0 spot).bind (Line.keeper? (read.ending.getD [])) with
    | some column => decide (spot.indent ≤ column)
    | none => false

mutual

/-- Reads a node at a column. `collections` says that a mapping or list may
    begin here without brackets. -/
def blockNode? (minIndent column : Nat) (collections : Bool) : Nat → Text → Option BlockRead
  | 0, _ => none
  | depth + 1, t =>
    if Line.beginsIndicator Line.hyphen t then
      if collections then blockItems? column depth [] t else none
    else do
      let (first, behind) ← keyOrNode? minIndent depth t
      if beginsColon false behind then
        if collections && isKey t first behind then
          blockEntries? column depth [] false (.ofKey first t behind column column)
        else none
      else
        let rest ← Line.close false first.rest
        return ⟨first.node, rest, minIndent, none, some []⟩
termination_by structural depth => depth

/-- Reads a node in the line of a hyphen or colon, from behind it on.
    `column` is where the text begins. A tab in front does not indent it. -/
def besideMark? (minIndent column : Nat) : Nat → Text → Option BlockRead
  | 0, _ => none
  | depth + 1, t =>
    let gap := t.takeWhile Line.isSpacing
    blockNode? minIndent (column + gap.length) (!gap.contains CodeUnit.tab) depth
      (t.drop gap.length)
termination_by structural depth => depth

/-- Reads what belongs to an entry or a member in `column`, from the
    beginning of the line below its colon or hyphen. A list may stand in the
    same column if `isEntry` says that it belongs to an entry. Nothing there
    is null, unless there is a tab where something could have stood. -/
def valueBelow? (column minIndent : Nat) (isEntry : Bool) : Nat → Text → Option BlockRead
  | 0, _ => none
  | depth + 1, t =>
    let spot := Line.contentBelow minIndent t
    if spot.indent ≤ column ∧ spot.tabbed then none
    else if spot.isOver then some (.missing t minIndent)
    else if column < spot.indent then
      blockNode? spot.minIndent spot.indent (!spot.tabbed) depth spot.rest
    else if isEntry && spot.indent == column then
      if Line.beginsIndicator Line.hyphen spot.rest then blockItems? column depth [] spot.rest
      else if Line.isStrayTab column (linesBefore t spot.rest).dropLast then none
      else some (.missing t minIndent)
    else some (.missing t minIndent)
termination_by structural depth => depth

/-- Reads the entries of a mapping in `column` from the value of one of them
    on. The entries before are given last first; `detached` says that one of
    the keys so far is a bracketed collection behind lines of the mapping. -/
def blockEntries? (column : Nat) :
    Nat → List (Node × Option Node) → Bool → Entry → Option BlockRead
  | 0, _, _, _ => none
  | depth + 1, found, detached, entry =>
    if hasKey entry.key found then none
    else do
      let t := Line.skipSpacing entry.value
      let read ← match Line.close true entry.value with
        | some rest => valueBelow? column entry.minIndent true depth rest
        | none =>
          if entry.column < column then
            some (.missingBeside t entry.minIndent entry.column)
          else if entry.isBelow then
            besideMark? entry.minIndent entry.column depth entry.value
          else if Line.beginsIndicator Line.hyphen t then none
          else inlineValue? column entry depth t
      moreEntries? column depth ((entry.key, some read.node) :: found) detached read
termination_by structural depth => depth

/-- Reads the entries of a mapping behind one of them. An entry that begins
    with its colon may be indented further than the others. -/
def moreEntries? (column : Nat) :
    Nat → List (Node × Option Node) → Bool → BlockRead → Option BlockRead
  | 0, _, _, _ => none
  | depth + 1, found, detached, read =>
    let mapping := read.close column (.mapping found.reverse)
    match read.beside with
    | some indent =>
      if indent < column then
        if detached then none else some mapping
      else if beginsColon false read.rest then
        blockEntries? column depth found detached
          ⟨.null, read.rest.drop 1, indent, read.minIndent, false⟩
      else if indent = column ∧ !Line.beginsIndicator Line.hyphen read.rest then
        match entry? column depth true ⟨read.rest, read.minIndent - 1, false, read.minIndent⟩ with
        | some next => blockEntries? column depth found detached next
        | none => none
      else none
    | none =>
      let spot := read.spot
      if spot.isOver ∨ spot.indent < column then
        if detached && !keepsLines column read spot then none else some mapping
      else if column < spot.indent then
        if beginsColon false spot.rest && !endsInTab read spot then
          blockEntries? column depth found detached (.ofColon spot.rest spot.indent)
        else none
      else if spot.tabbed ∨ Line.beginsIndicator Line.hyphen spot.rest then none
      else
        match entry? column depth false spot with
        | some next =>
          blockEntries? column depth found (detached || isDetached column read spot) next
        | none => none
termination_by structural depth => depth

/-- Reads the members of a list whose hyphens are in `column` from one of
    them on. The members before are given last first. -/
def blockItems? (column : Nat) : Nat → List Node → Text → Option BlockRead
  | 0, _, _ => none
  | depth + 1, found, t => do
    let item ← match Line.close true (t.drop 1) with
      | some rest => valueBelow? column (column + 1) false depth rest
      | none => besideMark? (column + 1) (column + 1) depth (t.drop 1)
    moreItems? column depth found item
termination_by structural depth => depth

/-- Reads the members of a list behind one of them. A hyphen in the line that
    a member ends in begins another member if the line is indented like the
    list, but nothing in the line can belong to it. -/
def moreItems? (column : Nat) : Nat → List Node → BlockRead → Option BlockRead
  | 0, _, _ => none
  | depth + 1, found, item =>
    let found := item.node :: found
    let list := item.close column (.list found.reverse)
    match item.beside with
    | some indent =>
      if column < indent then none
      else if indent = column ∧ Line.beginsIndicator Line.hyphen item.rest then
        let behind := item.rest.drop 1
        let gap := behind.takeWhile Line.isSpacing
        match Line.close true behind with
        | some rest =>
          if gap.contains CodeUnit.tab && gap.length == behind.length then none
          else do
            moreItems? column depth found (← valueBelow? column item.minIndent false depth rest)
        | none =>
          if gap.contains CodeUnit.tab then none
          else moreItems? column depth found
            (.missingBeside (behind.drop gap.length) item.minIndent indent)
      else some list
    | none =>
      let spot := item.spot
      if spot.indent = column ∧ Line.beginsIndicator Line.hyphen spot.rest then
        if spot.tabbed then none else blockItems? column depth found spot.rest
      else if spot.isOver ∨ spot.indent ≤ column then some list
      else none
termination_by structural depth => depth

end

end Yaml

end GlyphLexer
