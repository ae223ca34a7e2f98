import GlyphLexer.Yaml.Layout

/-!
# YAML documents

The node that a text says, if the text is one well-formed document.

Empty lines and comments may stand before a document and behind it. A mark of
three hyphens may begin it, and one of three dots may end it; a mapping or
list may not begin on the line of the first. A byte order mark may begin any
line outside of the document and the first line in it, where it takes the
indentation away: what is behind it in the line counts as not indented.

Nodes that refer to others, that are tagged, or that are written in blocks of
literal lines, and keys with a mark of their own, are not among the documents
that are read.

## Main definitions

* `Yaml.markedNode?`, `Yaml.body?`: The node of a document, with and without
  a byte order mark.
* `Yaml.document?`: A document from its first line on.
* `Yaml.parse?`: The node of the one document of a text.
-/

namespace GlyphLexer

namespace Yaml

/-- Reads the hyphens in the line of a byte order mark. None of them indents
    what is behind it, so each but the last is a member that is null, and the
    last has its member below. `place` is where in the line the hyphen is. -/
def markedItems? (place : Nat) : Nat → List Node → Text → Option BlockRead
  | 0, _, _ => none
  | depth + 1, found, t =>
    let behind := t.drop 1
    let gap := behind.takeWhile Line.isSpacing
    if Line.beginsIndicator Line.hyphen (behind.drop gap.length) then
      if gap.contains CodeUnit.tab then none
      else markedItems? (place + 1 + gap.length) depth (.null :: found)
        (behind.drop gap.length)
    else if gap.contains CodeUnit.tab && gap.length == behind.length then none
    else do
      let item ← valueBelow? 0 (place + 1) false depth (← Line.close true behind)
      moreItems? 0 depth found item

/-- Reads the node of a document whose first line has a byte order mark.
    White space between the mark and the node does not indent it. -/
def markedNode? (depth : Nat) (t : Text) : Option BlockRead :=
  let gap := t.takeWhile Line.isSpacing
  let inner := t.drop gap.length
  if gap.contains CodeUnit.tab then
    if beginsBracket inner then blockNode? 0 0 false depth inner else none
  else if Line.beginsIndicator Line.hyphen inner then markedItems? gap.length depth [] inner
  else do
    let (first, behind) ← keyOrNode? 0 depth inner
    if isKey inner first behind then
      blockEntries? 0 depth [] false (.ofKey first inner behind gap.length 0)
    else blockNode? 0 0 false depth inner

/-- Reads the node of a document from the beginning of a line on. -/
def body? (depth : Nat) (t : Text) : Option BlockRead :=
  let spot := Line.content t
  if spot.tabbed && spot.indent == 0 && !beginsBracket spot.rest then none
  else if spot.isOver then some (.missing t 0)
  else blockNode? 0 spot.indent (!spot.tabbed) depth spot.rest

/-- Reads a document from its first line on, which may be a mark and may have
    a byte order mark in front. -/
def document? (depth : Nat) (t : Text) (marked : Bool) : Option BlockRead :=
  if Line.isStart t then
    match Line.close true (t.drop 3) with
    | some rest => body? depth rest
    | none => blockNode? 0 0 false depth (Line.skipSpacing (t.drop 3))
  else if Line.isStop t then some (.missing t 0)
  else if marked then markedNode? depth t
  else body? depth t

/-- Nothing follows a document but the mark that ends it, and no other
    document follows that. -/
def isFinished (read : BlockRead) : Bool :=
  let spot := Line.content read.rest
  read.beside.isNone && ((spot.rest.isEmpty && !endsInTab read spot) ||
    (spot.isOver && Line.isStop spot.rest &&
      ((Line.close true (spot.rest.drop 3)).map fun rest => (Line.prologue rest).1.isEmpty).getD
        false))

/-- The node that a text says, if it is one well-formed document. A text that
    says nothing is null. -/
def parse? (t : Text) : Option Node := do
  let (line, marked) := Line.prologue t
  if line.isEmpty then return .null
  else
    let read ← document? (4 * (line.length + 2)) line marked
    if isFinished read then return read.node else none

end Yaml

end GlyphLexer
