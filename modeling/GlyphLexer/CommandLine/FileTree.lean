import GlyphLexer.CommandLine.Run

/-!
# File trees

Files and directories as a run sees them, and how a path is resolved among
them.

A tree lists what it holds by the names on the way there; every beginning of
such a way is a directory. A path is resolved name by name from the working
directory, which is the top of the tree. A single dot, and nothing between
two slashes or behind the last one, stay where they are; two dots go up. Each
of these, like going down, is possible from a directory only, so a path that
goes on below a file leads nowhere, and neither does the empty path. Outside
of the tree nothing is known but that its surroundings are directories.

## Main definitions

* `FileTree`: What is held, by the names on the way.
* `FileTree.stateAt`: What is at the end of a way.
* `FileTree.resolve`: What a path holds.
* `FileTree.environment`: The world of a run in a tree.
-/

namespace GlyphLexer

/-- Files, and directories as `none`, by the names on the way from the
    top. -/
structure FileTree where
  entries : List (List Text × Option Bytes)
  deriving Repr

namespace FileTree

/-- The names on a path, between its slashes. -/
def names (path : Text) : List Text := List.splitOn (CodeUnit.ofChar '/') path

/-- There is a directory at the end of a way from the top. -/
def isDirectory (tree : FileTree) (way : List Text) : Bool :=
  match tree.entries.lookup way with
  | some content => content.isNone
  | none => way.isEmpty || tree.entries.any fun entry => way.isPrefixOf entry.1

/-- What is at the end of a way from the top. -/
def stateAt (tree : FileTree) (way : List Text) : FileState :=
  match tree.entries.lookup way with
  | some (some content) => .file content
  | _ => if tree.isDirectory way then .directory else .missing

/-- A place on the way along a path: in the tree, its names last first, or so
    many directories above the top. -/
inductive Place where
  | inside (way : List Text)
  | above (levels : Nat)
  deriving DecidableEq, Repr

/-- What is at a place. -/
def stateOf (tree : FileTree) : Place → FileState
  | .inside way => tree.stateAt way.reverse
  | .above _ => .directory

/-- There is a directory at a place. -/
def isDirectoryAt (tree : FileTree) : Place → Bool
  | .inside way => tree.isDirectory way.reverse
  | .above _ => true

/-- The place that a name leads to from a directory. -/
def Place.go (name : Text) : Place → Option Place
  | place@(.inside way) =>
    if name.isEmpty ∨ name = text "." then some place
    else if name = text ".." then
      match way with
      | [] => some (.above 0)
      | _ :: up => some (.inside up)
    else some (.inside (name :: way))
  | place@(.above levels) =>
    if name.isEmpty ∨ name = text "." then some place
    else if name = text ".." then some (.above (levels + 1))
    else none

/-- What the names of a path lead to from a place. -/
def follow (tree : FileTree) (place : Place) : List Text → FileState
  | [] => tree.stateOf place
  | name :: rest =>
    match place.go name with
    | some next => if tree.isDirectoryAt place then follow tree next rest else .missing
    | none => .missing

/-- What a path holds, seen from the top of the tree. A path that begins with
    a slash leads out of the tree. -/
def resolve (tree : FileTree) (path : Text) : FileState :=
  match names path with
  | [[]] => .missing
  | [] :: rest => tree.follow (.above 0) rest
  | way => tree.follow (.inside []) way

/-- The world of a run in a tree, with the configuration file in the
    directory of the given path. The empty path is the top of the tree. -/
def environment (tree : FileTree) (stdin : Bytes) (directory : Text) : CommandLine.Environment :=
  { holds := tree.resolve
    stdin := stdin
    config := tree.resolve
      (if directory.isEmpty then Configuration.fileName
        else directory ++ text "/" ++ Configuration.fileName) }

end FileTree

end GlyphLexer
