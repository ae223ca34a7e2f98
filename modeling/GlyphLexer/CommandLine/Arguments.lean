import GlyphLexer.Configuration

/-!
# Command-line arguments

What a command line asks for.

The words for help and version are seen wherever they stand, help first.
Otherwise the arguments are read from left to right as groups: an option with
its value, an option without one, or a positional argument, which is anything
that does not begin with a hyphen, and the hyphen alone. The request for an
explanation ends the reading, whatever stands behind it. The first thing that
makes no group is the error.

A run has at most one input: the code of the last `-e`, counted once, or one
positional argument, where a hyphen is the standard input. Without any it is
the sample program. Of several formats the last one counts.

## Main definitions

* `CommandLine.Input`: Where the program text comes from.
* `CommandLine.Command`: What a command line asks for.
* `CommandLine.Group`, `CommandLine.groups`: The groups of a command line.
* `CommandLine.parse`: The command of a command line.
* `CommandLine.ArgumentError`: What can be wrong with a command line.
-/

namespace GlyphLexer

namespace CommandLine

/-- Where the program text comes from. -/
inductive Input where
  | sample
  | stdin
  | file (path : Text)
  | inline (code : Text)
  deriving DecidableEq, Repr

/-- What a command line asks for. -/
inductive Command where
  | help
  | version
  | explain (id : Text)
  | lex (input : Input) (overrides : Configuration.Overrides)
  deriving DecidableEq, Repr

/-- What can be wrong with a command line. -/
inductive ArgumentError where
  | unknownOption (arg : Text)
  | missingErrorId
  | missingCode
  | invalidFormat (value : Option Text)
  | tooManyInputs
  deriving DecidableEq, Repr

/-- What an argument error is reported as. -/
def ArgumentError.message : ArgumentError → Text
  | unknownOption arg => text "Unknown option: " ++ arg
  | missingErrorId => text "Missing error ID after --explain"
  | missingCode => text "Missing code after -e"
  | invalidFormat value =>
    text "Invalid --format value: " ++ value.getD (text "undefined") ++
      text ". Must be one of: text, json"
  | tooManyInputs => text "Too many inputs: give one file, -, or -e \"<code>\""

/-- A part of a command line: an option with its value, if it takes one, or a
    positional argument. -/
inductive Group where
  | code (c : Text)
  | format (f : OutputFormat)
  | noEof
  | positional (p : Text)
  deriving DecidableEq, Repr

/-- Begins with a hyphen and has something behind it. -/
def isOption (arg : Text) : Bool := (text "-").isPrefixOf arg && arg != text "-"

/-- The groups of a command line, in order, up to its end or to a request for
    an explanation, and the identifier to explain if there is such a
    request. -/
def groups : List Text → Except ArgumentError (List Group × Option Text)
  | [] => .ok ([], none)
  | arg :: rest =>
    if arg = text "--explain" then
      match rest with
      | [] => .error .missingErrorId
      | id :: _ => if id.isEmpty then .error .missingErrorId else .ok ([], some id)
    else if arg = text "-e" then
      match rest with
      | [] => .error .missingCode
      | c :: rest => (groups rest).map fun (found, id) => (.code c :: found, id)
    else if arg = text "--format" then
      match rest with
      | [] => .error (.invalidFormat none)
      | name :: rest =>
        match OutputFormat.ofName? name with
        | none => .error (.invalidFormat (some name))
        | some f => (groups rest).map fun (found, id) => (.format f :: found, id)
    else if arg = text "--no-eof" then
      (groups rest).map fun (found, id) => (.noEof :: found, id)
    else if isOption arg then .error (.unknownOption arg)
    else (groups rest).map fun (found, id) => (.positional arg :: found, id)

namespace Group

/-- The code of a group that gives code. -/
def code? : Group → Option Text
  | code c => some c
  | _ => none

/-- The format of a group that gives a format. -/
def format? : Group → Option OutputFormat
  | format f => some f
  | _ => none

/-- The argument of a positional group. -/
def positional? : Group → Option Text
  | positional p => some p
  | _ => none

end Group

/-- The input that a positional argument names. -/
def Input.ofPositional (p : Text) : Input := if p = text "-" then stdin else file p

/-- The one input that groups name. -/
def input (gs : List Group) : Except ArgumentError Input :=
  match (gs.filterMap Group.code?).getLast?, gs.filterMap Group.positional? with
  | some c, [] => .ok (.inline c)
  | none, [] => .ok .sample
  | none, [p] => .ok (Input.ofPositional p)
  | _, _ => .error .tooManyInputs

/-- What groups say about the options of a run. -/
def overrides (gs : List Group) : Configuration.Overrides :=
  ⟨(gs.filterMap Group.format?).getLast?, if .noEof ∈ gs then some false else none⟩

/-- What a command line asks for. -/
def parse (argv : List Text) : Except ArgumentError Command :=
  if text "--help" ∈ argv ∨ text "-h" ∈ argv then .ok .help
  else if text "--version" ∈ argv ∨ text "-v" ∈ argv then .ok .version
  else
    match groups argv with
    | .error e => .error e
    | .ok (_, some id) => .ok (.explain id)
    | .ok (gs, none) => (input gs).map fun i => .lex i (overrides gs)

end CommandLine

end GlyphLexer
