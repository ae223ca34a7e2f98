import GlyphLexer.CommandLine.Arguments
import GlyphLexer.Explanation
import GlyphLexer.Source

/-!
# A run of the command line

What a run prints, and how it ends.

A run sees the world through an `Environment`: what each path holds, what
standard input brings, and what is at the place of the configuration file. It
does four things in turn, each of which may end it with a message: it reads
the arguments, takes the options from the configuration file, reads the
input, and scans it. Help, version and explanations need the arguments alone.
As for a configuration, the reader of YAML is an argument of the functions
that need it.

Every message is printed with a newline behind it. An empty listing is not
printed at all. A run that succeeds prints nothing on the error stream, and
one that fails prints nothing else.

## Main definitions

* `CommandLine.Environment`: The world of a run.
* `CommandLine.readInput`: The program text.
* `CommandLine.Failure`, `CommandLine.Failure.display`: A failure of the
  surroundings, and its message.
* `CommandLine.Outcome`: What a run prints and its exit code.
* `CommandLine.runWith`, `CommandLine.run`: A run.
-/

namespace GlyphLexer

namespace CommandLine

/-- The world of a run: what each path holds, what standard input brings, and
    what is at the place of the configuration file. -/
structure Environment where
  holds : Text → FileState
  stdin : Bytes
  config : FileState

/-- The version that is printed. -/
def version : Text := text "0.1.0"

/-- The program that is scanned when no input is given. -/
def sampleProgram : Text :=
  Text.unlines
    [text "fn on_step(mob: Mob) \x7b",
      text "    if (mob.hp <= 0.5 and mob.flags & 2 != 0) \x7b",
      text "        say(\"ouch\\n\");",
      text "    \x7d",
      text "    mob.x += 1;",
      text "    mob.steps++;",
      text "\x7d"]

/-- The help that is printed. -/
def usage : Text :=
  Text.unlines
    [text "Usage:",
      text "  glyph-lex                      Scan the built-in sample program",
      text "  glyph-lex <script.glyph>       Scan a file",
      text "  glyph-lex -                    Read source from stdin",
      text "  glyph-lex -e \"<code>\"          Scan inline code",
      text "  glyph-lex --explain GLY-LXXX   Show error documentation",
      text "  glyph-lex --help               Show this help message",
      text "  glyph-lex --version            Show version information",
      [],
      text "Options:",
      text "  --format <format>   Output format: text, json (default: text)",
      text "  --no-eof            Omit the EOF token from the output",
      [],
      text "Configuration:",
      text "  .glyph-lex.yaml in the working directory may set format and showEof.",
      text "  Command-line options take precedence."]

/-- A failure of the surroundings of a run: its message, and the code and
    path that came with it. -/
structure Failure where
  message : Text
  code : Option Value
  path : Option Value

namespace Failure

/-- A failure of which only the message is known. -/
def ofMessage (message : Text) : Failure := ⟨message, none, none⟩

/-- What a failure is reported as. A missing file is reported by its path. -/
def display (f : Failure) : Text :=
  match f.code, f.path with
  | some (.string code), some path =>
    if code = text "ENOENT" then text "File not found: " ++ path.display else f.message
  | _, _ => f.message

end Failure

/-- What can be wrong with an input. -/
inductive InputError where
  | notFound (path : Text)
  | unreadable (reason : Text)
  deriving DecidableEq, Repr

/-- What an input error is reported as. -/
def InputError.message : InputError → Text
  | notFound path => text "File not found: " ++ path
  | unreadable reason => reason

/-- The program text that an input brings. Files and standard input bring
    bytes. -/
def readInput (env : Environment) : Input → Except InputError Source
  | .sample => .ok (.ofText sampleProgram)
  | .inline code => .ok (.ofText code)
  | .stdin => .ok (.ofBytes env.stdin)
  | .file path =>
    match env.holds path with
    | .missing => .error (.notFound path)
    | .unreadable reason => .error (.unreadable reason)
    | .file content => .ok (.ofBytes content)

/-- What a run prints, and its exit code: zero for success and one for
    failure. -/
structure Outcome where
  stdout : Text
  stderr : Text
  exitCode : Nat
  deriving DecidableEq, Repr

namespace Outcome

/-- A printed text: the text and a newline. -/
def printed (t : Text) : Text := t ++ [CodeUnit.newline]

/-- A run that succeeds and prints a text. -/
def success (t : Text) : Outcome := ⟨printed t, [], 0⟩

/-- A run that fails with messages. -/
def failure (messages : List Text) : Outcome := ⟨[], messages.flatMap printed, 1⟩

/-- What a scan prints. -/
def ofLexOutput : LexOutput → Outcome
  | .listed stdout => if stdout.isEmpty then ⟨[], [], 0⟩ else success stdout
  | .failed stderr => failure [stderr]

end Outcome

/-- The explanation of an identifier, or what is said about one that has
    none. -/
def explain (id : Text) : Outcome :=
  match explain? id with
  | some documentation => .success documentation
  | none =>
    .failure
      [text "Invalid error ID: " ++ id,
        text "Error ID must be in format GLY-L\x7b3-digit\x7d, e.g., GLY-L002"]

/-- A scan of an input: what it prints, or the first failure on the way
    there. -/
def lexWith (read : Text → Except Text Value) (env : Environment) (input : Input)
    (overrides : Configuration.Overrides) : Except Failure LexOutput := do
  let options ← (Configuration.resolveWith read overrides env.config).mapError fun p =>
    .ofMessage p.message
  let source ← (readInput env input).mapError fun e => .ofMessage e.message
  return lexSource source.toText options

/-- Carries out a command. -/
def executeWith (read : Text → Except Text Value) (env : Environment) : Command → Outcome
  | .help => .success usage
  | .version => .success version
  | .explain id => explain id
  | .lex input overrides =>
    match lexWith read env input overrides with
    | .ok output => .ofLexOutput output
    | .error f => .failure [f.display]

/-- A run with the given arguments. -/
def runWith (read : Text → Except Text Value) (argv : List Text) (env : Environment) : Outcome :=
  match parse argv with
  | .ok command => executeWith read env command
  | .error e => .failure [e.message]

/-- A run with the given arguments and a configuration file in YAML. -/
def run : List Text → Environment → Outcome := runWith Yaml.read

end CommandLine

end GlyphLexer
