import GlyphLexer.CommandLine.FileTree
import GlyphLexer.CommandLine.Run

/-!
# What runs depend on

The arguments name what a run looks at, and it looks at nothing else.

Two worlds may differ in their files, in what standard input brings and in
where the configuration file is. A run cannot tell them apart if they agree
on what its command looks at (`Environment.AgreeOn`), and this holds of its
failures as well, for whatever a run says about the world comes from there. A
scan looks at the configuration file and at its input. Help, the version and
explanations look at nothing, and where the arguments make no command there
is nothing to look for.

So a world can be cut down to what the command looks at before the run begins
(`Environment.restrict`). That is what lets the program gather the world
first, from the arguments alone.

## Main definitions

* `Environment.AgreeOnInput`, `Environment.AgreeOn`: Two worlds are the same
  where an input, or a command, looks.
* `Environment.restrict`: As much of a world as a command looks at.

## Theorems

* `readInput_congr`, `lexWith_congr`, `executeWith_congr`: What is done in
  worlds that agree.
* `executeWith_restrict`: A command is carried out in the same way in a world
  that is cut down to it.
* `runWith_congr`: Runs in worlds that agree.
* `runWith_congr_otherDirectory`: Two trees in which the configuration file
  is in different directories.
-/

namespace GlyphLexer

namespace CommandLine

namespace Environment

/-- Two worlds bring the same for an input. The sample program and inline
    code come from neither. -/
def AgreeOnInput (env env' : Environment) : Input → Prop
  | .sample => True
  | .inline _ => True
  | .stdin => env.stdin = env'.stdin
  | .file path => env.holds path = env'.holds path

/-- Two worlds are the same as far as a command looks at them. -/
def AgreeOn (env env' : Environment) : Command → Prop
  | .help => True
  | .version => True
  | .explain _ => True
  | .lex input _ => env.config = env'.config ∧ env.AgreeOnInput env' input

/-- As much of a world as a command looks at. There is nothing else in it. -/
def restrict (env : Environment) : Command → Environment
  | .lex (.file path) _ => ⟨fun p => if p = path then env.holds path else .missing, [], env.config⟩
  | .lex .stdin _ => ⟨fun _ => .missing, env.stdin, env.config⟩
  | .lex _ _ => ⟨fun _ => .missing, [], env.config⟩
  | _ => ⟨fun _ => .missing, [], .missing⟩

theorem agreeOn_restrict (env : Environment) (command : Command) :
    (env.restrict command).AgreeOn env command := by
  cases command with
  | lex input overrides =>
      cases input with
      | sample => exact ⟨rfl, trivial⟩
      | inline code => exact ⟨rfl, trivial⟩
      | stdin => exact ⟨rfl, rfl⟩
      | file path => exact ⟨rfl, if_pos rfl⟩
  | _ => trivial

end Environment

variable {read : Text → Except Text Value} {env env' : Environment}

theorem readInput_congr {i : Input} (h : env.AgreeOnInput env' i) :
    readInput env i = readInput env' i := by
  cases i with
  | sample => rfl
  | inline code => rfl
  | stdin =>
      have hstdin : env.stdin = env'.stdin := h
      rw [readInput, readInput, hstdin]
  | file path =>
      have hpath : env.holds path = env'.holds path := h
      rw [readInput, readInput, hpath]

theorem lexWith_congr {i : Input} {overrides : Configuration.Overrides}
    (hconfig : env.config = env'.config) (hinput : env.AgreeOnInput env' i) :
    lexWith read env i overrides = lexWith read env' i overrides := by
  rw [lexWith, lexWith, hconfig, readInput_congr hinput]

theorem executeWith_congr {command : Command} (h : env.AgreeOn env' command) :
    executeWith read env command = executeWith read env' command := by
  cases command with
  | help => rfl
  | version => rfl
  | explain id => rfl
  | lex i overrides => rw [executeWith, executeWith, lexWith_congr h.1 h.2]

/-- A command is carried out in the same way in a world that is cut down to
    it. -/
theorem executeWith_restrict (read : Text → Except Text Value) (env : Environment)
    (command : Command) :
    executeWith read (env.restrict command) command = executeWith read env command :=
  executeWith_congr (env.agreeOn_restrict command)

/-- Runs with the same arguments print the same and end with the same code in
    any two worlds that agree on what the arguments name, and in any two
    worlds at all if the arguments name nothing. -/
theorem runWith_congr (read : Text → Except Text Value) (argv : List Text) (env env' : Environment)
    (h : ∀ command, parse argv = .ok command → env.AgreeOn env' command) :
    runWith read argv env = runWith read argv env' := by
  cases hparse : parse argv with
  | error e => simp only [runWith, hparse]
  | ok command => simp only [runWith, hparse, executeWith_congr (h command hparse)]

/-- The configuration file is in a directory of its own, or at the top of the
    tree beside a file that is not looked at, and standard input differs. -/
theorem runWith_congr_otherDirectory :
    runWith Yaml.read [text "a.gly", text "--no-eof"]
        (FileTree.environment
          ⟨[([text "conf", Configuration.fileName], some (Text.toUtf8 (text "format: json\n"))),
            ([text "a.gly"], some (Text.toUtf8 (text "a.b")))]⟩
          [] (text "conf")) =
      runWith Yaml.read [text "a.gly", text "--no-eof"]
        (FileTree.environment
          ⟨[([Configuration.fileName], some (Text.toUtf8 (text "format: json\n"))),
            ([text "b.gly"], some (Text.toUtf8 (text "$"))),
            ([text "a.gly"], some (Text.toUtf8 (text "a.b")))]⟩
          (Text.toUtf8 (text "$")) []) := by
  refine runWith_congr _ _ _ _ fun command hcommand => ?_
  have hparse : (parse [text "a.gly", text "--no-eof"]).toOption =
      some (.lex (.file (text "a.gly")) ⟨none, some false⟩) := by decide +kernel
  rw [hcommand] at hparse
  cases hparse
  refine ⟨?_, ?_⟩
  · decide +kernel
  · unfold Environment.AgreeOnInput
    decide +kernel

end CommandLine

end GlyphLexer
