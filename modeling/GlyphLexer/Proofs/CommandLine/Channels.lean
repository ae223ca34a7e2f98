import GlyphLexer.CommandLine.FileTree
import GlyphLexer.Proofs.CommandLine.Arguments
import GlyphLexer.Proofs.CommandLine.Outcome
import GlyphLexer.Proofs.Encoding

/-!
# Ways to hand over a program

A program is inline code, or in a file, or it comes through standard input,
and a run does the same with it.

The command line of such a run names an input, and options follow. That the
words of the input say nothing about the options, nor the options about the
input, is what makes the command one of both (`parse_words`). The options may
be wrong, but then they are wrong behind any input. What the run does with
its command depends on the program text that the input brings, and no longer
on the input (`runWith_eq_of_brings`).

Inline code is text, and the others are bytes, which are read one unit for
each. So the same program is brought in all three ways if it is in ASCII. One
that is not is another program as inline code.

## Main definitions

* `WrittenOption`: An option with any value for the format.
* `Input.groups`, `Input.words`: How an input is named on a command line.
* `Input.Readable`: The inputs that can be named.
* `Group.SetsOption`, `OptionsRead`: The groups that are about the options,
  and what comes of reading options.
* `Input.Brings`: An input brings a program text.

## Theorems

* `optionsRead_groups`: Options are groups about options, or they are wrong.
* `input_append`, `overrides_append`: Neither the input nor the options see
  the groups of the other.
* `parse_words`: The command of an input and options.
* `brings_inline`, `brings_file`, `brings_stdin`: What inputs bring.
* `runWith_eq_of_brings`: Inputs that bring the same are treated the same.
* `runWith_channels`: Code, files and standard input, for programs in ASCII.
* `runWith_channels_stray`: A program that fails, reported in JSON.
-/

namespace GlyphLexer

namespace CommandLine

/-- An option as it is written. The value of a format may be one that names
    none. -/
inductive WrittenOption where
  | format (value : Text)
  | noEof
  deriving DecidableEq, Repr

/-- The words of an option. -/
def WrittenOption.words : WrittenOption → List Text
  | format value => [text "--format", value]
  | noEof => [text "--no-eof"]

/-- A group that says something about the options, and nothing about the
    input. -/
inductive Group.SetsOption : Group → Prop where
  | format (f : OutputFormat) : SetsOption (.format f)
  | noEof : SetsOption .noEof

/-- What comes of reading options: an error, or groups about options and no
    identifier to explain. -/
inductive OptionsRead : Except ArgumentError (List Group × Option Text) → Prop where
  | error (e : ArgumentError) : OptionsRead (.error e)
  | groups {gs : List Group} (h : ∀ g ∈ gs, g.SetsOption) : OptionsRead (.ok (gs, none))

/-- One more group about options in front, which comes to nothing before an
    error. -/
theorem OptionsRead.cons {g : Group} {rest : List Text} (h : OptionsRead (CommandLine.groups rest))
    (hg : g.Readable) (hsets : g.SetsOption) :
    OptionsRead (CommandLine.groups (g.words ++ rest)) := by
  rw [groups_words hg]
  generalize CommandLine.groups rest = r at h
  cases h with
  | error e => exact OptionsRead.error e
  | groups hall => exact OptionsRead.groups (List.forall_mem_cons.2 ⟨hsets, hall⟩)

namespace Input

/-- The groups that name an input. -/
def groups : Input → List Group
  | sample => []
  | inline code => [.code code]
  | file path => [.positional path]
  | stdin => [.positional (text "-")]

/-- The words that name an input. -/
def words (i : Input) : List Text := i.groups.flatMap Group.words

/-- The inputs that are named by their words: a path does not look like an
    option or like standard input, and code does not ask for help or the
    version. -/
def Readable : Input → Prop
  | file path => ¬ text "-" <+: path
  | inline code => code ∉ requestWords
  | _ => True

/-- The input is there, and the program text in it is the given one. -/
def Brings (env : Environment) (i : Input) (t : Text) : Prop :=
  ∃ source, readInput env i = .ok source ∧ source.toText = t

theorem Readable.groups {i : Input} (h : i.Readable) : ∀ g ∈ i.groups, g.Readable := by
  cases i with
  | sample => exact fun g hg => absurd hg List.not_mem_nil
  | inline code => exact List.forall_mem_singleton.2 trivial
  | file path => exact List.forall_mem_singleton.2 (isOption_eq_false_of_noHyphen h)
  | stdin =>
      have hhyphen : isOption (text "-") = false := by decide
      exact List.forall_mem_singleton.2 hhyphen

theorem Readable.notMem_requestWords {i : Input} (h : i.Readable) :
    ∀ word ∈ i.words, word ∉ requestWords := by
  cases i with
  | sample => exact fun word hword => absurd hword List.not_mem_nil
  | inline code =>
      intro word hword
      rcases List.mem_pair.1 hword with rfl | rfl
      · decide
      · exact h
  | file path =>
      -- All words of requests begin with a hyphen.
      have hhyphen : ∀ request ∈ requestWords, text "-" <+: request := by decide
      exact List.forall_mem_singleton.2 fun hmem => h (hhyphen path hmem)
  | stdin => exact List.forall_mem_singleton.2 (by decide)

end Input

/-- Options are read as groups about options, unless the value of a format is
    wrong. -/
theorem optionsRead_groups (opts : List WrittenOption) :
    OptionsRead (groups (opts.flatMap WrittenOption.words)) := by
  induction opts with
  | nil => exact OptionsRead.groups fun g hg => absurd hg List.not_mem_nil
  | cons option opts ih =>
      rw [List.flatMap_cons]
      cases option with
      | noEof => exact ih.cons (g := .noEof) trivial Group.SetsOption.noEof
      | format value =>
          cases hname : OutputFormat.ofName? value with
          | none =>
              rw [WrittenOption.words, List.cons_append, List.cons_append,
                groups_of_invalidFormat hname]
              exact OptionsRead.error _
          | some f =>
              rw [OutputFormat.name_of_ofName? hname]
              exact ih.cons (g := .format f) trivial (Group.SetsOption.format f)

/-- Groups about options do not change the input that is named in front of
    them. -/
theorem input_append {i : Input} (hi : i.Readable) {gs : List Group} (h : ∀ g ∈ gs, g.SetsOption) :
    input (i.groups ++ gs) = .ok i := by
  have hcode : gs.filterMap Group.code? = [] := by
    refine List.filterMap_eq_nil_iff.2 fun g hg => ?_
    cases h g hg <;> rfl
  have hpositional : gs.filterMap Group.positional? = [] := by
    refine List.filterMap_eq_nil_iff.2 fun g hg => ?_
    cases h g hg <;> rfl
  unfold input
  rw [List.filterMap_append, List.filterMap_append, hcode, hpositional, List.append_nil,
    List.append_nil]
  cases i with
  | sample => rfl
  | stdin => rfl
  | inline code => rfl
  | file path =>
      have hne : path ≠ text "-" := by
        rintro rfl
        exact hi (List.prefix_refl _)
      show Except.ok (Input.ofPositional path) = Except.ok (Input.file path)
      rw [Input.ofPositional, if_neg hne]

/-- Nor do the groups of an input change the options behind it. -/
theorem overrides_append (i : Input) (gs : List Group) :
    overrides (i.groups ++ gs) = overrides gs := by
  have hformat : i.groups.filterMap Group.format? = [] := by
    cases i <;> rfl
  have hnoEof : Group.noEof ∉ i.groups := by
    cases i <;> simp [Input.groups]
  simp only [overrides, List.filterMap_append, hformat, List.nil_append, List.mem_append, hnoEof,
    false_or]

/-- The command of an input and options scans that input with what the
    options say. -/
theorem parse_words {i : Input} (hi : i.Readable) {opts : List WrittenOption}
    (hopts : ∀ value, .format value ∈ opts → value ∉ requestWords) :
    parse (i.words ++ opts.flatMap WrittenOption.words) =
      (groups (opts.flatMap WrittenOption.words)).map fun (gs, _) => .lex i (overrides gs) := by
  have hplain : ∀ word ∈ i.words ++ opts.flatMap WrittenOption.words, word ∉ requestWords := by
    intro word hword
    rcases List.mem_append.1 hword with hword | hword
    · exact hi.notMem_requestWords word hword
    · rcases List.mem_flatMap.1 hword with ⟨option, hoption, hword⟩
      cases option with
      | noEof =>
          rw [List.mem_singleton.1 hword]
          decide
      | format value =>
          rcases List.mem_pair.1 hword with rfl | rfl
          · decide
          · exact hopts word hoption
  rw [parse_of_notMem_requestWords hplain, Input.words, groups_words_append hi.groups]
  have hread := optionsRead_groups opts
  generalize groups (opts.flatMap WrittenOption.words) = r at hread
  cases hread with
  | error e => rfl
  | @groups gs hall =>
      show (input (i.groups ++ gs)).map _ = _
      rw [input_append hi hall, overrides_append]
      rfl

section Brings

variable {env : Environment}

theorem brings_inline (env : Environment) (t : Text) : (Input.inline t).Brings env t :=
  ⟨.ofText t, rfl, rfl⟩

theorem brings_file {path : Text} {content : Bytes} (h : env.holds path = .file content) :
    (Input.file path).Brings env (Source.ofBytes content).toText :=
  ⟨.ofBytes content, by simp only [readInput, h], rfl⟩

theorem brings_stdin {content : Bytes} (h : env.stdin = content) :
    Input.stdin.Brings env (Source.ofBytes content).toText :=
  ⟨.ofBytes content, by simp only [readInput, h], rfl⟩

variable {read : Text → Except Text Value} {i j : Input} {t : Text}

theorem lexWith_eq_of_brings {overrides : Configuration.Overrides} (hi : i.Brings env t)
    (hj : j.Brings env t) : lexWith read env i overrides = lexWith read env j overrides := by
  rcases hi with ⟨source, hsource, htext⟩
  rcases hj with ⟨source', hsource', htext'⟩
  -- A configuration that is of no use is reported before the input is looked
  -- at.
  cases hload : Configuration.loadWith read env.config with
  | error problem => rw [lexWith_of_problem hload, lexWith_of_problem hload]
  | ok loaded =>
      rw [lexWith_of_source hload hsource, lexWith_of_source hload hsource', htext, htext']

/-- Inputs that bring the same program are treated the same, under any
    configuration and with any options behind them. -/
theorem runWith_eq_of_brings (hi : i.Readable) (hj : j.Readable) (hbi : i.Brings env t)
    (hbj : j.Brings env t) {opts : List WrittenOption}
    (hopts : ∀ value, .format value ∈ opts → value ∉ requestWords) :
    runWith read (i.words ++ opts.flatMap WrittenOption.words) env =
      runWith read (j.words ++ opts.flatMap WrittenOption.words) env := by
  rw [runWith, runWith, parse_words hi hopts, parse_words hj hopts]
  cases groups (opts.flatMap WrittenOption.words) with
  | error e => rfl
  | ok found =>
      simp only [Except.map, executeWith, lexWith_eq_of_brings hbi hbj]

end Brings

/-- A program in ASCII may be given as code, in a file or through standard
    input. Whatever options follow, and whatever the configuration is, the
    run prints the same and ends with the same code. -/
theorem runWith_channels (read : Text → Except Text Value) (env : Environment) (c p : Text)
    (opts : List WrittenOption) (hascii : ∀ u ∈ c, u.isAscii = true) (hc : c ∉ requestWords)
    (hopts : ∀ value, .format value ∈ opts → value ∉ requestWords) (hp : ¬ text "-" <+: p)
    (hfile : env.holds p = .file (Text.toUtf8 c)) (hstdin : env.stdin = Text.toUtf8 c) :
    runWith read ([text "-e", c] ++ opts.flatMap WrittenOption.words) env =
        runWith read ([p] ++ opts.flatMap WrittenOption.words) env ∧
      runWith read ([p] ++ opts.flatMap WrittenOption.words) env =
        runWith read ([text "-"] ++ opts.flatMap WrittenOption.words) env := by
  have hbytes : (Source.ofBytes (Text.toUtf8 c)).toText = c := Text.recode_of_isAscii hascii
  have hbrings := brings_file hfile
  have hbrings' := brings_stdin hstdin
  rw [hbytes] at hbrings hbrings'
  have hinline : (Input.inline c).Readable := hc
  have hpath : (Input.file p).Readable := hp
  have hhyphen : Input.stdin.Readable := trivial
  exact ⟨runWith_eq_of_brings hinline hpath (brings_inline env c) hbrings hopts,
    runWith_eq_of_brings hpath hhyphen hbrings hbrings' hopts⟩

/-- A program with a sign that is no token, reported in JSON because the
    command line says so. -/
theorem runWith_channels_stray :
    run [text "-e", text "a $", text "--format", text "json"]
        (FileTree.environment ⟨[([text "a.gly"], some (Text.toUtf8 (text "a $")))]⟩
          (Text.toUtf8 (text "a $")) []) =
      run [text "-", text "--format", text "json"]
        (FileTree.environment ⟨[([text "a.gly"], some (Text.toUtf8 (text "a $")))]⟩
          (Text.toUtf8 (text "a $")) []) := by
  have hchannels := runWith_channels Yaml.read
    (FileTree.environment ⟨[([text "a.gly"], some (Text.toUtf8 (text "a $")))]⟩
      (Text.toUtf8 (text "a $")) [])
    (text "a $") (text "a.gly") [.format (text "json")] (List.all_eq_true.1 (by decide))
    (by decide)
    (fun value hvalue => by
      cases List.mem_singleton.1 hvalue
      decide)
    (by decide) (by decide +kernel) rfl
  exact hchannels.1.trans hchannels.2

end CommandLine

end GlyphLexer
