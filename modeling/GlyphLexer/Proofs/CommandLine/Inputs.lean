import GlyphLexer.Proofs.CommandLine.Grammar
import Mathlib.Data.List.Basic

/-!
# Inputs of a command line

How many inputs a command line may give, and what becomes of them.

Every code behind `-e` is an input, and so is every positional argument
(`inputs`). A run scans one program, and a command line that gives more than
one input is meant to be an error. The reading counts when it has come to the
end, and what it counts then is not the inputs. It has a list of the
positional arguments, but it has one place for code, and every code takes the
place of the one before it. Two positional arguments are too many, and so are
code and a positional argument, in whichever order they stand. Of several
codes nothing but the last one is left to be counted.

So the error is reported for more than one input as long as one of them is a
positional argument (`input_eq_error_iff`). If all of them are code, the last
one is scanned, and the others are dropped (`parse_inputs`).

## Main definitions

* `Group.input?`, `inputs`: The inputs that groups give.

## Theorems

* `input_of_length_le_one`: Groups that give no more than one input name that
  input.
* `input_eq_error_iff`: The groups with too many inputs.
* `parse_flatMap_words`: A command line that is written as groups is parsed
  to what they ask for.
* `parse_inputs`: What becomes of the inputs of a command line.
* `parse_inputs_repeatedCode`: Code that is dropped, an input too many, and
  one input.
-/

namespace GlyphLexer

namespace CommandLine

/-- The input that a group gives, if it gives one. -/
def Group.input? : Group → Option Input
  | code c => some (.inline c)
  | positional p => some (Input.ofPositional p)
  | _ => none

/-- The inputs that groups give, in order. -/
def inputs (gs : List Group) : List Input := gs.filterMap Group.input?

/-- The input of a group is its code or its positional argument. -/
theorem Group.input?_eq (g : Group) :
    g.input? = (g.code?.map Input.inline).or (g.positional?.map Input.ofPositional) := by
  cases g <;> rfl

/-- Without positional arguments the inputs are the codes. -/
theorem inputs_of_positionals_eq_nil {gs : List Group} (h : positionals gs = []) :
    inputs gs = (codes gs).map Input.inline := by
  unfold inputs codes
  rw [List.map_filterMap]
  refine List.filterMap_congr fun g hg => ?_
  have hnone : g.positional? = none := List.filterMap_eq_nil_iff.1 h g hg
  rw [Group.input?_eq, hnone, Option.map_none, Option.or_none]

/-- Without code the inputs are the positional arguments. -/
theorem inputs_of_codes_eq_nil {gs : List Group} (h : codes gs = []) :
    inputs gs = (positionals gs).map Input.ofPositional := by
  unfold inputs positionals
  rw [List.map_filterMap]
  refine List.filterMap_congr fun g hg => ?_
  have hnone : g.code? = none := List.filterMap_eq_nil_iff.1 h g hg
  rw [Group.input?_eq, hnone, Option.map_none, Option.none_or]

/-- Groups that give no more than one input name it, and name the sample
    program if they give none. -/
theorem input_of_length_le_one {gs : List Group}
    (h : (codes gs).length + (positionals gs).length ≤ 1) :
    input gs = .ok ((inputs gs).head?.getD .sample) := by
  cases hpositional : positionals gs with
  | nil =>
      rw [inputs_of_positionals_eq_nil hpositional, List.head?_map]
      unfold positionals at hpositional
      unfold codes at h ⊢
      cases hcode : gs.filterMap Group.code? with
      | nil =>
          rw [input, hcode, hpositional]
          rfl
      | cons c more =>
          have hmore : more = [] := by
            rw [hcode, List.length_cons] at h
            exact List.length_eq_zero_iff.1 (by omega)
          rw [input, hcode, hpositional, hmore]
          rfl
  | cons p more =>
      rw [hpositional, List.length_cons] at h
      have hcode : codes gs = [] := List.length_eq_zero_iff.1 (by omega)
      have hmore : more = [] := List.length_eq_zero_iff.1 (by omega)
      rw [hmore] at hpositional
      rw [input_of_codes_eq_nil hcode hpositional, inputs_of_codes_eq_nil hcode, hpositional]
      rfl

/-- Of several codes and nothing else, the last one is the input. -/
theorem input_of_positionals_eq_nil {gs : List Group} {c : Text} (hpositional : positionals gs = [])
    (hlast : (codes gs).getLast? = some c) : input gs = .ok (.inline c) := by
  unfold positionals at hpositional
  unfold codes at hlast
  rw [input, hlast, hpositional]

/-- There are too many inputs if there is more than one and not all of them
    are code. -/
theorem input_eq_error_iff {gs : List Group} {e : ArgumentError} :
    input gs = .error e ↔ e = .tooManyInputs ∧
      1 < (codes gs).length + (positionals gs).length ∧ positionals gs ≠ [] := by
  constructor
  · intro h
    have he : e = .tooManyInputs := by
      unfold input at h
      split at h <;> cases h
      rfl
    -- Any groups that are not of this sort have an input.
    refine ⟨he, ?_, fun hpositional => ?_⟩
    · rcases Nat.lt_or_ge 1 ((codes gs).length + (positionals gs).length) with hlt | hle
      · exact hlt
      · rw [input_of_length_le_one hle] at h
        cases h
    · rcases exists_namesInput_iff.2 (Or.inl hpositional) with ⟨i, hi⟩
      rw [input_eq_ok_iff.2 hi] at h
      cases h
  · rintro ⟨rfl, hcount, hpositional⟩
    cases hinput : input gs with
    | ok i =>
        rcases exists_namesInput_iff.1 ⟨i, input_eq_ok_iff.1 hinput⟩ with hnone | ⟨hcode, hone⟩
        · exact absurd hnone hpositional
        · rw [hcode, hone] at hcount
          exact absurd hcount (by decide)
    | error e =>
        unfold input at hinput
        split at hinput <;> cases hinput
        rfl

section Written

variable {argv : List Text} {gs : List Group} (hhelp : ¬ AsksForHelp argv)
  (hversion : ¬ AsksForVersion argv) (hplain : PlainPositionals gs)
  (h : argv = gs.flatMap Group.words)

include hhelp hversion hplain h

/-- A command line that is written as groups is parsed to what they ask
    for. -/
theorem parse_flatMap_words : parse argv = (input gs).map fun i => .lex i (overrides gs) := by
  rw [parse_of_notMem_requestWords (notMem_requestWords_of_not_asks hhelp hversion), h,
    ← List.append_nil (gs.flatMap Group.words), groups_words_append (forall_readable_iff.2 hplain)]
  show commandOf (gs ++ []) none = _
  rw [List.append_nil]
  rfl

/-- What becomes of the inputs of a command line. It is an error to give more
    than one if a positional argument is among them. A single input is
    scanned, and the sample program if there is none. But of several codes
    without a positional argument the last one is scanned, and those before
    it are dropped. -/
theorem parse_inputs :
    (parse argv = .error .tooManyInputs ↔
        1 < (codes gs).length + (positionals gs).length ∧ positionals gs ≠ []) ∧
      ((codes gs).length + (positionals gs).length ≤ 1 →
        parse argv = .ok (.lex ((inputs gs).head?.getD .sample) (overrides gs))) ∧
      (1 < (codes gs).length → positionals gs = [] →
        ∃ c, (codes gs).getLast? = some c ∧
          parse argv = .ok (.lex (.inline c) (overrides gs))) := by
  rw [parse_flatMap_words hhelp hversion hplain h]
  refine ⟨?_, fun hcount => ?_, fun hcount hpositional => ?_⟩
  · constructor
    · intro herror
      cases hinput : input gs with
      | error e => exact (input_eq_error_iff.1 hinput).2
      | ok i =>
          rw [hinput] at herror
          cases herror
    · intro hmany
      rw [input_eq_error_iff.2 ⟨rfl, hmany⟩]
      rfl
  · rw [input_of_length_le_one hcount]
    rfl
  · cases hlast : (codes gs).getLast? with
    | none =>
        rw [List.getLast?_eq_none_iff.1 hlast] at hcount
        exact absurd hcount (by decide)
    | some c =>
        refine ⟨c, rfl, ?_⟩
        rw [input_of_positionals_eq_nil hpositional hlast]
        rfl

end Written

/-- Of code that is given twice the last is scanned, and no error is
    reported. Code and a file are an input too many, and say so. A file alone
    is scanned. -/
theorem parse_inputs_repeatedCode :
    parse [text "-e", text "1", text "-e", text "2"] =
        .ok (.lex (.inline (text "2")) ⟨none, none⟩) ∧
      (parse [text "b.glyph", text "-e", text "a"]).mapError ArgumentError.message =
        .error (text "Too many inputs: give one file, -, or -e \"<code>\"") ∧
      parse [text "--no-eof", text "b.glyph"] =
        .ok (.lex (.file (text "b.glyph")) ⟨none, some false⟩) := by
  have hrepeated := @parse_inputs [text "-e", text "1", text "-e", text "2"]
    [.code (text "1"), .code (text "2")] (by unfold AsksForHelp; decide)
    (by unfold AsksForVersion; decide) (by unfold PlainPositionals; decide) rfl
  have hmixed := @parse_inputs [text "b.glyph", text "-e", text "a"]
    [.positional (text "b.glyph"), .code (text "a")] (by unfold AsksForHelp; decide)
    (by unfold AsksForVersion; decide) (by unfold PlainPositionals; decide) rfl
  have hsingle := @parse_inputs [text "--no-eof", text "b.glyph"]
    [.noEof, .positional (text "b.glyph")] (by unfold AsksForHelp; decide)
    (by unfold AsksForVersion; decide) (by unfold PlainPositionals; decide) rfl
  refine ⟨?_, ?_, ?_⟩
  · rcases hrepeated.2.2 (by decide) (by decide) with ⟨c, hlast, hparse⟩
    cases hlast
    exact hparse
  · rw [hmixed.1.2 ⟨by decide, by decide⟩]
    rfl
  · rw [hsingle.2.1 (by decide)]
    decide

end CommandLine

end GlyphLexer
