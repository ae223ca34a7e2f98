import GlyphLexer.CommandLine.Arguments

/-!
# Words and groups

How the words of a group are read, whatever stands behind them.

The words of a command line are read from the left, and a group takes the
words it is written with and no more. So the groups of a command line that
begins with the words of some groups are those, and then the groups of the
rest (`groups_words_append`). A positional argument is read as such if it
does not look like an option; the other groups may have any value, for a
value is taken unseen.

All this is about command lines without the words that ask for help or the
version, which are looked for before anything is read, among the values as
well.

## Main definitions

* `requestWords`: The words that ask for help or the version wherever they
  stand.
* `Group.words`: The words that a group is written with.
* `Group.Readable`: The groups that are read as what they are.
* `commandOf`: What groups ask for.

## Theorems

* `groups_words`, `groups_words_append`: The words of one group, or of
  several, and what is behind them.
* `groups_of_invalidFormat`: A format with a value that names none ends the
  reading.
* `parse_of_notMem_requestWords`: The command of a command line that does not
  ask for help or the version.
-/

namespace GlyphLexer

namespace CommandLine

/-- The words that ask for help or the version wherever they stand. -/
def requestWords : List Text := [text "--help", text "-h", text "--version", text "-v"]

namespace Group

/-- The words that a group is written with. -/
def words : Group → List Text
  | code c => [text "-e", c]
  | format f => [text "--format", f.name]
  | noEof => [text "--no-eof"]
  | positional p => [p]

/-- The groups that are read as what they are: a positional argument does not
    look like an option. -/
def Readable : Group → Prop
  | positional p => isOption p = false
  | _ => True

end Group

/-- The command of groups, and of the identifier to explain if there is
    one. -/
def commandOf (gs : List Group) : Option Text → Except ArgumentError Command
  | some id => .ok (.explain id)
  | none => (input gs).map fun i => .lex i (overrides gs)

theorem isOption_eq_false_of_noHyphen {p : Text} (h : ¬ text "-" <+: p) : isOption p = false := by
  rw [isOption, Bool.and_eq_false_iff]
  refine Or.inl ?_
  rw [← Bool.not_eq_true, List.isPrefixOf_iff_prefix]
  exact h

theorem groups_words {g : Group} (hg : g.Readable) (rest : List Text) :
    groups (g.words ++ rest) = (groups rest).map fun (found, id) => (g :: found, id) := by
  cases g with
  | code c =>
      rw [Group.words, List.cons_append, List.cons_append, List.nil_append, groups,
        if_neg (by decide), if_pos rfl]
  | format f =>
      rw [Group.words, List.cons_append, List.cons_append, List.nil_append, groups,
        if_neg (by decide), if_neg (by decide), if_pos rfl]
      simp only [OutputFormat.ofName?_name]
  | noEof =>
      rw [Group.words, List.cons_append, List.nil_append, groups.eq_def (_ :: rest)]
      dsimp only
      rw [if_neg (by decide), if_neg (by decide), if_neg (by decide), if_pos rfl]
  | positional p =>
      -- Every word that begins another group looks like an option.
      have hne : ∀ word, isOption word = true → p ≠ word := by
        rintro word hword rfl
        rw [Group.Readable, hword] at hg
        cases hg
      have hoption : ¬ isOption p = true := by
        rw [show isOption p = false from hg]
        decide
      rw [Group.words, List.cons_append, List.nil_append, groups.eq_def (_ :: rest)]
      dsimp only
      rw [if_neg (hne _ (by decide)), if_neg (hne _ (by decide)), if_neg (hne _ (by decide)),
        if_neg (hne _ (by decide)), if_neg hoption]

theorem groups_words_append {gs : List Group} (h : ∀ g ∈ gs, g.Readable) (rest : List Text) :
    groups (gs.flatMap Group.words ++ rest) =
      (groups rest).map fun (found, id) => (gs ++ found, id) := by
  induction gs with
  | nil =>
      cases hrest : groups rest <;> simp only [List.flatMap_nil, List.nil_append, hrest] <;> rfl
  | cons g gs ih =>
      rw [List.flatMap_cons, List.append_assoc, groups_words (h g List.mem_cons_self),
        ih fun g' hmem => h g' (List.mem_cons_of_mem g hmem)]
      cases groups rest <;> rfl

/-- A format with a value that names none ends the reading. -/
theorem groups_of_invalidFormat {value : Text} (h : OutputFormat.ofName? value = none)
    (rest : List Text) :
    groups (text "--format" :: value :: rest) = .error (.invalidFormat (some value)) := by
  rw [groups, if_neg (by decide), if_neg (by decide), if_pos rfl]
  simp only [h]

/-- The command of a command line that does not ask for help or the
    version. -/
theorem parse_of_notMem_requestWords {argv : List Text} (h : ∀ arg ∈ argv, arg ∉ requestWords) :
    parse argv = (groups argv).bind fun (gs, id) => commandOf gs id := by
  have hword : ∀ word ∈ requestWords, word ∉ argv := fun word hword hmem => h word hmem hword
  have hhelp : ¬ (text "--help" ∈ argv ∨ text "-h" ∈ argv) :=
    not_or.2 ⟨hword (text "--help") (by decide), hword (text "-h") (by decide)⟩
  have hversion : ¬ (text "--version" ∈ argv ∨ text "-v" ∈ argv) :=
    not_or.2 ⟨hword (text "--version") (by decide), hword (text "-v") (by decide)⟩
  unfold parse
  rw [if_neg hhelp, if_neg hversion]
  rcases groups argv with e | ⟨gs, _ | id⟩
  · rfl
  · rfl
  · rfl

end CommandLine

end GlyphLexer
