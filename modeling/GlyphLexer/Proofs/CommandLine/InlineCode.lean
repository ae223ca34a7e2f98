import GlyphLexer.Proofs.CommandLine.Channels
import GlyphLexer.Proofs.CommandLine.Grammar

/-!
# Inline code among options

What becomes of a program that is given on the command line.

The word behind `-e` is taken unseen, and so it may be any text: one that
looks like an option is code, and sets nothing (`overrides_code_between`).
This is how the groups are read. But the words for help and the version are
looked for before that, in all of the command line, and a program that
happens to be one of them is found there. `-v` is a program, of a minus sign
and a name, and asks for the version all the same.

So a command line with a program among options scans the program unless it is
one of four texts, and for each of these it is known what is done in its
place (`parse_code_between`).

## Theorems

* `notMem_requestWords_of_setsOption`: Options have no word for help or the
  version.
* `mem_code_between_iff`, `asksForHelp_code_between_iff`,
  `asksForVersion_code_between_iff`: Such a word is the code.
* `positionals_code_between`, `namesInput_code_between`,
  `overrides_code_between`: What the groups ask for.
* `parse_code_between`: A program among options is scanned unless it is a
  word for help or the version.
* `parse_code_between_version`: A program that is such a word, and one that
  is the word of another option.
-/

namespace GlyphLexer

namespace CommandLine

/-- The words of options ask for neither help nor the version. -/
theorem notMem_requestWords_of_setsOption {g : Group} (hg : g.SetsOption) :
    ∀ word ∈ g.words, word ∉ requestWords := by
  cases hg with
  | format f => cases f <;> decide
  | noEof => decide

/-- The code sets no option. -/
theorem overrides_code_between (before after : List Group) (c : Text) :
    overrides (before ++ .code c :: after) = overrides (before ++ after) := by
  simp [overrides, Group.format?]

section Between

variable {before after : List Group} (hbefore : ∀ g ∈ before, g.SetsOption)
  (hafter : ∀ g ∈ after, g.SetsOption) (c : Text)

include hbefore hafter

/-- A word for help or the version that stands in a command line of code and
    options is the code. -/
theorem mem_code_between_iff {word : Text} (hword : word ∈ requestWords) :
    word ∈ before.flatMap Group.words ++ text "-e" :: c :: after.flatMap Group.words ↔
      c = word := by
  have hoption : ∀ gs : List Group, (∀ g ∈ gs, g.SetsOption) → word ∉ gs.flatMap Group.words := by
    intro gs hgs hmem
    rcases List.mem_flatMap.1 hmem with ⟨g, hg, hmem⟩
    exact notMem_requestWords_of_setsOption (hgs g hg) word hmem hword
  have hflag : word ≠ text "-e" := by
    rintro rfl
    exact absurd hword (by decide)
  simp only [List.mem_append, List.mem_cons, hoption before hbefore, hoption after hafter, hflag,
    false_or, or_false]
  exact eq_comm

theorem asksForHelp_code_between_iff :
    AsksForHelp (before.flatMap Group.words ++ text "-e" :: c :: after.flatMap Group.words) ↔
      c = text "--help" ∨ c = text "-h" := by
  rw [AsksForHelp, mem_code_between_iff hbefore hafter c (by decide),
    mem_code_between_iff hbefore hafter c (by decide)]

theorem asksForVersion_code_between_iff :
    AsksForVersion (before.flatMap Group.words ++ text "-e" :: c :: after.flatMap Group.words) ↔
      c = text "--version" ∨ c = text "-v" := by
  rw [AsksForVersion, mem_code_between_iff hbefore hafter c (by decide),
    mem_code_between_iff hbefore hafter c (by decide)]

theorem positionals_code_between : positionals (before ++ Group.code c :: after) = [] := by
  refine List.filterMap_eq_nil_iff.2 fun g hg => ?_
  rcases List.mem_append.1 hg with hg | hg
  · cases hbefore g hg <;> rfl
  rcases List.mem_cons.1 hg with rfl | hg
  · rfl
  · cases hafter g hg <;> rfl

theorem namesInput_code_between : NamesInput (before ++ .code c :: after) (.inline c) := by
  have hcodes : codes after = [] := by
    refine List.filterMap_eq_nil_iff.2 fun g hg => ?_
    cases hafter g hg <;> rfl
  exact NamesInput.inline rfl hcodes (positionals_code_between hbefore hafter c)

/-- A program among options is scanned, whatever it is, with the options that
    stand beside it. Only if it is a word for help or the version, that is
    done in its place. -/
theorem parse_code_between :
    parse (before.flatMap Group.words ++ text "-e" :: c :: after.flatMap Group.words) =
      if c = text "--help" ∨ c = text "-h" then .ok .help
      else if c = text "--version" ∨ c = text "-v" then .ok .version
      else .ok (.lex (.inline c) (overrides (before ++ after))) := by
  have hhelp := asksForHelp_code_between_iff hbefore hafter c
  have hversion := asksForVersion_code_between_iff hbefore hafter c
  have hplain : PlainPositionals (before ++ Group.code c :: after) := by
    intro p hp
    rw [positionals_code_between hbefore hafter c] at hp
    exact absurd hp List.not_mem_nil
  split
  · next h => exact (parse_eq_ok_iff _ _).2 (Asks.help (hhelp.2 h))
  split
  · next hno h =>
    rw [← hhelp] at hno
    exact (parse_eq_ok_iff _ _).2 (Asks.version hno (hversion.2 h))
  · next hno hno' =>
    rw [← hhelp] at hno
    rw [← hversion] at hno'
    refine (parse_eq_ok_iff _ _).2 (Asks.lex hno hno' hplain ?_
      (namesInput_code_between hbefore hafter c) ?_)
    · rw [List.flatMap_append, List.flatMap_cons]
      rfl
    · rw [← overrides_code_between before after c]
      exact isOverrides_overrides _

end Between

/-- A minus sign and a name are taken for a request for the version. The word
    of another option is code behind `-e`, and sets nothing. -/
theorem parse_code_between_version :
    parse [text "-e", text "-v"] = .ok .version ∧
      parse [text "--format", text "json", text "-e", text "--no-eof"] =
        .ok (.lex (.inline (text "--no-eof")) ⟨some .json, none⟩) := by
  have hnone : ∀ g ∈ ([] : List Group), g.SetsOption := fun g hg => absurd hg List.not_mem_nil
  have hjson : ∀ g ∈ [Group.format .json], g.SetsOption :=
    List.forall_mem_singleton.2 (Group.SetsOption.format .json)
  refine ⟨(parse_code_between hnone hnone (text "-v")).trans ?_,
    (parse_code_between hjson hnone (text "--no-eof")).trans ?_⟩
  · rw [if_neg (by decide), if_pos (by decide)]
  · rw [if_neg (by decide), if_neg (by decide)]
    rfl

end CommandLine

end GlyphLexer
