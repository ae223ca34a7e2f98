import GlyphLexer.Proofs.CommandLine.Arguments

/-!
# The grammar of command lines

Which command lines there are, and what each of them asks for, without
reading them.

A command line that does not ask for help or the version is written as groups
one behind the other, with nothing behind the last of them or a request for
an explanation (`Written`). Reading from the left finds these groups again
and fails on everything else (`groups_eq_ok_iff`). One direction follows the
reading, and the other one the groups. The words of a group say which group
it is, since the word that begins another one looks like an option, and no
positional argument does.

What the groups ask for is said of all of them at once: the last code and the
last format count, and positional arguments are counted. The reading keeps
lists of what it finds and looks at their ends (`input_eq_ok_iff`,
`isOverrides_iff`).

## Main definitions

* `Written`: How a command line is written.
* `codes`, `formats`, `positionals`: What the groups of one kind give.
* `PlainPositionals`: The positional arguments are none that look like
  options.
* `NamesInput`, `IsOverrides`: The input and the options of groups.
* `AsksForHelp`, `AsksForVersion`, `Asks`: What a command line asks for.

## Theorems

* `groups_eq_ok_iff`: Reading finds the groups that were written, and fails
  on what is not written as groups.
* `written_iff`: The words of the groups come first.
* `forall_readable_iff`: The groups that can be read are those with such
  positional arguments.
* `getLast?_filterMap_eq_some_iff`: The last group of one kind.
* `input_eq_ok_iff`, `exists_namesInput_iff`: The input of groups, and which
  groups have one.
* `isOverrides_iff`: The options of groups.
* `asks_iff_of_written`, `parse_eq_ok_iff_of_written`: What is asked for, and
  what is parsed, without a word for help or the version.
* `parse_eq_ok_iff`: The command that a command line is parsed to.
* `parse_grammar`: A command line is parsed to what it asks for, or else it
  is an error.
-/

namespace GlyphLexer

namespace CommandLine

/-- How a command line is written: as groups, with nothing or a request for
    an explanation behind them. -/
inductive Written : List Text → List Group → Option Text → Prop where
  | nil : Written [] [] none
  | explain {id : Text} (hid : id ≠ []) (more : List Text) :
      Written (text "--explain" :: id :: more) [] (some id)
  | group {g : Group} {rest : List Text} {gs : List Group} {id : Option Text} (hg : g.Readable)
      (h : Written rest gs id) : Written (g.words ++ rest) (g :: gs) id

/-- A group in front is there in what is read, if anything is read. -/
theorem exists_of_map_cons_eq_ok {r : Except ArgumentError (List Group × Option Text)} {g : Group}
    {gs : List Group} {id : Option Text}
    (h : (r.map fun (found, id) => (g :: found, id)) = .ok (gs, id)) :
    ∃ found, gs = g :: found ∧ r = .ok (found, id) := by
  cases r with
  | error e => cases h
  | ok read =>
      cases h
      exact ⟨read.1, rfl, rfl⟩

/-- Reading from the left finds the groups that a command line is written as,
    and no groups if it is not written as any. -/
theorem groups_eq_ok_iff {argv : List Text} {gs : List Group} {id : Option Text} :
    groups argv = .ok (gs, id) ↔ Written argv gs id := by
  constructor
  · intro h
    -- One case for each way in which the reading goes on or ends. Those that
    -- end in an error come last.
    fun_induction groups argv generalizing gs with
    | case1 =>
        cases h
        exact Written.nil
    | case4 id' more hid =>
        cases h
        exact Written.explain (by simpa using hid) more
    | case6 c rest _ ih =>
        rcases exists_of_map_cons_eq_ok h with ⟨found, rfl, hrest⟩
        exact Written.group (g := .code c) trivial (ih hrest)
    | case9 name rest f hname _ _ ih =>
        rcases exists_of_map_cons_eq_ok h with ⟨found, rfl, hrest⟩
        rw [OutputFormat.name_of_ofName? hname]
        exact Written.group (g := .format f) trivial (ih hrest)
    | case10 rest _ _ _ ih =>
        rcases exists_of_map_cons_eq_ok h with ⟨found, rfl, hrest⟩
        exact Written.group (g := .noEof) trivial (ih hrest)
    | case12 p rest _ _ _ _ hoption ih =>
        rcases exists_of_map_cons_eq_ok h with ⟨found, rfl, hrest⟩
        exact Written.group (g := .positional p) (by simpa [Group.Readable] using hoption)
          (ih hrest)
    | case2 | case3 | case5 | case7 | case8 | case11 => cases h
  · intro h
    induction h with
    | nil => rfl
    | @explain id hid more =>
        rw [groups, if_pos rfl]
        exact if_neg (by simpa using hid)
    | group hg _ ih => rw [groups_words hg, ih, Except.map]

/-- The groups are those whose words come first, and what ends the command
    line is behind them. -/
theorem written_iff {argv : List Text} {gs : List Group} {id : Option Text} :
    Written argv gs id ↔ (∀ g ∈ gs, g.Readable) ∧
      ∃ rest, Written rest [] id ∧ argv = gs.flatMap Group.words ++ rest := by
  constructor
  · intro h
    induction h with
    | nil => exact ⟨fun g hg => absurd hg List.not_mem_nil, [], Written.nil, rfl⟩
    | @explain id hid more =>
        exact ⟨fun g hg => absurd hg List.not_mem_nil, _, Written.explain hid more, rfl⟩
    | group hg _ ih =>
        rcases ih with ⟨hread, rest, hend, hrest⟩
        exact ⟨List.forall_mem_cons.2 ⟨hg, hread⟩, rest, hend,
          by rw [hrest, List.flatMap_cons, List.append_assoc]⟩
  · rintro ⟨hread, rest, hend, rfl⟩
    induction gs with
    | nil => exact hend
    | cons g gs ih =>
        rw [List.forall_mem_cons] at hread
        rw [List.flatMap_cons, List.append_assoc]
        exact Written.group hread.1 (ih hread.2)

theorem written_nil_none_iff {rest : List Text} : Written rest [] none ↔ rest = [] := by
  constructor
  · intro h
    cases h
    rfl
  · rintro rfl
    exact Written.nil

theorem written_nil_some_iff {rest : List Text} {id : Text} :
    Written rest [] (some id) ↔ id ≠ [] ∧ ∃ more, rest = text "--explain" :: id :: more := by
  constructor
  · intro h
    cases h with
    | explain hid more => exact ⟨hid, more, rfl⟩
  · rintro ⟨hid, more, rfl⟩
    exact Written.explain hid more

theorem Group.code?_eq_some_iff {g : Group} {c : Text} : g.code? = some c ↔ g = .code c := by
  cases g <;> simp [Group.code?]

theorem Group.format?_eq_some_iff {g : Group} {f : OutputFormat} :
    g.format? = some f ↔ g = .format f := by
  cases g <;> simp [Group.format?]

theorem Group.positional?_eq_some_iff {g : Group} {p : Text} :
    g.positional? = some p ↔ g = .positional p := by
  cases g <;> simp [Group.positional?]

/-- The codes that groups give. -/
def codes (gs : List Group) : List Text := gs.filterMap Group.code?

/-- The formats that groups give. -/
def formats (gs : List Group) : List OutputFormat := gs.filterMap Group.format?

/-- The positional arguments among groups. -/
def positionals (gs : List Group) : List Text := gs.filterMap Group.positional?

/-- Every positional argument is a hyphen or begins with none. -/
def PlainPositionals (gs : List Group) : Prop :=
  ∀ p ∈ positionals gs, p = text "-" ∨ ¬ text "-" <+: p

theorem readable_positional_iff (p : Text) :
    (Group.positional p).Readable ↔ p = text "-" ∨ ¬ text "-" <+: p := by
  rw [Group.Readable, isOption, Bool.and_eq_false_iff, ← Bool.not_eq_true,
    List.isPrefixOf_iff_prefix, bne_eq_false_iff_eq]
  exact or_comm

/-- The groups that are read as what they are written for differ from others
    in positional arguments only. -/
theorem forall_readable_iff {gs : List Group} : (∀ g ∈ gs, g.Readable) ↔ PlainPositionals gs := by
  constructor
  · intro h p hp
    rcases List.mem_filterMap.1 hp with ⟨g, hg, hgp⟩
    have hread := h g hg
    rw [Group.positional?_eq_some_iff.1 hgp] at hread
    exact (readable_positional_iff p).1 hread
  · intro h g hg
    cases g with
    | positional p =>
        exact (readable_positional_iff p).2 (h p (List.mem_filterMap.2 ⟨.positional p, hg, rfl⟩))
    | _ => trivial

/-- The input that groups name: the last code if there is one, or else the
    only positional argument, or else the sample program. With a code there
    is no positional argument. -/
inductive NamesInput (gs : List Group) : Input → Prop where
  | inline {before after : List Group} {c : Text} (h : gs = before ++ .code c :: after)
      (hlast : codes after = []) (hnone : positionals gs = []) : NamesInput gs (.inline c)
  | stdin (hcode : codes gs = []) (h : positionals gs = [text "-"]) : NamesInput gs .stdin
  | file {p : Text} (hcode : codes gs = []) (h : positionals gs = [p]) (hp : p ≠ text "-") :
      NamesInput gs (.file p)
  | sample (hcode : codes gs = []) (h : positionals gs = []) : NamesInput gs .sample

/-- The options that groups set: the format of the last group that gives one,
    and no token for the end if a group asks for that. -/
structure IsOverrides (gs : List Group) (o : Configuration.Overrides) : Prop where
  format : ∀ f, o.format = some f ↔ ∃ before after, gs = before ++ .format f :: after ∧
    formats after = []
  showEof : ∀ b, o.showEof = some b ↔ b = false ∧ .noEof ∈ gs

/-- The last group of one kind, where `f` reads what `mk` makes. -/
theorem getLast?_filterMap_eq_some_iff {α : Type} {f : Group → Option α} {mk : α → Group}
    (hf : ∀ g a, f g = some a ↔ g = mk a) {gs : List Group} {a : α} :
    (gs.filterMap f).getLast? = some a ↔
      ∃ before after, gs = before ++ mk a :: after ∧ after.filterMap f = [] := by
  -- The library looks for the first group in the reversed list.
  rw [List.getLast?_filterMap, List.findSome?_eq_some_iff]
  constructor
  · rintro ⟨behind, g, front, h, hg, hnone⟩
    refine ⟨front.reverse, behind.reverse, ?_, ?_⟩
    · rw [← (hf g a).1 hg, ← List.reverse_reverse gs, h, List.reverse_append, List.reverse_cons,
        List.append_assoc, List.singleton_append]
    · exact List.filterMap_eq_nil_iff.2 fun x hx => hnone x (List.mem_reverse.1 hx)
  · rintro ⟨before, after, rfl, hnone⟩
    refine ⟨after.reverse, mk a, before.reverse, ?_, (hf _ a).2 rfl, fun x hx => ?_⟩
    · rw [List.reverse_append, List.reverse_cons, List.append_assoc, List.singleton_append]
    · exact List.filterMap_eq_nil_iff.1 hnone x (List.mem_reverse.1 hx)

theorem getLast?_codes_eq_some_iff {gs : List Group} {c : Text} :
    (codes gs).getLast? = some c ↔
      ∃ before after, gs = before ++ .code c :: after ∧ codes after = [] :=
  getLast?_filterMap_eq_some_iff fun _ _ => Group.code?_eq_some_iff

theorem input_of_codes_eq_nil {gs : List Group} {p : Text} (hcode : codes gs = [])
    (hpositional : positionals gs = [p]) : input gs = .ok (Input.ofPositional p) := by
  rw [codes] at hcode
  rw [positionals] at hpositional
  rw [input, hcode, hpositional]
  rfl

/-- The input of groups is the one that they name. -/
theorem input_eq_ok_iff {gs : List Group} {i : Input} : input gs = .ok i ↔ NamesInput gs i := by
  constructor
  · intro h
    unfold input at h
    split at h
    · next c hcode hpositional =>
      rcases getLast?_codes_eq_some_iff.1 hcode with ⟨before, after, hgs, hlast⟩
      cases h
      exact NamesInput.inline hgs hlast hpositional
    · next hcode hpositional =>
      cases h
      exact NamesInput.sample (List.getLast?_eq_none_iff.1 hcode) hpositional
    · next p hcode hpositional =>
      rw [← Except.ok.inj h, Input.ofPositional]
      split
      · next hp =>
        rw [hp] at hpositional
        exact NamesInput.stdin (List.getLast?_eq_none_iff.1 hcode) hpositional
      · next hp => exact NamesInput.file (List.getLast?_eq_none_iff.1 hcode) hpositional hp
    · cases h
  · intro h
    cases h with
    | @inline before after c hgs hlast hnone =>
        have hcode := getLast?_codes_eq_some_iff.2 ⟨before, after, hgs, hlast⟩
        rw [codes] at hcode
        rw [positionals] at hnone
        rw [input, hcode, hnone]
    | stdin hcode hpositional =>
        rw [input_of_codes_eq_nil hcode hpositional, Input.ofPositional, if_pos rfl]
    | file hcode hpositional hp =>
        rw [input_of_codes_eq_nil hcode hpositional, Input.ofPositional, if_neg hp]
    | sample hcode hpositional =>
        rw [codes] at hcode
        rw [positionals] at hpositional
        rw [input, hcode, hpositional]
        rfl

/-- Groups have an input if there is no positional argument, or one and no
    code. -/
theorem exists_namesInput_iff {gs : List Group} :
    (∃ i, NamesInput gs i) ↔ positionals gs = [] ∨ codes gs = [] ∧ (positionals gs).length = 1 := by
  constructor
  · rintro ⟨i, hi⟩
    cases hi with
    | inline _ _ hnone => exact Or.inl hnone
    | stdin hcode h | file hcode h _ => exact Or.inr ⟨hcode, by rw [h]; rfl⟩
    | sample _ h => exact Or.inl h
  · rintro (hnone | ⟨hcode, hone⟩)
    · cases hlast : (codes gs).getLast? with
      | none => exact ⟨_, NamesInput.sample (List.getLast?_eq_none_iff.1 hlast) hnone⟩
      | some c =>
          rcases getLast?_codes_eq_some_iff.1 hlast with ⟨before, after, hgs, hafter⟩
          exact ⟨_, NamesInput.inline hgs hafter hnone⟩
    · rcases List.length_eq_one_iff.1 hone with ⟨p, hp⟩
      exact ⟨_, input_eq_ok_iff.1 (input_of_codes_eq_nil hcode hp)⟩

theorem isOverrides_overrides (gs : List Group) : IsOverrides gs (overrides gs) := by
  refine ⟨fun f => getLast?_filterMap_eq_some_iff fun _ _ => Group.format?_eq_some_iff, fun b => ?_⟩
  unfold overrides
  by_cases h : Group.noEof ∈ gs
  · simp [h, eq_comm]
  · simp [h]

/-- The options of groups are the ones that they set. -/
theorem isOverrides_iff {gs : List Group} {o : Configuration.Overrides} :
    IsOverrides gs o ↔ o = overrides gs := by
  constructor
  · intro h
    -- What is set by both is the same, and so is what is not set.
    have hgs := isOverrides_overrides gs
    have hformat : o.format = (overrides gs).format :=
      Option.ext fun f => (h.format f).trans (hgs.format f).symm
    have hshowEof : o.showEof = (overrides gs).showEof :=
      Option.ext fun b => (h.showEof b).trans (hgs.showEof b).symm
    rw [show o = ⟨o.format, o.showEof⟩ from rfl, hformat, hshowEof]
  · rintro rfl
    exact isOverrides_overrides gs

/-- A word for help stands somewhere. -/
def AsksForHelp (argv : List Text) : Prop := text "--help" ∈ argv ∨ text "-h" ∈ argv

/-- A word for the version stands somewhere. -/
def AsksForVersion (argv : List Text) : Prop := text "--version" ∈ argv ∨ text "-v" ∈ argv

/-- What a command line asks for: help, or else the version, or else what is
    written in it. -/
inductive Asks (argv : List Text) : Command → Prop where
  | help (h : AsksForHelp argv) : Asks argv .help
  | version (hhelp : ¬ AsksForHelp argv) (h : AsksForVersion argv) : Asks argv .version
  | explain {gs : List Group} {id : Text} {more : List Text} (hhelp : ¬ AsksForHelp argv)
      (hversion : ¬ AsksForVersion argv) (hplain : PlainPositionals gs) (hid : id ≠ [])
      (h : argv = gs.flatMap Group.words ++ text "--explain" :: id :: more) :
      Asks argv (.explain id)
  | lex {gs : List Group} {i : Input} {o : Configuration.Overrides} (hhelp : ¬ AsksForHelp argv)
      (hversion : ¬ AsksForVersion argv) (hplain : PlainPositionals gs)
      (h : argv = gs.flatMap Group.words) (hi : NamesInput gs i) (ho : IsOverrides gs o) :
      Asks argv (.lex i o)

theorem commandOf_none_eq_ok_iff {gs : List Group} {command : Command} :
    commandOf gs none = .ok command ↔
      ∃ i o, command = .lex i o ∧ NamesInput gs i ∧ IsOverrides gs o := by
  rw [commandOf]
  constructor
  · intro h
    cases hinput : input gs with
    | error e =>
        rw [hinput] at h
        cases h
    | ok i =>
        rw [hinput] at h
        cases h
        exact ⟨i, overrides gs, rfl, input_eq_ok_iff.1 hinput, isOverrides_overrides gs⟩
  · rintro ⟨i, o, rfl, hi, ho⟩
    rw [input_eq_ok_iff.2 hi, isOverrides_iff.1 ho]
    rfl

/-- Without a word for help or the version, a command line asks for what its
    groups ask for. -/
theorem asks_iff_of_written {argv : List Text} (hhelp : ¬ AsksForHelp argv)
    (hversion : ¬ AsksForVersion argv) {command : Command} :
    Asks argv command ↔ ∃ gs id, Written argv gs id ∧ commandOf gs id = .ok command := by
  constructor
  · intro h
    cases h with
    | help h => exact absurd h hhelp
    | version _ h => exact absurd h hversion
    | @explain gs id more _ _ hplain hid h =>
        exact ⟨gs, some id, written_iff.2 ⟨forall_readable_iff.2 hplain, _,
          Written.explain hid more, h⟩, rfl⟩
    | @lex gs i o _ _ hplain h hi ho =>
        rw [← List.append_nil (gs.flatMap Group.words)] at h
        exact ⟨gs, none, written_iff.2 ⟨forall_readable_iff.2 hplain, [], Written.nil, h⟩,
          commandOf_none_eq_ok_iff.2 ⟨i, o, rfl, hi, ho⟩⟩
  · rintro ⟨gs, id, hwritten, hcommand⟩
    rcases written_iff.1 hwritten with ⟨hread, rest, hend, hargv⟩
    rw [forall_readable_iff] at hread
    cases id with
    | none =>
        rw [written_nil_none_iff.1 hend, List.append_nil] at hargv
        rcases commandOf_none_eq_ok_iff.1 hcommand with ⟨i, o, rfl, hi, ho⟩
        exact Asks.lex hhelp hversion hread hargv hi ho
    | some id =>
        rcases written_nil_some_iff.1 hend with ⟨hid, more, rfl⟩
        cases hcommand
        exact Asks.explain hhelp hversion hread hid hargv

theorem notMem_requestWords_of_not_asks {argv : List Text} (hhelp : ¬ AsksForHelp argv)
    (hversion : ¬ AsksForVersion argv) : ∀ arg ∈ argv, arg ∉ requestWords := by
  intro arg harg hword
  simp only [requestWords, List.mem_cons, List.not_mem_nil, or_false] at hword
  rcases hword with rfl | rfl | rfl | rfl
  · exact hhelp (Or.inl harg)
  · exact hhelp (Or.inr harg)
  · exact hversion (Or.inl harg)
  · exact hversion (Or.inr harg)

/-- And it is parsed to that. -/
theorem parse_eq_ok_iff_of_written {argv : List Text} (hhelp : ¬ AsksForHelp argv)
    (hversion : ¬ AsksForVersion argv) {command : Command} :
    parse argv = .ok command ↔ ∃ gs id, Written argv gs id ∧ commandOf gs id = .ok command := by
  rw [parse_of_notMem_requestWords (notMem_requestWords_of_not_asks hhelp hversion)]
  constructor
  · intro h
    cases hread : groups argv with
    | error e =>
        rw [hread] at h
        cases h
    | ok read =>
        rw [hread] at h
        exact ⟨read.1, read.2, groups_eq_ok_iff.1 hread, h⟩
  · rintro ⟨gs, id, hwritten, hcommand⟩
    rw [groups_eq_ok_iff.2 hwritten]
    exact hcommand

theorem parse_eq_ok_iff (argv : List Text) (command : Command) :
    parse argv = .ok command ↔ Asks argv command := by
  by_cases hhelp : AsksForHelp argv
  · have hparse : parse argv = .ok .help := if_pos hhelp
    rw [hparse, Except.ok.injEq]
    constructor
    · rintro rfl
      exact Asks.help hhelp
    · intro h
      cases h with
      | help _ => rfl
      | version hno _ | explain hno _ _ _ _ | lex hno _ _ _ _ _ => exact absurd hhelp hno
  by_cases hversion : AsksForVersion argv
  · have hparse : parse argv = .ok .version := (if_neg hhelp).trans (if_pos hversion)
    rw [hparse, Except.ok.injEq]
    constructor
    · rintro rfl
      exact Asks.version hhelp hversion
    · intro h
      cases h with
      | help h => exact absurd h hhelp
      | version _ _ => rfl
      | explain _ hno _ _ _ | lex _ hno _ _ _ _ => exact absurd hversion hno
  exact (parse_eq_ok_iff_of_written hhelp hversion).trans (asks_iff_of_written hhelp hversion).symm

/-- A command line is parsed to what it asks for, and is an error if it asks
    for nothing. It asks for a scan if it is written as groups with no
    positional argument, or with no code and one positional argument, and has
    none of the words for help and the version. -/
theorem parse_grammar (argv : List Text) :
    (∀ command, parse argv = .ok command ↔ Asks argv command) ∧
      ((∃ e, parse argv = .error e) ↔ ∀ command, ¬ Asks argv command) ∧
      ((∃ i o, parse argv = .ok (.lex i o)) ↔ ¬ AsksForHelp argv ∧ ¬ AsksForVersion argv ∧
        ∃ gs, PlainPositionals gs ∧ argv = gs.flatMap Group.words ∧
          (positionals gs = [] ∨ codes gs = [] ∧ (positionals gs).length = 1)) := by
  refine ⟨parse_eq_ok_iff argv, ?_, ?_⟩
  · simp only [← parse_eq_ok_iff]
    cases parse argv with
    | error e =>
        refine ⟨fun _ command h => ?_, fun _ => ⟨e, rfl⟩⟩
        cases h
    | ok command =>
        refine ⟨?_, fun h => absurd rfl (h command)⟩
        rintro ⟨e, he⟩
        cases he
  · constructor
    · rintro ⟨i, o, h⟩
      cases (parse_eq_ok_iff argv _).1 h with
      | lex hhelp hversion hplain hargv hi ho =>
          exact ⟨hhelp, hversion, _, hplain, hargv, exists_namesInput_iff.1 ⟨i, hi⟩⟩
    · rintro ⟨hhelp, hversion, gs, hplain, hargv, hcount⟩
      rcases exists_namesInput_iff.2 hcount with ⟨i, hi⟩
      exact ⟨i, overrides gs, (parse_eq_ok_iff argv _).2
        (Asks.lex hhelp hversion hplain hargv hi (isOverrides_overrides gs))⟩

end CommandLine

end GlyphLexer
