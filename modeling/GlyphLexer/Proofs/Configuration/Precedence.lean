import GlyphLexer.Proofs.Configuration

/-!
# What a configuration file sets

The options of a run with a configuration file, and what is said about a file
that is wrong.

Checking a mapping goes from entry to entry and stops at the first one that
sets nothing. The entries before it all set something, so the check gets
there, and the ones behind it are never looked at
(`applyEntries_append_of_error`). What is said depends on that entry alone.

What the command line says does not keep the file from being checked. It
comes in afterwards, option by option, in front of what the file says, and
that in front of the default (`resolveWith_of_read`). A `false` is something
said.

The reason for a format shows the value that should name one. A value that
has no text cannot be shown, and then there is no reason given at all but
only a complaint about that value (`resolveWith_of_read_withoutText`).

## Main definitions

* `Value.entries?`, `Value.property?`, `Value.boolean?`: The entries of a
  mapping, the value of a key, and a boolean.
* `Configuration.formatIn`, `Configuration.showEofIn`: What data says about
  each option.
* `Configuration.Offends`: What is wrong with an entry.
* `Configuration.Faulty`: What is wrong with data, the first offending entry
  if it is a mapping.
* `Configuration.Unshowable`: The first offending entry is a format that
  cannot be shown.
* `Configuration.RejectedAs`: What is said about a file that is not accepted.

## Theorems

* `Value.property?_cons`: The value of a key in a mapping with one entry
  more.
* `Configuration.bind_property?_cons`: What a key says in such a mapping.
* `Configuration.applyEntries_of_sets`: What entries set that all set
  something.
* `Configuration.applyEntries_append_of_error`: The first entry that sets
  nothing decides.
* `Configuration.exists_offends_iff`, `Configuration.message_of_offends`:
  Something is wrong with an entry that sets nothing, and what is said about
  it.
* `Configuration.not_settings_iff`: Data is wrong if something is wrong with
  it.
* `Configuration.RejectedAs.exists_problem`,
  `Configuration.exists_rejectedAs_of_error`: What is said about a file is the
  message of the problem that it is rejected for.
* `Configuration.resolveWith_of_read`: The options of a run, or what is said
  about the file.
* `Configuration.resolveWith_of_read_withoutText`: A format that cannot be
  shown.
-/

namespace GlyphLexer

/-- The entries of a mapping. -/
def Value.entries? : Value → Option (List (Text × Value))
  | .mapping entries => some entries
  | _ => none

/-- The value of a key in a mapping. A later entry of the same key goes
    before an earlier one. -/
def Value.property? (key : Text) (value : Value) : Option Value :=
  value.entries?.bind fun entries => entries.reverse.lookup key

/-- The boolean that a value is. -/
def Value.boolean? : Value → Option Bool
  | .boolean b => some b
  | _ => none

theorem Value.eq_mapping_of_entries? {value : Value} {entries : List (Text × Value)}
    (h : value.entries? = some entries) : value = .mapping entries := by
  cases value with
  | mapping others => rw [Option.some.inj h]
  | null => cases h
  | boolean b => cases h
  | number n => cases h
  | string t => cases h
  | list items => cases h

theorem Value.property?_mapping (key : Text) (entries : List (Text × Value)) :
    Value.property? key (.mapping entries) = entries.reverse.lookup key := rfl

theorem Value.property?_cons (key key' : Text) (value : Value) (entries : List (Text × Value)) :
    Value.property? key (.mapping ((key', value) :: entries)) =
      (Value.property? key (.mapping entries)).or (if key = key' then some value else none) := by
  rw [property?_mapping, property?_mapping, List.reverse_cons, List.lookup_append, List.lookup_cons,
    List.lookup_nil]
  by_cases hkey : key = key'
  · rw [if_pos hkey, beq_iff_eq.2 hkey]
  · rw [if_neg hkey, beq_eq_false_iff_ne.2 hkey]

namespace Configuration

/-- The format that data sets. -/
def formatIn (value : Value) : Option OutputFormat :=
  (value.property? (text "format")).bind OutputFormat.ofValue?

/-- Whether data says that the token for the end is shown. -/
def showEofIn (value : Value) : Option Bool :=
  (value.property? (text "showEof")).bind Value.boolean?

/-- What is wrong with an entry that sets nothing. -/
inductive Offends : Text × Value → Text → Prop where
  | unknownKey {key : Text} {value : Value} (hformat : key ≠ text "format")
      (hshowEof : key ≠ text "showEof") :
      Offends (key, value) (text "unknown key " ++ key)
  | format {value : Value} (h : ∀ f : OutputFormat, value ≠ .string f.name) :
      Offends (text "format", value)
        (text "format has invalid value \"" ++ value.display ++
          text "\" (must be 'text' or 'json')")
  | showEof {value : Value} (h : ∀ b, value ≠ .boolean b) :
      Offends (text "showEof", value) (text "showEof must be a boolean")

/-- What is wrong with data. Of a mapping it is what is wrong with the first
    entry that sets nothing, whatever is behind it. -/
inductive Faulty : Value → Text → Prop where
  | notMapping {value : Value} (hnull : value ≠ .null)
      (hmapping : ∀ entries, value ≠ .mapping entries) :
      Faulty value (text "must be a mapping")
  | entry {before behind : List (Text × Value)} {entry : Text × Value} {reason : Text}
      (hbefore : ∀ e ∈ before, Sets e) (h : Offends entry reason) :
      Faulty (.mapping (before ++ entry :: behind)) reason

/-- The first entry that sets nothing has a value in the place of a format
    that cannot be shown. -/
def Unshowable (value : Value) : Prop :=
  ∃ before shown behind, value = .mapping (before ++ (text "format", shown) :: behind) ∧
    (∀ e ∈ before, Sets e) ∧ shown.hasText = false

/-! ### Entries that all set something -/

theorem sets_of_property? {entries : List (Text × Value)} (h : ∀ entry ∈ entries, Sets entry)
    {key : Text} {value : Value}
    (hvalue : Value.property? key (.mapping entries) = some value) : Sets (key, value) := by
  rcases List.lookup_eq_some_iff.1 hvalue with ⟨before, behind, hentries, _⟩
  refine h _ ?_
  rw [← List.mem_reverse, hentries]
  exact List.mem_append_right before List.mem_cons_self

/-- What a key says in the entries behind an entry goes before what it says
    in the entry, as long as those entries do say something under the key. -/
theorem bind_property?_cons {α : Type} {said : Value → Option α} {key : Text}
    (hsaid : ∀ value, Sets (key, value) → (said value).isSome = true)
    {entries : List (Text × Value)} (h : ∀ entry ∈ entries, Sets entry) (key' : Text)
    (value : Value) :
    (Value.property? key (.mapping ((key', value) :: entries))).bind said =
      ((Value.property? key (.mapping entries)).bind said).or
        (if key = key' then said value else none) := by
  rw [Value.property?_cons]
  cases hvalue : Value.property? key (.mapping entries) with
  | none =>
      rw [Option.none_or, Option.bind_none, Option.none_or]
      by_cases hkey : key = key'
      · rw [if_pos hkey, if_pos hkey, Option.bind_some]
      · rw [if_neg hkey, if_neg hkey, Option.bind_none]
  | some found =>
      rcases Option.isSome_iff_exists.1 (hsaid found (sets_of_property? h hvalue)) with ⟨a, ha⟩
      rw [Option.some_or, Option.bind_some, ha, Option.some_or]

theorem formatIn_cons {entries : List (Text × Value)} (h : ∀ entry ∈ entries, Sets entry)
    (key : Text) (value : Value) :
    formatIn (.mapping ((key, value) :: entries)) = (formatIn (.mapping entries)).or
      (if text "format" = key then OutputFormat.ofValue? value else none) := by
  refine bind_property?_cons (fun value hsets => ?_) h key value
  cases hsets with
  | format f => rw [OutputFormat.ofValue?, OutputFormat.ofName?_name, Option.isSome_some]

theorem showEofIn_cons {entries : List (Text × Value)} (h : ∀ entry ∈ entries, Sets entry)
    (key : Text) (value : Value) :
    showEofIn (.mapping ((key, value) :: entries)) = (showEofIn (.mapping entries)).or
      (if text "showEof" = key then value.boolean? else none) := by
  refine bind_property?_cons (fun value hsets => ?_) h key value
  cases hsets with
  | showEof b => rfl

/-- Entries that all set something are accepted, and the last one of each
    option counts. -/
theorem applyEntries_of_sets {entries : List (Text × Value)} (h : ∀ entry ∈ entries, Sets entry)
    (options : Options) :
    applyEntries options entries =
      .ok ⟨(formatIn (.mapping entries)).getD options.format,
        (showEofIn (.mapping entries)).getD options.showEof⟩ := by
  -- Each entry changes the options that the check of the rest goes on with, so
  -- they are generalized.
  induction entries generalizing options with
  | nil => rfl
  | cons entry entries ih =>
      rw [List.forall_mem_cons] at h
      cases h.1 with
      | format f =>
          have hentry : Setting.ofEntry (text "format") (.string f.name) = .ok (.format f) := by
            cases f <;> rfl
          rw [formatIn_cons h.2, showEofIn_cons h.2, if_pos rfl, if_neg (by decide), Option.or_none,
            Option.getD_or, OutputFormat.ofValue?, OutputFormat.ofName?_name, Option.getD_some,
            applyEntries, hentry]
          exact ih h.2 _
      | showEof b =>
          rw [formatIn_cons h.2, showEofIn_cons h.2, if_neg (by decide), if_pos rfl, Option.or_none,
            Option.getD_or, Value.boolean?, Option.getD_some, applyEntries]
          exact ih h.2 _

theorem ofValue_of_settings {value : Value} (h : Settings value) :
    ofValue value = .ok ⟨(formatIn value).getD .text, (showEofIn value).getD true⟩ := by
  cases h with
  | null => rfl
  | mapping hentries => exact applyEntries_of_sets hentries Options.default

/-! ### The first entry that sets nothing -/

theorem exists_offends_iff (entry : Text × Value) :
    (∃ reason, Offends entry reason) ↔ ¬ Sets entry := by
  rcases entry with ⟨key, value⟩
  constructor
  · rintro ⟨reason, hoffends⟩ hsets
    cases hoffends with
    | unknownKey hformat hshowEof =>
        cases hsets with
        | format f => exact hformat rfl
        | showEof b => exact hshowEof rfl
    | format hvalue =>
        cases hsets with
        | format f => exact hvalue f rfl
    | showEof hvalue =>
        cases hsets with
        | showEof b => exact hvalue b rfl
  · intro hsets
    by_cases hformat : key = text "format"
    · rw [hformat] at hsets ⊢
      exact ⟨_, .format fun f hf => hsets (hf ▸ .format f)⟩
    · by_cases hshowEof : key = text "showEof"
      · rw [hshowEof] at hsets ⊢
        exact ⟨_, .showEof fun b hb => hsets (hb ▸ .showEof b)⟩
      · exact ⟨_, .unknownKey hformat hshowEof⟩

theorem ofValue?_eq_none {value : Value} (h : ∀ f : OutputFormat, value ≠ .string f.name) :
    OutputFormat.ofValue? value = none := by
  cases value with
  | string t =>
      cases hname : OutputFormat.ofName? t with
      | none => exact hname
      | some f => exact absurd (congrArg Value.string (OutputFormat.name_of_ofName? hname)) (h f)
  | null => rfl
  | boolean b => rfl
  | number n => rfl
  | list items => rfl
  | mapping entries => rfl

/-- What is said about an entry that sets nothing: the reason, unless it is a
    format that cannot be shown. -/
theorem message_of_offends {key : Text} {value : Value} {reason : Text}
    (h : Offends (key, value) reason) :
    ∃ problem, Setting.ofEntry key value = .error problem ∧
      (key = text "format" → value.hasText = false →
        problem.message = text "Cannot convert object to primitive value") ∧
      ((key = text "format" → value.hasText = true) →
        problem.message = text "Invalid configuration: " ++ reason) := by
  unfold Setting.ofEntry
  cases h with
  | unknownKey hformat hshowEof =>
      refine ⟨.unknownKey key, ?_, fun hkey => absurd hkey hformat, fun _ => rfl⟩
      rw [if_neg hformat, if_neg hshowEof]
  | format hvalue =>
      refine ⟨.ofFormat value, ?_, fun _ htext => ?_, fun htext => ?_⟩
      · rw [if_pos rfl, ofValue?_eq_none hvalue]
      · rw [Problem.ofFormat, htext]
        rfl
      · rw [Problem.ofFormat, htext rfl]
        rfl
  | showEof hvalue =>
      refine ⟨.showEofNotBoolean, ?_, fun hkey => absurd hkey (by decide), fun _ => rfl⟩
      rw [if_neg (by decide), if_pos rfl]
      cases value with
      | boolean b => exact absurd rfl (hvalue b)
      | null => rfl
      | string t => rfl
      | number n => rfl
      | list items => rfl
      | mapping entries => rfl

/-- The first entry that sets nothing decides, whatever is behind it. -/
theorem applyEntries_append_of_error {before : List (Text × Value)} (hbefore : ∀ e ∈ before, Sets e)
    {entry : Text × Value} {problem : Problem}
    (h : Setting.ofEntry entry.1 entry.2 = .error problem)
    (behind : List (Text × Value)) (options : Options) :
    applyEntries options (before ++ entry :: behind) = .error problem := by
  induction before generalizing options with
  | nil => rw [List.nil_append, applyEntries, h]
  | cons first before ih =>
      rw [List.forall_mem_cons] at hbefore
      rcases (exists_ofEntry_iff first.1 first.2).2 hbefore.1 with ⟨setting, hsetting⟩
      rw [List.cons_append, applyEntries, hsetting]
      exact ih hbefore.2 _

theorem exists_first_of_not_sets {entries : List (Text × Value)}
    (h : ¬ ∀ entry ∈ entries, Sets entry) :
    ∃ before entry behind,
      entries = before ++ entry :: behind ∧ (∀ e ∈ before, Sets e) ∧ ¬ Sets entry := by
  induction entries with
  | nil => exact absurd (fun _ hmem => absurd hmem List.not_mem_nil) h
  | cons first entries ih =>
      by_cases hfirst : Sets first
      · have hrest : ¬ ∀ entry ∈ entries, Sets entry := fun hall =>
          h (List.forall_mem_cons.2 ⟨hfirst, hall⟩)
        rcases ih hrest with ⟨before, entry, behind, rfl, hbefore, hentry⟩
        exact ⟨first :: before, entry, behind, rfl, List.forall_mem_cons.2 ⟨hfirst, hbefore⟩,
          hentry⟩
      · exact ⟨[], first, entries, rfl, fun _ hmem => absurd hmem List.not_mem_nil, hfirst⟩

/-- Data is made of settings, or there is something that is wrong with it. -/
theorem not_settings_iff (value : Value) : ¬ Settings value ↔ ∃ reason, Faulty value reason := by
  constructor
  · intro h
    cases value with
    | null => exact absurd .null h
    | mapping entries =>
        rcases exists_first_of_not_sets fun hall => h (.mapping hall) with
          ⟨before, entry, behind, rfl, hbefore, hentry⟩
        rcases (exists_offends_iff entry).2 hentry with ⟨reason, hreason⟩
        exact ⟨reason, .entry hbefore hreason⟩
    | boolean b => exact ⟨_, .notMapping (fun hc => nomatch hc) (fun _ hc => nomatch hc)⟩
    | number n => exact ⟨_, .notMapping (fun hc => nomatch hc) (fun _ hc => nomatch hc)⟩
    | string t => exact ⟨_, .notMapping (fun hc => nomatch hc) (fun _ hc => nomatch hc)⟩
    | list items => exact ⟨_, .notMapping (fun hc => nomatch hc) (fun _ hc => nomatch hc)⟩
  · rintro ⟨reason, hfaulty⟩ hsettings
    cases hfaulty with
    | notMapping hnull hmapping =>
        cases hsettings with
        | null => exact hnull rfl
        | mapping hentries => exact hmapping _ rfl
    | @entry before behind entry _ hbefore hoffends =>
        cases hsettings with
        | mapping hentries =>
            refine (exists_offends_iff entry).1 ⟨reason, hoffends⟩ (hentries entry ?_)
            exact List.mem_append_right before List.mem_cons_self

theorem ofValue_of_faulty {value : Value} {reason : Text} (h : Faulty value reason)
    (hshown : ¬ Unshowable value) :
    ∃ problem, ofValue value = .error problem ∧
      problem.message = text "Invalid configuration: " ++ reason := by
  cases h with
  | notMapping hnull hmapping =>
      refine ⟨.notMapping, ?_, rfl⟩
      cases value with
      | null => exact absurd rfl hnull
      | mapping entries => exact absurd rfl (hmapping entries)
      | boolean b => rfl
      | number n => rfl
      | string t => rfl
      | list items => rfl
  | @entry before behind entry _ hbefore hoffends =>
      rcases message_of_offends hoffends with ⟨problem, hproblem, -, hmessage⟩
      refine ⟨problem, applyEntries_append_of_error hbefore hproblem behind _,
        hmessage fun hkey => ?_⟩
      cases htext : entry.2.hasText with
      | true => rfl
      | false =>
          refine absurd ⟨before, entry.2, behind, ?_, hbefore, htext⟩ hshown
          rw [← hkey]

theorem ofValue_of_unshowable {value : Value} (h : Unshowable value) :
    ∃ problem, ofValue value = .error problem ∧
      problem.message = text "Cannot convert object to primitive value" := by
  rcases h with ⟨before, shown, behind, rfl, hbefore, htext⟩
  have hoffends : Offends (text "format", shown) _ := .format fun f hf => by
    rw [hf] at htext
    cases htext
  rcases message_of_offends hoffends with ⟨problem, hproblem, hmessage, -⟩
  exact ⟨problem, applyEntries_append_of_error hbefore hproblem behind _, hmessage rfl htext⟩

/-! ### What is said about a file -/

/-- A configuration file is not accepted, and this is said about it. -/
inductive RejectedAs (read : Text → Except Text Value) : FileState → Text → Prop where
  | unreadable (reason : Text) :
      RejectedAs read (.unreadable reason)
        (text "Invalid configuration: " ++ (text "failed to read file (" ++ reason ++ text ")"))
  | notYaml {content : Bytes} {complaint : Text}
      (hread : read (Text.ofUtf8 content) = .error complaint) :
      RejectedAs read (.file content)
        (text "Invalid configuration: " ++ (text "invalid YAML (" ++ complaint ++ text ")"))
  | faulty {content : Bytes} {value : Value} {reason : Text}
      (hread : read (Text.ofUtf8 content) = .ok value) (h : Faulty value reason)
      (hshown : ¬ Unshowable value) :
      RejectedAs read (.file content) (text "Invalid configuration: " ++ reason)
  | unshowable {content : Bytes} {value : Value}
      (hread : read (Text.ofUtf8 content) = .ok value) (h : Unshowable value) :
      RejectedAs read (.file content) (text "Cannot convert object to primitive value")

section Rejection

variable {read : Text → Except Text Value} {state : FileState} {message : Text}

theorem loadWith_file {content : Bytes} {value : Value}
    (hread : read (Text.ofUtf8 content) = .ok value) :
    loadWith read (.file content) = (ofValue value).map some := by
  rw [loadWith, ofTextWith, hread]

end Rejection

/-! ### The options of a run -/

theorem resolveWith_file {read : Text → Except Text Value} {content : Bytes} {value : Value}
    (hread : read (Text.ofUtf8 content) = .ok value) (overrides : Overrides) :
    resolveWith read overrides (.file content) = (ofValue value).map overrides.apply := by
  rw [resolveWith, loadWith_file hread]
  cases ofValue value with
  | ok options => rfl
  | error problem => rfl

/-- A file with data is accepted if the data is made of settings, whatever
    the command line says. Then each option is what the command line says, or
    else what the data says, or else the default. Otherwise the reason for
    the first entry that sets nothing is given, unless that is a format that
    cannot be shown. -/
theorem resolveWith_of_read {read : Text → Except Text Value} {content : Bytes} {value : Value}
    (hread : read (Text.ofUtf8 content) = .ok value) (overrides : Overrides) :
    ((∃ options, resolveWith read overrides (.file content) = .ok options) ↔ Settings value) ∧
      (∀ options, resolveWith read overrides (.file content) = .ok options →
        options.format = overrides.format.getD ((formatIn value).getD .text) ∧
          options.showEof = overrides.showEof.getD ((showEofIn value).getD true)) ∧
      (¬ Settings value ↔ ∃ reason, Faulty value reason) ∧
      (∀ reason, Faulty value reason → ¬ Unshowable value →
        ∃ problem, resolveWith read overrides (.file content) = .error problem ∧
          problem.message = text "Invalid configuration: " ++ reason) ∧
      (Unshowable value →
        ∃ problem, resolveWith read overrides (.file content) = .error problem ∧
          problem.message = text "Cannot convert object to primitive value") := by
  rw [resolveWith_file hread]
  have haccepted :
      (∃ options, (ofValue value).map overrides.apply = .ok options) ↔ Settings value := by
    rw [← exists_ofValue_iff]
    cases ofValue value with
    | ok options => exact ⟨fun _ => ⟨options, rfl⟩, fun _ => ⟨_, rfl⟩⟩
    | error problem =>
        refine ⟨?_, ?_⟩
        · rintro ⟨options, h⟩
          cases h
        · rintro ⟨options, h⟩
          cases h
  refine ⟨haccepted, fun options h => ?_, not_settings_iff value, fun reason hfaulty hshown => ?_,
    fun hunshowable => ?_⟩
  · rw [ofValue_of_settings (haccepted.1 ⟨options, h⟩)] at h
    rw [← Except.ok.inj h]
    exact ⟨rfl, rfl⟩
  · rcases ofValue_of_faulty hfaulty hshown with ⟨problem, hproblem, hmessage⟩
    exact ⟨problem, by rw [hproblem]; rfl, hmessage⟩
  · rcases ofValue_of_unshowable hunshowable with ⟨problem, hproblem, hmessage⟩
    exact ⟨problem, by rw [hproblem]; rfl, hmessage⟩

/-- A mapping in the place of a format that has an entry named as the way in
    which its text is asked for. -/
theorem resolveWith_of_read_withoutText :
    ∃ shown problem,
      Yaml.read (Text.ofUtf8 (Text.toUtf8 (text "format: \x7btoString: true\x7d"))) =
          .ok (.mapping [(text "format", shown)]) ∧ shown.hasText = false ∧
        resolve ⟨none, none⟩ (.file (Text.toUtf8 (text "format: \x7btoString: true\x7d"))) =
            .error problem ∧
          problem.message = text "Cannot convert object to primitive value" := by
  -- Values are not compared by a decision procedure, so their keys are, and
  -- whether they have texts.
  have hkeys : ((Yaml.read (Text.ofUtf8 (Text.toUtf8
      (text "format: \x7btoString: true\x7d")))).toOption.bind Value.entries?).map
        (List.map (Prod.map id Value.hasText)) = some [(text "format", false)] := by
    decide +kernel
  cases hread : Yaml.read (Text.ofUtf8 (Text.toUtf8 (text "format: \x7btoString: true\x7d"))) with
  | error complaint =>
      rw [hread] at hkeys
      cases hkeys
  | ok value =>
      rw [hread] at hkeys
      rcases Option.map_eq_some_iff.1 hkeys with ⟨entries, hmapping, hshown⟩
      rcases List.map_eq_cons_iff.1 hshown with ⟨⟨key, shown⟩, rest, rfl, hentry, hrest⟩
      rw [Value.eq_mapping_of_entries? hmapping, List.map_eq_nil_iff.1 hrest] at hread ⊢
      obtain ⟨rfl, htext⟩ := Prod.mk.inj hentry
      have hunshowable : Unshowable (.mapping [(text "format", shown)]) :=
        ⟨[], shown, [], rfl, fun _ hmem => absurd hmem List.not_mem_nil, htext⟩
      rcases (resolveWith_of_read hread ⟨none, none⟩).2.2.2.2 hunshowable with
        ⟨problem, hproblem, hmessage⟩
      exact ⟨shown, problem, rfl, htext, hproblem, hmessage⟩

end Configuration

end GlyphLexer
