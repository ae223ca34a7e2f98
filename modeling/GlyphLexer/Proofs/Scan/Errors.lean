import GlyphLexer.Proofs.Scan.Cut
import GlyphLexer.Proofs.Templates

/-!
# What errors say

The error of a scan agrees with the text it was found in, and with itself.

A fault is met at a unit of the text or at its end, and which of them it is
shows in the kind of the fault (`Breakage.Fits.head?_rest`). Everything else
in an error is made of the fault and of its place by `Fault.toError`, and so
it is enough to look at one fault of each sort before a text that begins as
the fault says (`Fault.describes`).

The unit that a message shows is made visible first, so that what stands in
the place of the placeholder is not always the unit itself. A number does not
do this with the unit that it runs into. But that unit is a second point or
the beginning of a name, and these are shown as they are
(`Text.escaped_of_cutsNumber`), so that it comes to the same
(`Breakage.Fits.showsUnit`).

## Main definitions

* `Fault.unitAtPlace?`: The unit that a fault is met at.
* `Fault.ShowsUnit`: The context of a fault shows the unit that it names.
* `LexError.Shows`: The context and the detail show a unit.
* `LexError.Describes`: An error that is right about a place in a text.

## Theorems

* `Text.escaped_of_cutsNumber`: The units that cut a number are shown as they
  are.
* `FaultKind.exists_template`: Where the templates of two kinds show a unit.
* `Breakage.Fits.head?_rest`: A fault is met at the unit that it names.
* `Breakage.Fits.showsUnit`: A fault of a text shows the unit that it names.
* `Fault.shows_toError`, `Fault.detail_toError`: The message of a fault that
  names a unit, and of one that names none.
* `Fault.describes`: The error of a fault before a text that begins as the
  fault says.
* `scan_error_describes`: The error of a scan is right about its place.
* `scan_error_describes_brace`: An escape that shows an opening brace.
-/

namespace GlyphLexer

/-- The units that a number may not run into are shown as they are. -/
theorem Text.escaped_of_cutsNumber {u : CodeUnit} (h : u = CodeUnit.dot ∨ u.isNameStart = true) :
    escaped [u] = [u] := by
  rcases h with rfl | h
  · rfl
  · -- The beginning of a name is a letter or an underscore, and nothing that is escaped.
    have hunit : ¬ (u < 32 ∨ u = CodeUnit.quote ∨ u = CodeUnit.backslash ∨ 0xD800 ≤ u) := by
      grind [CodeUnit.isNameStart, CodeUnit.isLetter]
    grind [escaped, escapedUnit, CodeUnit.isHighSurrogate, CodeUnit.isLowSurrogate]

/-- The kinds whose message shows a unit have one placeholder in their
    templates. -/
theorem FaultKind.exists_template {kind : FaultKind}
    (h : kind = .unexpectedSymbol ∨ kind = .invalidEscapeCharacter) :
    ∃ before behind, kind.entry.template = before ++ (text "\x7bchar\x7d" ++ behind) ∧
      CodeUnit.leftBrace ∉ before ∧ CodeUnit.leftBrace ∉ behind := by
  rcases h with rfl | rfl
  · exact ⟨text "Unexpected symbol '", text "'", rfl, by decide, by decide⟩
  · exact ⟨text "Invalid escape sequence '\\", text "'", rfl, by decide, by decide⟩

/-- The unit that a fault is met at, or nothing at the end of the text. -/
def Fault.unitAtPlace? : Fault → Option CodeUnit
  | endOfFile => none
  | unexpectedSymbol u => some u
  | symbolBehindNumber u => some u
  | invalidEscape u => some u
  | endOfLine => some CodeUnit.newline

/-- A fault is met at the unit that it names. -/
theorem Breakage.Fits.head?_rest {b : Breakage} {passed rest : Text} {f : Fault}
    (h : b.Fits passed rest f) : rest.head? = f.unitAtPlace? := by
  cases h <;> rfl

/-- The unit that a fault names is in its context, made visible. -/
def Fault.ShowsUnit (f : Fault) : Prop :=
  ∀ u, f.unit? = some u → f.context = [(text "char", .string (Text.escaped [u]))]

/-- A number gives the unit that it runs into as it is, which is what the
    unit is shown as. -/
theorem Fault.showsUnit_symbolBehindNumber {u : CodeUnit}
    (hu : u = CodeUnit.dot ∨ u.isNameStart = true) : (symbolBehindNumber u).ShowsUnit := by
  rintro v ⟨⟩
  rw [Text.escaped_of_cutsNumber hu]
  rfl

theorem Breakage.Fits.showsUnit {b : Breakage} {passed rest : Text} {f : Fault}
    (h : b.Fits passed rest f) : f.ShowsUnit := by
  cases h with
  | secondPoint _ => exact Fault.showsUnit_symbolBehindNumber (Or.inl rfl)
  | nameBehindNumber _ hu => exact Fault.showsUnit_symbolBehindNumber (Or.inr hu)
  | stray _ _ _ _ =>
      rintro v ⟨⟩
      rfl
  | unknownEscape _ _ =>
      rintro v ⟨⟩
      rfl
  | newlineInString _ => exact fun v hv => nomatch hv
  | endInString _ => exact fun v hv => nomatch hv
  | endBehindBackslash _ => exact fun v hv => nomatch hv

/-- The context of an error holds the form in which a unit is shown, and the
    detail is the template of the kind with this form in the place of the
    placeholder. A point and the beginning of a name are shown as they
    are. -/
structure LexError.Shows (e : LexError) (u : CodeUnit) : Prop where
  context : e.context = some [(text "char", .string (Text.escaped [u]))]
  bare : u = CodeUnit.dot ∨ u.isNameStart = true → e.context = some [(text "char", .string [u])]
  detail : ∃ before behind, e.kind.entry.template = before ++ (text "\x7bchar\x7d" ++ behind) ∧
    CodeUnit.leftBrace ∉ before ∧ CodeUnit.leftBrace ∉ behind ∧
      e.detail = before ++ (Text.escaped [u] ++ behind)

/-- An error that is right about the offset `p` of the text `s`, and agrees
    with itself. -/
structure LexError.Describes (e : LexError) (s : Text) (p : Nat) : Prop where
  entry : Catalogue.find? e.id = some e.kind.entry ∧ e.kind.entry.kind = e.kind
  offset : e.location.offset = p
  location : e.location = Location.after (s.take p)
  within : p ≤ s.length
  atEnd_iff : p = s.length ↔ e.kind = .unexpectedEndOfFile
  atNewline : e.kind = .unexpectedEndOfLine → s[p]? = some CodeUnit.newline
  plain : e.kind = .unexpectedEndOfFile ∨ e.kind = .unexpectedEndOfLine →
    e.context = some [] ∧ e.detail = e.kind.entry.template
  shown : e.kind = .unexpectedSymbol ∨ e.kind = .invalidEscapeCharacter →
    ∃ u, s[p]? = some u ∧ e.Shows u
  message : e.message =
    e.detail ++ text " at " ++
      (Text.ofInt e.location.line ++ text ":" ++ Text.ofInt e.location.column)

namespace Fault

/-! The four sorts of fault by their kinds: what they name and where they are
met. -/

theorem unitAtPlace?_eq_none_iff (f : Fault) :
    f.unitAtPlace? = none ↔ f.kind = .unexpectedEndOfFile := by
  cases f <;> simp [unitAtPlace?, kind]

theorem unitAtPlace?_of_endOfLine {f : Fault} (h : f.kind = .unexpectedEndOfLine) :
    f.unitAtPlace? = some CodeUnit.newline := by
  cases f with
  | endOfLine => rfl
  | endOfFile => cases h
  | unexpectedSymbol _ => cases h
  | symbolBehindNumber _ => cases h
  | invalidEscape _ => cases h

theorem context_eq_nil {f : Fault}
    (h : f.kind = .unexpectedEndOfFile ∨ f.kind = .unexpectedEndOfLine) : f.context = [] := by
  cases f <;> simp_all [context, kind]

theorem exists_unit {f : Fault}
    (h : f.kind = .unexpectedSymbol ∨ f.kind = .invalidEscapeCharacter) :
    ∃ u, f.unit? = some u ∧ f.unitAtPlace? = some u := by
  cases f <;> simp_all [unit?, unitAtPlace?, kind]

theorem kind_of_unit? {f : Fault} {u : CodeUnit} (h : f.unit? = some u) :
    f.kind = .unexpectedSymbol ∨ f.kind = .invalidEscapeCharacter := by
  cases f <;> simp_all [unit?, kind]

/-- The message of a fault that names a unit is the template with the unit,
    made visible, in it. -/
theorem shows_toError {f : Fault} (hshows : f.ShowsUnit) {u : CodeUnit} (h : f.unit? = some u)
    (l : Location) : (f.toError l).Shows u := by
  have hcontext := hshows u h
  have hlookup : f.context.lookup (text "char") = some (.string (Text.escaped [u])) := by
    rw [hcontext]
    rfl
  refine ⟨congrArg some hcontext, fun hu => ?_, ?_⟩
  · have hbare : f.context = [(text "char", .string [u])] := by
      rw [hcontext, Text.escaped_of_cutsNumber hu]
    exact congrArg some hbare
  · rcases FaultKind.exists_template (kind_of_unit? h) with
      ⟨before, behind, htemplate, hbefore, hbehind⟩
    refine ⟨before, behind, htemplate, hbefore, hbehind, ?_⟩
    change Template.render f.kind.entry.template f.context = _
    rw [htemplate]
    exact Template.render_placeholder hbefore (by decide) (by decide) hbehind hlookup

/-- The templates of the other kinds have no placeholder. -/
theorem detail_toError {f : Fault}
    (h : f.kind = .unexpectedEndOfFile ∨ f.kind = .unexpectedEndOfLine) (l : Location) :
    (f.toError l).detail = f.kind.entry.template := by
  have hopen : CodeUnit.leftBrace ∉ f.kind.entry.template := by
    rcases h with h | h
    · rw [h]
      decide
    · rw [h]
      decide
  exact Template.render_of_notMem hopen f.context

/-- The error of a fault, at a place from where the text begins as the fault
    says. -/
theorem describes {f : Fault} {before rest : Text} (hshows : f.ShowsUnit)
    (h : rest.head? = f.unitAtPlace?) :
    (f.toError (Location.after before)).Describes (before ++ rest) before.length := by
  -- The place is the length of what is before it, so the unit there is the
  -- first of the rest.
  have hunit : (before ++ rest)[before.length]? = f.unitAtPlace? := by
    rw [List.getElem?_append_right (le_refl _), Nat.sub_self, ← List.head?_eq_getElem?, h]
  have hend : before.length = (before ++ rest).length ↔ f.unitAtPlace? = none := by
    rw [← h, List.head?_eq_none_iff, List.length_append, ← List.length_eq_zero_iff]
    omega
  have hentry : f.kind.entry.kind = f.kind := by
    cases f <;> rfl
  refine ⟨⟨Catalogue.find?_id f.kind, hentry⟩, rfl, ?_, ?_,
    hend.trans f.unitAtPlace?_eq_none_iff, fun hkind => ?_, fun hkind => ?_, fun hkind => ?_, rfl⟩
  · rw [List.take_left]
    rfl
  · rw [List.length_append]
    omega
  · rw [hunit, unitAtPlace?_of_endOfLine hkind]
  · refine ⟨?_, detail_toError hkind _⟩
    change some f.context = some []
    rw [context_eq_nil hkind]
  · rcases exists_unit hkind with ⟨u, hu, hplace⟩
    exact ⟨u, hunit.trans hplace, shows_toError hshows hu _⟩

end Fault

/-- The error of a scan is right about a place in the text: it stands there,
    names the unit that is there, and its message says so. -/
theorem scan_error_describes {s : Text} {e : LexError} (h : (scan s).error = some e) :
    ∃ p, e.Describes s p := by
  rcases scan_cases s with ⟨c, _, _, hscan⟩ | ⟨d, rfl, hd, hscan⟩
  · rw [hscan] at h
    cases h
  · rw [hscan] at h
    rw [← Option.some.inj h, Breakdown.text, Breakdown.stuck, ← List.append_assoc]
    exact ⟨_, Fault.describes hd.shape.showsUnit hd.shape.head?_rest⟩

/-- A brace that makes no escape is shown as it is, and not taken for the
    beginning of a placeholder. -/
theorem scan_error_describes_brace :
    ∃ e p, (scan (text "x \"\\\x7bchar\x7d\"")).error = some e ∧
      e.Describes (text "x \"\\\x7bchar\x7d\"") p ∧
      e.message = text "Invalid escape sequence '\\\x7b' at 1:5" := by
  rcases he : (scan (text "x \"\\\x7bchar\x7d\"")).error with _ | e
  · have hsome : (scan (text "x \"\\\x7bchar\x7d\"")).error.isSome = true := by decide +kernel
    rw [he] at hsome
    cases hsome
  · have hmessage : (scan (text "x \"\\\x7bchar\x7d\"")).error.map LexError.message =
        some (text "Invalid escape sequence '\\\x7b' at 1:5") := by decide +kernel
    rw [he] at hmessage
    rcases scan_error_describes he with ⟨p, hp⟩
    exact ⟨e, p, rfl, hp, Option.some.inj hmessage⟩

end GlyphLexer
