import GlyphLexer.Proofs.Json.Layout
import GlyphLexer.Proofs.Scan.Errors
import GlyphLexer.Source

/-!
# What can be printed of an error

Which control characters the message of a scan error has, and when it has
none.

A message is made of a template, of a place, and of one unit of the source
between them. The first two are visible ASCII (`FaultKind.visible_template`,
`Location.visible_display`), so whatever else is in a message is in the form
in which the unit is shown (`Fault.exists_detail_toError`). That form is an
escape for the control characters below the space and for halves of surrogate
pairs. The ones from 127 to 159 are not escaped in quoted text, though, and
stand in the message as they are (`Text.escaped_of_isHighControl`).

So a message can be printed unless the unit at the place of the error is one
of these. No half of a pair gets into any message, since a unit is shown on
its own and not beside its neighbours.

## Main definitions

* `CodeUnit.isHighControl`, `CodeUnit.isControl`: The control characters from
  127 to 159, and all of them.
* `Text.Printable`: No control characters and no half of a surrogate pair
  alone.
* `Text.Visible`: Units of ASCII that are no control characters.
* `Fault.shown`: What the message of a fault shows.

## Theorems

* `Text.escaped_of_isHighControl`: The high control characters are shown as
  they are.
* `Text.printable_escaped`: What another unit is shown as can be printed.
* `Fault.exists_detail_toError`: The message of a fault is visible around the
  unit it shows.
* `Fault.mem_detail_of_isControl`: A control character in a message is the
  unit that is shown.
* `Fault.printable_toError_iff`: When the message of a fault can be printed.
* `LexError.mem_message_iff`, `LexError.printable_message_iff`: The place in
  a message changes nothing of this.
* `exists_fault_of_scan_error`: The error of a scan is that of a fault.
* `scan_error_printable`: When the message of a scan can be printed.
* `scan_error_printable_delete`: A scan that fails at the character 127.
-/

namespace GlyphLexer

/-- A control character behind ASCII, or the last unit of ASCII, which is one
    too. -/
def CodeUnit.isHighControl (u : CodeUnit) : Bool := 127 ≤ u && u ≤ 159

/-- A control character. -/
def CodeUnit.isControl (u : CodeUnit) : Bool := u < 32 || u.isHighControl

/-- A text without control characters in which no half of a surrogate pair is
    alone. -/
structure Text.Printable (t : Text) : Prop where
  noControl : ∀ u ∈ t, u.isControl = false
  wellFormed : t.WellFormed

/-- A text of units that are in ASCII and no control characters. -/
def Text.Visible (t : Text) : Prop := ∀ u ∈ t, 32 ≤ u ∧ u < 127

namespace Text

theorem Visible.of_all {t : Text} (h : (t.all fun u => 32 ≤ u && u < 127) = true) : t.Visible := by
  intro u hu
  simpa using List.all_eq_true.1 h u hu

theorem visible_append {s t : Text} : (s ++ t).Visible ↔ s.Visible ∧ t.Visible :=
  List.forall_mem_append

theorem visible_ofInt (n : Int) : (ofInt n).Visible := by
  have hdigits : (ofNat n.natAbs).Visible := by
    intro u hu
    have hdigit := isDigit_of_mem_ofNat hu
    grind [CodeUnit.isDigit]
  unfold ofInt
  split
  · exact visible_append.2 ⟨Visible.of_all (by decide), hdigits⟩
  · exact hdigits

theorem Visible.printable {t : Text} (h : t.Visible) : t.Printable := by
  refine ⟨fun u hu => ?_, wellFormed_of_isAscii fun u hu => ?_⟩
  · have hvisible := h u hu
    grind [CodeUnit.isControl, CodeUnit.isHighControl]
  · have hvisible := h u hu
    grind [CodeUnit.isAscii]

theorem escaped_of_isHighControl {u : CodeUnit} (h : u.isHighControl = true) :
    escaped [u] = [u] := by
  grind [CodeUnit.isHighControl, escaped, escapedUnit, CodeUnit.isHighSurrogate,
    CodeUnit.isLowSurrogate]

theorem visible_numericEscape (u : CodeUnit) : (numericEscape u).Visible := by
  have hdigit : ∀ n, 32 ≤ hexDigit n ∧ hexDigit n < 127 := by
    intro n
    have hall : ∀ d < 16,
        32 ≤ CodeUnit.ofChar (Nat.digitChar d) ∧ CodeUnit.ofChar (Nat.digitChar d) < 127 := by
      decide
    exact hall (n % 16) (Nat.mod_lt n (by decide))
  refine visible_append.2 ⟨Visible.of_all (by decide), ?_⟩
  simp only [Visible, List.forall_mem_cons, hdigit, List.not_mem_nil, false_implies, implies_true,
    and_self]

/-- What a unit is shown as can be printed, but for the high control
    characters. -/
theorem printable_escaped {u : CodeUnit} (h : u.isHighControl = false) :
    (escaped [u]).Printable := by
  refine ⟨?_, wellFormed_escaped [u]⟩
  rw [escaped]
  rcases escapedUnit_cases u with ⟨mark, hmark, heq⟩ | heq | ⟨hplain, -, -, heq⟩
  · have hall : (Json.shortEscapes.all fun e => !e.1.isControl) = true := by decide
    have hcontrol := List.all_eq_true.1 hall (mark, u) hmark
    rw [heq, List.forall_mem_cons, List.forall_mem_singleton]
    exact ⟨by decide, by simpa using hcontrol⟩
  · rw [heq]
    exact (visible_numericEscape u).printable.noControl
  · rw [heq, List.forall_mem_singleton, CodeUnit.isControl, h, Bool.or_false]
    grind [Json.isPlain]

end Text

/-- The templates of the catalogue are visible. -/
theorem FaultKind.visible_template (kind : FaultKind) : kind.entry.template.Visible := by
  cases kind <;> exact Text.Visible.of_all (by decide)

theorem Location.visible_display (l : Location) : (text " at " ++ l.display).Visible := by
  rw [display]
  refine Text.visible_append.2 ⟨Text.Visible.of_all (by decide), ?_⟩
  refine Text.visible_append.2 ⟨Text.visible_append.2 ⟨Text.visible_ofInt l.line, ?_⟩,
    Text.visible_ofInt l.column⟩
  exact Text.Visible.of_all (by decide)

theorem LexError.message_eq (e : LexError) :
    e.message = e.detail ++ (text " at " ++ e.location.display) :=
  List.append_assoc _ _ _

namespace Fault

/-- What the message of a fault shows: the unit that the fault names, made
    visible. -/
def shown (f : Fault) : Text :=
  match f.unit? with
  | some u => Text.escaped [u]
  | none => []

theorem shown_of_unit? {f : Fault} {u : CodeUnit} (h : f.unit? = some u) :
    f.shown = Text.escaped [u] := by
  rw [shown, h]

theorem unitAtPlace?_of_unit? {f : Fault} {u : CodeUnit} (h : f.unit? = some u) :
    f.unitAtPlace? = some u := by
  cases f with
  | unexpectedSymbol v => exact h
  | symbolBehindNumber v => exact h
  | invalidEscape v => exact h
  | endOfFile => cases h
  | endOfLine => cases h

variable {f : Fault}

/-- The message of a fault is visible around the unit it shows. -/
theorem exists_detail_toError (hshows : f.ShowsUnit) (l : Location) :
    ∃ before behind, before.Visible ∧ behind.Visible ∧
      (f.toError l).detail = before ++ (f.shown ++ behind) := by
  have hvisible := f.kind.visible_template
  cases hu : f.unit? with
  | some u =>
      rcases (shows_toError hshows hu l).detail with ⟨before, behind, htemplate, -, -, hdetail⟩
      change f.kind.entry.template = _ at htemplate
      rw [htemplate, Text.visible_append, Text.visible_append] at hvisible
      rw [shown_of_unit? hu]
      exact ⟨before, behind, hvisible.1, hvisible.2.2, hdetail⟩
  | none =>
      have hkind : f.kind = .unexpectedEndOfFile ∨ f.kind = .unexpectedEndOfLine := by
        cases f with
        | endOfFile => exact Or.inl rfl
        | endOfLine => exact Or.inr rfl
        | unexpectedSymbol v => cases hu
        | symbolBehindNumber v => cases hu
        | invalidEscape v => cases hu
      refine ⟨f.kind.entry.template, [], hvisible, List.forall_mem_nil _, ?_⟩
      rw [detail_toError hkind, shown, hu, List.append_nil, List.append_nil]

theorem wellFormed_detail_toError (hshows : f.ShowsUnit) (l : Location) :
    (f.toError l).detail.WellFormed := by
  rcases exists_detail_toError hshows l with ⟨before, behind, hbefore, hbehind, hdetail⟩
  have hshown : f.shown.WellFormed := by
    unfold shown
    split
    · exact Text.wellFormed_escaped _
    · exact Text.WellFormed.nil
  rw [hdetail]
  exact hbefore.printable.wellFormed.append (hshown.append hbehind.printable.wellFormed)

/-- A control character in a message is the unit that is shown, and one that
    is not escaped. -/
theorem mem_detail_of_isControl (hshows : f.ShowsUnit) {l : Location} {u : CodeUnit}
    (hcontrol : u.isControl = true) (hu : u ∈ (f.toError l).detail) :
    u.isHighControl = true ∧ f.unitAtPlace? = some u := by
  rcases exists_detail_toError hshows l with ⟨before, behind, hbefore, hbehind, hdetail⟩
  have hshown : u ∈ f.shown := by
    rw [hdetail, List.mem_append, List.mem_append] at hu
    rcases hu with hu | hu | hu
    · exact absurd hcontrol (by rw [hbefore.printable.noControl u hu]; decide)
    · exact hu
    · exact absurd hcontrol (by rw [hbehind.printable.noControl u hu]; decide)
  cases hunit : f.unit? with
  | none =>
      rw [shown, hunit] at hshown
      exact absurd hshown List.not_mem_nil
  | some v =>
      rw [shown_of_unit? hunit] at hshown
      cases hv : v.isHighControl with
      | true =>
          rw [Text.escaped_of_isHighControl hv, List.mem_singleton] at hshown
          rw [hshown]
          exact ⟨hv, unitAtPlace?_of_unit? hunit⟩
      | false =>
          exact absurd hcontrol (by rw [(Text.printable_escaped hv).noControl u hshown]; decide)

/-- The message of a fault can be printed if the unit that it is met at is no
    high control character. -/
theorem printable_toError_iff (hshows : f.ShowsUnit) (l : Location) :
    (f.toError l).detail.Printable ↔ ∀ u, f.unitAtPlace? = some u → u.isHighControl = false := by
  constructor
  · intro h u hplace
    by_contra hhigh
    rw [Bool.not_eq_false] at hhigh
    have hunit : f.unit? = some u := by
      cases f with
      | unexpectedSymbol v => exact hplace
      | symbolBehindNumber v => exact hplace
      | invalidEscape v => exact hplace
      | endOfFile => cases hplace
      | endOfLine =>
          -- The newline at the end of a line is a control character too, but a
          -- low one.
          rw [← Option.some.inj hplace] at hhigh
          exact absurd hhigh (by decide)
    rcases exists_detail_toError hshows l with ⟨before, behind, -, -, hdetail⟩
    have hmem : u ∈ (f.toError l).detail := by
      rw [hdetail, shown_of_unit? hunit, Text.escaped_of_isHighControl hhigh]
      exact List.mem_append_right before (List.mem_append_left behind List.mem_cons_self)
    have hcontrol := h.noControl u hmem
    rw [CodeUnit.isControl, hhigh, Bool.or_true] at hcontrol
    cases hcontrol
  · intro h
    refine ⟨fun u hu => ?_, wellFormed_detail_toError hshows l⟩
    by_contra hcontrol
    rw [Bool.not_eq_false] at hcontrol
    rcases mem_detail_of_isControl hshows hcontrol hu with ⟨hhigh, hplace⟩
    rw [h u hplace] at hhigh
    cases hhigh

end Fault

/-- The place of an error adds nothing that cannot be printed. -/
theorem LexError.mem_message_iff (e : LexError) {u : CodeUnit} (hcontrol : u.isControl = true) :
    u ∈ e.message ↔ u ∈ e.detail := by
  rw [message_eq, List.mem_append]
  refine or_iff_left fun hu => ?_
  rw [e.location.visible_display.printable.noControl u hu] at hcontrol
  cases hcontrol

theorem LexError.wellFormed_message {e : LexError} (h : e.detail.WellFormed) :
    e.message.WellFormed := by
  rw [message_eq]
  exact h.append e.location.visible_display.printable.wellFormed

theorem LexError.printable_message_iff {e : LexError} (h : e.detail.WellFormed) :
    e.message.Printable ↔ e.detail.Printable := by
  have hcontrol : (∀ u ∈ e.message, u.isControl = false) ↔ ∀ u ∈ e.detail, u.isControl = false := by
    refine forall_congr' fun u => ?_
    cases hu : u.isControl with
    | true => rw [e.mem_message_iff hu]
    | false => exact iff_of_true (fun _ => rfl) (fun _ => rfl)
  exact ⟨fun hm => ⟨hcontrol.1 hm.noControl, h⟩,
    fun hd => ⟨hcontrol.2 hd.noControl, wellFormed_message h⟩⟩

/-- The error of a scan is that of a fault, met behind a beginning of the
    text. -/
theorem exists_fault_of_scan_error {s : Text} {e : LexError} (h : (scan s).error = some e) :
    ∃ (f : Fault) (before : Text), e = f.toError (Location.after before) ∧ f.ShowsUnit ∧
      s[before.length]? = f.unitAtPlace? := by
  rcases scan_cases s with ⟨c, _, _, hscan⟩ | ⟨d, rfl, hd, hscan⟩
  · rw [hscan] at h
    cases h
  · rw [hscan] at h
    refine ⟨d.fault, d.front ++ d.passed, (Option.some.inj h).symm, hd.shape.showsUnit, ?_⟩
    rw [Breakdown.text, Breakdown.stuck, ← List.append_assoc,
      List.getElem?_append_right (le_refl _), Nat.sub_self, ← List.head?_eq_getElem?,
      hd.shape.head?_rest]

/-- No half of a surrogate pair is alone in the message of a scan, and no
    control character is in it but the unit at the place of the error, if
    that is from 127 to 159. The message can be printed if it is not. -/
theorem scan_error_printable {source : Source} {e : LexError}
    (h : (scan source.toText).error = some e) :
    ∃ p : Nat, e.location.offset = p ∧
      (e.detail.WellFormed ∧ e.message.WellFormed) ∧
      (∀ u, u.isControl = true → u ∈ e.detail ∨ u ∈ e.message →
        u.isHighControl = true ∧ source.toText[p]? = some u) ∧
      (e.detail.Printable ↔ ∀ u, source.toText[p]? = some u → u.isHighControl = false) ∧
      (e.message.Printable ↔ ∀ u, source.toText[p]? = some u → u.isHighControl = false) := by
  rcases exists_fault_of_scan_error h with ⟨f, before, rfl, hshows, hplace⟩
  have hdetail := Fault.wellFormed_detail_toError hshows (Location.after before)
  have hprintable := Fault.printable_toError_iff hshows (Location.after before)
  rw [← hplace] at hprintable
  refine ⟨before.length, rfl, ⟨hdetail, LexError.wellFormed_message hdetail⟩,
    fun u hcontrol hu => ?_, hprintable,
    (LexError.printable_message_iff hdetail).trans hprintable⟩
  have hmem : u ∈ (f.toError (Location.after before)).detail :=
    hu.elim id (LexError.mem_message_iff _ hcontrol).1
  rw [hplace]
  exact Fault.mem_detail_of_isControl hshows hcontrol hmem

/-- The character 127 begins no token, and its message has it as it is. -/
theorem scan_error_printable_delete :
    ∃ e, (scan (Source.ofText [127]).toText).error = some e ∧ ¬ e.message.Printable := by
  rcases he : (scan (Source.ofText [127]).toText).error with _ | e
  · have hsome : (scan (Source.ofText [127]).toText).error.isSome = true := by decide +kernel
    rw [he] at hsome
    cases hsome
  · refine ⟨e, rfl, fun hprintable => ?_⟩
    have hoffset :
        (scan (Source.ofText [127]).toText).error.map (fun e => e.location.offset) = some 0 := by
      decide +kernel
    rw [he, Option.map_some, Option.some.injEq] at hoffset
    rcases scan_error_printable he with ⟨p, hp, -, -, -, hmessage⟩
    obtain rfl : p = 0 := by omega
    exact absurd (hmessage.1 hprintable 127 rfl) (by decide)

end GlyphLexer
