import GlyphLexer.Diagnostic
import GlyphLexer.Proofs.Lines
import GlyphLexer.Proofs.Scan.Cut
import GlyphLexer.Source

/-!
# Diagnostics of a scan

What the three lines for an error say about the text that was scanned.

The line that is shown is looked for from the offset and the column of the
error, backwards by the column and then forwards to the next newline. It is
the line with the number that is printed beside it because the three parts of
a location agree: behind a text that was read from its beginning, the column
counts the units since the last newline and the line counts the newlines
(`Diagnostic.sourceLine_append`, `Text.getElem?_lines_append`). The errors of
a scan have such locations, whatever was wrong, and so the line is the right
one (`render_scan_error`).

The caret is another matter. It is indented by the column and a constant, and
what is printed in front of the line is as wide as that constant as long as
the number has at most five digits. From line 100000 on the number is wider,
and the caret stands to the left of the place, by one for each digit too many
(`caret_scan_error`). The number and the line themselves are right then as
well.

## Main definitions

* `Text.IsPlace`: A line of a text by its number, and an offset of the text
  by its column on that line.
* `CodeUnit.caret`: The unit that points.
* `Diagnostic.margin`: What is printed in front of the line.

## Theorems

* `Text.isPlace_after`: Any offset is a place.
* `Diagnostic.sourceLine_append`: The line that is found from an offset and
  its column.
* `Diagnostic.lines_pointer`, `Diagnostic.render_of_location`: The three
  lines for an error that stands where its location says.
* `Diagnostic.length_margin_eq_iff`: The margin is as wide as it is meant to
  be on the first 99999 lines.
* `Diagnostic.idxOf_caret`: Where the caret stands.
* `exists_before_of_scan_error`: The errors of a scan stand where their
  locations say.
* `render_scan_error`: The diagnostic of a scan shows the line of the error.
* `render_scan_error_openString`: An error at the end of a line.
* `scan_error_of_newlines`: A scan that fails on a line of any number.
* `caret_scan_error`: The caret stands below the place of the error in the
  first 99999 lines, and in no other.
* `caret_scan_error_wideNumber`: The caret on line 100000.
-/

namespace GlyphLexer

/-- The line `shown` has the number `line` in the text `s`, and the offset
    `offset` of the text is at the column `column` of that line. Lines and
    columns are counted from one. The newline that ends a line, and the end
    of the text, are one column behind the last unit of their line. -/
structure Text.IsPlace (s shown : Text) (line column offset : Nat) : Prop where
  line_pos : 1 ≤ line
  column_pos : 1 ≤ column
  within : offset ≤ s.length
  found : (lines s)[line - 1]? = some shown
  unit : ∀ u, s[offset]? = some u → u ≠ CodeUnit.newline → shown[column - 1]? = some u
  lineEnd : s[offset]? = some CodeUnit.newline ∨ offset = s.length → column - 1 = shown.length

/-- Any offset is a place of the line that goes on before and behind it. -/
theorem Text.isPlace_after (before behind : Text) :
    IsPlace (before ++ behind) (before.lastLine ++ behind.takeWhile (· ≠ CodeUnit.newline))
      (1 + before.count CodeUnit.newline) (before.lastLine.length + 1) before.length := by
  have hunit : (before ++ behind)[before.length]? = behind.head? := by
    rw [List.getElem?_append_right (le_refl _), Nat.sub_self, List.head?_eq_getElem?]
  refine ⟨by omega, by omega, ?_, ?_, fun u hu hne => ?_, fun hend => ?_⟩
  · rw [List.length_append]
    omega
  · rw [Nat.add_sub_cancel_left]
    exact getElem?_lines_append before behind
  · rw [hunit] at hu
    rw [Nat.add_sub_cancel, List.getElem?_append_right (le_refl _), Nat.sub_self,
      ← List.head?_eq_getElem?, List.head?_takeWhile, hu]
    simpa using hne
  · -- Nothing of the line is left behind the place.
    have hnone : behind.takeWhile (· ≠ CodeUnit.newline) = [] := by
      cases behind with
      | nil => rfl
      | cons u rest =>
          refine List.takeWhile_cons_of_neg ?_
          rcases hend with hend | hend
          · rw [hunit, List.head?_cons] at hend
            simpa using Option.some.inj hend
          · simp at hend
    rw [hnone, List.append_nil, Nat.add_sub_cancel]

/-- The circumflex accent, which points upwards. -/
abbrev CodeUnit.caret : CodeUnit := 94

namespace Diagnostic

/-- What is printed in front of the line: its number, justified to the right,
    and a bar. -/
def margin (line : Nat) : Text := (Text.ofNat line).padLeft lineNumberWidth ++ text "| "

theorem sourceLine_append (before behind : Text) :
    sourceLine (before ++ behind) (Location.after before).offset (Location.after before).column =
      before.lastLine ++ behind.takeWhile (· ≠ CodeUnit.newline) := by
  have hle := Text.length_lastLine_le before
  have hstart : ((Location.after before).offset - ((Location.after before).column - 1)).toNat =
      before.lineStart := by
    unfold Location.after Text.lineStart
    simp only
    omega
  have hplain : ∀ u ∈ before.lastLine, decide (u ≠ CodeUnit.newline) = true := by
    intro u hu
    have hne : u ≠ CodeUnit.newline := by
      rintro rfl
      exact Text.newline_notMem_lastLine before hu
    simpa using hne
  -- What is before the place goes on from the beginning of its line without a
  -- newline.
  have hbound : before.lineStart ≤ before.length := Nat.sub_le _ _
  rw [sourceLine, hstart, List.drop_append_of_le_length hbound, Text.drop_lineStart,
    List.takeWhile_append_of_pos hplain]

/-- The three lines of a diagnostic, for an error behind the text
    `before`. -/
theorem lines_pointer {e : LexError} {before : Text} (h : e.location = Location.after before)
    (behind : Text) :
    Text.lines (pointer e (before ++ behind)) =
      [e.kind.name ++ text " at " ++ Text.ofNat (1 + before.count CodeUnit.newline) ++ text ":" ++
          Text.ofNat (before.lastLine.length + 1),
        margin (1 + before.count CodeUnit.newline) ++
          (before.lastLine ++ behind.takeWhile (· ≠ CodeUnit.newline)),
        List.replicate (6 + (before.lastLine.length + 1)) CodeUnit.space ++ text "^"] := by
  have hline : Text.ofInt (Location.after before).line =
      Text.ofNat (1 + before.count CodeUnit.newline) := Text.ofInt_natCast _
  have hcolumn : Text.ofInt (Location.after before).column =
      Text.ofNat (before.lastLine.length + 1) := Text.ofInt_natCast _
  have hindent : (caretIndent (Location.after before).column).toNat =
      6 + (before.lastLine.length + 1) := by
    unfold caretIndent lineNumberWidth Location.after
    simp only
    omega
  have hname : CodeUnit.newline ∉ e.kind.name := by
    cases e.kind <;> decide
  rw [pointer, h, sourceLine_append, Location.display, hline, hcolumn, hindent,
    Text.lines_unlines ?_ (List.cons_ne_nil _ _)]
  · simp only [margin, List.append_assoc]
  · -- No newline comes from the name, from the numbers or from the line that is shown.
    simp only [List.forall_mem_cons, List.mem_append, not_or]
    refine ⟨⟨⟨hname, by decide⟩, ⟨Text.newline_notMem_ofNat _, by decide⟩,
      Text.newline_notMem_ofNat _⟩,
      ⟨⟨Text.newline_notMem_padLeft (Text.newline_notMem_ofNat _) _, by decide⟩,
        Text.newline_notMem_lastLine _, Text.newline_notMem_takeWhile _⟩,
      ⟨fun hc => absurd (List.eq_of_mem_replicate hc) (by decide), by decide⟩,
      fun l hl => absurd hl List.not_mem_nil⟩

theorem render_of_location {e : LexError} {before : Text} (h : e.location = Location.after before)
    (s : Text) : render (some e) s = .ok (pointer e s) := by
  have hindent : ¬ caretIndent e.location.column < 0 := by
    rw [h]
    unfold caretIndent Location.after
    simp only
    omega
  rw [render]
  exact if_neg hindent

theorem length_margin (line : Nat) :
    (margin line).length = max lineNumberWidth (Text.ofNat line).length + 2 := by
  rw [margin, List.length_append, Text.length_padLeft]
  rfl

/-- A number of at most five digits fills its field, and leaves the bar where
    it is. -/
theorem length_margin_eq_iff (line : Nat) :
    (margin line).length = lineNumberWidth + 2 ↔ line < 100000 := by
  have hdigits : (Text.ofNat line).length ≤ lineNumberWidth ↔ line < 100000 :=
    Text.length_ofNat_le_iff (by decide)
  rw [length_margin, ← hdigits]
  omega

theorem idxOf_caret (n : Nat) :
    (List.replicate n CodeUnit.space ++ text "^").idxOf CodeUnit.caret = n := by
  have hfree : CodeUnit.caret ∉ List.replicate n CodeUnit.space := fun hc =>
    absurd (List.eq_of_mem_replicate hc) (by decide)
  rw [List.idxOf_append_of_notMem hfree, List.length_replicate]
  rfl

end Diagnostic

/-- The error of a scan stands behind a beginning of the text. -/
theorem exists_before_of_scan_error {s : Text} {e : LexError} (h : (scan s).error = some e) :
    ∃ before behind, s = before ++ behind ∧ e.location = Location.after before := by
  rcases scan_cases s with ⟨c, _, _, hscan⟩ | ⟨d, rfl, _, hscan⟩
  · rw [hscan] at h
    cases h
  · rw [hscan] at h
    refine ⟨d.front ++ d.passed, d.rest, ?_, ?_⟩
    · rw [Breakdown.text, Breakdown.stuck, List.append_assoc]
    · rw [← Option.some.inj h]
      rfl

/-- The diagnostic of a scan has three lines. They give the kind of the error
    and its place, show the line that the place is on, with its number, and
    point at a column. -/
theorem render_scan_error (source : Source) (e : LexError)
    (h : (scan source.toText).error = some e) :
    ∃ (line column offset : Nat) (shown diagnostic : Text),
      e.location = ⟨line, column, offset⟩ ∧
        Text.IsPlace source.toText shown line column offset ∧
        Diagnostic.render (some e) source.toText = .ok diagnostic ∧
        Text.lines diagnostic =
          [e.kind.name ++ text " at " ++ Text.ofNat line ++ text ":" ++ Text.ofNat column,
            (Text.ofNat line).padLeft 5 ++ text "| " ++ shown,
            List.replicate (6 + column) CodeUnit.space ++ text "^"] := by
  rcases exists_before_of_scan_error h with ⟨before, behind, hs, hlocation⟩
  rw [hs]
  exact ⟨_, _, _, _, _, hlocation, Text.isPlace_after before behind,
    Diagnostic.render_of_location hlocation _, Diagnostic.lines_pointer hlocation behind⟩

/-- A string literal that the end of the second line cuts. The place is
    behind the last unit of that line. -/
theorem render_scan_error_openString :
    ∃ e diagnostic,
      (scan (Source.ofText (text "first\nx = \"ab\ncd\"")).toText).error = some e ∧
        Diagnostic.render (some e) (text "first\nx = \"ab\ncd\"") = .ok diagnostic ∧
        Text.lines diagnostic =
          [text "UnexpectedEndOfLine at 2:8", text "    2| x = \"ab", text "              ^"] := by
  rcases he : (scan (Source.ofText (text "first\nx = \"ab\ncd\"")).toText).error with _ | e
  · have hsome :
        (scan (Source.ofText (text "first\nx = \"ab\ncd\"")).toText).error.isSome = true := by
      decide +kernel
    rw [he] at hsome
    cases hsome
  · have hfields : ((scan (Source.ofText (text "first\nx = \"ab\ncd\"")).toText).error.map fun e =>
        (e.kind, e.location)) = some (.unexpectedEndOfLine, ⟨2, 8, 13⟩) := by decide +kernel
    rw [he, Option.map_some, Option.some.injEq, Prod.mk.injEq] at hfields
    rcases render_scan_error _ e he with
      ⟨line, column, offset, shown, diagnostic, hlocation, hplace, hrender, hlines⟩
    rw [hfields.2, Location.mk.injEq] at hlocation
    obtain rfl : line = 2 := by omega
    obtain rfl : column = 8 := by omega
    have hshown : shown = text "x = \"ab" := by
      have hfound : (Text.lines (text "first\nx = \"ab\ncd\""))[1]? = some (text "x = \"ab") := by
        decide +kernel
      exact Option.some.inj (hplace.found.symm.trans hfound)
    rw [hfields.1, hshown] at hlines
    refine ⟨e, diagnostic, rfl, hrender, hlines.trans ?_⟩
    decide +kernel

/-- The scan of a text that begins no token behind `n` newlines fails on the
    next line. -/
theorem scan_error_of_newlines (n : Nat) :
    (scan (List.replicate n CodeUnit.newline ++ text "?")).error =
      some ((Fault.unexpectedSymbol 63).toError ⟨n + 1, 1, n⟩) := by
  have hlast : Text.lastLine (List.replicate n CodeUnit.newline) = [] := by
    cases n with
    | zero => rfl
    | succ n => rw [List.replicate_succ', Text.lastLine_concat_newline]
  have hplace : Location.after (List.replicate n CodeUnit.newline) = ⟨n + 1, 1, n⟩ := by
    rw [Location.after, hlast, List.count_replicate_self, List.length_replicate, Int.add_comm]
    rfl
  have hgap : IsTrivia (List.replicate n CodeUnit.newline) := fun u hu => by
    rw [List.eq_of_mem_replicate hu]
    decide
  have hvalid : (⟨[], List.replicate n CodeUnit.newline, .stray, [], text "?",
      .unexpectedSymbol 63⟩ : Breakdown).Valid := by
    refine ⟨trivial, hgap, ?_, Breakage.Fits.stray (by decide) (by decide) (by decide) (by decide)⟩
    rintro u ⟨⟩
    decide
  have hscan := congrArg Scan.error (scan_of_breakdown hvalid)
  rw [Breakdown.error, Breakdown.front, List.append_nil, Segment.join_nil, List.nil_append, hplace]
    at hscan
  exact hscan

/-- The caret of a diagnostic is indented by the column and a constant. It
    stands below the place of the error, behind what is printed in front of
    the line, if and only if the line is one of the first 99999. On a line
    below them it stands to the left of the place, by the number of digits
    beyond five. -/
theorem caret_scan_error (source : Source) (e : LexError)
    (h : (scan source.toText).error = some e) :
    ∃ (line column : Nat) (diagnostic header shown pointer : Text),
      e.location.line = line ∧ e.location.column = column ∧ 1 ≤ column ∧
        (Text.lines source.toText)[line - 1]? = some shown ∧
        Diagnostic.render (some e) source.toText = .ok diagnostic ∧
        Text.lines diagnostic = [header, Diagnostic.margin line ++ shown, pointer] ∧
        (pointer.idxOf CodeUnit.caret = (Diagnostic.margin line).length + (column - 1) ↔
          line < 100000) ∧
        pointer.idxOf CodeUnit.caret + ((Text.ofNat line).length - 5) =
          (Diagnostic.margin line).length + (column - 1) := by
  rcases exists_before_of_scan_error h with ⟨before, behind, hs, hlocation⟩
  have hplace := Text.isPlace_after before behind
  rw [hs]
  refine ⟨1 + before.count CodeUnit.newline, before.lastLine.length + 1, _, _, _, _,
    congrArg Location.line hlocation, congrArg Location.column hlocation, hplace.column_pos,
    hplace.found, Diagnostic.render_of_location hlocation _,
    Diagnostic.lines_pointer hlocation behind, ?_, ?_⟩
  · rw [Diagnostic.idxOf_caret, ← Diagnostic.length_margin_eq_iff, Diagnostic.lineNumberWidth]
    omega
  · rw [Diagnostic.idxOf_caret, Diagnostic.length_margin, Diagnostic.lineNumberWidth]
    omega

/-- A text in which nothing stands before line 100000. The number of this
    line has one digit too many, and the caret is below the blank in front of
    the line. -/
theorem caret_scan_error_wideNumber :
    ∃ e diagnostic header shown pointer,
      (scan (Source.ofText (List.replicate 99999 CodeUnit.newline ++ text "?")).toText).error =
          some e ∧
        e.location = ⟨100000, 1, 99999⟩ ∧
        Diagnostic.render (some e) (List.replicate 99999 CodeUnit.newline ++ text "?") =
          .ok diagnostic ∧
        Text.lines diagnostic = [header, Diagnostic.margin 100000 ++ shown, pointer] ∧
        pointer.idxOf CodeUnit.caret = 7 ∧ (Diagnostic.margin 100000).length = 8 := by
  have hscan := scan_error_of_newlines 99999
  rcases caret_scan_error (.ofText (List.replicate 99999 CodeUnit.newline ++ text "?")) _ hscan with
    ⟨line, column, diagnostic, header, shown, pointer, hline, hcolumn, _, _, hrender, hlines, _,
      hcaret⟩
  have hline' : (100000 : Int) = line := hline
  have hcolumn' : (1 : Int) = column := hcolumn
  obtain rfl : line = 100000 := by omega
  obtain rfl : column = 1 := by omega
  have hmargin : (Diagnostic.margin 100000).length = 8 := by decide +kernel
  have hdigits : (Text.ofNat 100000).length = 6 := by decide +kernel
  rw [hmargin, hdigits] at hcaret
  exact ⟨_, diagnostic, header, shown, pointer, hscan, rfl, hrender, hlines, by omega, hmargin⟩

end GlyphLexer
