import GlyphLexer.Proofs.Grammar.Vocabulary
import GlyphLexer.Proofs.Position

/-!
# Lines and numerals

The lines of a text, and what a number looks like on one of them.

A text is cut into its lines at the newlines, and a place in a text knows its
line in two ways. Counted from the beginning, it is the one with as many
lines before it as there are newlines. Looked at from the place, it is what
stands between the newline before it and the next newline behind it.
`Text.getElem?_lines_append` says that these are the same line. The induction
takes units from the end of what is before the place and gives them to what
is behind it, since the newline that counts is the last one.

Lines put together with newlines are found again if no newline is in them
(`Text.lines_unlines`). If there is one, each of them gives as many lines as
it has itself (`Text.lines_unlines_eq_flatMap`). Numerals are made of digits,
so they may stand on any line. How many digits there are says how large the
number is, and that decides whether a field of a fixed width is wide enough.

## Theorems

* `Text.lines_append_newline`, `Text.lines_of_notMem`, `Text.lines_unlines`:
  Where a text is cut.
* `Text.lines_append_of_notMem`, `Text.lines_unlines_eq_flatMap`: The lines
  of texts that are put together.
* `Text.length_lines`: How many lines there are.
* `Text.head?_lines`: The first line.
* `Text.getElem?_lines_append`: The line of a place.
* `Text.isDigit_of_mem_ofNat`: A numeral is made of digits.
* `Text.length_ofNat_le_iff`: The number of digits.
* `Text.length_padLeft`: The width of a field.
-/

namespace GlyphLexer

/-- The characters that are digits are so as code units. -/
theorem CodeUnit.isDigit_ofChar {c : Char} (h : c.isDigit = true) : (ofChar c).isDigit = true := by
  have hc : 48 ≤ c.val.toNat ∧ c.val.toNat ≤ 57 := by
    simpa [Char.isDigit, UInt32.le_iff_toNat_le] using h
  have hunit : (ofChar c).toNat = c.val.toNat := by
    rw [ofChar, UInt32.toNat_toUInt16]
    omega
  simp only [isDigit, Bool.and_eq_true, decide_eq_true_eq, UInt16.le_iff_toNat_le, hunit]
  exact hc

namespace Text

theorem lines_append_newline (s t : Text) :
    lines (s ++ CodeUnit.newline :: t) = lines s ++ lines t :=
  List.splitOn_append_cons_self s t

theorem lines_of_notMem {t : Text} (h : CodeUnit.newline ∉ t) : lines t = [t] :=
  List.splitOn_eq_singleton h

theorem lines_unlines {ls : List Text} (h : ∀ l ∈ ls, CodeUnit.newline ∉ l) (hne : ls ≠ []) :
    lines (unlines ls) = ls :=
  List.splitOn_intercalate CodeUnit.newline h hne

theorem lines_ne_nil (t : Text) : lines t ≠ [] := List.splitOn_ne_nil CodeUnit.newline t

/-- A text without newlines goes on the first line of what it stands in front
    of. -/
theorem lines_append_of_notMem {s : Text} (h : CodeUnit.newline ∉ s) (t : Text) :
    lines (s ++ t) = (lines t).modifyHead (s ++ ·) := by
  unfold lines
  induction s with
  | nil =>
      -- Nothing is put in front of the first line, which there always is.
      cases hlines : List.splitOn CodeUnit.newline t with
      | nil => exact absurd hlines (lines_ne_nil t)
      | cons l ls => rw [List.nil_append, hlines, List.modifyHead_cons, List.nil_append]
  | cons u s ih =>
      rw [List.mem_cons, not_or] at h
      have hu : ¬ (u == CodeUnit.newline) = true := by simpa using fun hc => h.1 hc.symm
      rw [List.cons_append, List.splitOn_cons_eq_if_modifyHead, if_neg hu, ih h.2,
        List.modifyHead_modifyHead]
      rfl

/-- The lines of texts that are put together with newlines are the lines of
    each text. -/
theorem lines_unlines_eq_flatMap {ls : List Text} (hne : ls ≠ []) :
    lines (unlines ls) = ls.flatMap lines := by
  unfold unlines
  induction ls with
  | nil => exact absurd rfl hne
  | cons l ls ih =>
      cases ls with
      | nil => rw [List.intercalate_singleton, List.flatMap_singleton]
      | cons l' ls =>
          rw [List.intercalate_cons_cons, List.append_assoc, List.singleton_append,
            lines_append_newline, ih (List.cons_ne_nil l' ls)]
          exact List.flatMap_cons.symm

theorem newline_notMem_takeWhile (t : Text) :
    CodeUnit.newline ∉ t.takeWhile (· ≠ CodeUnit.newline) := by
  intro h
  simpa using List.mem_takeWhile_imp h

theorem newline_notMem_lastLine (t : Text) : CodeUnit.newline ∉ lastLine t := by
  intro h
  simpa using List.mem_rtakeWhile_imp h

theorem drop_lineStart (t : Text) : t.drop t.lineStart = t.lastLine :=
  (List.suffix_iff_eq_drop.1 (List.rtakeWhile_suffix _ _)).symm

theorem length_lines (t : Text) : (lines t).length = t.count CodeUnit.newline + 1 := by
  induction t with
  | nil => rfl
  | cons u t ih =>
      unfold lines at ih ⊢
      rw [List.splitOn_cons_eq_if_modifyHead, List.count_cons]
      split
      · rw [List.length_cons, ih]
      · rw [List.length_modifyHead, ih, Nat.add_zero]

theorem head?_lines (t : Text) : (lines t).head? = some (t.takeWhile (· ≠ CodeUnit.newline)) := by
  rcases exists_run (· ≠ CodeUnit.newline) t with ⟨run, tail, rfl, hrun, htail⟩
  have hfree : CodeUnit.newline ∉ run := fun h => by simpa using hrun _ h
  rw [takeWhile_append_of_head hrun htail]
  cases tail with
  | nil => rw [List.append_nil, lines_of_notMem hfree, List.head?_cons]
  | cons u rest =>
      have hu : u = CodeUnit.newline := by simpa using htail u rfl
      rw [hu, lines_append_newline, lines_of_notMem hfree, List.singleton_append, List.head?_cons]

/-- The line of a place has as many lines before it as there are newlines,
    and goes from the last of these newlines to the next one. -/
theorem getElem?_lines_append (before behind : Text) :
    (lines (before ++ behind))[before.count CodeUnit.newline]? =
      some (before.lastLine ++ behind.takeWhile (· ≠ CodeUnit.newline)) := by
  induction before using List.reverseRecOn generalizing behind with
  | nil =>
      rw [List.nil_append, List.count_nil, ← List.head?_eq_getElem?, head?_lines]
      rfl
  | append_singleton before u ih =>
      rw [List.append_assoc, List.singleton_append, List.count_append]
      by_cases hu : u = CodeUnit.newline
      · -- The line begins here, and all lines of `before` are in front of it.
        rw [hu, lines_append_newline, lastLine_concat_newline, List.nil_append,
          List.count_singleton_self, ← length_lines, List.getElem?_append_right (le_refl _),
          Nat.sub_self, ← List.head?_eq_getElem?, head?_lines]
      · have hcount : List.count CodeUnit.newline [u] = 0 :=
          List.count_eq_zero.2 fun hc => hu (List.mem_singleton.1 hc).symm
        rw [hcount, Nat.add_zero, ih, lastLine_concat _ hu, List.append_assoc,
          List.takeWhile_cons_of_pos (by simpa using hu), List.singleton_append]

theorem isDigit_of_mem_ofNat {n : Nat} {u : CodeUnit} (h : u ∈ ofNat n) : u.isDigit = true := by
  rcases List.mem_map.1 h with ⟨c, hc, rfl⟩
  exact CodeUnit.isDigit_ofChar (Nat.isDigit_of_mem_toDigits (by decide) (by decide) hc)

theorem newline_notMem_ofNat (n : Nat) : CodeUnit.newline ∉ ofNat n := by
  intro h
  exact (CodeUnit.ne_of_isDigit (isDigit_of_mem_ofNat h)).2.2 rfl

theorem newline_notMem_ofInt (n : Int) : CodeUnit.newline ∉ ofInt n := by
  unfold ofInt
  split
  · rw [List.mem_append, not_or]
    exact ⟨by decide, newline_notMem_ofNat _⟩
  · exact newline_notMem_ofNat _

theorem length_ofNat_le_iff {n k : Nat} (hk : 0 < k) : (ofNat n).length ≤ k ↔ n < Nat.pow 10 k := by
  rw [ofNat, List.length_map]
  exact Nat.length_toDigits_le_iff (by decide) hk

theorem ofInt_natCast (n : Nat) : ofInt n = ofNat n := by
  rw [ofInt, if_neg (by omega), Int.natAbs_natCast]

theorem length_padLeft (width : Nat) (t : Text) :
    (padLeft width t).length = max width t.length := by
  rw [padLeft, List.length_append, List.length_replicate]
  omega

theorem newline_notMem_padLeft {t : Text} (h : CodeUnit.newline ∉ t) (width : Nat) :
    CodeUnit.newline ∉ padLeft width t := by
  rw [padLeft, List.mem_append, not_or]
  exact ⟨fun hc => absurd (List.eq_of_mem_replicate hc) (by decide), h⟩

end Text

end GlyphLexer
