import GlyphLexer.Location
import Mathlib.Data.List.DropRight

/-!
# Positions

Where the cursor stands after a text, counted in the text itself.

The cursor is moved unit by unit and remembers the line it is on. What it
should say is simpler: the line is one more than the number of newlines
passed, and the column one more than the number of units behind the last of
them. `Location.after` says that, and `Cursor.location_start_beyond` says
that the cursor agrees, whatever was passed and in whichever steps.

A text read behind another one has the same locations, moved. The move is not
the same for all of them: the column changes on the first line only, since
every other line begins with a newline of the second text. `Location.behind`
is the move, and `Location.after_append` says that it is right.

A cursor may also be asked about by its offset alone. `Cursor.ofOffset`
counts in what is before the offset, or in the whole text when the offset is
past the end, and moving the cursor is counting at the offset moved to
(`Cursor.advance_ofOffset`).

## Main definitions

* `Text.lastLine`, `Text.lineStart`: The units behind the last newline, and
  where they begin.
* `Location.after`: The location behind a text read from its beginning.
* `Location.behind`: A location in a text, when another text is read before
  that text.
* `Cursor.ofOffset`, `Location.ofOffset`: The cursor and the location at an
  offset.

## Theorems

* `Text.lastLine_append_of_mem`, `Text.lastLine_append_of_notMem`: The last
  line of two texts.
* `Cursor.start_beyond`: The cursor after a text.
* `Cursor.location_start_beyond`: The location of the cursor after a text.
* `Location.after_append`: The location behind two texts.
* `Location.after_append_of_notMem`: Within a line the column moves as the
  offset does.
* `Cursor.advance_ofOffset`, `Cursor.beyond_ofOffset`: A cursor that moves is
  the one at the new offset.
-/

namespace GlyphLexer

namespace Text

/-- The units behind the last newline, or all units if there is no
    newline. -/
def lastLine (t : Text) : Text := t.rtakeWhile (· ≠ CodeUnit.newline)

/-- The number of units up to the last newline, that one included, or zero if
    there is no newline. -/
def lineStart (t : Text) : Nat := t.length - t.lastLine.length

theorem lastLine_concat_newline (t : Text) : lastLine (t ++ [CodeUnit.newline]) = [] := by
  unfold lastLine
  exact List.rtakeWhile_concat_neg _ _ _ (by simp)

theorem lastLine_concat (t : Text) {u : CodeUnit} (h : u ≠ CodeUnit.newline) :
    lastLine (t ++ [u]) = lastLine t ++ [u] := by
  unfold lastLine
  exact List.rtakeWhile_concat_pos _ _ _ (by simpa using h)

theorem length_lastLine_le (t : Text) : (lastLine t).length ≤ t.length :=
  (List.rtakeWhile_suffix _ _).length_le

theorem lastLine_append_of_notMem (s : Text) {t : Text} (h : CodeUnit.newline ∉ t) :
    lastLine (s ++ t) = lastLine s ++ t := by
  induction t using List.reverseRecOn with
  | nil => rw [List.append_nil, List.append_nil]
  | append_singleton t u ih =>
      rw [List.mem_append, not_or] at h
      have hu : u ≠ CodeUnit.newline := fun hc => h.2 (by rw [hc]; exact List.mem_singleton_self _)
      rw [← List.append_assoc, lastLine_concat _ hu, ih h.1, List.append_assoc]

theorem lastLine_of_notMem {t : Text} (h : CodeUnit.newline ∉ t) : lastLine t = t := by
  have := lastLine_append_of_notMem [] h
  rwa [List.nil_append] at this

theorem lastLine_append_of_mem (s : Text) {t : Text} (h : CodeUnit.newline ∈ t) :
    lastLine (s ++ t) = lastLine t := by
  induction t using List.reverseRecOn with
  | nil => exact absurd h List.not_mem_nil
  | append_singleton t u ih =>
      rw [← List.append_assoc]
      by_cases hu : u = CodeUnit.newline
      · rw [hu, lastLine_concat_newline, lastLine_concat_newline]
      · have ht : CodeUnit.newline ∈ t := by
          rcases List.mem_append.1 h with ht | hc
          · exact ht
          · exact absurd (List.mem_singleton.1 hc).symm hu
        rw [lastLine_concat _ hu, lastLine_concat _ hu, ih ht]

end Text

/-- The location behind a text read from its beginning. -/
def Location.after (t : Text) : Location :=
  ⟨1 + t.count CodeUnit.newline, t.lastLine.length + 1, t.length⟩

/-- A location in a text, when the text `s` is read before that text. The
    column moves on the first line only. -/
def Location.behind (s : Text) (l : Location) : Location :=
  ⟨l.line + s.count CodeUnit.newline,
    if l.line = 1 then l.column + ((Location.after s).column - 1) else l.column,
    l.offset + s.length⟩

/-- The cursor counts newlines and keeps the place behind the last of
    them. -/
theorem Cursor.start_beyond (t : Text) : Cursor.start.beyond t =
    ⟨t.length, 1 + t.count CodeUnit.newline, t.length - t.lastLine.length⟩ := by
  induction t using List.reverseRecOn with
  | nil => rfl
  | append_singleton t u ih =>
      rw [Cursor.beyond_append, ih, Cursor.beyond_cons, Cursor.beyond_nil]
      unfold Cursor.past
      by_cases hu : u = CodeUnit.newline
      · rw [if_pos hu, hu, Text.lastLine_concat_newline]
        simp [Nat.add_assoc]
      · -- The line goes on, so both sides of the difference in the last field grow by one.
        rw [if_neg hu, Text.lastLine_concat _ hu]
        have hcount : List.count CodeUnit.newline [u] = 0 :=
          List.count_eq_zero.2 fun hc => hu (List.mem_singleton.1 hc).symm
        have hle := Text.length_lastLine_le t
        simp only [List.length_append, List.length_singleton, List.count_append, hcount,
          Nat.add_zero, Cursor.mk.injEq, true_and]
        omega

theorem Cursor.location_start_beyond (t : Text) :
    (Cursor.start.beyond t).location = Location.after t := by
  have hle := Text.length_lastLine_le t
  rw [Cursor.start_beyond]
  simp only [Cursor.location, Location.after, Location.mk.injEq, and_true]
  refine ⟨?_, ?_⟩ <;> omega

namespace Location

@[simp] theorem after_offset (t : Text) : (after t).offset = t.length := rfl

theorem after_append_of_notMem (s : Text) {t : Text} (h : CodeUnit.newline ∉ t) :
    after (s ++ t) =
      ⟨(after s).line, (after s).column + t.length, (after s).offset + t.length⟩ := by
  unfold after
  rw [Text.lastLine_append_of_notMem s h, List.count_append, List.count_eq_zero.2 h,
    List.length_append, List.length_append]
  simp only [Location.mk.injEq]
  refine ⟨?_, ?_, ?_⟩ <;> omega

theorem after_append (s t : Text) : after (s ++ t) = (after t).behind s := by
  by_cases h : CodeUnit.newline ∈ t
  · -- The place is not on the first line of `t`, and `s` has no part in its line.
    have hpos := List.count_pos_iff.2 h
    have hline : (after t).line ≠ 1 := by
      unfold after
      simp only
      omega
    unfold behind
    rw [if_neg hline]
    unfold after
    rw [Text.lastLine_append_of_mem s h, List.count_append, List.length_append]
    simp only [Location.mk.injEq, true_and]
    refine ⟨?_, ?_⟩ <;> omega
  · -- All of `t` goes on the last line of `s`.
    have hcount := List.count_eq_zero.2 h
    have hline : (after t).line = 1 := by
      unfold after
      rw [hcount]
      rfl
    rw [after_append_of_notMem s h]
    unfold behind
    rw [if_pos hline]
    unfold after
    rw [hcount, Text.lastLine_of_notMem h]
    simp only [Location.mk.injEq]
    refine ⟨?_, ?_, ?_⟩ <;> omega

end Location

/-- The location of an offset, counted in the text before it. An offset past
    the end is on the last line. -/
def Location.ofOffset (s : Text) (p : Nat) : Location :=
  ⟨1 + (s.take p).count CodeUnit.newline, p - Text.lineStart (s.take p) + 1, p⟩

namespace Cursor

/-- The cursor at an offset, counted in the text before it. -/
def ofOffset (s : Text) (p : Nat) : Cursor :=
  ⟨p, 1 + (s.take p).count CodeUnit.newline, Text.lineStart (s.take p)⟩

theorem location_ofOffset (s : Text) (p : Nat) :
    (ofOffset s p).location = Location.ofOffset s p := by
  unfold location ofOffset Location.ofOffset
  simp

theorem ofOffset_of_le {s : Text} {p : Nat} (h : p ≤ s.length) :
    ofOffset s p = start.beyond (s.take p) := by
  rw [start_beyond, List.length_take_of_le h]
  unfold ofOffset Text.lineStart
  rw [List.length_take_of_le h]

/-- Passing the unit at an offset. -/
theorem past_ofOffset {s rest : Text} {p : Nat} {u : CodeUnit} (h : s.drop p = u :: rest) :
    (ofOffset s p).past u = ofOffset s (p + 1) := by
  have hlt : p < s.length := by
    by_contra hle
    rw [List.drop_eq_nil_of_le (Nat.le_of_not_lt hle)] at h
    cases h
  have hunit : s[p]? = some u := by rw [← List.head?_drop, h]; rfl
  rw [ofOffset_of_le hlt, ofOffset_of_le hlt.le, List.take_add_one, hunit, beyond_append]
  rfl

/-- A cursor that moves, past the end or not, is the one at the offset it
    moves to. -/
theorem advance_ofOffset (s : Text) (p n : Nat) :
    (ofOffset s p).advance n (s.drop p) = ofOffset s (p + n) := by
  induction n generalizing p with
  | zero => rfl
  | succ n ih =>
      cases h : s.drop p with
      | nil =>
          -- All of the text is before both offsets.
          have hle : s.length ≤ p := List.drop_eq_nil_iff.1 h
          unfold advance ofOffset
          rw [List.take_of_length_le hle, List.take_of_length_le (by omega)]
      | cons u rest =>
          have hrest : s.drop (p + 1) = rest := by rw [← List.drop_drop, h]; rfl
          rw [advance, past_ofOffset h, ← hrest, ih, Nat.add_assoc, Nat.add_comm 1 n]

theorem beyond_ofOffset {s t : Text} {p : Nat} (h : t <+: s.drop p) :
    (ofOffset s p).beyond t = ofOffset s (p + t.length) := by
  rcases h with ⟨rest, hrest⟩
  rw [← advance_ofOffset, ← hrest, advance_length]

end Cursor

end GlyphLexer
