import GlyphLexer.Proofs.Scan.Append

/-!
# What later text cannot change

How much of a scan is settled before the rest of the text is known.

A scan that met a fault has nothing left to decide: the fault was met at a
unit that is there, and what follows that unit is not looked at. The one
exception is a string literal that the end of the text cuts, since more text
may close it. What was found before it stays (`Breakdown.Valid.extend`,
`IsCut.tokens_prefix_scan`).

A scan that came to the end may have to take its last token back, but no more
than that one. Text behind trivia extends no lexeme, and a lexeme that ended
before the last one was read with the next unit in sight. So the last token
is in doubt only if it ends where the text ends, and `settled` leaves it out
exactly then. That a lexeme is known by the next unit is `IsCut.of_head`, and
rests on the beginnings of operators being operators.

## Main definitions

* `Breakdown.extend`: A breakdown with more text behind it.
* `settled`: Tokens but the last one, if that ends with the text.

## Theorems

* `Breakage.Fits.append`: A shape that the end of the text is no part of
  stays.
* `Breakdown.Valid.extend`: A breakdown stays, with the same tokens and
  error.
* `IsCut.tokens_prefix_scan`: The tokens of a cut are the first tokens of the
  scan.
* `Segment.settled_tokens_concat`: Whether the last segment is settled.
* `scan_stable`: What is kept of a scan when the text goes on.
-/

namespace GlyphLexer

open Segment (join join_nil join_cons)

/-- A shape that is met at a unit stays what it is before more text. -/
theorem Breakage.Fits.append {b : Breakage} {passed rest : Text} {f : Fault}
    (h : b.Fits passed rest f) (hf : f.kind ≠ .unexpectedEndOfFile) (more : Text) :
    b.Fits passed (rest ++ more) f := by
  cases h with
  | stray hquote hdigit hname hop => exact Fits.stray hquote hdigit hname hop
  | secondPoint h => exact Fits.secondPoint h
  | nameBehindNumber h hu => exact Fits.nameBehindNumber h hu
  | newlineInString h =>
      rcases h.1 with ⟨decoded, hbody⟩
      exact Fits.newlineInString (hbody.longestItems StringItems.Stop.newline)
  | endInString _ => exact absurd rfl hf
  | endBehindBackslash _ => exact absurd rfl hf
  | unknownEscape h hv =>
      rcases h.1 with ⟨decoded, hbody⟩
      exact Fits.unknownEscape (hbody.longestItems (StringItems.Stop.unknownEscape hv)) hv

namespace Breakdown

/-- A breakdown with more text behind it. -/
def extend (d : Breakdown) (more : Text) : Breakdown := { d with rest := d.rest ++ more }

theorem stuck_extend (d : Breakdown) (more : Text) : (d.extend more).stuck = d.stuck ++ more := by
  unfold stuck extend
  rw [List.append_assoc]

theorem text_extend (d : Breakdown) (more : Text) : (d.extend more).text = d.text ++ more := by
  unfold text
  rw [stuck_extend, ← List.append_assoc]
  rfl

/-- Behind the last segment stands something, so more text is out of its
    sight. -/
theorem Valid.cut_append {d : Breakdown} (h : d.Valid) (more : Text) :
    IsCut d.segments (d.gap ++ d.stuck ++ more) :=
  h.cut.append_right (List.append_ne_nil_of_right_ne_nil _ h.shape.ne_nil) more

theorem Valid.extend {d : Breakdown} (h : d.Valid) (hf : d.fault.kind ≠ .unexpectedEndOfFile)
    (more : Text) : (d.extend more).Valid := by
  have hcut := h.cut_append more
  rw [List.append_assoc, ← stuck_extend] at hcut
  have hne : d.stuck ≠ [] := h.shape.ne_nil
  refine ⟨hcut, h.gap, fun u hu => h.head u ?_, h.shape.append hf more⟩
  rwa [stuck_extend, List.head?_append_of_ne_nil _ hne] at hu

end Breakdown

/-- The tokens of a cut are the first tokens of the scan, whatever
    follows. -/
theorem IsCut.tokens_prefix_scan {gs : List Segment} {rest : Text} (h : IsCut gs rest) :
    Segment.tokens [] gs <+: (scan (join gs ++ rest)).tokens := by
  have hrun := scanFrom_of_isCut h [] []
  rw [Cursor.beyond_nil, List.nil_append, List.append_nil, scanFrom_beyond,
    List.reverse_reverse] at hrun
  rw [scan, hrun]
  exact List.prefix_append _ _

/-- The tokens of a text of `n` units but the last one, if that ends where
    the text ends. -/
def settled (n : Nat) (ts : List Token) : List Token :=
  match ts.getLast? with
  | some t => if t.stop.offset = n then ts.dropLast else ts
  | none => ts

namespace Segment

/-- The last of some segments is settled if anything stands behind it. -/
theorem settled_tokens_concat (gs : List Segment) (g : Segment) (last : Text) :
    settled (join (gs ++ [g]) ++ last).length (tokens [] (gs ++ [g])) =
      if last = [] then tokens [] gs else tokens [] (gs ++ [g]) := by
  have hends : (g.token (join gs)).stop.offset = ((join (gs ++ [g]) ++ last).length : Int) ↔
      last = [] := by
    have hjoin : join (gs ++ [g]) = join gs ++ g.text := by simp [join_append, text]
    rw [token, Location.after_offset, ← hjoin, Int.ofNat_inj, ← List.length_eq_zero_iff]
    simp only [List.length_append, Nat.left_eq_add]
  unfold settled
  rw [tokens_concat, List.nil_append, List.getLast?_append, List.getLast?_singleton]
  simp only [Option.some_or, List.dropLast_concat]
  by_cases hlast : last = []
  · rw [if_pos hlast, if_pos (hends.2 hlast)]
  · rw [if_neg hlast, if_neg fun h => hlast (hends.1 h)]

end Segment

/-- The settled tokens of a text that is scanned to its end are the first
    tokens of every longer one. -/
theorem Completion.Valid.settled_prefix {c : Completion} (h : c.Valid) (more : Text) :
    settled c.text.length (Segment.tokens [] c.segments) <+: (scan (c.text ++ more)).tokens := by
  have hcut := h.cut
  unfold Completion.text
  rcases List.eq_nil_or_concat' c.segments with hnil | ⟨gs, g, hconcat⟩
  · rw [hnil]
    exact List.nil_prefix
  · rw [hconcat] at hcut
    rw [hconcat, Segment.settled_tokens_concat]
    by_cases hlast : c.last = []
    · -- The next unit of the last segment is not known, but that of each segment before it is.
      rcases isCut_append.1 hcut with ⟨hbefore, hg⟩
      have hne : join [g] ++ c.last ≠ [] := by simp [hg.1.lexeme.ne_nil]
      have hprefix := (hbefore.append_right hne more).tokens_prefix_scan
      rw [if_pos hlast, Segment.join_append]
      simpa only [List.append_assoc] using hprefix
    · have hprefix := (hcut.append_right hlast more).tokens_prefix_scan
      rw [if_neg hlast]
      simpa only [List.append_assoc] using hprefix

/-- When more text follows a text, a scan that met a fault stays as it is,
    and one that met the end within a string literal, or came to the end,
    keeps the tokens that are settled. -/
theorem scan_stable (a b : Text) :
    match (scan a).error with
    | some e =>
        if e.kind = .unexpectedEndOfFile then (scan a).tokens <+: (scan (a ++ b)).tokens
        else (scan (a ++ b)).tokens = (scan a).tokens ∧ (scan (a ++ b)).error = some e
    | none => settled a.length (scan a).body <+: (scan (a ++ b)).tokens := by
  rcases scan_cases a with ⟨c, rfl, hc, hscan⟩ | ⟨d, rfl, hd, hscan⟩
  · rw [hc.body_scan, hscan]
    exact hc.settled_prefix b
  · rw [hscan]
    simp only
    by_cases hend : d.error.kind = .unexpectedEndOfFile
    · -- The literal may be closed by `b`, but the segments before it are out of its reach.
      have hprefix := (hd.cut_append b).tokens_prefix_scan
      rw [if_pos hend, Breakdown.text_eq, List.append_assoc]
      exact hprefix
    · have hextended := scan_of_breakdown (hd.extend hend b)
      rw [Breakdown.text_extend] at hextended
      rw [if_neg hend, hextended]
      exact ⟨rfl, rfl⟩

/-- The sign at the end of a text may yet become a longer operator. -/
example : (settled 3 (scan (text "x <")).body).map Token.type = [.identifier] ∧
    (scan (text "x <" ++ text "<=")).body.map Token.type = [.identifier, .shiftLeftAssign] := by
  decide +kernel

end GlyphLexer
