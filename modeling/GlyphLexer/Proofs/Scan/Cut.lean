import GlyphLexer.Proofs.Segmentation
import GlyphLexer.Scan

/-!
# The scan of a cut

The scan read off the cut of its text. One round of the scan passes one
segment (`scanFrom_of_fits`), so a run of rounds passes a run of segments
(`scanFrom_of_isCut`), and what is left then decides between the token for
the end and an error.

With `exists_completion_or_breakdown` the two outcomes of a scan are the two
ends of a cut: `scan_cases` is the form in which other modules take a scan
apart.

## Main definitions

* `Completion.tokens`, `Breakdown.tokens`: The tokens that the scan of a text
  finds.
* `Scan.body`: The tokens of a scan but the one for the end.

## Theorems

* `scanFrom_eq`: One round of the scan is decided by what is read first.
* `scanFrom_of_fits`: One round passes one segment.
* `scanFrom_of_isCut`: A run of rounds passes a run of segments.
* `scanFrom_of_completion`, `scanFrom_of_breakdown`: The scan of a text that
  stands behind another.
* `scan_of_completion`, `scan_of_breakdown`: The scan is read off the cut.
* `scan_cases`: A scan is that of a completion or that of a breakdown.
* `Completion.Valid.body_scan`: What a scan finds besides the end is the
  tokens of the segments.
-/

namespace GlyphLexer

open Segment (join join_nil join_cons)

/-- The tokens of a text that is cut up to its end, with the token for the
    end. -/
def Completion.tokens (c : Completion) : List Token :=
  Segment.tokens [] c.segments ++ [Token.endOfFile (Location.after c.text)]

/-- The tokens before the place where no token begins. -/
def Breakdown.tokens (d : Breakdown) : List Token := Segment.tokens [] d.segments

/-- One round of the scan: what is read first decides. -/
theorem scanFrom_eq (c : Cursor) (found : List Token) (t : Text) :
    scanFrom c found t =
      match firstReading t with
      | (gap, none) => ⟨(Token.endOfFile (c.beyond gap).location :: found).reverse, none⟩
      | (gap, some (.lexeme taken type literal)) =>
          scanFrom (c.beyond (gap ++ taken))
            (⟨type, (c.beyond gap).location, (c.beyond (gap ++ taken)).location, literal⟩ :: found)
            (t.drop (gap ++ taken).length)
      | (gap, some (.fault passed f)) =>
          ⟨found.reverse, some (f.toError (c.beyond (gap ++ passed)).location)⟩ := by
  -- The scan drops from behind the trivia, and the statement from the whole
  -- text.
  have hbehind := Text.drop_length_takeWhile CodeUnit.isTrivia t
  rw [scanFrom]
  unfold firstReading
  split
  · next hdrop => simp only [hdrop]
  · next u rest hdrop =>
      simp only [hdrop, Cursor.beyond_append]
      split
      · next hread =>
        simp only [hread]
        rw [List.length_append, ← List.drop_drop, hbehind, hdrop]
      · next hread => simp only [hread]

/-- One round of the scan passes one segment. -/
theorem scanFrom_of_fits {g : Segment} {tail : Text} (h : g.Fits tail) (before : Text)
    (found : List Token) :
    scanFrom (Cursor.start.beyond before) found (g.gap ++ (g.lexeme ++ tail)) =
      scanFrom (Cursor.start.beyond (before ++ g.text)) (g.token before :: found) tail := by
  rw [scanFrom_eq, firstReading_of_fits h]
  simp only [← Cursor.beyond_append, Cursor.location_start_beyond]
  rw [← List.append_assoc g.gap, List.drop_left]
  rfl

/-- A run of rounds passes a run of segments. -/
theorem scanFrom_of_isCut {gs : List Segment} {rest : Text} (h : IsCut gs rest) (before : Text)
    (found : List Token) :
    scanFrom (Cursor.start.beyond before) found (join gs ++ rest) =
      scanFrom (Cursor.start.beyond (before ++ join gs))
        ((Segment.tokens before gs).reverse ++ found) rest := by
  -- Each segment goes to the text before and to the tokens found, for the
  -- segments behind it.
  induction gs generalizing before found with
  | nil => simp [Segment.tokens]
  | cons g gs ih =>
      rw [join_cons, List.append_assoc, List.append_assoc, scanFrom_of_fits h.1, ih h.2]
      simp [Segment.tokens, Segment.text]

theorem scanFrom_of_completion {c : Completion} (h : c.Valid) (before : Text)
    (found : List Token) :
    scanFrom (Cursor.start.beyond before) found c.text =
      ⟨found.reverse ++ (Segment.tokens before c.segments ++
        [Token.endOfFile (Location.after (before ++ c.text))]), none⟩ := by
  rw [Completion.text, scanFrom_of_isCut h.cut, scanFrom_eq, firstReading_of_isTrivia h.last]
  simp only [← Cursor.beyond_append, Cursor.location_start_beyond]
  simp

theorem scanFrom_of_breakdown {d : Breakdown} (h : d.Valid) (before : Text)
    (found : List Token) :
    scanFrom (Cursor.start.beyond before) found d.text =
      ⟨found.reverse ++ Segment.tokens before d.segments,
        some (d.fault.toError (Location.after (before ++ (d.front ++ d.passed))))⟩ := by
  rw [Breakdown.text, Breakdown.front, List.append_assoc, scanFrom_of_isCut h.cut, scanFrom_eq,
    firstReading_of_stuck h]
  simp only [← Cursor.beyond_append, Cursor.location_start_beyond]
  simp

theorem scan_of_completion {c : Completion} (h : c.Valid) : scan c.text = ⟨c.tokens, none⟩ :=
  scanFrom_of_completion h [] []

theorem scan_of_breakdown {d : Breakdown} (h : d.Valid) :
    scan d.text = ⟨d.tokens, some d.error⟩ :=
  scanFrom_of_breakdown h [] []

/-- The scan of a text is that of a completion or that of a breakdown. -/
theorem scan_cases (s : Text) :
    (∃ c : Completion, c.text = s ∧ c.Valid ∧ scan s = ⟨c.tokens, none⟩) ∨
      ∃ d : Breakdown, d.text = s ∧ d.Valid ∧ scan s = ⟨d.tokens, some d.error⟩ := by
  rcases exists_completion_or_breakdown s with ⟨c, rfl, hc⟩ | ⟨d, rfl, hd⟩
  · exact Or.inl ⟨c, rfl, hc, scan_of_completion hc⟩
  · exact Or.inr ⟨d, rfl, hd, scan_of_breakdown hd⟩

/-- The tokens of a scan but the one for the end. -/
def Scan.body (s : Scan) : List Token := s.tokens.filter fun t => t.type ≠ .eof

/-- No token of a cut is the one for the end. -/
theorem IsCut.type_ne_eof {gs : List Segment} {rest before : Text} {t : Token} (h : IsCut gs rest)
    (ht : t ∈ Segment.tokens before gs) : t.type ≠ .eof := by
  rcases exists_of_mem_tokens h ht with ⟨g, front, tail, hfits, rfl, _⟩
  exact hfits.lexeme.type_ne_eof

theorem Completion.Valid.body_scan {c : Completion} (h : c.Valid) :
    (scan c.text).body = Segment.tokens [] c.segments := by
  have hkept : (Segment.tokens [] c.segments).filter (fun t => t.type ≠ .eof) =
      Segment.tokens [] c.segments := by
    refine List.filter_eq_self.2 fun t ht => ?_
    simpa using h.cut.type_ne_eof ht
  rw [scan_of_completion h, Scan.body, Completion.tokens, List.filter_append, hkept]
  simp [Token.endOfFile]

end GlyphLexer
