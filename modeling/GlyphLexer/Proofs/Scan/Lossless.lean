import GlyphLexer.Proofs.Scan.Cut

/-!
# Nothing is lost in a scan

The tokens of a scan, with the pieces of source between them, are the source
again.

`Covers` is said of tokens and source alone: cut at the offsets of the
tokens, the source falls into lexemes, none of them empty, and gaps of white
space and line breaks, and the pieces in their order give it back. A token
does not go over the end of a line, and has a literal if and only if it is a
string. If the scan comes to the end, all of the source is covered. If it
meets a fault, what lies before the end of the last token is covered, and the
fault is met no earlier.

The tokens of segments cover their text wherever it begins (`covers_tokens`).
The induction is on the segments and moves the text before them along, so
that the offsets in it are lengths of that text.

## Main definitions

* `gaps`: The pieces of source before, between and behind tokens.
* `weave`: Gaps and lexemes in turn.
* `endOf`: The offset behind the last token.
* `Covers`: The tokens account for the source up to an offset.

## Theorems

* `Text.slice_append`: A slice between the lengths of two beginnings.
* `gaps_tokens`, `lexemes_tokens`: Segments are found again in their tokens.
* `covers_tokens`: The tokens of segments cover the text of the segments.
* `scan_lossless`: The tokens of a scan cover the source.
-/

namespace GlyphLexer

open Segment (join join_nil join_cons)

/-- The pieces of source before each token, from the offset `place` on, and
    behind the last one up to the offset `stop`. -/
def gaps (s : Text) (stop : Int) : Int → List Token → List Text
  | place, [] => [s.slice place stop]
  | place, t :: ts => s.slice place t.start.offset :: gaps s stop t.stop.offset ts

/-- Gaps and lexemes in turn, as a text. -/
def weave : List Text → List Text → Text
  | [], lexemes => lexemes.flatten
  | gap :: more, [] => gap ++ weave more []
  | gap :: more, lexeme :: lexemes => gap ++ (lexeme ++ weave more lexemes)

/-- The offset behind the last token, or `place` if there is no token. -/
def endOf : Int → List Token → Int
  | place, [] => place
  | _, t :: ts => endOf t.stop.offset ts

/-- A token on one line, with a literal if and only if it is a string. -/
structure Token.WellFormed (t : Token) : Prop where
  same_line : t.start.line = t.stop.line
  columns : t.stop.column - t.start.column = t.stop.offset - t.start.offset
  literal_iff : t.literal.isSome = true ↔ t.type = .string

/-- Up to the offset `stop` the source consists of the lexemes of the tokens
    and of trivia between them. -/
structure Covers (s : Text) (tokens : List Token) (stop : Int) : Prop where
  nonempty : ∀ t ∈ tokens, 0 ≤ t.start.offset ∧ t.start.offset < t.stop.offset
  ordered : tokens.Pairwise fun a b => a.stop.offset ≤ b.start.offset
  within : endOf 0 tokens ≤ stop ∧ stop ≤ s.length
  trivia : ∀ gap ∈ gaps s stop 0 tokens, IsTrivia gap
  rebuilt : weave (gaps s stop 0 tokens) (tokens.map (Token.lexeme s)) = s.slice 0 stop
  wellFormed : ∀ t ∈ tokens, t.WellFormed ∧ t.type ≠ .eof

namespace Text

theorem slice_of_nat (t : Text) (m n : Nat) : t.slice m n = (t.drop m).take (n - m) := by
  unfold slice index
  rw [if_neg (by omega), if_neg (by omega)]
  rfl

/-- What stands between the end of one beginning of a text and the end of a
    longer one. -/
theorem slice_append (a b c : Text) : (a ++ (b ++ c)).slice a.length (a ++ b).length = b := by
  rw [slice_of_nat, List.drop_left, List.length_append, Nat.add_sub_cancel_left, List.take_left]

end Text

namespace Segment

theorem Fits.wellFormed {g : Segment} {tail : Text} (h : g.Fits tail) (front : Text) :
    (g.token front).WellFormed := by
  have hline := Location.after_append_of_notMem (front ++ g.gap) h.lexeme.newline_notMem
  refine ⟨?_, ?_, h.lexeme.literal_isSome_iff⟩
  · simp only [token, text, ← List.append_assoc, hline]
  · simp only [token, text, ← List.append_assoc, hline, Location.after_offset]
    omega

theorem lexeme_token (front tail : Text) (g : Segment) :
    (g.token front).lexeme (front ++ (g.gap ++ (g.lexeme ++ tail))) = g.lexeme := by
  have h := Text.slice_append (front ++ g.gap) g.lexeme tail
  simpa only [Token.lexeme, token, text, Location.after_offset, List.append_assoc] using h

theorem lexemes_tokens (gs : List Segment) (before rest : Text) :
    (tokens before gs).map (Token.lexeme (before ++ (join gs ++ rest))) = gs.map lexeme := by
  induction gs generalizing before with
  | nil => rfl
  | cons g gs ih =>
      have hrest := ih (before ++ g.text)
      simp only [text, List.append_assoc] at hrest
      simp only [tokens, List.map_cons, join_cons, List.append_assoc, lexeme_token, text, hrest]

theorem gaps_tokens (gs : List Segment) (before last rest : Text) :
    gaps (before ++ (join gs ++ (last ++ rest))) (before ++ (join gs ++ last)).length before.length
      (tokens before gs) = gs.map gap ++ [last] := by
  induction gs generalizing before with
  | nil =>
      simp only [tokens, gaps, join_nil, List.nil_append, List.map_nil]
      rw [Text.slice_append]
  | cons g gs ih =>
      have hrest := ih (before ++ g.text)
      have hgap := Text.slice_append before g.gap (g.lexeme ++ (join gs ++ (last ++ rest)))
      simp only [text, List.append_assoc] at hrest
      simp only [tokens, token, text, gaps, join_cons, Location.after_offset, List.append_assoc,
        hrest, hgap, List.map_cons, List.cons_append]

theorem endOf_tokens (gs : List Segment) (before : Text) :
    endOf before.length (tokens before gs) = (before ++ join gs).length := by
  induction gs generalizing before with
  | nil => rw [tokens, endOf, join_nil, List.append_nil]
  | cons g gs ih =>
      have hrest := ih (before ++ g.text)
      rw [tokens, endOf, join_cons, ← List.append_assoc g.gap, ← List.append_assoc]
      exact hrest

/-- Gaps and lexemes of segments, and a last gap, are their text. -/
theorem weave_map (gs : List Segment) (last : Text) :
    weave (gs.map gap ++ [last]) (gs.map lexeme) = join gs ++ last := by
  induction gs with
  | nil => simp [weave]
  | cons g gs ih =>
      rw [List.map_cons, List.map_cons, List.cons_append, weave, ih, join_cons]
      simp only [List.append_assoc]

theorem tokens_ordered {gs : List Segment} {rest : Text} (h : IsCut gs rest) (before : Text) :
    (tokens before gs).Pairwise fun a b => a.stop.offset ≤ b.start.offset := by
  induction gs generalizing before with
  | nil => exact List.Pairwise.nil
  | cons g gs ih =>
      refine List.pairwise_cons.2 ⟨fun t ht => ?_, ih h.2 _⟩
      -- A later token belongs to a text that the text of `g` is a beginning of.
      rcases exists_of_mem_tokens h.2 ht with ⟨g', front, tail, _, rfl, hpre, _⟩
      have hle := hpre.length_le
      simp only [token, Location.after_offset, List.length_append] at hle ⊢
      omega

end Segment

/-- The tokens of segments cover the text of the segments, and trivia behind
    them. -/
theorem covers_tokens {gs : List Segment} {last rest : Text} (h : IsCut gs (last ++ rest))
    (hlast : IsTrivia last) :
    Covers (join gs ++ (last ++ rest)) (Segment.tokens [] gs) (join gs ++ last).length := by
  have hgaps := Segment.gaps_tokens gs [] last rest
  have hlexemes := Segment.lexemes_tokens gs [] (last ++ rest)
  simp only [List.nil_append, List.length_nil, Int.ofNat_zero] at hgaps hlexemes
  -- What is asked of each token is known of the segment that it is the token
  -- of.
  refine ⟨fun t ht => ?_, Segment.tokens_ordered h [], ⟨?_, ?_⟩, ?_, ?_, fun t ht => ?_⟩
  · rcases exists_of_mem_tokens h ht with ⟨g, front, tail, hg, rfl, _, _⟩
    have hpos := List.length_pos_iff.2 hg.lexeme.ne_nil
    simp only [Segment.token, Segment.text, Location.after_offset, List.length_append]
    omega
  · have hend := Segment.endOf_tokens gs []
    simp only [List.nil_append, List.length_nil, Int.ofNat_zero] at hend
    rw [hend, List.length_append]
    omega
  · simp only [List.length_append]
    omega
  · rw [hgaps]
    intro gap hmem
    rcases List.mem_append.1 hmem with hmem | hmem
    · rcases List.mem_map.1 hmem with ⟨g, hg, rfl⟩
      rcases h.exists_fits hg with ⟨tail, hfits⟩
      exact hfits.gap
    · rw [List.mem_singleton.1 hmem]
      exact hlast
  · have hslice := Text.slice_append [] (join gs ++ last) rest
    simp only [List.nil_append, List.length_nil, Int.ofNat_zero, List.append_assoc] at hslice
    rw [hgaps, hlexemes, Segment.weave_map, hslice]
  · rcases exists_of_mem_tokens h ht with ⟨g, front, tail, hg, rfl, _, _⟩
    exact ⟨hg.wellFormed front, hg.lexeme.type_ne_eof⟩

theorem endOf_breakdown (d : Breakdown) : endOf 0 d.tokens = (join d.segments).length := by
  have hend := Segment.endOf_tokens d.segments []
  rw [Breakdown.tokens]
  simpa only [List.nil_append, List.length_nil, Int.ofNat_zero] using hend

/-- Gaps and lexemes give back the source, or what of it is before a
    fault. -/
theorem scan_lossless (s : Text) :
    match (scan s).error with
    | none => ∃ (body : List Token) (eof : Token), (scan s).tokens = body ++ [eof] ∧
        Covers s body s.length ∧
        weave (gaps s s.length 0 body) (body.map (Token.lexeme s)) = s ∧
        eof.type = .eof ∧ eof.WellFormed ∧ eof.start = eof.stop ∧ eof.stop.offset = s.length
    | some e => Covers s (scan s).tokens (endOf 0 (scan s).tokens) ∧
        endOf 0 (scan s).tokens ≤ e.location.offset := by
  rcases scan_cases s with ⟨c, rfl, hc, hscan⟩ | ⟨d, rfl, hd, hscan⟩
  · rw [hscan]
    have hcovers : Covers c.text (Segment.tokens [] c.segments) c.text.length := by
      have hcut : IsCut c.segments (c.last ++ []) := by
        rw [List.append_nil]
        exact hc.cut
      have h := covers_tokens hcut hc.last
      rwa [List.append_nil] at h
    refine ⟨Segment.tokens [] c.segments, Token.endOfFile (Location.after c.text), rfl, hcovers, ?_,
      rfl, ⟨rfl, ?_, by simp [Token.endOfFile]⟩, rfl, rfl⟩
    · rw [hcovers.rebuilt]
      have hslice := Text.slice_append [] c.text []
      simpa only [List.nil_append, List.length_nil, Int.ofNat_zero, List.append_nil] using hslice
    · simp [Token.endOfFile]
  · -- The trivia before the fault is not covered: the last token ends before it.
    rw [hscan]
    have hcut : IsCut d.segments ([] ++ (d.gap ++ d.stuck)) := hd.cut
    have hcovers := covers_tokens hcut fun u hu => absurd hu List.not_mem_nil
    simp only [List.nil_append, List.append_nil] at hcovers
    refine ⟨?_, ?_⟩
    · change Covers d.text d.tokens (endOf 0 d.tokens)
      rw [endOf_breakdown, Breakdown.text, Breakdown.front, List.append_assoc]
      exact hcovers
    · simp only [endOf_breakdown, Breakdown.error, Breakdown.front, Fault.toError, LexError.ofKind,
        Location.after_offset, List.length_append]
      omega

end GlyphLexer
