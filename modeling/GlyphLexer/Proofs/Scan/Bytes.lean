import GlyphLexer.Proofs.Grammar.Recode
import GlyphLexer.Proofs.Scan.Lossless
import Mathlib.Data.List.Forall2

/-!
# Text and bytes scanned side by side

The scan of the bytes of a text follows the scan of the text, token for
token.

The two scans see different units and count different offsets. What they
share is the cut: the segments of a text, each read as bytes, are the
segments of the bytes (`IsCut.recode`), and the text ends or breaks down
where its bytes do. So the scans have the same tokens in the same order, and
one of them has an error if the other has.

Where a token or an error stands differs by what is written before it. The
text before it is cut off between two code points, so it has bytes of its
own, and their number is the offset on the other side
(`Location.encodes_after`). Lines are the same. Columns are not, and neither
is the unit that a message shows.

## Main definitions

* `Location.Encodes`, `Token.Encodes`, `LexError.Encodes`: What the scan of a
  text has, and what the scan of its bytes has in the same place.
* `Segment.recode`, `Completion.recode`, `Breakdown.recode`: Cuts read as
  bytes.

## Theorems

* `Location.encodes_after`: The location behind a text and the location
  behind its bytes.
* `Segment.Fits.split`, `IsCut.split`: The pieces of a cut are cut off
  between code points.
* `Segment.Fits.recode`, `IsCut.recode`: A right cut is right when read as
  bytes.
* `Completion.Valid.recode`, `Breakdown.Valid.recode`: The same for the cut
  of a whole text.
* `IsCut.tokens_encode`: The tokens of a cut and of the cut read as bytes.
* `scan_utf8`: The scan of a text and the scan of its bytes.
* `scan_utf8_letters`: A text with letters of two and of four bytes and with
  a sign that is no token.
-/

namespace GlyphLexer

open Segment (join join_nil join_cons)

/-- A location in the text `s` and the location of the same place in its
    bytes. The place is between two code points. -/
structure Location.Encodes (s : Text) (l l' : Location) : Prop where
  offset : ∃ p : Nat, l.offset = p ∧ Text.IsBoundary s p ∧ l'.offset = Text.utf8Offset s p
  line : l'.line = l.line

/-- A token of the text `s` and the token of its bytes for the same piece of
    source. -/
structure Token.Encodes (s : Text) (t t' : Token) : Prop where
  type : t'.type = t.type
  start : Location.Encodes s t.start t'.start
  stop : Location.Encodes s t.stop t'.stop
  lexeme : t'.lexeme (Text.recode s) = Text.recode (t.lexeme s)
  literal : t'.literal = t.literal.map Text.recode
  wellFormed : ∀ decoded ∈ t.literal, Text.WellFormed decoded

/-- An error of the text `s` and the error of its bytes. -/
structure LexError.Encodes (s : Text) (e e' : LexError) : Prop where
  kind : e'.kind = e.kind
  location : Location.Encodes s e.location e'.location

/-- The place behind a text is the place behind its bytes. -/
theorem Location.encodes_after {s t : Text} (hs : Text.WellFormed s) (ht : Text.WellFormed t) :
    Location.Encodes (s ++ t) (Location.after s) (Location.after (Text.recode s)) := by
  refine ⟨⟨s.length, rfl, Text.isBoundary_append hs ht, ?_⟩, ?_⟩
  · rw [Location.after_offset, Text.utf8Offset_append]
  · unfold Location.after
    rw [hs.count_newline_recode]

namespace IsTrivia

theorem isAscii {t : Text} (h : IsTrivia t) : ∀ u ∈ t, u.isAscii = true := by
  intro u hu
  exact CodeUnit.isAscii_of_isTrivia (h u hu)

theorem split {gap t : Text} (h : IsTrivia gap) (hw : Text.WellFormed (gap ++ t)) :
    Text.WellFormed gap ∧ Text.WellFormed t := by
  refine ⟨Text.wellFormed_of_isAscii h.isAscii, ?_⟩
  rcases List.eq_nil_or_concat' gap with rfl | ⟨front, u, rfl⟩
  · exact hw
  · exact (hw.split_behind (h.isAscii u (by simp))).2

theorem recode {t : Text} (h : IsTrivia t) : IsTrivia (Text.recode t) := by
  rw [Text.recode_of_isAscii h.isAscii]
  exact h

end IsTrivia

namespace Segment

/-- A segment whose pieces are read as bytes. -/
def recode (g : Segment) : Segment :=
  ⟨Text.recode g.gap, Text.recode g.lexeme, g.type, g.literal.map Text.recode⟩

theorem Fits.split {g : Segment} {tail : Text} (h : g.Fits tail)
    (hw : Text.WellFormed (g.gap ++ (g.lexeme ++ tail))) :
    Text.WellFormed g.gap ∧ Text.WellFormed g.lexeme ∧ Text.WellFormed tail := by
  rcases h.gap.split hw with ⟨hgap, hbehind⟩
  exact ⟨hgap, h.lexeme.split hbehind⟩

theorem Fits.recode {g : Segment} {tail : Text} (h : g.Fits tail)
    (hw : Text.WellFormed (g.gap ++ (g.lexeme ++ tail))) : g.recode.Fits (Text.recode tail) := by
  rcases h.split hw with ⟨_, hlexeme, htail⟩
  exact ⟨h.gap.recode, (h.lexeme.recode hlexeme).1, h.longest.recode h.lexeme hlexeme htail,
    h.detached.recode htail⟩

/-- The token of a segment and the token of the segment read as bytes. -/
theorem Fits.token_encodes {g : Segment} {before tail : Text} (h : g.Fits tail)
    (hbefore : Text.WellFormed before) (hw : Text.WellFormed (g.gap ++ (g.lexeme ++ tail))) :
    Token.Encodes (before ++ (g.gap ++ (g.lexeme ++ tail))) (g.token before)
      (g.recode.token (Text.recode before)) := by
  rcases h.split hw with ⟨hgap, hlexeme, htail⟩
  -- The token goes from behind the gap to behind the lexeme, and both places
  -- are cuts of the text.
  have hfront := hbefore.append hgap
  have hstart := Location.encodes_after hfront (hlexeme.append htail)
  have hstop := Location.encodes_after (hfront.append hlexeme) htail
  have hbytes := Segment.lexeme_token (Text.recode before) (Text.recode tail) g.recode
  rw [hbefore.recode_append] at hstart
  rw [hfront.recode_append, hbefore.recode_append] at hstop
  simp only [List.append_assoc] at hstart hstop
  refine ⟨rfl, hstart, hstop, ?_, rfl, (h.lexeme.recode hlexeme).2⟩
  rw [Segment.lexeme_token, hbefore.recode_append, hgap.recode_append, hlexeme.recode_append]
  exact hbytes

end Segment

namespace IsCut

theorem split {gs : List Segment} {rest : Text} (h : IsCut gs rest)
    (hw : Text.WellFormed (join gs ++ rest)) :
    Text.WellFormed (join gs) ∧ Text.WellFormed rest := by
  induction gs with
  | nil => exact ⟨Text.WellFormed.nil, hw⟩
  | cons g gs ih =>
      rw [join_cons, List.append_assoc, List.append_assoc] at hw
      rcases h.1.split hw with ⟨hgap, hlexeme, htail⟩
      rcases ih h.2 htail with ⟨hsegments, hrest⟩
      rw [join_cons]
      exact ⟨hgap.append (hlexeme.append hsegments), hrest⟩

theorem join_recode {gs : List Segment} {rest : Text} (h : IsCut gs rest)
    (hw : Text.WellFormed (join gs ++ rest)) :
    join (gs.map Segment.recode) = Text.recode (join gs) := by
  induction gs with
  | nil => exact Text.recode_nil.symm
  | cons g gs ih =>
      rw [join_cons, List.append_assoc, List.append_assoc] at hw
      rcases h.1.split hw with ⟨hgap, hlexeme, htail⟩
      rw [List.map_cons, join_cons, join_cons, ih h.2 htail, hgap.recode_append,
        hlexeme.recode_append]
      rfl

theorem recode {gs : List Segment} {rest : Text} (h : IsCut gs rest)
    (hw : Text.WellFormed (join gs ++ rest)) :
    IsCut (gs.map Segment.recode) (Text.recode rest) := by
  induction gs with
  | nil => exact trivial
  | cons g gs ih =>
      rw [join_cons, List.append_assoc, List.append_assoc] at hw
      rcases h.1.split hw with ⟨_, _, htail⟩
      -- What follows the segment, read as bytes, is the next segments and the
      -- rest, read as bytes.
      have hfits := h.1.recode hw
      rw [(h.2.split htail).1.recode_append, ← h.2.join_recode htail] at hfits
      exact ⟨hfits, ih h.2 htail⟩

/-- The tokens of a cut and of the cut read as bytes, behind a text and its
    bytes. -/
theorem tokens_encode {gs : List Segment} {rest before : Text} (h : IsCut gs rest)
    (hbefore : Text.WellFormed before) (hw : Text.WellFormed (join gs ++ rest)) :
    List.Forall₂ (Token.Encodes (before ++ (join gs ++ rest))) (Segment.tokens before gs)
      (Segment.tokens (Text.recode before) (gs.map Segment.recode)) := by
  -- The text of each segment goes to the text before, for the segments behind
  -- it.
  induction gs generalizing before with
  | nil => exact List.Forall₂.nil
  | cons g gs ih =>
      rw [join_cons, List.append_assoc, List.append_assoc] at hw ⊢
      rcases h.1.split hw with ⟨hgap, hlexeme, htail⟩
      have hrest := ih h.2 (hbefore.append (hgap.append hlexeme)) htail
      rw [hbefore.recode_append, hgap.recode_append] at hrest
      simp only [List.append_assoc] at hrest
      exact List.Forall₂.cons (h.1.token_encodes hbefore hw) hrest

end IsCut

namespace Completion

/-- A completion whose pieces are read as bytes. -/
def recode (c : Completion) : Completion := ⟨c.segments.map Segment.recode, Text.recode c.last⟩

theorem Valid.recode {c : Completion} (h : c.Valid) (hw : Text.WellFormed c.text) :
    c.recode.Valid ∧ c.recode.text = Text.recode c.text := by
  refine ⟨⟨h.cut.recode hw, h.last.recode⟩, ?_⟩
  unfold text
  rw [(h.cut.split hw).1.recode_append, ← h.cut.join_recode hw]
  rfl

/-- The tokens for the end are at the ends of the text and of its bytes, and
    cover nothing. -/
theorem endOfFile_encodes {s : Text} (hs : Text.WellFormed s) :
    Token.Encodes s (Token.endOfFile (Location.after s))
      (Token.endOfFile (Location.after (Text.recode s))) := by
  have hend := Location.encodes_after hs Text.WellFormed.nil
  rw [List.append_nil] at hend
  have hlexeme : ∀ t : Text, (Token.endOfFile (Location.after t)).lexeme t = [] := by
    intro t
    have hslice := Text.slice_append t [] []
    simp only [List.append_nil] at hslice
    exact hslice
  refine ⟨rfl, hend, hend, ?_, rfl, by simp [Token.endOfFile]⟩
  rw [hlexeme, hlexeme, Text.recode_nil]

theorem Valid.tokens_encode {c : Completion} (h : c.Valid) (hw : Text.WellFormed c.text) :
    List.Forall₂ (Token.Encodes c.text) c.tokens c.recode.tokens := by
  have hbody := h.cut.tokens_encode Text.WellFormed.nil hw
  rw [Text.recode_nil] at hbody
  have heof := endOfFile_encodes hw
  rw [← (h.recode hw).2] at heof
  exact List.rel_append hbody (List.Forall₂.cons heof List.Forall₂.nil)

end Completion

namespace Breakdown

/-- A breakdown whose pieces are read as bytes, with the fault that is met
    there. -/
def recode (d : Breakdown) (f : Fault) : Breakdown :=
  ⟨d.segments.map Segment.recode, Text.recode d.gap, d.shape, Text.recode d.passed,
    Text.recode d.rest, f⟩

theorem Valid.split {d : Breakdown} (h : d.Valid) (hw : Text.WellFormed d.text) :
    Text.WellFormed d.front ∧ Text.WellFormed d.passed ∧ Text.WellFormed d.rest := by
  rw [text_eq] at hw
  rcases h.cut.split hw with ⟨hsegments, hbehind⟩
  rcases h.gap.split hbehind with ⟨hgap, hstuck⟩
  exact ⟨hsegments.append hgap, h.shape.split hstuck⟩

theorem Valid.front_recode {d : Breakdown} (h : d.Valid) (hw : Text.WellFormed d.text) (f : Fault) :
    (d.recode f).front = Text.recode d.front := by
  rw [text_eq] at hw
  unfold front
  rw [(h.cut.split hw).1.recode_append, ← h.cut.join_recode hw]
  rfl

theorem Valid.recode {d : Breakdown} (h : d.Valid) (hw : Text.WellFormed d.text) :
    ∃ f, (d.recode f).Valid ∧ (d.recode f).text = Text.recode d.text ∧ f.kind = d.fault.kind := by
  rcases h.split hw with ⟨hfront, hpassed, hrest⟩
  have hstuck : Text.WellFormed d.stuck := hpassed.append hrest
  rcases h.shape.recode hstuck with ⟨f, hshape, hkind⟩
  have hstuck' : (d.recode f).stuck = Text.recode d.stuck := (hpassed.recode_append _).symm
  refine ⟨f, ⟨?_, h.gap.recode, ?_, hshape⟩, ?_, hkind⟩
  · -- What follows the segments on the side of the bytes is `d.gap ++ d.stuck`, read as bytes.
    have hgap : Text.WellFormed d.gap := Text.wellFormed_of_isAscii h.gap.isAscii
    rw [text_eq] at hw
    have hcut := h.cut.recode hw
    rw [hgap.recode_append, ← hstuck'] at hcut
    exact hcut
  · intro u hu
    rw [hstuck'] at hu
    rcases hstuck.head_recode hu with hsame | hwide
    · exact h.head u hsame
    · exact (CodeUnit.classes_of_not_isAscii hwide).2.2
  · rw [text, h.front_recode hw, hstuck', text, hfront.recode_append]

theorem Valid.error_encodes {d : Breakdown} (h : d.Valid) (hw : Text.WellFormed d.text) {f : Fault}
    (hf : f.kind = d.fault.kind) : LexError.Encodes d.text d.error (d.recode f).error := by
  rcases h.split hw with ⟨hfront, hpassed, hrest⟩
  have hplace := Location.encodes_after (hfront.append hpassed) hrest
  rw [hfront.recode_append, ← h.front_recode hw f, List.append_assoc] at hplace
  exact ⟨hf, hplace⟩

end Breakdown

/-- The bytes of a well-formed text are scanned as the text is: to the same
    kinds of tokens, at the places of their bytes and on the same lines, and
    to an error of the same kind if there is one. -/
theorem scan_utf8 {s : Text} (hs : Text.WellFormed s) :
    let bytes := (Source.ofBytes (Text.toUtf8 s)).toText
    (scan bytes).success = (scan s).success ∧
      List.Forall₂ (Token.Encodes s) (scan s).tokens (scan bytes).tokens ∧
      Option.Rel (LexError.Encodes s) (scan s).error (scan bytes).error := by
  change (scan (Text.recode s)).success = (scan s).success ∧
    List.Forall₂ (Token.Encodes s) (scan s).tokens (scan (Text.recode s)).tokens ∧
    Option.Rel (LexError.Encodes s) (scan s).error (scan (Text.recode s)).error
  rcases scan_cases s with ⟨c, rfl, hc, hscan⟩ | ⟨d, rfl, hd, hscan⟩
  · rcases hc.recode hs with ⟨hvalid, htext⟩
    rw [hscan, ← htext, scan_of_completion hvalid]
    exact ⟨rfl, hc.tokens_encode hs, Option.Rel.none⟩
  · rcases hd.recode hs with ⟨f, hvalid, htext, hkind⟩
    rw [hscan, ← htext, scan_of_breakdown hvalid]
    refine ⟨rfl, ?_, Option.Rel.some (hd.error_encodes hs hkind)⟩
    rw [Breakdown.text_eq] at hs ⊢
    have htokens := hd.cut.tokens_encode Text.WellFormed.nil hs
    rw [Text.recode_nil] at htokens
    exact htokens

/-- A string literal with letters of two and of four bytes, and a sign of
    three bytes that begins no token. -/
theorem scan_utf8_letters :
    (scan (text "\"é😀\" 1€")).tokens.map (fun t => (t.start.offset, t.stop.offset)) =
        [(0, 5), (6, 7)] ∧
      (scan (Source.ofBytes (Text.toUtf8 (text "\"é😀\" 1€"))).toText).tokens.map
        (fun t => (t.start.offset, t.stop.offset)) = [(0, 8), (9, 10)] ∧
      Option.Rel (LexError.Encodes (text "\"é😀\" 1€")) (scan (text "\"é😀\" 1€")).error
        (scan (Source.ofBytes (Text.toUtf8 (text "\"é😀\" 1€"))).toText).error ∧
      (scan (text "\"é😀\" 1€")).error.map (fun e => e.location.offset) = some 7 := by
  have h := scan_utf8 (Text.wellFormed_text "\"é😀\" 1€")
  exact ⟨by decide +kernel, by decide +kernel, h.2.2, by decide +kernel⟩

end GlyphLexer
