import GlyphLexer.Proofs.Scan.Spacing

/-!
# Line ends of two units

A text whose lines end in a newline, and the same text with a carriage return
before each newline, are scanned to the same tokens in the same lines and
columns.

The carriage return is trivia between tokens, and there is no newline within
a token, so a cut of the one text is a cut of the other with longer gaps
(`IsCut.crlf`). A place moves by one unit for each line before it, which is
one less than the number of its own line (`Location.after_crlf`); within its
line it does not move.

It is in a text that breaks down that the carriage return is met in two other
ways. Behind a backslash it takes the place of the newline as the unit that
makes no escape. At the end of a line that cuts a string literal it is one
more plain item of the literal, so that the newline, where the fault is,
stands one column further on. Both are cases of `Breakage.Fits.crlf`.

Nothing here depends on the text having no carriage returns before.

## Main definitions

* `Text.crlf`: A text with a carriage return before each newline.
* `Location.crlf`, `Token.crlf`: A place and a token of a text, in the text
  with these line ends.
* `Segment.crlf`, `Completion.crlf`: Cuts with these line ends in the gaps.
* `Fault.beforeNewline`: What of a line end stands before the place of a
  fault.
* `LexError.Crlf`: An error of a text and the error of the text with these
  line ends.

## Theorems

* `Text.head_crlf`: A text begins as before or with a carriage return.
* `Text.lastLine_crlf`, `Text.length_crlf`: The last line stays, and each
  newline adds a unit.
* `Location.after_crlf`: The place behind a text.
* `Segment.Fits.crlf`, `IsCut.crlf`: A right cut is right with other line
  ends.
* `IsCut.tokens_crlf`, `IsCut.lexemes_crlf`: The tokens of a cut and their
  lexemes.
* `Breakage.Fits.crlf`: A shape without a token, with other line ends.
* `Breakdown.Valid.exists_crlf`: A breakdown with other line ends.
* `scan_crlf`: The scan of a text and the scan of the text with other line
  ends.
-/

namespace GlyphLexer

open Segment (join join_nil join_cons)

namespace Text

/-- A text with a carriage return put before each newline. -/
def crlf (t : Text) : Text :=
  t.flatMap fun u => if u = CodeUnit.newline then [CodeUnit.carriageReturn, u] else [u]

@[simp] theorem crlf_nil : crlf [] = [] := rfl

theorem crlf_append (s t : Text) : crlf (s ++ t) = crlf s ++ crlf t := List.flatMap_append

theorem crlf_newline (t : Text) :
    crlf (CodeUnit.newline :: t) = CodeUnit.carriageReturn :: CodeUnit.newline :: crlf t := rfl

theorem crlf_cons {u : CodeUnit} (h : u ≠ CodeUnit.newline) (t : Text) :
    crlf (u :: t) = u :: crlf t := by
  unfold crlf
  rw [List.flatMap_cons, if_neg h]
  rfl

theorem crlf_of_notMem {t : Text} (h : CodeUnit.newline ∉ t) : crlf t = t := by
  induction t with
  | nil => rfl
  | cons u t ih =>
      rw [List.mem_cons, not_or] at h
      rw [crlf_cons fun hc => h.1 hc.symm, ih h.2]

/-- A text begins as before or with a carriage return. -/
theorem head_crlf {t : Text} {u : CodeUnit} (h : (crlf t).head? = some u) :
    t.head? = some u ∨ u.isTrivia = true := by
  cases t with
  | nil => exact absurd h (by simp)
  | cons v t =>
      by_cases hv : v = CodeUnit.newline
      · rw [hv, crlf_newline] at h
        rw [← Option.some.inj h]
        exact Or.inr (by decide)
      · rw [crlf_cons hv] at h
        exact Or.inl h

/-- A text that does not begin with trivia begins as before. -/
theorem head_crlf_not_isTrivia {t : Text} (h : ∀ u, t.head? = some u → u.isTrivia = false) :
    ∀ u, (crlf t).head? = some u → u.isTrivia = false := by
  cases t with
  | nil => exact h
  | cons v t =>
      have hv : v ≠ CodeUnit.newline := by
        rintro rfl
        exact absurd (h _ rfl) (by decide)
      rw [crlf_cons hv]
      exact h

theorem count_newline_crlf (t : Text) :
    (crlf t).count CodeUnit.newline = t.count CodeUnit.newline := by
  induction t with
  | nil => rfl
  | cons u t ih =>
      by_cases hu : u = CodeUnit.newline
      · rw [hu, crlf_newline, List.count_cons_of_ne (by decide), List.count_cons_self,
          List.count_cons_self, ih]
      · rw [crlf_cons hu, List.count_cons_of_ne hu, List.count_cons_of_ne hu, ih]

theorem length_crlf (t : Text) :
    (crlf t).length = t.length + t.count CodeUnit.newline := by
  induction t with
  | nil => rfl
  | cons u t ih =>
      by_cases hu : u = CodeUnit.newline
      · rw [hu, crlf_newline, List.count_cons_self]
        simp only [List.length_cons]
        omega
      · rw [crlf_cons hu, List.count_cons_of_ne hu]
        simp only [List.length_cons]
        omega

theorem lastLine_crlf (t : Text) : lastLine (crlf t) = lastLine t := by
  induction t using List.reverseRecOn with
  | nil => rfl
  | append_singleton t u ih =>
      rw [crlf_append]
      by_cases hu : u = CodeUnit.newline
      · -- Both texts end in a newline, and so their last lines are empty.
        have hend : crlf t ++ crlf [u] =
            crlf t ++ [CodeUnit.carriageReturn] ++ [CodeUnit.newline] := by
          rw [hu, crlf_newline, crlf_nil, List.append_assoc]
          rfl
        rw [hend, hu, lastLine_concat_newline, lastLine_concat_newline]
      · rw [crlf_cons hu, crlf_nil, lastLine_concat _ hu, lastLine_concat _ hu, ih]

end Text

/-- A place of a text, in the text with carriage returns: one unit further on
    for each line before. -/
def Location.crlf (l : Location) : Location := { l with offset := l.offset + (l.line - 1) }

/-- A token of a text, in the text with carriage returns. -/
def Token.crlf (t : Token) : Token := { t with start := t.start.crlf, stop := t.stop.crlf }

theorem Location.after_crlf (t : Text) : after t.crlf = (after t).crlf := by
  unfold crlf after
  rw [Text.count_newline_crlf, Text.lastLine_crlf, Text.length_crlf]
  simp only [Location.mk.injEq, true_and]
  omega

theorem IsTrivia.crlf {t : Text} (h : IsTrivia t) : IsTrivia t.crlf := by
  intro u hu
  rcases List.mem_flatMap.1 hu with ⟨v, hv, huv⟩
  by_cases hnewline : v = CodeUnit.newline
  · rw [if_pos hnewline, List.mem_cons, List.mem_singleton] at huv
    rcases huv with rfl | rfl
    · decide
    · exact h u hv
  · rw [if_neg hnewline, List.mem_singleton] at huv
    rw [huv]
    exact h v hv

namespace Segment

/-- A segment with carriage returns in its gap. -/
def crlf (g : Segment) : Segment := { g with gap := g.gap.crlf }

theorem Fits.crlf {g : Segment} {tail : Text} (h : g.Fits tail) : g.crlf.Fits tail.crlf :=
  (h.respaced h.gap.crlf).of_head fun _ hu => Text.head_crlf hu

theorem Fits.text_crlf {g : Segment} {tail : Text} (h : g.Fits tail) :
    g.crlf.text = g.text.crlf := by
  unfold text
  rw [Text.crlf_append, Text.crlf_of_notMem h.lexeme.newline_notMem]
  rfl

theorem Fits.token_crlf {g : Segment} {tail : Text} (h : g.Fits tail) (before : Text) :
    g.crlf.token before.crlf = (g.token before).crlf := by
  have hstart : before.crlf ++ g.crlf.gap = (before ++ g.gap).crlf := (Text.crlf_append _ _).symm
  unfold token Token.crlf
  rw [hstart, h.text_crlf, ← Text.crlf_append, Location.after_crlf, Location.after_crlf]
  rfl

end Segment

namespace IsCut

theorem join_crlf {gs : List Segment} {rest : Text} (h : IsCut gs rest) :
    join (gs.map Segment.crlf) = (join gs).crlf := by
  induction gs with
  | nil => rfl
  | cons g gs ih =>
      rw [List.map_cons, join_cons, join_cons, ih h.2, ← List.append_assoc, ← List.append_assoc,
        Text.crlf_append]
      exact congrArg (· ++ (join gs).crlf) h.1.text_crlf

/-- A right cut is right with carriage returns before the newlines. -/
theorem crlf {gs : List Segment} {rest : Text} (h : IsCut gs rest) :
    IsCut (gs.map Segment.crlf) rest.crlf := by
  induction gs with
  | nil => exact trivial
  | cons g gs ih =>
      refine ⟨?_, ih h.2⟩
      rw [h.2.join_crlf, ← Text.crlf_append]
      exact h.1.crlf

theorem tokens_crlf {gs : List Segment} {rest : Text} (h : IsCut gs rest) (before : Text) :
    Segment.tokens before.crlf (gs.map Segment.crlf) =
      (Segment.tokens before gs).map Token.crlf := by
  induction gs generalizing before with
  | nil => rfl
  | cons g gs ih =>
      rw [List.map_cons, Segment.tokens, Segment.tokens, List.map_cons, h.1.token_crlf,
        h.1.text_crlf, ← Text.crlf_append, ih h.2]

/-- The lexemes of the tokens are the same pieces of both texts. -/
theorem lexemes_crlf {gs : List Segment} {rest : Text} (h : IsCut gs rest) :
    ((Segment.tokens [] gs).map Token.crlf).map (Token.lexeme (join gs ++ rest).crlf) =
      (Segment.tokens [] gs).map (Token.lexeme (join gs ++ rest)) := by
  have hlexemes := Segment.lexemes_tokens gs [] rest
  have hlexemes' := Segment.lexemes_tokens (gs.map Segment.crlf) [] rest.crlf
  have hsame : (gs.map Segment.crlf).map Segment.lexeme = gs.map Segment.lexeme := by
    rw [List.map_map]
    rfl
  rw [h.join_crlf, ← Text.crlf_append, hsame] at hlexemes'
  rw [← h.tokens_crlf []]
  exact hlexemes'.trans hlexemes.symm

end IsCut

/-- The token for the end of a text covers nothing. -/
theorem Token.lexeme_endOfFile (s : Text) (l : Location) : (Token.endOfFile l).lexeme s = [] := by
  unfold Token.lexeme Token.endOfFile Text.slice
  rw [Nat.sub_self, List.take_zero]

namespace Completion

/-- A completion with carriage returns before the newlines. -/
def crlf (c : Completion) : Completion := ⟨c.segments.map Segment.crlf, c.last.crlf⟩

theorem Valid.crlf {c : Completion} (h : c.Valid) : c.crlf.Valid := ⟨h.cut.crlf, h.last.crlf⟩

theorem Valid.text_crlf {c : Completion} (h : c.Valid) : c.crlf.text = c.text.crlf := by
  unfold text Completion.crlf
  rw [h.cut.join_crlf, Text.crlf_append]

theorem Valid.tokens_crlf {c : Completion} (h : c.Valid) :
    c.crlf.tokens = c.tokens.map Token.crlf := by
  have hsegments := h.cut.tokens_crlf []
  rw [tokens, h.text_crlf, Location.after_crlf, tokens, List.map_append, ← hsegments]
  rfl

end Completion

/-- What of a line end stands before the place of a fault: the carriage
    return, if the fault is met at the newline. -/
def Fault.beforeNewline : Fault → Text
  | endOfLine => [CodeUnit.carriageReturn]
  | endOfFile | unexpectedSymbol _ | symbolBehindNumber _ | invalidEscape _ => []

theorem Fault.beforeNewline_eq (f : Fault) : f.beforeNewline =
    if f.kind = .unexpectedEndOfLine then [CodeUnit.carriageReturn] else [] := by
  cases f <;> rfl

theorem StringItems.concat_plain {body decoded : Text} {u : CodeUnit} (h : StringItems body decoded)
    (hquote : u ≠ CodeUnit.quote) (hbackslash : u ≠ CodeUnit.backslash)
    (hnewline : u ≠ CodeUnit.newline) : StringItems (body ++ [u]) (decoded ++ [u]) := by
  induction h with
  | nil => exact StringItems.plain hquote hbackslash hnewline StringItems.nil
  | plain hq hb hn _ ih => exact StringItems.plain hq hb hn ih
  | escape hentry _ ih => exact StringItems.escape hentry ih

/-- What makes no escape with a backslash makes none with carriage returns
    before the newlines: if it is a newline, the carriage return takes its
    place. -/
theorem Escape.exists_crlf {v : CodeUnit} (hv : ∀ entry ∈ Escape.table, v ≠ entry.1) (rest : Text) :
    ∃ v' rest', Text.crlf (v :: rest) = v' :: rest' ∧ ∀ entry ∈ Escape.table, v' ≠ entry.1 := by
  by_cases hnewline : v = CodeUnit.newline
  · have hreturn : Escape.decode? CodeUnit.carriageReturn = none := by decide
    rw [hnewline, Text.crlf_newline]
    exact ⟨_, _, rfl, Escape.decode?_eq_none_iff.1 hreturn⟩
  · rw [Text.crlf_cons hnewline]
    exact ⟨_, _, rfl, hv⟩

namespace Breakage

/-- No newline is passed before the place of a fault. -/
theorem Fits.newline_notMem {b : Breakage} {passed rest : Text} {f : Fault}
    (h : b.Fits passed rest f) : CodeUnit.newline ∉ passed := by
  have hbody : ∀ {body tail : Text}, LongestItems body tail →
      CodeUnit.newline ∉ CodeUnit.quote :: body := by
    intro body tail hlong
    rcases hlong.1 with ⟨decoded, hitems⟩
    exact List.not_mem_cons_of_ne_of_not_mem (by decide) hitems.newline_notMem
  cases h with
  | stray _ _ _ _ => exact List.not_mem_nil
  | secondPoint h => exact h.newline_notMem
  | nameBehindNumber h _ => rcases h with h | h <;> exact h.newline_notMem
  | newlineInString h => exact hbody h
  | endInString h => exact hbody h
  | endBehindBackslash h =>
      rw [← List.cons_append, List.mem_append, not_or]
      exact ⟨hbody h, by decide⟩
  | unknownEscape h _ =>
      rw [← List.cons_append, List.mem_append, not_or]
      exact ⟨hbody h, by decide⟩

/-- A text of a shape has the shape with carriage returns before the
    newlines. What is passed stays, but for the carriage return before a
    newline that is the fault. -/
theorem Fits.crlf {b : Breakage} {passed rest : Text} {f : Fault} (h : b.Fits passed rest f)
    (hhead : ∀ u, (passed ++ rest).head? = some u → u.isTrivia = false) :
    ∃ rest' f', b.Fits (passed ++ f.beforeNewline) rest' f' ∧ f'.kind = f.kind ∧
      f.beforeNewline ++ rest' = rest.crlf := by
  cases h with
  | @stray u rest hquote hdigit hname hop =>
      -- A newline would be trivia, and none is left at the front.
      have hu : u ≠ CodeUnit.newline := by
        rintro rfl
        exact absurd (hhead _ rfl) (by decide)
      rw [Text.crlf_cons hu]
      exact ⟨_, _, Fits.stray hquote hdigit hname hop, rfl, rfl⟩
  | secondPoint h =>
      rw [Text.crlf_cons (by decide), Fault.beforeNewline, List.append_nil]
      exact ⟨_, _, Fits.secondPoint h, rfl, rfl⟩
  | @nameBehindNumber _ rest u h hu =>
      have hne : u ≠ CodeUnit.newline := by
        rintro rfl
        exact absurd hu (by decide)
      rw [Text.crlf_cons hne, Fault.beforeNewline, List.append_nil]
      exact ⟨_, _, Fits.nameBehindNumber h hu, rfl, rfl⟩
  | newlineInString h =>
      -- The carriage return goes on the items of the literal.
      rcases h.1 with ⟨decoded, hitems⟩
      have hmore : StringItems (_ ++ [CodeUnit.carriageReturn]) _ :=
        hitems.concat_plain (by decide) (by decide) (by decide)
      exact ⟨_, _, Fits.newlineInString (hmore.longestItems StringItems.Stop.newline), rfl, rfl⟩
  | endInString h =>
      rw [Fault.beforeNewline, List.append_nil]
      exact ⟨_, _, Fits.endInString h, rfl, rfl⟩
  | endBehindBackslash h =>
      rw [Fault.beforeNewline, List.append_nil]
      exact ⟨_, _, Fits.endBehindBackslash h, rfl, rfl⟩
  | @unknownEscape body rest v h hv =>
      rcases h.1 with ⟨decoded, hitems⟩
      -- The unit that makes no escape may be another one now, but the items
      -- before it stay.
      rcases Escape.exists_crlf hv rest with ⟨v', rest', heq, hv'⟩
      have hstop : StringItems.Stop (CodeUnit.backslash :: v' :: rest') :=
        StringItems.Stop.unknownEscape hv'
      rw [heq, Fault.beforeNewline, List.append_nil]
      exact ⟨_, _, Fits.unknownEscape (hitems.longestItems hstop) hv', rfl, rfl⟩

end Breakage

/-- An error of a text, and the error of the text with carriage returns
    before the newlines. If the fault is at a newline, the carriage return
    stands between the two places. -/
structure LexError.Crlf (e e' : LexError) : Prop where
  kind : e'.kind = e.kind
  line : e'.location.line = e.location.line
  column : e'.location.column =
    if e.kind = .unexpectedEndOfLine then e.location.column + 1 else e.location.column
  offset : e'.location.offset =
    if e.kind = .unexpectedEndOfLine then e.location.crlf.offset + 1 else e.location.crlf.offset

namespace Breakdown

/-- The error of a breakdown, with carriage returns before the newlines. -/
theorem error_crlf (d : Breakdown) {f : Fault} (hf : f.kind = d.fault.kind) :
    LexError.Crlf d.error
      (f.toError (Location.after ((d.front ++ d.passed).crlf ++ d.fault.beforeNewline))) := by
  have hbefore : d.fault.beforeNewline =
      if d.error.kind = .unexpectedEndOfLine then [CodeUnit.carriageReturn] else [] :=
    d.fault.beforeNewline_eq
  rw [hbefore]
  by_cases hkind : d.error.kind = .unexpectedEndOfLine
  · rw [if_pos hkind, Location.after_append_of_notMem _ (by decide), Location.after_crlf]
    refine ⟨hf, rfl, ?_, ?_⟩
    · rw [if_pos hkind]
      rfl
    · rw [if_pos hkind]
      rfl
  · rw [if_neg hkind, List.append_nil, Location.after_crlf]
    refine ⟨hf, rfl, ?_, ?_⟩
    · rw [if_neg hkind]
      rfl
    · rw [if_neg hkind]
      rfl

/-- A breakdown with carriage returns before the newlines: the same segments
    but for their gaps, and a fault of the same kind in its place. -/
theorem Valid.exists_crlf {d : Breakdown} (h : d.Valid) :
    ∃ d' : Breakdown, d'.Valid ∧ d'.text = d.text.crlf ∧
      d'.segments = d.segments.map Segment.crlf ∧ LexError.Crlf d.error d'.error := by
  -- The parts of the new breakdown are joined to the whole text: first what is
  -- stuck, then the front.
  rcases h.shape.crlf h.head with ⟨rest', f', hshape, hkind, hrest⟩
  have hpassed : d.passed.crlf = d.passed := Text.crlf_of_notMem h.shape.newline_notMem
  have hstuck : d.passed ++ d.fault.beforeNewline ++ rest' = d.stuck.crlf := by
    rw [stuck, Text.crlf_append, hpassed, List.append_assoc, hrest]
  have hfront : join (d.segments.map Segment.crlf) ++ d.gap.crlf = d.front.crlf := by
    rw [front, h.cut.join_crlf, Text.crlf_append]
  refine ⟨⟨d.segments.map Segment.crlf, d.gap.crlf, d.shape, d.passed ++ d.fault.beforeNewline,
    rest', f'⟩, ⟨?_, h.gap.crlf, ?_, hshape⟩, ?_, rfl, ?_⟩
  · have hcut := h.cut.crlf
    rw [Text.crlf_append, ← hstuck] at hcut
    exact hcut
  · change ∀ u, (d.passed ++ d.fault.beforeNewline ++ rest').head? = some u → u.isTrivia = false
    rw [hstuck]
    exact Text.head_crlf_not_isTrivia h.head
  · rw [text, text, Text.crlf_append, ← hstuck, ← hfront]
    rfl
  · have herror := d.error_crlf hkind
    rw [Text.crlf_append, hpassed, ← hfront, List.append_assoc] at herror
    exact herror

end Breakdown

/-- A text and the text with a carriage return before each newline are
    scanned to the same tokens, moved by a unit for each line before them,
    and to an error of one kind in the same place. -/
theorem scan_crlf (s : Text) :
    (scan s.crlf).success = (scan s).success ∧
      (scan s.crlf).tokens = (scan s).tokens.map Token.crlf ∧
      (scan s.crlf).tokens.map (Token.lexeme s.crlf) = (scan s).tokens.map (Token.lexeme s) ∧
      Option.Rel LexError.Crlf (scan s).error (scan s.crlf).error := by
  rcases scan_cases s with ⟨c, rfl, hc, hscan⟩ | ⟨d, rfl, hd, hscan⟩
  · have hscan' := scan_of_completion hc.crlf
    rw [hc.text_crlf, hc.tokens_crlf] at hscan'
    have hlexemes := hc.cut.lexemes_crlf
    rw [hscan, hscan']
    refine ⟨rfl, rfl, ?_, Option.Rel.none⟩
    simp only [Completion.tokens, List.map_append, List.map_singleton]
    rw [Completion.text, hlexemes]
    exact congrArg (fun l => _ ++ [l])
      ((Token.lexeme_endOfFile _ _).trans (Token.lexeme_endOfFile _ _).symm)
  · rcases hd.exists_crlf with ⟨d', hd', htext, hsegments, herror⟩
    have hscan' := scan_of_breakdown hd'
    have hlexemes := hd.cut.lexemes_crlf
    have htokens := hd.cut.tokens_crlf []
    rw [htext, Breakdown.tokens, hsegments] at hscan'
    rw [Text.crlf_nil] at htokens
    rw [hscan, hscan', htokens]
    refine ⟨rfl, rfl, ?_, Option.Rel.some herror⟩
    rw [Breakdown.text_eq]
    exact hlexemes

/-- A literal that is cut by its line is cut one column further on, and what
    stands before it is where it was. -/
example : (scan (text "x\n+ \"a\n\"").crlf).tokens =
      [⟨.identifier, ⟨1, 1, 0⟩, ⟨1, 2, 1⟩, none⟩, ⟨.plus, ⟨2, 1, 3⟩, ⟨2, 2, 4⟩, none⟩] ∧
    (scan (text "x\n+ \"a\n\"")).error.map LexError.location = some ⟨2, 5, 6⟩ ∧
    (scan (text "x\n+ \"a\n\"").crlf).error.map LexError.location = some ⟨2, 6, 8⟩ := by
  decide +kernel

end GlyphLexer
