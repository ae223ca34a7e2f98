import GlyphLexer.Proofs.Scan.Lossless

/-!
# White space carries nothing

The tokens of a text do not depend on the white space and line breaks between
them.

White space has one thing to do, and that is to keep apart what would be read
as one. Lexemes that stood side by side in a text that was scanned have no
need of it: where the first of them ends was decided by the first unit of the
second, and that is the same in any spacing that leaves them side by side.
Lexemes with white space between them stay what they are because no lexeme
goes on with it. So the gaps of a text may be replaced by any others, as long
as none that kept two lexemes apart is closed (`IsCut.respace`).

What a token says, apart from its place, is its `Token.content`. It is the
content of its segment (`Segment.contents_tokens`), in which the gap has no
part.

## Main definitions

* `Token.content`, `Segment.content`: Kind, lexeme and literal.
* `Respaces`: Gaps that may take the place of others.
* `Segment.respace`: Segments with other gaps.

## Theorems

* `Segment.Fits.respaced`: A lexeme is right whatever gap is in front of it.
* `Segment.contents_tokens`: The tokens of segments have their contents.
* `IsCut.respace`: A cut with other gaps is right.
* `scan_respace`: Other white space gives the same contents, and a lexeme
  alone gives its own.
* `scan_respace_comparison`: A comparison on another line.
-/

namespace GlyphLexer

open Segment (join join_nil join_cons)

/-- What a token says apart from its place: kind, lexeme and literal. -/
def Token.content (s : Text) (t : Token) : TokenType × Text × Option Text :=
  (t.type, t.lexeme s, t.literal)

/-- The gaps `ws` may take the place of the gaps `old`: they are trivia, and
    between two lexemes there is none left only where there was none. -/
structure Respaces (ws old : List Text) : Prop where
  length : ws.length = old.length
  trivia : ∀ w ∈ ws, IsTrivia w
  apart : ∀ i, 0 < i → i + 1 < old.length → ws[i]? = some [] → old[i]? = some []

namespace Segment

/-- What a segment says apart from its gap. -/
def content (g : Segment) : TokenType × Text × Option Text := (g.type, g.lexeme, g.literal)

/-- Segments with other gaps in front of their lexemes. -/
def respace (ws : List Text) (gs : List Segment) : List Segment :=
  (ws.zip gs).map fun p => { p.2 with gap := p.1 }

theorem Fits.respaced {g : Segment} {tail w : Text} (h : g.Fits tail) (hw : IsTrivia w) :
    ({ g with gap := w } : Segment).Fits tail :=
  ⟨hw, h.lexeme, h.longest, h.detached⟩

theorem contents_tokens (gs : List Segment) (before rest : Text) :
    (tokens before gs).map (Token.content (before ++ (join gs ++ rest))) = gs.map content := by
  induction gs generalizing before with
  | nil => rfl
  | cons g gs ih =>
      have hrest := ih (before ++ g.text)
      have hlexeme := lexeme_token before (join gs ++ rest) g
      simp only [text, List.append_assoc] at hrest
      simp only [tokens, List.map_cons, join_cons, List.append_assoc, text, hrest, Token.content,
        hlexeme]
      rfl

theorem gaps_respace {ws : List Text} {gs : List Segment} (h : ws.length = gs.length) :
    (respace ws gs).map gap = ws := by
  rw [respace, List.map_map]
  exact List.map_fst_zip (by omega)

theorem contents_respace {ws : List Text} {gs : List Segment} (h : ws.length = gs.length) :
    (respace ws gs).map content = gs.map content := by
  have hsnd : (ws.zip gs).map Prod.snd = gs := List.map_snd_zip (by omega)
  rw [respace, List.map_map]
  conv => rhs; rw [← hsnd, List.map_map]
  rfl

/-- Gaps woven with the lexemes of segments are the text of the segments with
    these gaps. -/
theorem weave_respace {ws : List Text} {gs : List Segment} (h : ws.length = gs.length)
    (last : Text) : weave (ws ++ [last]) (gs.map lexeme) = join (respace ws gs) ++ last := by
  have hlexemes : (respace ws gs).map lexeme = gs.map lexeme := by
    have hcontents := congrArg (List.map fun c => c.2.1) (contents_respace h)
    rwa [List.map_map, List.map_map] at hcontents
  rw [← weave_map, gaps_respace h, hlexemes]

end Segment

/-- What a cut with other gaps begins with is what it began with, or
    trivia. -/
theorem IsCut.head_respace {gs : List Segment} {rest last : Text} {ws : List Text} {u : CodeUnit}
    (h : IsCut gs rest) (hlength : ws.length = gs.length) (hws : ∀ w ∈ ws, IsTrivia w)
    (hlast : IsTrivia last) (hfirst : ws[0]? = some [] → (gs.map Segment.gap)[0]? = some [])
    (hu : (join (Segment.respace ws gs) ++ last).head? = some u) :
    (join gs ++ rest).head? = some u ∨ u.isTrivia = true := by
  cases gs with
  | nil =>
      rw [Segment.respace, List.zip_nil_right] at hu
      exact Or.inr (hlast u (List.mem_of_head? hu))
  | cons g gs =>
      cases ws with
      | nil => cases hlength
      | cons w ws =>
          change (join ({ g with gap := w } :: Segment.respace ws gs) ++ last).head? = some u at hu
          rw [join_cons, List.append_assoc] at hu ⊢
          cases w with
          | cons v w =>
              have hv : v = u := Option.some.inj hu
              rw [← hv]
              exact Or.inr (hws (v :: w) List.mem_cons_self v List.mem_cons_self)
          | nil =>
              -- The gap was empty before, so both begin with the lexeme.
              have hgap : g.gap = [] := Option.some.inj (hfirst rfl)
              rw [List.nil_append, List.append_assoc,
                List.head?_append_of_ne_nil _ h.1.lexeme.ne_nil] at hu
              rw [hgap, List.nil_append, List.append_assoc,
                List.head?_append_of_ne_nil _ h.1.lexeme.ne_nil]
              exact Or.inl hu

/-- A cut is right with other gaps that close none between two lexemes. -/
theorem IsCut.respace {gs : List Segment} {rest last : Text} {ws : List Text} (h : IsCut gs rest)
    (hlength : ws.length = gs.length) (hws : ∀ w ∈ ws, IsTrivia w) (hlast : IsTrivia last)
    (hapart : ∀ i, 0 < i → i < gs.length → ws[i]? = some [] → (gs.map Segment.gap)[i]? = some []) :
    IsCut (Segment.respace ws gs) last := by
  induction gs generalizing ws with
  | nil => rw [Segment.respace, List.zip_nil_right]; exact trivial
  | cons g gs ih =>
      cases ws with
      | nil => cases hlength
      | cons w ws =>
          have hlength' : ws.length = gs.length := Nat.succ.inj hlength
          have hws' : ∀ v ∈ ws, IsTrivia v := fun v hv => hws v (List.mem_cons_of_mem _ hv)
          -- A gap behind `g` has a number greater by one in the whole list.
          have hapart' : ∀ i, i < gs.length → ws[i]? = some [] →
              (gs.map Segment.gap)[i]? = some [] := by
            intro i hi hnil
            exact hapart (i + 1) (Nat.succ_pos i) (Nat.succ_lt_succ hi) hnil
          refine ⟨(h.1.respaced (hws w List.mem_cons_self)).of_head fun u hu => ?_,
            ih h.2 hlength' hws' fun i _ => hapart' i⟩
          refine h.2.head_respace hlength' hws' hlast (fun hnil => hapart' 0 ?_ hnil) hu
          rw [← hlength']
          exact (List.getElem?_eq_some_iff.1 hnil).1

/-- The gaps of a text that is scanned to its end, and the contents of its
    tokens. -/
theorem Completion.Valid.gaps_contents {c : Completion} (h : c.Valid) :
    gaps c.text c.text.length 0 (scan c.text).body = c.segments.map Segment.gap ++ [c.last] ∧
      (scan c.text).body.map (Token.lexeme c.text) = c.segments.map Segment.lexeme ∧
      (scan c.text).body.map (Token.content c.text) = c.segments.map Segment.content := by
  have hgaps := Segment.gaps_tokens c.segments [] c.last []
  have hlexemes := Segment.lexemes_tokens c.segments [] c.last
  have hcontents := Segment.contents_tokens c.segments [] c.last
  simp only [List.nil_append, List.append_nil, List.length_nil, Int.ofNat_zero] at hgaps
  rw [h.body_scan]
  exact ⟨hgaps, hlexemes, hcontents⟩

/-- The completion of the same lexemes with other gaps. -/
theorem Completion.Valid.respace {c : Completion} (h : c.Valid) {ws : List Text} {last : Text}
    (hws : Respaces (ws ++ [last]) (c.segments.map Segment.gap ++ [c.last])) :
    (⟨Segment.respace ws c.segments, last⟩ : Completion).Valid := by
  have hlength : ws.length = c.segments.length := by simpa using hws.length
  have hlast : IsTrivia last := hws.trivia last (by simp)
  refine ⟨h.cut.respace hlength (fun w hw => hws.trivia w (by simp [hw])) hlast ?_, hlast⟩
  intro i hpos hi hnil
  have hold := hws.apart i hpos (by simpa using hi)
  rw [List.getElem?_append_left (by omega), List.getElem?_append_left (by simpa using hi)] at hold
  exact hold hnil

/-- Other gaps are scanned to the same contents. -/
theorem Completion.Valid.scan_weave {c : Completion} (h : c.Valid) {ws : List Text}
    (hws : Respaces ws (c.segments.map Segment.gap ++ [c.last])) :
    let respaced := weave ws (c.segments.map Segment.lexeme)
    (scan respaced).success = true ∧
      (scan respaced).body.map (Token.content respaced) = c.segments.map Segment.content := by
  rcases List.eq_nil_or_concat' ws with hnil | ⟨inner, last, hconcat⟩
  · -- There is a gap at least, the one behind the last lexeme.
    have hlength := hws.length
    rw [hnil] at hlength
    simp at hlength
  · rw [hconcat] at hws ⊢
    have hlength : inner.length = c.segments.length := by simpa using hws.length
    have hvalid := h.respace hws
    have hcontents := hvalid.gaps_contents.2.2
    rw [Segment.contents_respace hlength] at hcontents
    simp only [Segment.weave_respace hlength]
    have hscan := scan_of_completion hvalid
    rw [Completion.text] at hscan
    refine ⟨?_, hcontents⟩
    rw [hscan]
    rfl

/-- A lexeme of a text is scanned alone as the one token that it is in the
    text. -/
theorem Segment.Fits.scan_lexeme {g : Segment} {tail : Text} (h : g.Fits tail) :
    ∃ t, scan g.lexeme = ⟨[t, Token.endOfFile (Location.after g.lexeme)], none⟩ ∧
      t.content g.lexeme = g.content := by
  have hfits : ({ g with gap := [] } : Segment).Fits [] :=
    (h.respaced fun u hu => absurd hu List.not_mem_nil).of_head fun u hu => by simp at hu
  have hvalid : (⟨[{ g with gap := [] }], []⟩ : Completion).Valid :=
    ⟨⟨hfits, trivial⟩, fun u hu => absurd hu List.not_mem_nil⟩
  have hscan := scan_of_completion hvalid
  have hcontent := hvalid.gaps_contents.2.2
  rw [hvalid.body_scan] at hcontent
  simp only [Completion.text, Completion.tokens, join_cons, join_nil, List.nil_append,
    List.append_nil] at hscan hcontent
  exact ⟨_, hscan, List.singleton_inj.1 hcontent⟩

/-- A text that is scanned to its end is scanned to tokens of the same
    contents with any other white space between its lexemes, if none that
    kept two of them apart is left out. Each lexeme alone is scanned to one
    token of its content. -/
theorem scan_respace {s : Text} (hs : (scan s).success = true) :
    (∀ ws : List Text, Respaces ws (gaps s s.length 0 (scan s).body) →
      let respaced := weave ws ((scan s).body.map (Token.lexeme s))
      (scan respaced).success = true ∧
        (scan respaced).body.map (Token.content respaced) =
          (scan s).body.map (Token.content s)) ∧
    ∀ t ∈ (scan s).body, ∃ t',
      scan (t.lexeme s) = ⟨[t', Token.endOfFile (Location.after (t.lexeme s))], none⟩ ∧
        t'.content (t.lexeme s) = t.content s := by
  rcases scan_cases s with ⟨c, rfl, hc, hscan⟩ | ⟨d, _, _, hscan⟩
  · rcases hc.gaps_contents with ⟨hgaps, hlexemes, hcontents⟩
    refine ⟨fun ws hws => ?_, fun t ht => ?_⟩
    · rw [hgaps] at hws
      rw [hlexemes, hcontents]
      exact hc.scan_weave hws
    · rw [hc.body_scan] at ht
      rcases exists_of_mem_tokens hc.cut ht with ⟨g, front, tail, hg, rfl, _, heq⟩
      have hlexeme : (g.token front).lexeme c.text = g.lexeme := by
        rw [← Segment.lexeme_token front tail g, ← heq]
        rfl
      rcases hg.scan_lexeme with ⟨t', halone, hcontent⟩
      rw [Token.content, hlexeme]
      exact ⟨t', halone, hcontent⟩
  · rw [hscan] at hs
    exact absurd hs (by simp [Scan.success])

/-- A comparison and a number put on another line, with the operator moved
    away from one of its neighbours only, and the operator alone. -/
theorem scan_respace_comparison :
    (scan (text "\na <=b\t1.5 ;")).success = true ∧
      (scan (text "\na <=b\t1.5 ;")).body.map (Token.content (text "\na <=b\t1.5 ;")) =
        (scan (text "a<=b 1.5;")).body.map (Token.content (text "a<=b 1.5;")) ∧
      ∃ t', scan (text "<=") = ⟨[t', Token.endOfFile ⟨1, 3, 2⟩], none⟩ ∧
        t'.content (text "<=") = (.le, text "<=", none) := by
  have hs : (scan (text "a<=b 1.5;")).success = true := by decide +kernel
  rcases scan_respace hs with ⟨hrespaced, halone⟩
  have hws : Respaces [text "\n", text " ", [], text "\t", text " ", []]
      (gaps (text "a<=b 1.5;") (text "a<=b 1.5;").length 0 (scan (text "a<=b 1.5;")).body) := by
    have hgaps : gaps (text "a<=b 1.5;") (text "a<=b 1.5;").length 0
        (scan (text "a<=b 1.5;")).body = [[], [], [], text " ", [], []] := by decide +kernel
    have htrivia : [text "\n", text " ", [], text "\t", text " ", []].all
        (fun w => w.all CodeUnit.isTrivia) = true := by decide
    have hapart : ∀ i < 6, [text "\n", text " ", [], text "\t", text " ", []][i]? = some [] →
        0 < i → [[], [], [], text " ", [], []][i]? = some [] := by decide
    rw [hgaps]
    refine ⟨rfl, fun w hw => ?_, fun i hpos hi hnil => ?_⟩
    · exact List.all_eq_true.1 (List.all_eq_true.1 htrivia w hw)
    · exact hapart i (Nat.lt_of_succ_lt hi) hnil hpos
  have hweave : weave [text "\n", text " ", [], text "\t", text " ", []]
      ((scan (text "a<=b 1.5;")).body.map (Token.lexeme (text "a<=b 1.5;"))) =
        text "\na <=b\t1.5 ;" := by decide +kernel
  have hmember : (⟨.le, ⟨1, 2, 1⟩, ⟨1, 4, 3⟩, none⟩ : Token) ∈ (scan (text "a<=b 1.5;")).body := by
    decide +kernel
  have h := hrespaced _ hws
  rw [hweave] at h
  exact ⟨h.1, h.2, halone _ hmember⟩

end GlyphLexer
