import GlyphLexer.Proofs.Scan.Spacing

/-!
# String literals written and read

What a string literal stands for, and the literals that stand for a text.

A text can be written as a literal in many ways: most units may stand for
themselves, and some of them may also be written as an escape. `IsLiteral` is
all of these ways at once. Which one was chosen makes no difference to a
scan, and neither does what follows a literal. Its closing mark is the first
one that is not part of an escape, and no lexeme goes on behind it
(`IsLiteral.longest`), so that literals may stand side by side, also where
one of them ends in an escaped mark or backslash.

The three parts of `scan_literals` say that writing is undone by reading,
that reading gives nothing which was not written, and that every text can be
written.

## Main definitions

* `IsLiteral`: A string literal for a text.
* `Segment.ofLiteral`: A literal as a segment.

## Theorems

* `StringItems.exists_items`: Every text has items that stand for it.
* `IsLiteral.longest`: A literal is the longest lexeme before anything.
* `Lexeme.isLiteral`: A string lexeme is a literal for what it stands for.
* `isCut_of_forall_fits`: Segments that fit everywhere are a cut.
* `scan_weave_literals`: Literals between trivia are scanned to what they
  stand for.
* `isLiteral_of_mem_tokens`: The string tokens of a cut are literals.
* `scan_literals`: Writing and reading are inverse to each other.
* `scan_literals_adjacent`: Three literals side by side that end in escapes.
-/

namespace GlyphLexer

open Segment (join)

/-- A string literal for the text `t`: its units one by one, each as it is or
    as an escape, between quotation marks. -/
def IsLiteral (e t : Text) : Prop :=
  ∃ body, e = CodeUnit.quote :: (body ++ [CodeUnit.quote]) ∧ StringItems body t

/-- Every text has items that stand for it: an escape for what may not stand
    as it is. -/
theorem StringItems.exists_items (t : Text) : ∃ body, StringItems body t := by
  induction t with
  | nil => exact ⟨[], StringItems.nil⟩
  | cons u t ih =>
      rcases ih with ⟨body, hbody⟩
      by_cases hquote : u = CodeUnit.quote
      · rw [hquote]
        exact ⟨_, StringItems.escape (v := CodeUnit.quote) (by decide) hbody⟩
      by_cases hbackslash : u = CodeUnit.backslash
      · rw [hbackslash]
        exact ⟨_, StringItems.escape (v := CodeUnit.backslash) (by decide) hbody⟩
      by_cases hnewline : u = CodeUnit.newline
      · rw [hnewline]
        exact ⟨_, StringItems.escape (v := CodeUnit.ofChar 'n') (by decide) hbody⟩
      · exact ⟨_, StringItems.plain hquote hbackslash hnewline hbody⟩

namespace IsLiteral

theorem lexeme {e t : Text} (h : IsLiteral e t) : Lexeme e .string (some t) := by
  rcases h with ⟨body, rfl, hbody⟩
  exact Lexeme.string hbody

/-- Whatever follows a literal, no lexeme goes on behind its closing mark. -/
theorem longest {e t : Text} (h : IsLiteral e t) (tail : Text) : LongestLexeme e tail := by
  -- It is enough to look at the lexeme with one more unit.
  refine longestLexeme_iff.2 ⟨⟨_, _, h.lexeme⟩, fun u _ hlonger => ?_⟩
  rcases h with ⟨body, rfl, hbody⟩
  exact IsLexeme.not_string_append hbody hlonger

end IsLiteral

/-- A string lexeme is a literal for what it stands for. -/
theorem Lexeme.isLiteral {l : Text} {literal : Option Text} (h : Lexeme l .string literal) :
    ∃ t, literal = some t ∧ IsLiteral l t := by
  cases h with
  | string h => exact ⟨_, rfl, _, rfl, h⟩
  | operator h => exact absurd rfl (Operator.type_of_mem _ h).2.2.2.1

/-- A literal as a segment. -/
def Segment.ofLiteral (gap e t : Text) : Segment := ⟨gap, e, .string, some t⟩

theorem IsLiteral.fits {e t gap : Text} (h : IsLiteral e t) (hgap : IsTrivia gap) (tail : Text) :
    (Segment.ofLiteral gap e t).Fits tail :=
  ⟨hgap, h.lexeme, h.longest tail,
    fun _ _ => ⟨by simp [Segment.ofLiteral], by simp [Segment.ofLiteral]⟩⟩

theorem isCut_of_forall_fits {gs : List Segment} (h : ∀ g ∈ gs, ∀ tail, g.Fits tail)
    (rest : Text) : IsCut gs rest := by
  induction gs with
  | nil => exact trivial
  | cons g gs ih =>
      exact ⟨h g List.mem_cons_self _, ih fun g' hg' => h g' (List.mem_cons_of_mem g hg')⟩

/-- Literals with trivia before, between and behind them are scanned to what
    they stand for. -/
theorem scan_weave_literals {ts es ws : List Text} (hes : List.Forall₂ IsLiteral es ts)
    (hlength : ws.length = es.length + 1) (hws : ∀ w ∈ ws, IsTrivia w) :
    ∃ body, scan (weave ws es) =
        ⟨body ++ [Token.endOfFile (Location.after (weave ws es))], none⟩ ∧
      body.map (Token.content (weave ws es)) =
        (es.zip ts).map fun p => (TokenType.string, p.1, some p.2) := by
  rcases List.forall₂_iff_zip.1 hes with ⟨hsame, hpairs⟩
  rcases List.eq_nil_or_concat' ws with rfl | ⟨inner, last, rfl⟩
  · simp at hlength
  · -- The literals as segments, first without gaps, then with the gaps that are given.
    let literals := (es.zip ts).map fun p => Segment.ofLiteral [] p.1 p.2
    have hliterals : literals.map Segment.lexeme = es := by
      rw [List.map_map]
      exact List.map_fst_zip hsame.le
    have hinner : inner.length = literals.length := by
      rw [← hliterals, List.length_map] at hlength
      simpa using hlength
    have hfits : ∀ g ∈ Segment.respace inner literals, ∀ tail, g.Fits tail := by
      intro g hg tail
      rcases List.mem_map.1 hg with ⟨⟨w, literal⟩, hpair, rfl⟩
      rcases List.of_mem_zip hpair with ⟨hw, hliteral⟩
      rcases List.mem_map.1 hliteral with ⟨⟨e, t⟩, het, rfl⟩
      exact (hpairs het).fits (hws w (List.mem_append_left _ hw)) tail
    have hvalid : (⟨Segment.respace inner literals, last⟩ : Completion).Valid :=
      ⟨isCut_of_forall_fits hfits last, hws last (by simp)⟩
    have htext : (⟨Segment.respace inner literals, last⟩ : Completion).text =
        weave (inner ++ [last]) es := by
      rw [← hliterals, Segment.weave_respace hinner]
      rfl
    have hscan := scan_of_completion hvalid
    have hcontents := hvalid.gaps_contents.2.2
    rw [hvalid.body_scan, Segment.contents_respace hinner, List.map_map] at hcontents
    rw [Completion.tokens, htext] at hscan
    rw [htext] at hcontents
    exact ⟨_, hscan, hcontents⟩

/-- A string token of a cut covers a literal for what it stands for. -/
theorem isLiteral_of_mem_tokens {gs : List Segment} {rest : Text} {t : Token} (h : IsCut gs rest)
    (ht : t ∈ Segment.tokens [] gs) (htype : t.type = .string) :
    ∃ decoded, t.literal = some decoded ∧ IsLiteral (t.lexeme (join gs ++ rest)) decoded := by
  rcases exists_of_mem_tokens h ht with ⟨g, front, tail, hg, rfl, _, heq⟩
  -- The lexeme of the token is that of its segment, wherever the segment
  -- stands.
  have hlexeme : (g.token front).lexeme (join gs ++ rest) = g.lexeme := by
    rw [← Segment.lexeme_token front tail g, ← heq]
    rfl
  have hstring := hg.lexeme
  have hg' : g.type = .string := htype
  rw [hg'] at hstring
  rw [hlexeme]
  exact hstring.isLiteral

/-- Literals are scanned to what they stand for, with any trivia or none
    around them; the string tokens of a scan cover literals for what they
    stand for; and every text has a literal, which is scanned to it. -/
theorem scan_literals :
    (∀ ts es ws : List Text, List.Forall₂ IsLiteral es ts → ws.length = es.length + 1 →
      (∀ w ∈ ws, IsTrivia w) →
      ∃ body, scan (weave ws es) =
          ⟨body ++ [Token.endOfFile (Location.after (weave ws es))], none⟩ ∧
        body.map (Token.content (weave ws es)) =
          (es.zip ts).map fun p => (TokenType.string, p.1, some p.2)) ∧
    (∀ (s : Text) (t : Token), t ∈ (scan s).tokens → t.type = .string →
      ∃ decoded, t.literal = some decoded ∧ IsLiteral (t.lexeme s) decoded) ∧
    ∀ t : Text, ∃ e, IsLiteral e t ∧
      ∃ token, scan e = ⟨[token, Token.endOfFile (Location.after e)], none⟩ ∧
        token.content e = (.string, e, some t) := by
  refine ⟨fun ts es ws hes hlength hws => scan_weave_literals hes hlength hws, ?_, ?_⟩
  · intro s t ht htype
    rcases scan_cases s with ⟨c, rfl, hc, hscan⟩ | ⟨d, rfl, hd, hscan⟩
    · rw [hscan] at ht
      rcases List.mem_append.1 ht with ht | ht
      · exact isLiteral_of_mem_tokens hc.cut ht htype
      · -- The token for the end is no string.
        rw [List.mem_singleton.1 ht] at htype
        cases htype
    · rw [hscan] at ht
      rw [Breakdown.text_eq]
      exact isLiteral_of_mem_tokens hd.cut ht htype
  · intro t
    rcases StringItems.exists_items t with ⟨body, hbody⟩
    have he : IsLiteral (CodeUnit.quote :: (body ++ [CodeUnit.quote])) t := ⟨body, rfl, hbody⟩
    have hgap : IsTrivia [] := fun u hu => absurd hu List.not_mem_nil
    exact ⟨_, he, (he.fits hgap []).scan_lexeme⟩

/-- Literals for a backslash, for a quotation mark, and for a line break and
    a letter written in two ways, side by side: neither mark that is escaped
    closes its literal. -/
theorem scan_literals_adjacent :
    ∃ body, scan (text "\"\\\\\"\"\\\"\" \"\\na\\a\"") =
        ⟨body ++ [Token.endOfFile ⟨1, 17, 16⟩], none⟩ ∧
      body.map (Token.content (text "\"\\\\\"\"\\\"\" \"\\na\\a\"")) =
        [(.string, text "\"\\\\\"", some (text "\\")), (.string, text "\"\\\"\"", some (text "\"")),
          (.string, text "\"\\na\\a\"", some (text "\na\x07"))] := by
  have hbackslash : IsLiteral (text "\"\\\\\"") (text "\\") :=
    ⟨text "\\\\", rfl, StringItems.escape (by decide) StringItems.nil⟩
  have hquote : IsLiteral (text "\"\\\"\"") (text "\"") :=
    ⟨text "\\\"", rfl, StringItems.escape (by decide) StringItems.nil⟩
  have hletters : IsLiteral (text "\"\\na\\a\"") (text "\na\x07") := by
    refine ⟨text "\\na\\a", rfl, StringItems.escape (by decide) ?_⟩
    refine StringItems.plain (by decide) (by decide) (by decide) ?_
    exact StringItems.escape (by decide) StringItems.nil
  have hes := List.Forall₂.cons hbackslash
    (List.Forall₂.cons hquote (List.Forall₂.cons hletters List.Forall₂.nil))
  have hws : ∀ w ∈ [[], [], text " ", []], IsTrivia w := by
    have htrivia : [[], [], text " ", []].all (fun w => w.all CodeUnit.isTrivia) = true := by decide
    exact fun w hw => List.all_eq_true.1 (List.all_eq_true.1 htrivia w hw)
  exact scan_literals.1 _ _ [[], [], text " ", []] hes rfl hws

end GlyphLexer
