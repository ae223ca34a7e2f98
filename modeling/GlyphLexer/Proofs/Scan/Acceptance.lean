import GlyphLexer.Proofs.Scan.Cut

/-!
# What is scanned and what is not

The exact answers to two questions about a text: whether it is a sequence of
tokens and of which ones, and if it is not, where it stops being one and why.

A text is scanned if it has a completion, that is, a cut into longest lexemes
with trivia between them and behind the last. It has one completion at most,
and the tokens of the scan are those of the completion (`scan_success_iff`).

It is not scanned if it has a breakdown: longest lexemes and trivia up to a
place from where the text has one of six shapes. Then there is one breakdown
only, so the number of tokens, the place and the shape are all determined,
and the error is the fault of that shape (`scan_failure_iff`). The first
thing wrong in reading order is what is reported, because a breakdown has
nothing wrong before it.

## Theorems

* `Completion.Valid.unique`: A text is completed in one way.
* `scan_success_iff`: A text is scanned to the tokens of its completion.
* `scan_failure_iff`: A scan fails where the text breaks down.
* `scan_failure_secondPoint`: The breakdown of a text with two points in a
  number.
-/

namespace GlyphLexer

open Segment (join join_nil join_cons)

theorem Completion.Valid.unique {c c' : Completion} (h : c.Valid) (h' : c'.Valid)
    (heq : c.text = c'.text) : c = c' := by
  rcases h.cut.unique h'.cut h.endsCut h'.endsCut heq with ⟨hsegments, hlast⟩
  cases c
  cases c'
  simp_all

/-- A scan succeeds, with the given tokens, if and only if the text is cut to
    its end into longest lexemes with trivia between them, in one way, and
    the tokens are those of the cut. -/
theorem scan_success_iff (s : Text) (ts : List Token) :
    (scan s).success = true ∧ (scan s).tokens = ts ↔
      ∃! c : Completion, c.text = s ∧ c.Valid ∧ ts = c.tokens := by
  constructor
  · rintro ⟨hsuccess, htokens⟩
    rcases scan_cases s with ⟨c, hc, hvalid, hscan⟩ | ⟨d, _, _, hscan⟩
    · rw [hscan] at htokens
      refine ⟨c, ⟨hc, hvalid, htokens.symm⟩, ?_⟩
      rintro c' ⟨hc', hvalid', _⟩
      exact hvalid'.unique hvalid (hc'.trans hc.symm)
    · rw [hscan] at hsuccess
      exact absurd hsuccess (by simp [Scan.success])
  · rintro ⟨c, ⟨hc, hvalid, htokens⟩, _⟩
    rw [← hc, scan_of_completion hvalid, htokens]
    exact ⟨rfl, rfl⟩

/-- A scan fails if and only if the text breaks down. The breakdown is then
    the only one, and shows the tokens found, the fault and its place. -/
theorem scan_failure_iff (s : Text) :
    ((scan s).success = false ↔ ∃ d : Breakdown, d.text = s ∧ d.Valid) ∧
      ∀ d : Breakdown, d.text = s ∧ d.Valid →
        (∀ d' : Breakdown, d'.text = s ∧ d'.Valid → d' = d) ∧
          ∃ e, scan s = ⟨d.tokens, some e⟩ ∧ e = d.error ∧ e.kind = d.fault.kind ∧
            e.location.offset = d.front.length + d.passed.length := by
  refine ⟨⟨fun hfail => ?_, ?_⟩, ?_⟩
  · rcases scan_cases s with ⟨c, _, _, hscan⟩ | ⟨d, hd, hvalid, _⟩
    · -- A completed text has no error.
      rw [hscan] at hfail
      exact absurd hfail (by simp [Scan.success])
    · exact ⟨d, hd, hvalid⟩
  · rintro ⟨d, hd, hvalid⟩
    rw [← hd, scan_of_breakdown hvalid]
    rfl
  · rintro d ⟨hd, hvalid⟩
    refine ⟨?_, d.error, ?_, rfl, rfl, ?_⟩
    · rintro d' ⟨hd', hvalid'⟩
      exact hvalid'.unique hvalid (hd'.trans hd.symm)
    · rw [← hd, scan_of_breakdown hvalid]
    · simp [Breakdown.error, Fault.toError, LexError.ofKind]

/-- A name, a blank, and a number with a second point, which is what is
    reported. -/
theorem scan_failure_secondPoint :
    ∃ d : Breakdown, d.text = text "x 1.2.3" ∧ d.Valid ∧ ∃ e,
      scan (text "x 1.2.3") = ⟨d.tokens, some e⟩ ∧ e.kind = .unexpectedSymbol ∧
        e.location.offset = 5 := by
  have hname : Lexeme (text "x") .identifier none := Lexeme.identifier (by decide) (by simp)
  -- A blank goes on no name.
  have hlong : LongestLexeme (text "x") (text " 1.2.3") := by
    refine longestLexeme_iff.2 ⟨⟨_, _, hname⟩, fun u hu hlonger => ?_⟩
    have hspace : CodeUnit.space = u := Option.some.inj hu
    rw [← hspace] at hlonger
    exact absurd (IsLexeme.next_of_identifier (by decide) hlonger) (by decide)
  have hnumber : Lexeme (text "1.2") .float none :=
    @Lexeme.float (text "1") (text "2") ⟨by decide, List.all_eq_true.1 (by decide)⟩
      (List.all_eq_true.1 (by decide))
  have hvalid : (⟨[⟨[], text "x", .identifier, none⟩], text " ", .secondPoint, text "1.2",
      text ".3", .symbolBehindNumber CodeUnit.dot⟩ : Breakdown).Valid := by
    refine ⟨⟨⟨?_, hname, hlong, fun u _ => ⟨by simp, by simp⟩⟩, trivial⟩, ?_, ?_, ?_⟩
    · exact fun u hu => absurd hu List.not_mem_nil
    · exact List.all_eq_true.1 (by decide)
    · rintro u ⟨⟩
      decide
    · exact Breakage.Fits.secondPoint hnumber
  rcases (scan_failure_iff (text "x 1.2.3")).2 _ ⟨rfl, hvalid⟩ with ⟨_, e, hscan, _, hkind, hplace⟩
  exact ⟨_, rfl, hvalid, e, hscan, hkind, hplace⟩

end GlyphLexer
