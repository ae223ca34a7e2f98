import GlyphLexer.Proofs.Listing.Decodability

/-!
# The lines of a listing

How many lines a listing as text has, and what is on them.

Descriptions are joined by newlines, and most of what is in them has no
newline: not the names and numerals of the heading, and not the lexeme, since
no lexeme goes over the end of a line. But the literal is printed as the text
that it stands for, and a string literal may stand for a text with newlines,
which are written as escapes in the source. Every one of them begins a line
of the listing that has no heading, and may look as if it had one.

So a token takes one line, and one more for each newline in its literal
(`Listing.lines_ofToken`). The listing has one line for each token if and
only if no literal has a newline (`lines_listing`).

## Main definitions

* `Listing.descriptionLines`: The lines on which a token is described.

## Theorems

* `Listing.newline_notMem_heading`: The heading is on one line.
* `Listing.lines_ofToken`: The description of a token, line by line.
* `Listing.length_descriptionLines`: The number of these lines.
* `Listing.length_flatMap_descriptionLines`: The number of lines of all
  tokens together.
* `Listing.descriptionLines_of_notMem`,
  `Listing.flatMap_descriptionLines_eq_map_iff`: The tokens that take one
  line each.
* `lines_listing`: The lines of a listing.
* `lines_listing_brokenLiteral`: A literal with a newline.
* `not_forall_lines_listing`: A listing does not always have one line for
  each token.
-/

namespace GlyphLexer

namespace Listing

theorem newline_notMem_heading (t : Token) : CodeUnit.newline ∉ heading t := by
  simp only [heading, List.mem_append, not_or]
  exact ⟨⟨⟨⟨⟨⟨⟨TokenType.newline_notMem_name _, by decide⟩, Text.newline_notMem_ofInt _⟩,
    by decide⟩, Text.newline_notMem_ofInt _⟩, by decide⟩, Text.newline_notMem_ofInt _⟩, by decide⟩

/-- The lines on which a token is described: the first line of the literal
    behind heading and lexeme, and then the other lines of the literal. -/
def descriptionLines (s : Text) (t : Token) : List Text :=
  (Text.lines (t.literal.getD (text "null"))).modifyHead
    fun l => heading t ++ t.lexeme s ++ text " " ++ l

theorem lines_ofToken {s : Text} {t : Token} (h : t.IsScanned s) :
    Text.lines (ofToken s t) = descriptionLines s t := by
  have hfree : CodeUnit.newline ∉ heading t ++ t.lexeme s ++ text " " := by
    simp only [List.mem_append, not_or]
    exact ⟨⟨newline_notMem_heading t, h.newline_notMem_lexeme⟩, by decide⟩
  rw [ofToken_eq, ← List.append_assoc, ← List.append_assoc, Text.lines_append_of_notMem hfree]
  rfl

/-- A token takes one line, and one more for each newline in its literal. -/
theorem length_descriptionLines (s : Text) (t : Token) :
    (descriptionLines s t).length = (t.literal.getD []).count CodeUnit.newline + 1 := by
  rw [descriptionLines, List.length_modifyHead, Text.length_lines]
  cases t.literal with
  | none => rfl
  | some literal => rfl

/-- There is a line for each token that is described, and one for each
    newline in a literal. -/
theorem length_flatMap_descriptionLines (s : Text) (ts : List Token) :
    (ts.flatMap (descriptionLines s)).length =
      ts.length + (ts.flatMap fun t => t.literal.getD []).count CodeUnit.newline := by
  induction ts with
  | nil => rfl
  | cons t ts ih =>
      rw [List.flatMap_cons, List.length_append, ih, length_descriptionLines, List.length_cons,
        List.flatMap_cons, List.count_append]
      omega

/-- A literal without newlines, or none, leaves the description on one
    line. -/
theorem descriptionLines_of_notMem {s : Text} {t : Token}
    (h : CodeUnit.newline ∉ t.literal.getD []) : descriptionLines s t = [ofToken s t] := by
  have hliteral : CodeUnit.newline ∉ t.literal.getD (text "null") := by
    cases hnone : t.literal with
    | none => decide
    | some literal =>
        rw [hnone] at h
        exact h
  rw [descriptionLines, Text.lines_of_notMem hliteral, List.modifyHead_cons, ofToken_eq]
  simp only [List.append_assoc]

/-- There is one line for each token if and only if no literal has a
    newline. -/
theorem flatMap_descriptionLines_eq_map_iff {s : Text} {ts : List Token} :
    ts.flatMap (descriptionLines s) = ts.map (ofToken s) ↔
      ∀ t ∈ ts, CodeUnit.newline ∉ t.literal.getD [] := by
  constructor
  · -- One newline already makes more lines than there are tokens.
    intro h t ht
    have hlength := congrArg List.length h
    rw [length_flatMap_descriptionLines, List.length_map] at hlength
    have hcount : (ts.flatMap fun t => t.literal.getD []).count CodeUnit.newline = 0 := by omega
    rw [List.count_eq_zero] at hcount
    intro hmem
    exact hcount (List.mem_flatMap.2 ⟨t, ht, hmem⟩)
  · intro h
    induction ts with
    | nil => rfl
    | cons t ts ih =>
        rw [List.forall_mem_cons] at h
        rw [List.flatMap_cons, descriptionLines_of_notMem h.1, ih h.2, List.map_cons,
          List.singleton_append]

end Listing

/-- The lines of a listing with at least one token. They are the descriptions
    of the tokens, one behind the other, each with its heading in front. A
    description is on one line unless the literal has newlines, and goes on
    with one more line for each of them. So the lines are the tokens if and
    only if no literal has a newline. -/
theorem lines_listing (source : Source) (showEof : Bool)
    (hshown : Listing.shown showEof (scan source.toText).tokens ≠ []) :
    let shown := Listing.shown showEof (scan source.toText).tokens
    let lines := Text.lines
      (Listing.ofTokens source.toText (scan source.toText).tokens ⟨.text, showEof⟩)
    lines = shown.flatMap (Listing.descriptionLines source.toText) ∧
      lines.length =
        shown.length + (shown.flatMap fun t => t.literal.getD []).count CodeUnit.newline ∧
      (lines = shown.map (Listing.ofToken source.toText) ↔
        ∀ t ∈ shown, CodeUnit.newline ∉ t.literal.getD []) ∧
      ∀ t ∈ shown, Listing.heading t <+: Listing.ofToken source.toText t := by
  intro shown lines
  have hlines : lines = shown.flatMap (Listing.descriptionLines source.toText) := by
    have hne : shown.map (Listing.ofToken source.toText) ≠ [] :=
      fun h => hshown (List.map_eq_nil_iff.1 h)
    refine (Text.lines_unlines_eq_flatMap hne).trans ?_
    rw [List.flatMap_map]
    refine List.flatMap_congr fun t ht => ?_
    exact Listing.lines_ofToken (isScanned_of_mem_scan (Listing.mem_of_mem_shown ht))
  refine ⟨hlines, ?_, ?_, fun t _ => ?_⟩
  · rw [hlines, Listing.length_flatMap_descriptionLines]
  · rw [hlines, Listing.flatMap_descriptionLines_eq_map_iff]
  · rw [Listing.ofToken_eq]
    exact List.prefix_append _ _

/-- A string literal with an escape for a newline, and the end. Two tokens
    are listed on three lines, of which the second is what is left of the
    literal. -/
theorem lines_listing_brokenLiteral :
    (Listing.shown true (scan (Source.ofText (text "\"a\\nb\"")).toText).tokens).length = 2 ∧
      Text.lines (Listing.ofTokens (Source.ofText (text "\"a\\nb\"")).toText
          (scan (Source.ofText (text "\"a\\nb\"")).toText).tokens ⟨.text, true⟩) =
        [text "STRING on line 1 in pos 0-6 \"a\\nb\" a", text "b",
          text "EOF on line 1 in pos 6-6  null"] ∧
      Text.lines (Listing.ofTokens (Source.ofText (text "\"a\\nb\"")).toText
          (scan (Source.ofText (text "\"a\\nb\"")).toText).tokens ⟨.text, true⟩) ≠
        (Listing.shown true (scan (Source.ofText (text "\"a\\nb\"")).toText).tokens).map
          (Listing.ofToken (Source.ofText (text "\"a\\nb\"")).toText) := by
  have htokens : Listing.shown true (scan (Source.ofText (text "\"a\\nb\"")).toText).tokens =
      [⟨.string, ⟨1, 1, 0⟩, ⟨1, 7, 6⟩, some (text "a\nb")⟩,
        ⟨.eof, ⟨1, 7, 6⟩, ⟨1, 7, 6⟩, none⟩] := by
    decide +kernel
  have hshown :
      Listing.shown true (scan (Source.ofText (text "\"a\\nb\"")).toText).tokens ≠ [] := by
    rw [htokens]
    exact List.cons_ne_nil _ _
  rcases lines_listing (.ofText (text "\"a\\nb\"")) true hshown with ⟨hlines, _, hone, _⟩
  refine ⟨by rw [htokens]; rfl, ?_, fun heq => ?_⟩
  · rw [hlines, htokens]
    decide +kernel
  · -- The literal of the first token has a newline.
    have hfree := hone.1 heq
    rw [htokens, List.forall_mem_cons] at hfree
    exact absurd hfree.1 (by decide)

/-- The lines of a listing are not the tokens whenever a scan succeeds and a
    token is shown. -/
theorem not_forall_lines_listing :
    ¬ ∀ (source : Source) (showEof : Bool), (scan source.toText).success = true →
      Listing.shown showEof (scan source.toText).tokens ≠ [] →
        let shown := Listing.shown showEof (scan source.toText).tokens
        let lines := Text.lines
          (Listing.ofTokens source.toText (scan source.toText).tokens ⟨.text, showEof⟩)
        lines.length = shown.length ∧ lines = shown.map (Listing.ofToken source.toText) ∧
          ∀ t ∈ shown, Listing.heading t <+: Listing.ofToken source.toText t := by
  intro hall
  have hsuccess : (scan (Source.ofText (text "\"a\\nb\"")).toText).success = true := by
    decide +kernel
  have hshown :
      (Listing.shown true (scan (Source.ofText (text "\"a\\nb\"")).toText).tokens).length = 2 := by
    decide +kernel
  have hlines : (Text.lines (Listing.ofTokens (Source.ofText (text "\"a\\nb\"")).toText
      (scan (Source.ofText (text "\"a\\nb\"")).toText).tokens ⟨.text, true⟩)).length = 3 := by
    decide +kernel
  have hne : Listing.shown true (scan (Source.ofText (text "\"a\\nb\"")).toText).tokens ≠ [] := by
    intro hnil
    rw [hnil] at hshown
    cases hshown
  -- There are three lines for the two tokens.
  have hlength := (hall (.ofText (text "\"a\\nb\"")) true hsuccess hne).1
  rw [hlines, hshown] at hlength
  exact absurd hlength (by decide)

end GlyphLexer
