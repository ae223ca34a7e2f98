import GlyphLexer.Listing
import GlyphLexer.Proofs.Numerals
import GlyphLexer.Proofs.Scan.LineEnds
import GlyphLexer.Proofs.Scan.Literals
import GlyphLexer.Source

/-!
# What a listing as text tells

The listing of a scan as text says everything it lists, although nothing in
it is escaped.

Lexemes and literals are printed as they are. They may hold blanks and
quotation marks, and a literal may hold a newline and behind it what looks
like the line of another token. So no unit of the listing shows where a token
ends, and it cannot be cut into its tokens by looking for one. It can be read
from the left. What is in front of a lexeme has a fixed form, in which names
have no blanks and numerals end where their digits do (`heading_append_inj`).
From there the two offsets tell how long the lexeme is. The literal has no
length that is printed, but it is known before it is read, since it is what
the lexeme stands for (`Token.IsScanned.literal_eq`). With it the token is
passed, and the next one begins behind a newline.

Only tokens of scans have such literals and such lexemes. Of tokens that are
made by hand two lists may look the same.

## Main definitions

* `Token.IsScanned`: A token as a scan of the source gives it.
* `Listing.heading`: What is printed in front of the lexeme of a token.
* `Listing.Agree`: Two tokens that are the same in all that is printed.

## Theorems

* `TokenType.name_inj`, `TokenType.isNameStart_of_mem_name`: Types have names
  of their own, without blanks.
* `StringItems.decoded_unique`, `Lexeme.literal_unique`: What a lexeme stands
  for.
* `isScanned_of_mem_scan`: The tokens of a scan are scanned.
* `Listing.heading_append_inj`: The heading that a text begins with.
* `Listing.ofToken_append_inj`: The token that a text begins with.
* `Listing.forall₂_agree_of_unlines_eq`: The tokens of a listing.
* `listing_eq_iff`: Sources that are listed the same have the same tokens.
-/

namespace GlyphLexer

open Segment (join)

namespace TokenType

theorem mem_all (type : TokenType) : type ∈ all := by
  cases type <;> decide

theorem names_nodup : (all.map name).Nodup := by decide +kernel

/-- Types have names of their own. -/
theorem name_inj {type type' : TokenType} (h : type.name = type'.name) : type = type' :=
  List.inj_on_of_nodup_map names_nodup (mem_all type) (mem_all type') h

/-- Names are made of letters and low lines. -/
theorem isNameStart_of_mem_name (type : TokenType) : ∀ u ∈ type.name, u.isNameStart = true := by
  have hall : (all.all fun type => type.name.all CodeUnit.isNameStart) = true := by decide +kernel
  exact List.all_eq_true.1 (List.all_eq_true.1 hall type (mem_all type))

theorem newline_notMem_name (type : TokenType) : CodeUnit.newline ∉ type.name := by
  intro h
  exact absurd (isNameStart_of_mem_name type _ h) (by decide)

end TokenType

/-- Items stand for one text. -/
theorem StringItems.decoded_unique {body decoded decoded' : Text} (h : StringItems body decoded)
    (h' : StringItems body decoded') : decoded = decoded' := by
  induction h generalizing decoded' with
  | nil =>
      cases h'
      rfl
  | plain _ hbackslash _ _ ih =>
      cases h' with
      | plain _ _ _ h' => rw [ih h']
      | escape _ _ => exact absurd rfl hbackslash
  | escape hentry _ ih =>
      cases h' with
      | plain _ hbackslash _ _ => exact absurd rfl hbackslash
      | escape hentry' h' =>
          have hsame := (Escape.mem_table_iff.1 hentry).symm.trans (Escape.mem_table_iff.1 hentry')
          rw [ih h', Option.some.inj hsame]

/-- A lexeme of one type has one literal, or none. -/
theorem Lexeme.literal_unique {l : Text} {type : TokenType} {literal literal' : Option Text}
    (h : Lexeme l type literal) (h' : Lexeme l type literal') : literal = literal' := by
  by_cases hstring : type = .string
  · rw [hstring] at h h'
    rcases h.isLiteral with ⟨t, rfl, body, hl, hbody⟩
    rcases h'.isLiteral with ⟨t', rfl, body', hl', hbody'⟩
    -- Both are read from what is between the same quotation marks.
    have hsame : body = body' :=
      List.append_cancel_right (List.cons.inj (hl.symm.trans hl')).2
    rw [hsame] at hbody
    rw [hbody.decoded_unique hbody']
  · have hnone : literal = none := by
      cases literal with
      | none => rfl
      | some t => exact absurd (h.literal_isSome_iff.1 rfl) hstring
    have hnone' : literal' = none := by
      cases literal' with
      | none => rfl
      | some t => exact absurd (h'.literal_isSome_iff.1 rfl) hstring
    rw [hnone, hnone']

/-- A token as a scan of the source gives it. Its lexeme is as long as its
    offsets say, and its literal is what the lexeme stands for. The token for
    the end has neither. -/
structure Token.IsScanned (s : Text) (t : Token) : Prop where
  length_lexeme : ((t.lexeme s).length : Int) = t.stop.offset - t.start.offset
  lexeme : Lexeme (t.lexeme s) t.type t.literal ∨
    t.type = .eof ∧ t.literal = none ∧ t.lexeme s = []

theorem isScanned_of_mem_tokens {gs : List Segment} {rest : Text} {t : Token} (h : IsCut gs rest)
    (ht : t ∈ Segment.tokens [] gs) : t.IsScanned (join gs ++ rest) := by
  rcases exists_of_mem_tokens h ht with ⟨g, front, tail, hg, rfl, _, heq⟩
  -- The lexeme of the token is that of its segment, wherever the segment
  -- stands.
  have hlexeme : (g.token front).lexeme (join gs ++ rest) = g.lexeme := by
    rw [← Segment.lexeme_token front tail g, ← heq]
    rfl
  refine ⟨?_, Or.inl ?_⟩
  · rw [hlexeme]
    simp only [Segment.token, Segment.text, Location.after_offset, List.length_append]
    omega
  · rw [hlexeme]
    exact hg.lexeme

/-- Every token of a scan is scanned, whether or not the scan comes to the
    end. -/
theorem isScanned_of_mem_scan {s : Text} {t : Token} (ht : t ∈ (scan s).tokens) :
    t.IsScanned s := by
  rcases scan_cases s with ⟨c, rfl, hc, hscan⟩ | ⟨d, rfl, hd, hscan⟩
  · rw [hscan] at ht
    rcases List.mem_append.1 ht with ht | ht
    · exact isScanned_of_mem_tokens hc.cut ht
    · rw [List.mem_singleton.1 ht]
      have hempty := Token.lexeme_endOfFile c.text (Location.after c.text)
      refine ⟨?_, Or.inr ⟨rfl, rfl, hempty⟩⟩
      rw [hempty]
      simp [Token.endOfFile]
  · rw [hscan] at ht
    rw [Breakdown.text_eq]
    exact isScanned_of_mem_tokens hd.cut ht

namespace Token.IsScanned

variable {s s' : Text} {t t' : Token}

/-- The literal is known from the type and the lexeme. -/
theorem literal_eq (h : t.IsScanned s) (h' : t'.IsScanned s') (htype : t.type = t'.type)
    (hlexeme : t.lexeme s = t'.lexeme s') : t.literal = t'.literal := by
  rcases h.lexeme with hl | ⟨heof, hnone, _⟩
  · rcases h'.lexeme with hl' | ⟨heof', _⟩
    · rw [← htype, ← hlexeme] at hl'
      exact hl.literal_unique hl'
    · rw [← htype] at heof'
      exact absurd heof' hl.type_ne_eof
  · rcases h'.lexeme with hl' | ⟨_, hnone', _⟩
    · rw [htype] at heof
      exact absurd heof hl'.type_ne_eof
    · rw [hnone, hnone']

theorem newline_notMem_lexeme (h : t.IsScanned s) : CodeUnit.newline ∉ t.lexeme s := by
  rcases h.lexeme with hl | ⟨_, _, hempty⟩
  · exact hl.newline_notMem
  · rw [hempty]
    exact List.not_mem_nil

end Token.IsScanned

namespace Listing

theorem mem_of_mem_shown {showEof : Bool} {tokens : List Token} {t : Token}
    (h : t ∈ shown showEof tokens) : t ∈ tokens := by
  unfold shown at h
  split at h
  · exact h
  · exact List.mem_of_mem_filter h

/-- What is printed in front of the lexeme of a token. -/
def heading (t : Token) : Text :=
  t.type.name ++ text " on line " ++ Text.ofInt t.start.line ++ text " in pos " ++
    Text.ofInt t.start.offset ++ text "-" ++ Text.ofInt t.stop.offset ++ text " "

theorem ofToken_eq (s : Text) (t : Token) :
    ofToken s t = heading t ++ (t.lexeme s ++ (text " " ++ t.literal.getD (text "null"))) := by
  simp only [ofToken, heading, List.append_assoc]

/-- Two tokens, each with its source, that are the same in all that is
    printed. -/
structure Agree (s s' : Text) (t t' : Token) : Prop where
  type : t.type = t'.type
  line : t.start.line = t'.start.line
  start : t.start.offset = t'.start.offset
  stop : t.stop.offset = t'.stop.offset
  lexeme : t.lexeme s = t'.lexeme s'
  literal : t.literal = t'.literal

/-- The heading that a text begins with. -/
theorem heading_append_inj {t t' : Token} {rest rest' : Text}
    (h : heading t ++ rest = heading t' ++ rest') :
    t.type = t'.type ∧ t.start.line = t'.start.line ∧ t.start.offset = t'.start.offset ∧
      t.stop.offset = t'.stop.offset ∧ rest = rest' := by
  simp only [heading, List.append_assoc] at h
  -- The name of the type goes up to the first blank, and every numeral up to
  -- what follows its digits.
  have hname := Text.run_append_inj (TokenType.isNameStart_of_mem_name _)
    (TokenType.isNameStart_of_mem_name _) (by rintro u ⟨⟩; decide) (by rintro u ⟨⟩; decide) h
  have hline := Text.ofInt_append_inj (by rintro u ⟨⟩; decide) (by rintro u ⟨⟩; decide)
    (List.append_cancel_left hname.2)
  have hstart := Text.ofInt_append_inj (by rintro u ⟨⟩; decide) (by rintro u ⟨⟩; decide)
    (List.append_cancel_left hline.2)
  have hstop := Text.ofInt_append_inj (by rintro u ⟨⟩; decide) (by rintro u ⟨⟩; decide)
    (List.append_cancel_left hstart.2)
  exact ⟨TokenType.name_inj hname.1, hline.1, hstart.1, hstop.1, List.append_cancel_left hstop.2⟩

/-- The token that a text begins with. Nothing is asked of what is printed
    behind it. -/
theorem ofToken_append_inj {s s' rest rest' : Text} {t t' : Token} (h : t.IsScanned s)
    (h' : t'.IsScanned s') (heq : ofToken s t ++ rest = ofToken s' t' ++ rest') :
    Agree s s' t t' ∧ rest = rest' := by
  simp only [ofToken_eq, List.append_assoc] at heq
  rcases heading_append_inj heq with ⟨htype, hline, hstart, hstop, hbehind⟩
  -- The offsets agree, so the lexemes are equally long.
  have hlength : (t.lexeme s).length = (t'.lexeme s').length := by
    have hlength := h.length_lexeme
    have hlength' := h'.length_lexeme
    rw [hstart, hstop, ← hlength'] at hlength
    omega
  rcases List.append_inj hbehind hlength with ⟨hlexeme, hbehind⟩
  have hliteral := h.literal_eq h' htype hlexeme
  rw [hliteral] at hbehind
  exact ⟨⟨htype, hline, hstart, hstop, hlexeme, hliteral⟩,
    List.append_cancel_left (List.append_cancel_left hbehind)⟩

theorem unlines_cons (l : Text) (ls : List Text) :
    Text.unlines (l :: ls) = l ++ ls.flatMap fun l => CodeUnit.newline :: l := by
  unfold Text.unlines
  induction ls generalizing l with
  | nil => simp
  | cons l' ls ih => rw [List.intercalate_cons_cons, ih, List.flatMap_cons]; simp

theorem ofToken_ne_nil (s : Text) (t : Token) : ofToken s t ≠ [] := by
  rw [ofToken_eq]
  intro h
  have hblank : text " " = [] :=
    (List.append_eq_nil_iff.1 (List.append_eq_nil_iff.1 (List.append_eq_nil_iff.1 h).2).2).1
  exact absurd hblank (by decide)

/-- The tokens behind the first one are told from left to right. -/
theorem forall₂_agree_of_flatMap_eq {s s' : Text} {ts ts' : List Token}
    (h : ∀ t ∈ ts, t.IsScanned s) (h' : ∀ t ∈ ts', t.IsScanned s')
    (heq : (ts.flatMap fun t => CodeUnit.newline :: ofToken s t) =
      ts'.flatMap fun t => CodeUnit.newline :: ofToken s' t) :
    List.Forall₂ (Agree s s') ts ts' := by
  induction ts generalizing ts' with
  | nil =>
      cases ts' with
      | nil => exact List.Forall₂.nil
      | cons t' ts' => cases heq
  | cons t ts ih =>
      cases ts' with
      | nil => cases heq
      | cons t' ts' =>
          rw [List.forall_mem_cons] at h h'
          simp only [List.flatMap_cons, List.cons_append] at heq
          rcases ofToken_append_inj h.1 h'.1 (List.cons.inj heq).2 with ⟨hagree, hrest⟩
          exact List.Forall₂.cons hagree (ih h.2 h'.2 hrest)

/-- The tokens of a listing are told from left to right. -/
theorem forall₂_agree_of_unlines_eq {s s' : Text} {ts ts' : List Token}
    (h : ∀ t ∈ ts, t.IsScanned s) (h' : ∀ t ∈ ts', t.IsScanned s')
    (heq : Text.unlines (ts.map (ofToken s)) = Text.unlines (ts'.map (ofToken s'))) :
    List.Forall₂ (Agree s s') ts ts' := by
  cases ts with
  | nil =>
      cases ts' with
      | nil => exact List.Forall₂.nil
      | cons t' ts' =>
          rw [List.map_cons, unlines_cons] at heq
          exact absurd (List.append_eq_nil_iff.1 heq.symm).1 (ofToken_ne_nil s' t')
  | cons t ts =>
      cases ts' with
      | nil =>
          rw [List.map_cons, unlines_cons] at heq
          exact absurd (List.append_eq_nil_iff.1 heq).1 (ofToken_ne_nil s t)
      | cons t' ts' =>
          rw [List.forall_mem_cons] at h h'
          simp only [List.map_cons, unlines_cons, List.flatMap_map] at heq
          rcases ofToken_append_inj h.1 h'.1 heq with ⟨hagree, hrest⟩
          exact List.Forall₂.cons hagree (forall₂_agree_of_flatMap_eq h.2 h'.2 hrest)

/-- Tokens that agree are printed the same. -/
theorem map_ofToken_eq_of_agree {s s' : Text} {ts ts' : List Token}
    (h : List.Forall₂ (Agree s s') ts ts') : ts.map (ofToken s) = ts'.map (ofToken s') := by
  induction h with
  | nil => rfl
  | cons hagree _ ih =>
      rw [List.map_cons, List.map_cons, ih, ofToken_eq, ofToken_eq, heading, heading, hagree.type,
        hagree.line, hagree.start, hagree.stop, hagree.lexeme, hagree.literal]

end Listing

/-- Two sources are listed the same as text if and only if as many tokens are
    shown of both, and each of them has the same type, line, offsets, lexeme
    and literal as its counterpart. -/
theorem listing_eq_iff (source source' : Source) (showEof : Bool) :
    Listing.ofTokens source.toText (scan source.toText).tokens ⟨.text, showEof⟩ =
        Listing.ofTokens source'.toText (scan source'.toText).tokens ⟨.text, showEof⟩ ↔
      List.Forall₂ (Listing.Agree source.toText source'.toText)
        (Listing.shown showEof (scan source.toText).tokens)
        (Listing.shown showEof (scan source'.toText).tokens) := by
  -- What is shown of a scan is tokens of the scan.
  have hshown : ∀ s : Text, ∀ t ∈ Listing.shown showEof (scan s).tokens, t.IsScanned s :=
    fun s t ht => isScanned_of_mem_scan (Listing.mem_of_mem_shown ht)
  constructor
  · intro h
    exact Listing.forall₂_agree_of_unlines_eq (hshown _) (hshown _) h
  · intro h
    exact congrArg Text.unlines (Listing.map_ofToken_eq_of_agree h)

end GlyphLexer
