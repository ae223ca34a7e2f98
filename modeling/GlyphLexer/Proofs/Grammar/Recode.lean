import GlyphLexer.Proofs.Encoding
import GlyphLexer.Proofs.Grammar.Breakage

/-!
# The lexical grammar over bytes

A text and the bytes of it are cut in the same way.

All that the grammar names is in ASCII: the units of names, numbers and
operators, the quotation mark, the backslash and what makes an escape with
it, and trivia. Outside ASCII a unit may stand in one place only, as a plain
item of a string literal, and there any unit may stand. So the bytes of a
string literal are again the items of a string literal
(`StringItems.recode`), and every other lexeme is its own bytes.

That nothing longer fits on the side of the bytes is a matter of one unit
(`longestLexeme_iff`). The unit behind a lexeme is the same on both sides, or
it is outside ASCII on the side of the bytes and ends no lexeme
(`Lexeme.last_isAscii`). The six shapes of text without a token carry over
for the same reasons. Only the offending unit may be another one, since bytes
show no more than the first byte of a character.

## Theorems

* `Lexeme.isAscii_or_string`: What is no string literal is in ASCII.
* `StringItems.recode`: The items of a string literal, read as bytes.
* `Lexeme.recode`, `LongestLexeme.recode`, `Detached.recode`: A lexeme at its
  place, read as bytes.
* `Breakage.Fits.split`: The place of a fault is between two code points.
* `Breakage.Fits.recode`: A shape without a token, read as bytes.
-/

namespace GlyphLexer

open Text (WellFormed recode recode_nil recode_cons recode_of_isAscii)

namespace CodeUnit

theorem isAscii_of_isNamePart {u : CodeUnit} (h : u.isNamePart = true) : u.isAscii = true := by
  grind [isNamePart, isNameStart, isLetter, isDigit, isAscii]

theorem isAscii_of_isTrivia {u : CodeUnit} (h : u.isTrivia = true) : u.isAscii = true := by
  grind [isTrivia, isBlank, isAscii]

theorem isAscii_of_isNameStart {u : CodeUnit} (h : u.isNameStart = true) : u.isAscii = true :=
  isAscii_of_isNamePart (isNamePart_of_isNameStart h)

theorem isAscii_of_isDigit {u : CodeUnit} (h : u.isDigit = true) : u.isAscii = true :=
  isAscii_of_isNamePart (isNamePart_of_isDigit h)

/-- A unit outside ASCII begins no name and no number, and is no trivia. -/
theorem classes_of_not_isAscii {u : CodeUnit} (h : u.isAscii = false) :
    u.isDigit = false ∧ u.isNameStart = false ∧ u.isTrivia = false := by
  refine ⟨?_, ?_, ?_⟩
  · by_contra hc
    exact ne_of_not_isAscii h (isAscii_of_isDigit (by simpa using hc)) rfl
  · by_contra hc
    exact ne_of_not_isAscii h (isAscii_of_isNameStart (by simpa using hc)) rfl
  · by_contra hc
    exact ne_of_not_isAscii h (isAscii_of_isTrivia (by simpa using hc)) rfl

end CodeUnit

theorem Operator.isAscii_of_mem {t : Text} {type : TokenType} (h : (t, type) ∈ all) :
    ∀ u ∈ t, u.isAscii = true := by
  have hall : ∀ entry ∈ all, entry.1.all CodeUnit.isAscii = true := by decide
  exact List.all_eq_true.1 (hall _ h)

theorem Escape.isAscii_of_mem {v d : CodeUnit} (h : (v, d) ∈ table) :
    v.isAscii = true ∧ d.isAscii = true := by
  have hall : table.all (fun entry => entry.1.isAscii && entry.2.isAscii) = true := by decide
  simpa using List.all_eq_true.1 hall _ h

namespace StringItems

theorem append_wide {c body decoded : Text} (hc : ∀ u ∈ c, u.isAscii = false)
    (h : StringItems body decoded) : StringItems (c ++ body) (c ++ decoded) := by
  induction c with
  | nil => exact h
  | cons u c ih =>
      have hu : ∀ v : CodeUnit, v.isAscii = true → u ≠ v := fun v hv =>
        CodeUnit.ne_of_not_isAscii (hc u List.mem_cons_self) hv
      exact StringItems.plain (hu _ (by decide)) (hu _ (by decide)) (hu _ (by decide))
        (ih fun v hv => hc v (List.mem_cons_of_mem _ hv))

theorem exists_of_append_wide {c body decoded : Text} (hc : ∀ u ∈ c, u.isAscii = false)
    (h : StringItems (c ++ body) decoded) :
    ∃ more, decoded = c ++ more ∧ StringItems body more := by
  induction c generalizing decoded with
  | nil => exact ⟨decoded, rfl, h⟩
  | cons u c ih =>
      rw [List.cons_append] at h
      generalize c ++ body = t at h ih
      cases h with
      | plain _ _ _ h =>
          rcases ih (fun v hv => hc v (List.mem_cons_of_mem _ hv)) h with ⟨more, rfl, hmore⟩
          exact ⟨more, rfl, hmore⟩
      | escape _ _ =>
          exact absurd (hc CodeUnit.backslash List.mem_cons_self) (by decide)

/-- The items of a string literal, read as bytes, are items for what they
    stand for, read as bytes. -/
theorem recode {body decoded : Text} (h : StringItems body decoded) (hbody : WellFormed body) :
    WellFormed decoded ∧ StringItems (recode body) (recode decoded) := by
  -- One code point after the other, and with a backslash the one behind it,
  -- which is in ASCII.
  induction hn : body.length using Nat.strong_induction_on generalizing body decoded with
  | _ n ih =>
      rcases hbody.first_cases with rfl | ⟨u, rest, rfl, hu, hrest⟩ |
        ⟨c, rest, rfl, hwide, hbytes, hc, hrest⟩
      · cases h with
        | nil => exact ⟨WellFormed.nil, by rw [recode_nil]; exact StringItems.nil⟩
      · rw [List.length_cons] at hn
        cases h with
        | plain hquote hbackslash hnewline h =>
            rcases ih rest.length (by omega) h hrest rfl with ⟨hdecoded, hitems⟩
            rw [recode_cons hu, recode_cons hu]
            exact ⟨hdecoded.cons hu, StringItems.plain hquote hbackslash hnewline hitems⟩
        | @escape v d body _ hentry h =>
            have hascii := Escape.isAscii_of_mem hentry
            have htail : WellFormed body := (WellFormed.split (s := []) hrest hascii.1).2
            rw [List.length_cons] at hn
            rcases ih body.length (by omega) h htail rfl with ⟨hdecoded, hitems⟩
            rw [recode_cons hu, recode_cons hascii.1, recode_cons hascii.2]
            exact ⟨hdecoded.cons hascii.2, StringItems.escape hentry hitems⟩
      · have hpos := List.length_pos_iff.2 hwide.1
        rw [List.length_append] at hn
        rcases h.exists_of_append_wide hwide.2 with ⟨more, rfl, hitems⟩
        rcases ih rest.length (by omega) hitems hrest rfl with ⟨hmore, hitems'⟩
        rw [hc.recode_append, hc.recode_append]
        exact ⟨hc.append hmore, hitems'.append_wide hbytes.2⟩

end StringItems

namespace Lexeme

/-- A lexeme is in ASCII, or is a string literal. -/
theorem isAscii_or_string {l : Text} {type : TokenType} {literal : Option Text}
    (h : Lexeme l type literal) :
    ((∀ u ∈ l, u.isAscii = true) ∧ literal = none) ∨ type = .string ∧ ∃ body decoded,
      l = CodeUnit.quote :: (body ++ [CodeUnit.quote]) ∧ literal = some decoded ∧
        StringItems body decoded := by
  cases h with
  | identifier hstart hpart =>
      refine Or.inl ⟨fun u hu => ?_, rfl⟩
      rcases List.mem_cons.1 hu with rfl | hu
      · exact CodeUnit.isAscii_of_isNameStart hstart
      · exact CodeUnit.isAscii_of_isNamePart (hpart u hu)
  | integer h => exact Or.inl ⟨fun u hu => CodeUnit.isAscii_of_isDigit (h.2 u hu), rfl⟩
  | float h hfraction =>
      refine Or.inl ⟨fun u hu => ?_, rfl⟩
      rcases List.mem_append.1 hu with hu | hu
      · exact CodeUnit.isAscii_of_isDigit (h.2 u hu)
      · rcases List.mem_cons.1 hu with rfl | hu
        · decide
        · exact CodeUnit.isAscii_of_isDigit (hfraction u hu)
  | string h => exact Or.inr ⟨rfl, _, _, rfl, rfl, h⟩
  | operator h => exact Or.inl ⟨Operator.isAscii_of_mem h, rfl⟩

theorem isAscii_of_none {l : Text} {type : TokenType} (h : Lexeme l type none) :
    ∀ u ∈ l, u.isAscii = true := by
  rcases h.isAscii_or_string with ⟨hascii, _⟩ | ⟨_, _, _, _, hliteral, _⟩
  · exact hascii
  · exact absurd hliteral (by simp)

theorem last_isAscii {l : Text} {u : CodeUnit} {type : TokenType} {literal : Option Text}
    (h : Lexeme (l ++ [u]) type literal) : u.isAscii = true := by
  rcases h.isAscii_or_string with ⟨hascii, _⟩ | ⟨_, body, _, heq, _⟩
  · exact hascii u (List.mem_append_right _ (List.mem_singleton_self u))
  · rw [← List.cons_append] at heq
    have hquote := (List.append_inj' heq rfl).2
    rw [List.cons.injEq] at hquote
    rw [hquote.1]
    decide

theorem split {l tail : Text} {type : TokenType} {literal : Option Text}
    (h : Lexeme l type literal) (hw : WellFormed (l ++ tail)) : WellFormed l ∧ WellFormed tail := by
  rcases List.eq_nil_or_concat' l with rfl | ⟨front, u, rfl⟩
  · exact absurd rfl h.ne_nil
  · exact hw.split_behind h.last_isAscii

end Lexeme

/-- A string literal is read as bytes between its two quotation marks. -/
theorem recode_quoted {body : Text} (hbody : WellFormed body) :
    recode (CodeUnit.quote :: (body ++ [CodeUnit.quote])) =
      CodeUnit.quote :: (recode body ++ [CodeUnit.quote]) := by
  rw [recode_cons (by decide), hbody.recode_append, recode_cons (by decide), recode_nil]

theorem wellFormed_of_quoted {body tail : Text} {u : CodeUnit} (hu : u.isAscii = true)
    (h : WellFormed (CodeUnit.quote :: (body ++ u :: tail))) : WellFormed body :=
  ((WellFormed.split (s := []) h (by decide)).2.split hu).1

/-- A lexeme is read as bytes as a lexeme of the same kind. -/
theorem Lexeme.recode {l : Text} {type : TokenType} {literal : Option Text}
    (h : Lexeme l type literal) (hl : WellFormed l) :
    Lexeme (recode l) type (literal.map Text.recode) ∧ ∀ t ∈ literal, WellFormed t := by
  rcases h.isAscii_or_string with ⟨hascii, rfl⟩ | ⟨rfl, body, decoded, rfl, rfl, hitems⟩
  · rw [recode_of_isAscii hascii]
    exact ⟨h, by simp⟩
  · have hbody := wellFormed_of_quoted (by decide) hl
    rcases hitems.recode hbody with ⟨hdecoded, hitems'⟩
    rw [recode_quoted hbody]
    exact ⟨Lexeme.string hitems', by simpa using hdecoded⟩

theorem LongestLexeme.recode {l tail : Text} {type : TokenType} {literal : Option Text}
    (h : LongestLexeme l tail) (hlexeme : Lexeme l type literal) (hl : WellFormed l)
    (htail : WellFormed tail) : LongestLexeme (recode l) (recode tail) := by
  refine longestLexeme_iff.2 ⟨⟨_, _, (hlexeme.recode hl).1⟩, ?_⟩
  intro v hv hlonger
  -- A unit that ends a longer lexeme is in ASCII, and so it is the next unit of
  -- the text as well.
  have hsame : tail.head? = some v := by
    rcases htail.head_recode hv with hsame | hwide
    · exact hsame
    · rcases hlonger with ⟨_, _, hlonger⟩
      exact absurd rfl (CodeUnit.ne_of_not_isAscii hwide hlonger.last_isAscii)
  rcases hlexeme.isAscii_or_string with ⟨hascii, _⟩ | ⟨_, body, decoded, rfl, _, hitems⟩
  · rw [recode_of_isAscii hascii] at hlonger
    exact (longestLexeme_iff.1 h).2 v hsame hlonger
  · have hbody := wellFormed_of_quoted (by decide) hl
    rw [recode_quoted hbody] at hlonger
    exact IsLexeme.not_string_append (hitems.recode hbody).2 hlonger

theorem Detached.recode {type : TokenType} {tail : Text} (h : Detached type tail)
    (htail : WellFormed tail) : Detached type (recode tail) := by
  intro v hv
  rcases htail.head_recode hv with hsame | hwide
  · exact h v hsame
  · exact ⟨fun _ => (CodeUnit.classes_of_not_isAscii hwide).2.1,
      fun _ => CodeUnit.ne_of_not_isAscii hwide (by decide)⟩

namespace Breakage

/-- The place of a fault is between two code points. -/
theorem Fits.split {b : Breakage} {passed rest : Text} {f : Fault} (h : b.Fits passed rest f)
    (hw : WellFormed (passed ++ rest)) : WellFormed passed ∧ WellFormed rest := by
  cases h with
  | stray _ _ _ _ => exact ⟨WellFormed.nil, hw⟩
  | secondPoint _ => exact hw.split_before (by decide)
  | nameBehindNumber _ hu => exact hw.split_before (CodeUnit.isAscii_of_isNameStart hu)
  | newlineInString _ => exact hw.split_before (by decide)
  | endInString _ => exact ⟨by rwa [List.append_nil] at hw, WellFormed.nil⟩
  | endBehindBackslash _ => exact ⟨by rwa [List.append_nil] at hw, WellFormed.nil⟩
  | unknownEscape _ _ =>
      rw [← List.cons_append] at hw ⊢
      exact hw.split_behind (by decide)

/-- A unit that begins no token is read as one that begins none. -/
theorem Fits.recode_stray {u : CodeUnit} {rest : Text} {f : Fault}
    (h : Fits .stray [] (u :: rest) f) (hw : WellFormed (u :: rest)) :
    ∃ f', Fits .stray [] (recode (u :: rest)) f' ∧ f'.kind = f.kind := by
  cases h with
  | stray hquote hdigit hname hop =>
      rcases hw.exists_recode_eq_cons with ⟨v, rest', heq, rfl | hv⟩
      · rw [heq]
        exact ⟨_, Fits.stray hquote hdigit hname hop, rfl⟩
      · have hclasses := CodeUnit.classes_of_not_isAscii hv
        have hop' : ∀ entry ∈ Operator.one, entry.1 ≠ [v] := by
          intro entry hentry hentryv
          have hmem : entry ∈ Operator.all := List.mem_append_right _ hentry
          refine CodeUnit.ne_of_not_isAscii hv (Operator.isAscii_of_mem hmem v ?_) rfl
          rw [hentryv]
          exact List.mem_cons_self
        rw [heq]
        exact ⟨_,
          Fits.stray (CodeUnit.ne_of_not_isAscii hv (by decide)) hclasses.1 hclasses.2.1 hop', rfl⟩

/-- What makes no escape with a backslash makes none when read as bytes. -/
theorem exists_recode_unknownEscape {v : CodeUnit} {rest : Text} (hw : WellFormed (v :: rest))
    (hv : ∀ entry ∈ Escape.table, v ≠ entry.1) :
    ∃ v' rest', recode (v :: rest) = v' :: rest' ∧ ∀ entry ∈ Escape.table, v' ≠ entry.1 := by
  rcases hw.exists_recode_eq_cons with ⟨v', rest', heq, rfl | hwide⟩
  · exact ⟨_, rest', heq, hv⟩
  · refine ⟨v', rest', heq, fun entry hentry => ?_⟩
    exact CodeUnit.ne_of_not_isAscii hwide (Escape.isAscii_of_mem hentry).1

/-- A text of a shape is read as bytes as a text of the shape, with a fault
    of the same kind. -/
theorem Fits.recode {b : Breakage} {passed rest : Text} {f : Fault} (h : b.Fits passed rest f)
    (hw : WellFormed (passed ++ rest)) :
    ∃ f', b.Fits (recode passed) (recode rest) f' ∧ f'.kind = f.kind := by
  rcases h.split hw with ⟨hpassed, hrest⟩
  -- Numbers are their own bytes, and string literals go as far as before. What
  -- begins at the place of the fault is the same unit, but for the two shapes
  -- in which any unit may stand there.
  cases h with
  | stray hquote hdigit hname hop =>
      rw [recode_nil]
      exact (Fits.stray hquote hdigit hname hop).recode_stray hrest
  | secondPoint h =>
      rw [recode_of_isAscii h.isAscii_of_none, recode_cons (by decide)]
      exact ⟨_, Fits.secondPoint h, rfl⟩
  | nameBehindNumber h hu =>
      have hascii : ∀ u ∈ passed, u.isAscii = true := by
        rcases h with h | h
        · exact h.isAscii_of_none
        · exact h.isAscii_of_none
      rw [recode_of_isAscii hascii, recode_cons (CodeUnit.isAscii_of_isNameStart hu)]
      exact ⟨_, Fits.nameBehindNumber h hu, rfl⟩
  | @newlineInString body rest h =>
      rcases h.1 with ⟨decoded, hitems⟩
      have hbody := (WellFormed.split (s := []) hpassed (by decide)).2
      rw [recode_cons (by decide), recode_cons (by decide)]
      exact ⟨_,
        Fits.newlineInString ((hitems.recode hbody).2.longestItems StringItems.Stop.newline), rfl⟩
  | @endInString body h =>
      rcases h.1 with ⟨decoded, hitems⟩
      have hbody := (WellFormed.split (s := []) hpassed (by decide)).2
      rw [recode_cons (by decide), recode_nil]
      exact ⟨_, Fits.endInString ((hitems.recode hbody).2.longestItems StringItems.Stop.endOfText),
        rfl⟩
  | @endBehindBackslash body h =>
      rcases h.1 with ⟨decoded, hitems⟩
      have hbody := wellFormed_of_quoted (by decide) hpassed
      rw [recode_cons (by decide), hbody.recode_append, recode_cons (by decide), recode_nil]
      exact ⟨_, Fits.endBehindBackslash
        ((hitems.recode hbody).2.longestItems StringItems.Stop.backslash), rfl⟩
  | @unknownEscape body rest v h hv =>
      rcases h.1 with ⟨decoded, hitems⟩
      have hbody := wellFormed_of_quoted (by decide) hpassed
      rcases exists_recode_unknownEscape hrest hv with ⟨v', rest', heq, hv'⟩
      rw [recode_cons (by decide), hbody.recode_append, recode_cons (by decide), recode_nil, heq]
      exact ⟨_, Fits.unknownEscape
        ((hitems.recode hbody).2.longestItems (StringItems.Stop.unknownEscape hv')) hv', rfl⟩

end Breakage

end GlyphLexer
