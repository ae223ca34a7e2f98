import GlyphLexer.Proofs.Grammar.Vocabulary
import GlyphLexer.Proofs.Json.Grammar

/-!
# Reading strings and numbers

The parts of a JSON decoder that do not look at nested values.

A string is read from behind its opening mark. Every rule of `Characters`
begins with another unit or pair of units, and none begins with the closing
mark, so the reader needs to look no further ahead than the rule is long. The
closing mark it stops at is the first one that no backslash stands before.

A number is given as a whole word. Its digits before the point are the
longest run of digits, and so are those of the fraction, because what a
fraction or an exponent begins with is no digit. A word is read as a number
exactly if `Numeral` has it (`Json.number?_eq_some_iff`).

## Main definitions

* `Json.readCharacters`: The text in front of a closing mark, and what is
  behind the mark.
* `Json.whole?`, `Json.fraction?`, `Json.exponent?`, `Json.magnitude?`,
  `Json.number?`: The parts of a number.
* `Json.isWordUnit`: A unit of numbers and of the names of constants.

## Theorems

* `Json.characters_of_readCharacters`, `Json.Characters.read`: Strings are
  read as the grammar has them.
* `Json.number?_eq_some_iff`: And so are numbers.
* `Json.Numeral.isWordUnit`: A number has word units only.
-/

namespace GlyphLexer

theorem CodeUnit.isDigit_of_digitValue?_lt {u : CodeUnit} {d : Nat} (hu : u.digitValue? = some d)
    (hd : d < 10) : u.isDigit = true := by
  simp only [digitValue?] at hu
  simp only [isDigit, Bool.and_eq_true, decide_eq_true_eq, UInt16.le_iff_toNat_le]
  have hlow : (48 : UInt16).toNat = 48 := rfl
  have hhigh : (57 : UInt16).toNat = 57 := rfl
  split at hu
  · omega
  · split at hu
    · rw [Option.some.injEq] at hu
      omega
    · split at hu
      · rw [Option.some.injEq] at hu
        omega
      · cases hu

namespace Text

theorem isDigit_of_foldlM_addDigit? {t : Text} {acc n : Nat}
    (h : t.foldlM (addDigit? 10) acc = some n) : ∀ u ∈ t, u.isDigit = true := by
  induction t generalizing acc with
  | nil =>
      intro u hu
      exact absurd hu List.not_mem_nil
  | cons v t ih =>
      rw [List.foldlM_cons, Option.bind_eq_bind, Option.bind_eq_some_iff] at h
      rcases h with ⟨acc', hv, ht⟩
      rw [List.forall_mem_cons]
      refine ⟨?_, ih ht⟩
      unfold addDigit? at hv
      split at hv
      · next d hd =>
          split at hv
          · next hlt => exact CodeUnit.isDigit_of_digitValue?_lt hd hlt
          · cases hv
      · cases hv

/-- What is read as a decimal number has digits only. -/
theorem isDigit_of_natural? {t : Text} {n : Nat} (h : natural? 10 t = some n) :
    ∀ u ∈ t, u.isDigit = true := by
  unfold natural? at h
  split at h
  · cases h
  · exact isDigit_of_foldlM_addDigit? h

end Text

namespace Json

/-! ## Strings -/

/-- Reads up to the closing mark: what stands before it, and the rest behind
    it. -/
def readCharacters : Text → Option (Text × Text)
  | [] => none
  | u :: rest =>
    if u = CodeUnit.quote then some ([], rest)
    else if u = CodeUnit.backslash then
      match rest with
      | [] => none
      | mark :: rest =>
        if mark = numericMark then
          match rest with
          | a :: b :: c :: d :: rest =>
            match Text.natural? 16 [a, b, c, d] with
            | some n => (readCharacters rest).map fun r => (UInt16.ofNat n :: r.1, r.2)
            | none => none
          | _ => none
        else
          match shortEscapes.lookup mark with
          | some v => (readCharacters rest).map fun r => (v :: r.1, r.2)
          | none => none
    else if isPlain u then (readCharacters rest).map fun r => (u :: r.1, r.2)
    else none

/-- Every entry of the table is found, and none is in the way of the escape
    that gives a number. -/
theorem lookup_shortEscapes {mark u : CodeUnit} (h : (mark, u) ∈ shortEscapes) :
    mark ≠ numericMark ∧ shortEscapes.lookup mark = some u := by
  have hall : (shortEscapes.all fun e =>
      e.1 != numericMark && shortEscapes.lookup e.1 == some e.2) = true := by decide
  simpa using List.all_eq_true.1 hall (mark, u) h

theorem mem_of_lookup_shortEscapes {mark u : CodeUnit} (h : shortEscapes.lookup mark = some u) :
    (mark, u) ∈ shortEscapes := by
  rcases List.lookup_eq_some_iff.1 h with ⟨before, behind, heq, -⟩
  rw [heq]
  exact List.mem_append_right before List.mem_cons_self

theorem backslash_ne_quote : CodeUnit.backslash ≠ CodeUnit.quote := by decide

theorem ne_of_isPlain {u : CodeUnit} (h : isPlain u = true) :
    u ≠ CodeUnit.quote ∧ u ≠ CodeUnit.backslash := by
  simp only [isPlain, Bool.and_eq_true, bne_iff_ne] at h
  exact ⟨h.1.2, h.2⟩

/-- What is read is changed, and what is left is not. -/
theorem map_fst_eq_some_iff {α β : Type} {x : Option (α × Text)} {f : α → β} {b : β} {rest : Text} :
    (x.map fun r => (f r.1, r.2)) = some (b, rest) ↔ ∃ a, x = some (a, rest) ∧ f a = b := by
  rw [Option.map_eq_some_iff]
  constructor
  · rintro ⟨⟨a, rest'⟩, hx, heq⟩
    rw [Prod.mk.injEq] at heq
    rcases heq with ⟨hb, rfl⟩
    exact ⟨a, hx, hb⟩
  · rintro ⟨a, hx, hb⟩
    exact ⟨(a, rest), hx, by rw [hb]⟩

theorem characters_of_readCharacters {t s rest : Text} (h : readCharacters t = some (s, rest)) :
    ∃ t', t = t' ++ CodeUnit.quote :: rest ∧ Characters t' s := by
  -- One case for each way the reader goes on, and one for each way it gives up.
  fun_induction readCharacters t generalizing s rest with
  | case2 =>
      rw [Option.some.injEq, Prod.mk.injEq] at h
      rcases h with ⟨rfl, rfl⟩
      exact ⟨[], rfl, .nil⟩
  | case4 a b c d t n hn _ ih =>
      rcases map_fst_eq_some_iff.1 h with ⟨s', hread, rfl⟩
      rcases ih hread with ⟨t', rfl, hchars⟩
      exact ⟨CodeUnit.backslash :: numericMark :: a :: b :: c :: d :: t', rfl, .numeric hn hchars⟩
  | case7 mark t _ u hu _ ih =>
      rcases map_fst_eq_some_iff.1 h with ⟨s', hread, rfl⟩
      rcases ih hread with ⟨t', rfl, hchars⟩
      exact ⟨CodeUnit.backslash :: mark :: t', rfl, .short (mem_of_lookup_shortEscapes hu) hchars⟩
  | case9 u t _ _ hu ih =>
      rcases map_fst_eq_some_iff.1 h with ⟨s', hread, rfl⟩
      rcases ih hread with ⟨t', rfl, hchars⟩
      exact ⟨u :: t', rfl, .plain hu hchars⟩
  | case1 | case3 | case5 | case6 | case8 | case10 => cases h

theorem Characters.read {t s : Text} (h : Characters t s) (rest : Text) :
    readCharacters (t ++ CodeUnit.quote :: rest) = some (s, rest) := by
  induction h with
  | nil =>
      rw [List.nil_append, readCharacters.eq_def]
      simp only [if_pos]
  | plain hu _ ih =>
      rcases ne_of_isPlain hu with ⟨hquote, hbackslash⟩
      rw [List.cons_append, readCharacters.eq_def]
      simp only [if_neg hquote, if_neg hbackslash, if_pos hu, ih, Option.map_some]
  | short hmark _ ih =>
      rcases lookup_shortEscapes hmark with ⟨hne, hlookup⟩
      rw [List.cons_append, List.cons_append, readCharacters.eq_def]
      simp only [if_neg backslash_ne_quote, if_pos, if_neg hne, hlookup, ih, Option.map_some]
  | numeric hn _ ih =>
      simp only [List.cons_append]
      rw [readCharacters.eq_def]
      simp only [if_neg backslash_ne_quote, if_pos, hn, ih, Option.map_some]

/-! ## Numbers -/

/-- The number that the digits before the point stand for. -/
def whole? (t : Text) : Option Nat :=
  if t.head? = some CodeUnit.zero ∧ t ≠ [CodeUnit.zero] then none else Text.natural? 10 t

/-- The fraction that a text begins with, and the rest of the text. -/
def fraction? : Text → Option (ℚ × Text)
  | [] => some (0, [])
  | u :: rest =>
    if u = CodeUnit.dot then
      (Text.natural? 10 (rest.takeWhile CodeUnit.isDigit)).map fun (n : Nat) =>
        ((n : ℚ) / 10 ^ (rest.takeWhile CodeUnit.isDigit).length, rest.dropWhile CodeUnit.isDigit)
    else some (0, u :: rest)

/-- The exponent that stands behind its letter. -/
def signed? : Text → Option ℤ
  | [] => none
  | u :: rest =>
    if u = plus then (Text.natural? 10 rest).map fun (n : Nat) => (n : ℤ)
    else if u = minus then (Text.natural? 10 rest).map fun (n : Nat) => -(n : ℤ)
    else (Text.natural? 10 (u :: rest)).map fun (n : Nat) => (n : ℤ)

/-- The exponent that a text is. -/
def exponent? : Text → Option ℤ
  | [] => some 0
  | u :: rest => if isExponentMark u then signed? rest else none

/-- The number without a sign that a text is. -/
def magnitude? (t : Text) : Option ℚ :=
  (whole? (t.takeWhile CodeUnit.isDigit)).bind fun n =>
    (fraction? (t.dropWhile CodeUnit.isDigit)).bind fun f =>
      (exponent? f.2).map fun k => (n + f.1) * 10 ^ k

/-- The number that a text is. -/
def number? : Text → Option ℚ
  | [] => none
  | u :: rest => if u = minus then (magnitude? rest).map fun q => -q else magnitude? (u :: rest)

theorem whole?_eq_some_iff {t : Text} {n : Nat} : whole? t = some n ↔ Whole t n := by
  unfold whole? Whole
  by_cases hzero : t.head? = some CodeUnit.zero ∧ t ≠ [CodeUnit.zero]
  · rw [if_pos hzero]
    constructor
    · intro h
      cases h
    · intro h
      exact absurd (h.2 hzero.1) hzero.2
  · rw [if_neg hzero]
    constructor
    · intro h
      refine ⟨h, fun hhead => ?_⟩
      by_cases ht : t = [CodeUnit.zero]
      · exact ht
      · exact absurd ⟨hhead, ht⟩ hzero
    · intro h
      exact h.1

/-- What a number of digits begins with. -/
theorem exists_cons_of_natural? {t : Text} {n : Nat} (h : Text.natural? 10 t = some n) :
    ∃ u rest, t = u :: rest ∧ u.isDigit = true := by
  cases t with
  | nil => cases h
  | cons u rest => exact ⟨u, rest, rfl, Text.isDigit_of_natural? h u List.mem_cons_self⟩

theorem not_isDigit_of_isExponentMark {u : CodeUnit} (h : isExponentMark u = true) :
    u.isDigit = false ∧ u ≠ CodeUnit.dot := by
  rcases isExponentMark_iff.1 h with rfl | rfl <;> decide

/-- A digit is no sign. -/
theorem ne_sign_of_isDigit {u : CodeUnit} (h : u.isDigit = true) : u ≠ plus ∧ u ≠ minus := by
  constructor
  · intro hplus
    rw [hplus] at h
    exact absurd h (by decide)
  · intro hminus
    rw [hminus] at h
    exact absurd h (by decide)

/-- An exponent goes on neither the digits before it nor a fraction. -/
theorem Exponent.head {t : Text} {k : ℤ} (h : Exponent t k) :
    ∀ u, t.head? = some u → u.isDigit = false ∧ u ≠ CodeUnit.dot := by
  intro u hu
  cases h with
  | missing => cases hu
  | unsigned hmark _ | positive hmark _ | negative hmark _ =>
      rw [List.head?_cons, Option.some.injEq] at hu
      rw [← hu]
      exact not_isDigit_of_isExponentMark hmark

theorem exponent?_eq_some_iff {t : Text} {k : ℤ} : exponent? t = some k ↔ Exponent t k := by
  constructor
  · intro h
    unfold exponent? at h
    split at h
    · rw [Option.some.injEq] at h
      rw [← h]
      exact .missing
    · split at h
      · next mark rest hmark =>
          unfold signed? at h
          split at h
          · cases h
          · split at h
            · next hplus =>
                rcases Option.map_eq_some_iff.1 h with ⟨n, hn, rfl⟩
                rw [hplus]
                exact .positive hmark hn
            · split at h
              · next hminus =>
                  rcases Option.map_eq_some_iff.1 h with ⟨n, hn, rfl⟩
                  rw [hminus]
                  exact .negative hmark hn
              · rcases Option.map_eq_some_iff.1 h with ⟨n, hn, rfl⟩
                exact .unsigned hmark hn
      · cases h
  · intro h
    cases h with
    | missing => rfl
    | unsigned hmark hn =>
        rcases exists_cons_of_natural? hn with ⟨u, rest, rfl, hu⟩
        rcases ne_sign_of_isDigit hu with ⟨hplus, hminus⟩
        rw [exponent?, if_pos hmark, signed?, if_neg hplus, if_neg hminus, hn, Option.map_some]
    | positive hmark hn => rw [exponent?, if_pos hmark, signed?, if_pos rfl, hn, Option.map_some]
    | negative hmark hn =>
        rw [exponent?, if_pos hmark, signed?, if_neg (by decide), if_pos rfl, hn, Option.map_some]

theorem fraction_of_fraction? {t rest : Text} {q : ℚ} (h : fraction? t = some (q, rest)) :
    ∃ f, t = f ++ rest ∧ Fraction f q := by
  unfold fraction? at h
  split at h
  · rw [Option.some.injEq, Prod.mk.injEq] at h
    rcases h with ⟨rfl, rfl⟩
    exact ⟨[], rfl, .missing⟩
  · next u t =>
      split at h
      · next hdot =>
          rcases Option.map_eq_some_iff.1 h with ⟨n, hn, heq⟩
          rw [Prod.mk.injEq] at heq
          rcases heq with ⟨rfl, rfl⟩
          refine ⟨CodeUnit.dot :: t.takeWhile CodeUnit.isDigit, ?_, .digits hn⟩
          rw [hdot, List.cons_append, List.takeWhile_append_dropWhile]
      · rw [Option.some.injEq, Prod.mk.injEq] at h
        rcases h with ⟨rfl, rfl⟩
        exact ⟨[], rfl, .missing⟩

theorem Fraction.read {f rest : Text} {q : ℚ} (h : Fraction f q)
    (hrest : ∀ u, rest.head? = some u → u.isDigit = false ∧ u ≠ CodeUnit.dot) :
    fraction? (f ++ rest) = some (q, rest) := by
  cases h with
  | missing =>
      cases rest with
      | nil => rfl
      | cons u rest => rw [List.nil_append, fraction?, if_neg (hrest u rfl).2]
  | digits hn =>
      have hdigits := Text.isDigit_of_natural? hn
      have hstop : ∀ u, rest.head? = some u → u.isDigit = false := fun u hu => (hrest u hu).1
      rw [List.cons_append, fraction?, if_pos rfl, Text.takeWhile_append_of_head hdigits hstop,
        Text.dropWhile_append_of_head hdigits hstop, hn, Option.map_some]

/-- What stands behind the digits before the point begins with no digit. -/
theorem Fraction.head_append {f e : Text} {q : ℚ} {k : ℤ} (hf : Fraction f q) (he : Exponent e k) :
    ∀ u, (f ++ e).head? = some u → u.isDigit = false := by
  intro u hu
  cases hf with
  | missing => exact (he.head u hu).1
  | digits hn =>
      rw [List.cons_append, List.head?_cons, Option.some.injEq] at hu
      rw [← hu]
      decide

theorem magnitude?_eq_some_iff {t : Text} {q : ℚ} : magnitude? t = some q ↔ Magnitude t q := by
  unfold magnitude?
  simp only [Option.bind_eq_some_iff, Option.map_eq_some_iff, Prod.exists]
  constructor
  · rintro ⟨n, hn, f, rest, hf, k, hk, rfl⟩
    rcases fraction_of_fraction? hf with ⟨fraction, heq, hfraction⟩
    have ht : t.takeWhile CodeUnit.isDigit ++ (fraction ++ rest) = t := by
      rw [← heq, List.takeWhile_append_dropWhile]
    rw [← ht]
    exact .mk (whole?_eq_some_iff.1 hn) hfraction (exponent?_eq_some_iff.1 hk)
  · intro h
    cases h with
    | mk hwhole hfraction hexponent =>
        have hdigits := Text.isDigit_of_natural? hwhole.1
        have hstop := hfraction.head_append hexponent
        rw [Text.takeWhile_append_of_head hdigits hstop,
          Text.dropWhile_append_of_head hdigits hstop]
        exact ⟨_, whole?_eq_some_iff.2 hwhole, _, _, hfraction.read hexponent.head, _,
          exponent?_eq_some_iff.2 hexponent, rfl⟩

theorem Magnitude.exists_cons {t : Text} {q : ℚ} (h : Magnitude t q) :
    ∃ u rest, t = u :: rest ∧ u.isDigit = true := by
  cases h with
  | mk hwhole _ _ =>
      rcases exists_cons_of_natural? hwhole.1 with ⟨u, rest, rfl, hu⟩
      exact ⟨u, _, rfl, hu⟩

/-- A text is read as a number exactly if the grammar has it, and as the
    number it has. -/
theorem number?_eq_some_iff {t : Text} {q : ℚ} : number? t = some q ↔ Numeral t q := by
  constructor
  · intro h
    unfold number? at h
    split at h
    · cases h
    · split at h
      · next hminus =>
          rcases Option.map_eq_some_iff.1 h with ⟨q, hq, rfl⟩
          rw [hminus]
          exact .negative (magnitude?_eq_some_iff.1 hq)
      · exact .unsigned (magnitude?_eq_some_iff.1 h)
  · intro h
    cases h with
    | unsigned h =>
        have hread := magnitude?_eq_some_iff.2 h
        rcases h.exists_cons with ⟨u, rest, rfl, hu⟩
        rw [number?, if_neg (ne_sign_of_isDigit hu).2, hread]
    | negative h => rw [number?, if_pos rfl, magnitude?_eq_some_iff.2 h, Option.map_some]

/-! ## Words -/

/-- A unit of numbers and of the names of constants. -/
def isWordUnit (u : CodeUnit) : Bool :=
  u.isLetter || u.isDigit || u == plus || u == minus || u == CodeUnit.dot

theorem isWordUnit_of_isDigit {u : CodeUnit} (h : u.isDigit = true) : isWordUnit u = true := by
  simp [isWordUnit, h]

theorem isWordUnit_of_isExponentMark {u : CodeUnit} (h : isExponentMark u = true) :
    isWordUnit u = true := by
  rcases isExponentMark_iff.1 h with rfl | rfl <;> decide

theorem isWordUnit_of_natural? {t : Text} {n : Nat} (h : Text.natural? 10 t = some n) :
    ∀ u ∈ t, isWordUnit u = true :=
  fun u hu => isWordUnit_of_isDigit (Text.isDigit_of_natural? h u hu)

theorem Fraction.isWordUnit {t : Text} {q : ℚ} (h : Fraction t q) :
    ∀ u ∈ t, isWordUnit u = true := by
  cases h with
  | missing => simp
  | digits hn =>
      rw [List.forall_mem_cons]
      exact ⟨by decide, isWordUnit_of_natural? hn⟩

theorem Exponent.isWordUnit {t : Text} {k : ℤ} (h : Exponent t k) :
    ∀ u ∈ t, isWordUnit u = true := by
  cases h with
  | missing => simp
  | unsigned hmark hn =>
      rw [List.forall_mem_cons]
      exact ⟨isWordUnit_of_isExponentMark hmark, isWordUnit_of_natural? hn⟩
  | positive hmark hn | negative hmark hn =>
      rw [List.forall_mem_cons, List.forall_mem_cons]
      exact ⟨isWordUnit_of_isExponentMark hmark, by decide, isWordUnit_of_natural? hn⟩

theorem Magnitude.isWordUnit {t : Text} {q : ℚ} (h : Magnitude t q) :
    ∀ u ∈ t, isWordUnit u = true := by
  cases h with
  | mk hwhole hfraction hexponent =>
      rw [List.forall_mem_append, List.forall_mem_append]
      exact ⟨isWordUnit_of_natural? hwhole.1, hfraction.isWordUnit, hexponent.isWordUnit⟩

theorem Numeral.isWordUnit {t : Text} {q : ℚ} (h : Numeral t q) :
    t ≠ [] ∧ ∀ u ∈ t, isWordUnit u = true := by
  cases h with
  | unsigned h =>
      rcases h.exists_cons with ⟨u, rest, rfl, -⟩
      exact ⟨List.cons_ne_nil u rest, h.isWordUnit⟩
  | negative h =>
      rw [List.forall_mem_cons]
      exact ⟨List.cons_ne_nil _ _, by decide, h.isWordUnit⟩

end Json

end GlyphLexer
