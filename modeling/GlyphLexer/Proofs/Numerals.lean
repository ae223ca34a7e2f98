import GlyphLexer.Proofs.Lines
import GlyphLexer.Text.Digits

/-!
# Numerals read back

A numeral says which number it is of, also where something else is printed
behind it.

Numerals are printed from their last digit forwards, and so they are read
back by induction on the number: the digits before the last one are the
numeral of the tenth part (`Text.ofNat_of_le`). A numeral in a longer text is
the run of digits there, as long as what follows does not begin with a digit
(`Text.ofNat_append_inj`). The sign of an integer comes before its digits,
and a digit is no sign, which settles integers as well
(`Text.ofInt_append_inj`).

## Theorems

* `CodeUnit.digitValue?_ofChar_digitChar`: The value of the digit of a
  number.
* `Text.ofNat_of_lt`, `Text.ofNat_of_le`: The numeral of one digit, and the
  one of more.
* `Text.natural?_ofNat`: A numeral is read as the number it is of.
* `Text.head?_ofNat_eq_zero_iff`: No numeral but that of zero begins with a
  zero.
* `Text.ofNat_append_inj`, `Text.ofInt_append_inj`: The numeral that a text
  begins with.
-/

namespace GlyphLexer

theorem CodeUnit.digitValue?_ofChar_digitChar {d : Nat} (h : d < 16) :
    (ofChar (Nat.digitChar d)).digitValue? = some d := by
  have hall : ∀ d < 16, (ofChar (Nat.digitChar d)).digitValue? = some d := by decide
  exact hall d h

/-- The digit zero. -/
abbrev CodeUnit.zero : CodeUnit := 48

namespace Text

theorem ofNat_ne_nil (n : Nat) : ofNat n ≠ [] := by
  rw [ofNat, Ne, List.map_eq_nil_iff]
  exact Nat.toDigits_ne_nil

theorem ofNat_of_lt {n : Nat} (h : n < 10) : ofNat n = [CodeUnit.ofChar (Nat.digitChar n)] := by
  rw [ofNat, Nat.toDigits_of_lt_base h, List.map_singleton]

theorem ofNat_of_le {n : Nat} (h : 10 ≤ n) :
    ofNat n = ofNat (n / 10) ++ [CodeUnit.ofChar (Nat.digitChar (n % 10))] := by
  rw [ofNat, Nat.toDigits_of_base_le (by decide) h, List.map_append, List.map_singleton, ofNat]

/-- One more digit behind digits that have been read. -/
theorem natural?_concat {t : Text} {u : CodeUnit} {n d : Nat} (ht : natural? 10 t = some n)
    (hu : u.digitValue? = some d) (hd : d < 10) : natural? 10 (t ++ [u]) = some (n * 10 + d) := by
  unfold natural? at ht ⊢
  cases t with
  | nil => cases ht
  | cons v t =>
      rw [List.isEmpty_cons, if_neg Bool.false_ne_true] at ht
      rw [List.cons_append, List.isEmpty_cons, if_neg Bool.false_ne_true, ← List.cons_append,
        List.foldlM_append, ht]
      simp [addDigit?, hu, hd]

theorem natural?_ofNat (n : Nat) : natural? 10 (ofNat n) = some n := by
  induction n using Nat.strong_induction_on with
  | _ n ih =>
      by_cases hlt : n < 10
      · have hvalue := CodeUnit.digitValue?_ofChar_digitChar (show n < 16 by omega)
        rw [ofNat_of_lt hlt]
        simp [natural?, addDigit?, hvalue, hlt]
      · -- The last digit is the remainder, and what is before it the numeral of the quotient.
        have hrest := ih (n / 10) (by omega)
        have hvalue := CodeUnit.digitValue?_ofChar_digitChar (show n % 10 < 16 by omega)
        rw [ofNat_of_le (by omega), natural?_concat hrest hvalue (by omega), Option.some.injEq]
        omega

theorem ofNat_inj {m n : Nat} : ofNat m = ofNat n ↔ m = n := by
  constructor
  · intro h
    have hread := congrArg (natural? 10) h
    rw [natural?_ofNat, natural?_ofNat] at hread
    exact Option.some.inj hread
  · rintro rfl
    rfl

/-- No numeral but that of zero begins with a zero. -/
theorem head?_ofNat_eq_zero_iff {n : Nat} : (ofNat n).head? = some CodeUnit.zero ↔ n = 0 := by
  constructor
  · intro h
    induction n using Nat.strong_induction_on with
    | _ n ih =>
        by_cases hlt : n < 10
        · have hall : ∀ n < 10, (ofNat n).head? = some CodeUnit.zero → n = 0 := by decide
          exact hall n hlt h
        · rw [ofNat_of_le (by omega), List.head?_append_of_ne_nil _ (ofNat_ne_nil _)] at h
          have hzero := ih (n / 10) (by omega) h
          omega
  · rintro rfl
    rfl

/-- The numeral that a text begins with, where no digit follows it. -/
theorem ofNat_append_inj {m n : Nat} {s t : Text} (hs : ∀ u, s.head? = some u → u.isDigit = false)
    (ht : ∀ u, t.head? = some u → u.isDigit = false) (h : ofNat m ++ s = ofNat n ++ t) :
    m = n ∧ s = t := by
  -- Each numeral is the run of digits in front.
  have hrun := run_append_inj (fun u hu => isDigit_of_mem_ofNat hu)
    (fun u hu => isDigit_of_mem_ofNat hu) hs ht h
  exact ⟨ofNat_inj.1 hrun.1, hrun.2⟩

theorem ofInt_of_neg {n : Int} (h : n < 0) : ofInt n = text "-" ++ ofNat n.natAbs := by
  rw [ofInt, if_pos h]

theorem ofInt_of_nonneg {n : Int} (h : 0 ≤ n) : ofInt n = ofNat n.natAbs := by
  rw [ofInt, if_neg (by omega)]

/-- Digits do not begin with a sign. -/
theorem ofNat_append_ne_minus (n : Nat) (s t : Text) : ofNat n ++ s ≠ text "-" ++ t := by
  intro h
  cases hn : ofNat n with
  | nil => exact ofNat_ne_nil n hn
  | cons u digits =>
      have hdigit : u.isDigit = true := isDigit_of_mem_ofNat (by rw [hn]; exact List.mem_cons_self)
      rw [hn, List.cons_append] at h
      have hminus : u = CodeUnit.ofChar '-' := (List.cons.inj h).1
      rw [hminus] at hdigit
      exact absurd hdigit (by decide)

theorem ofInt_append_inj {m n : Int} {s t : Text} (hs : ∀ u, s.head? = some u → u.isDigit = false)
    (ht : ∀ u, t.head? = some u → u.isDigit = false) (h : ofInt m ++ s = ofInt n ++ t) :
    m = n ∧ s = t := by
  -- The signs agree, since no digits look like one, and then the digits behind
  -- them do.
  by_cases hm : m < 0
  · rw [ofInt_of_neg hm, List.append_assoc] at h
    by_cases hn : n < 0
    · rw [ofInt_of_neg hn, List.append_assoc, List.append_cancel_left_eq] at h
      rcases ofNat_append_inj hs ht h with ⟨habs, hrest⟩
      exact ⟨by omega, hrest⟩
    · rw [ofInt_of_nonneg (by omega)] at h
      exact absurd h.symm (ofNat_append_ne_minus _ _ _)
  · rw [ofInt_of_nonneg (by omega)] at h
    by_cases hn : n < 0
    · rw [ofInt_of_neg hn, List.append_assoc] at h
      exact absurd h (ofNat_append_ne_minus _ _ _)
    · rw [ofInt_of_nonneg (by omega)] at h
      rcases ofNat_append_inj hs ht h with ⟨habs, hrest⟩
      exact ⟨by omega, hrest⟩

end Text

end GlyphLexer
