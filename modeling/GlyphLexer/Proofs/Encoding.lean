import GlyphLexer.Proofs.Position
import GlyphLexer.Source

/-!
# Texts and their bytes

What becomes of a text that is written as UTF-8 and read one unit for each
byte.

Program text that arrives as bytes is scanned as if every byte were a unit,
so a program that was written as UTF-8 is not scanned as the text that was
meant, but as `Text.recode` of it. Within ASCII there is no difference. A
code point outside ASCII becomes two units or more, and none of them is in
ASCII (`Text.isWide_recode_unit`, `Text.isWide_recode_pair`). A lexer that
tells apart nothing but ASCII units cannot mistake them.

This needs text in which every half of a surrogate pair has its other half,
since a half alone is written as another character. `Text.WellFormed` says
so, and texts that come from strings are of that kind. A well-formed text is
cut into code points, and `Text.WellFormed.first_cases` takes off the first
one: a unit of ASCII, or a piece that is outside ASCII both as text and as
bytes. An ASCII unit is never part of a pair, so a text may be cut at one
(`Text.WellFormed.split`).

## Main definitions

* `CodeUnit.isAscii`: A unit that is written as one byte.
* `Text.WellFormed`: Every half of a surrogate pair is in a pair.
* `Text.recode`: What a text is read as after being written as UTF-8.
* `Text.IsBoundary`: A place between two code points.
* `Text.utf8Offset`: The number of bytes that are written for the units
  before a place.
* `Text.IsWide`: One unit or more, none of them in ASCII.

## Theorems

* `Text.wellFormed_text`: The text of a string is well-formed.
* `Text.WellFormed.recode_append`: Two texts are written one after the other.
* `Text.WellFormed.first_cases`: The first code point of a text.
* `Text.WellFormed.split`: Both sides of an ASCII unit are well-formed.
* `Text.WellFormed.head_recode`: The first unit of what a text is read as.
* `Text.WellFormed.count_newline_recode`: Reading as bytes keeps the lines.
-/

namespace GlyphLexer

/-- A unit that UTF-8 writes as one byte of the same number. -/
def CodeUnit.isAscii (u : CodeUnit) : Bool := u < 0x80

namespace Text

/-- Every half of a surrogate pair has its other half beside it. -/
inductive WellFormed : Text → Prop where
  | nil : WellFormed []
  | unit {u : CodeUnit} {t : Text} (hhigh : u.isHighSurrogate = false)
      (hlow : u.isLowSurrogate = false) (h : WellFormed t) : WellFormed (u :: t)
  | pair {u v : CodeUnit} {t : Text} (hhigh : u.isHighSurrogate = true)
      (hlow : v.isLowSurrogate = true) (h : WellFormed t) : WellFormed (u :: v :: t)

/-- What a text is read as after being written as UTF-8. -/
def recode (t : Text) : Text := (Source.ofBytes (toUtf8 t)).toText

/-- A place in a text that is between two code points, or at one of the
    ends. -/
structure IsBoundary (t : Text) (p : Nat) : Prop where
  le : p ≤ t.length
  before : WellFormed (t.take p)
  behind : WellFormed (t.drop p)

/-- The number of bytes that UTF-8 has for the first `p` units of a text. -/
def utf8Offset (t : Text) (p : Nat) : Nat := (toUtf8 (t.take p)).length

/-- One unit or more, and none of them in ASCII. -/
def IsWide (t : Text) : Prop := t ≠ [] ∧ ∀ u ∈ t, u.isAscii = false

theorem length_recode (t : Text) : (recode t).length = (toUtf8 t).length := List.length_map _

@[simp] theorem recode_nil : recode [] = [] := rfl

theorem recode_eq (t : Text) : recode t = ofLatin1 (toUtf8 t) := rfl

theorem ofLatin1_append (a b : Bytes) : ofLatin1 (a ++ b) = ofLatin1 a ++ ofLatin1 b :=
  List.map_append

end Text

namespace CodeUnit

theorem isAscii_iff {u : CodeUnit} : u.isAscii = true ↔ u.toNat < 0x80 := by
  rw [isAscii, decide_eq_true_eq, UInt16.lt_iff_toNat_lt]
  rfl

theorem isAscii_eq_false_iff {u : CodeUnit} : u.isAscii = false ↔ 0x80 ≤ u.toNat := by
  rw [← Bool.not_eq_true, isAscii_iff, Nat.not_lt]

theorem isHighSurrogate_iff {u : CodeUnit} :
    u.isHighSurrogate = true ↔ 0xD800 ≤ u.toNat ∧ u.toNat ≤ 0xDBFF := by
  rw [isHighSurrogate, Bool.and_eq_true, decide_eq_true_eq, decide_eq_true_eq,
    UInt16.le_iff_toNat_le, UInt16.le_iff_toNat_le]
  rfl

theorem isLowSurrogate_iff {u : CodeUnit} :
    u.isLowSurrogate = true ↔ 0xDC00 ≤ u.toNat ∧ u.toNat ≤ 0xDFFF := by
  rw [isLowSurrogate, Bool.and_eq_true, decide_eq_true_eq, decide_eq_true_eq,
    UInt16.le_iff_toNat_le, UInt16.le_iff_toNat_le]
  rfl

theorem not_isAscii_of_isHighSurrogate {u : CodeUnit} (h : u.isHighSurrogate = true) :
    u.isAscii = false := by
  have := isHighSurrogate_iff.1 h
  rw [isAscii_eq_false_iff]
  omega

theorem not_isAscii_of_isLowSurrogate {u : CodeUnit} (h : u.isLowSurrogate = true) :
    u.isAscii = false := by
  have := isLowSurrogate_iff.1 h
  rw [isAscii_eq_false_iff]
  omega

theorem ne_of_not_isAscii {u v : CodeUnit} (hu : u.isAscii = false) (hv : v.isAscii = true) :
    u ≠ v := by
  rintro rfl
  rw [hu] at hv
  exact absurd hv (by decide)

theorem not_surrogate_of_isAscii {u : CodeUnit} (h : u.isAscii = true) :
    u.isHighSurrogate = false ∧ u.isLowSurrogate = false := by
  refine ⟨?_, ?_⟩
  · by_contra hc
    exact ne_of_not_isAscii (not_isAscii_of_isHighSurrogate (by simpa using hc)) h rfl
  · by_contra hc
    exact ne_of_not_isAscii (not_isAscii_of_isLowSurrogate (by simpa using hc)) h rfl

end CodeUnit

namespace Text

theorem toUtf8_unit {u : CodeUnit} (hhigh : u.isHighSurrogate = false)
    (hlow : u.isLowSurrogate = false) (t : Text) :
    toUtf8 (u :: t) = utf8OfCodePoint u.toNat ++ toUtf8 t := by
  rw [toUtf8.eq_def]
  simp only [hhigh, hlow, Bool.false_eq_true, if_false]

theorem toUtf8_pair {u v : CodeUnit} (hhigh : u.isHighSurrogate = true)
    (hlow : v.isLowSurrogate = true) (t : Text) :
    toUtf8 (u :: v :: t) =
      utf8OfCodePoint (0x10000 + (u.toNat - 0xD800) * 0x400 + (v.toNat - 0xDC00)) ++ toUtf8 t := by
  rw [toUtf8.eq_def]
  simp only [hhigh, hlow, if_true]

theorem recode_unit {u : CodeUnit} (hhigh : u.isHighSurrogate = false)
    (hlow : u.isLowSurrogate = false) (t : Text) :
    recode (u :: t) = ofLatin1 (utf8OfCodePoint u.toNat) ++ recode t := by
  rw [recode_eq, toUtf8_unit hhigh hlow, ofLatin1_append, recode_eq]

theorem recode_pair {u v : CodeUnit} (hhigh : u.isHighSurrogate = true)
    (hlow : v.isLowSurrogate = true) (t : Text) :
    recode (u :: v :: t) =
      ofLatin1 (utf8OfCodePoint (0x10000 + (u.toNat - 0xD800) * 0x400 + (v.toNat - 0xDC00))) ++
        recode t := by
  rw [recode_eq, toUtf8_pair hhigh hlow, ofLatin1_append, recode_eq]

theorem recode_cons {u : CodeUnit} (h : u.isAscii = true) (t : Text) :
    recode (u :: t) = u :: recode t := by
  have hne := CodeUnit.not_surrogate_of_isAscii h
  have hlt := CodeUnit.isAscii_iff.1 h
  -- The one byte has the number of the unit, and a byte of a number is read as
  -- the unit of it.
  have hback : u.toNat.toUInt8.toUInt16 = u := by
    rw [← UInt16.toNat_inj, UInt8.toNat_toUInt16, Nat.toUInt8_eq, UInt8.toNat_ofNat']
    omega
  have hbytes : utf8OfCodePoint u.toNat = [u.toNat.toUInt8] := if_pos hlt
  rw [recode_unit hne.1 hne.2, hbytes, ofLatin1, List.map_cons, hback]
  rfl

theorem recode_of_isAscii {t : Text} (h : ∀ u ∈ t, u.isAscii = true) : recode t = t := by
  induction t with
  | nil => rfl
  | cons u t ih =>
      rw [recode_cons (h u List.mem_cons_self), ih fun v hv => h v (List.mem_cons_of_mem _ hv)]

theorem isWide_of_bytes {l : List Nat} (hne : l ≠ []) (h : ∀ k ∈ l, 0x80 ≤ k ∧ k < 0x100) :
    IsWide (ofLatin1 (l.map Nat.toUInt8)) := by
  refine ⟨by simpa [ofLatin1] using hne, ?_⟩
  intro u hu
  simp only [ofLatin1, List.map_map, List.mem_map, Function.comp_apply] at hu
  rcases hu with ⟨k, hk, rfl⟩
  have hrange := h k hk
  rw [CodeUnit.isAscii_eq_false_iff, UInt8.toNat_toUInt16, Nat.toUInt8_eq, UInt8.toNat_ofNat']
  omega

/-- Every byte of a code point outside ASCII is outside ASCII. -/
theorem isWide_utf8OfCodePoint {n : Nat} (hn : 0x80 ≤ n) (hmax : n < 0x110000) :
    IsWide (ofLatin1 (utf8OfCodePoint n)) := by
  unfold utf8OfCodePoint
  rw [if_neg (by omega)]
  -- Each byte is its mark, `0x80` or more, and a few bits of `n`. That the
  -- first of four bytes does not run over is what `hmax` is for.
  by_cases htwo : n < 0x800
  · rw [if_pos htwo]
    refine isWide_of_bytes (l := [0xC0 + n / 0x40, 0x80 + n % 0x40]) (by simp) ?_
    simp only [List.forall_mem_cons, List.not_mem_nil, IsEmpty.forall_iff, implies_true,
      and_true]
    omega
  by_cases hthree : n < 0x10000
  · rw [if_neg htwo, if_pos hthree]
    refine isWide_of_bytes
      (l := [0xE0 + n / 0x1000, 0x80 + n / 0x40 % 0x40, 0x80 + n % 0x40]) (by simp) ?_
    simp only [List.forall_mem_cons, List.not_mem_nil, IsEmpty.forall_iff, implies_true,
      and_true]
    omega
  · rw [if_neg htwo, if_neg hthree]
    refine isWide_of_bytes
      (l := [0xF0 + n / 0x40000, 0x80 + n / 0x1000 % 0x40, 0x80 + n / 0x40 % 0x40,
        0x80 + n % 0x40]) (by simp) ?_
    simp only [List.forall_mem_cons, List.not_mem_nil, IsEmpty.forall_iff, implies_true,
      and_true]
    omega

theorem isWide_recode_unit {u : CodeUnit} (hhigh : u.isHighSurrogate = false)
    (hlow : u.isLowSurrogate = false) (h : u.isAscii = false) : IsWide (recode [u]) := by
  have hmax := u.toNat_lt
  rw [recode_unit hhigh hlow, recode_nil, List.append_nil]
  exact isWide_utf8OfCodePoint (CodeUnit.isAscii_eq_false_iff.1 h) (by omega)

theorem isWide_recode_pair {u v : CodeUnit} (hhigh : u.isHighSurrogate = true)
    (hlow : v.isLowSurrogate = true) : IsWide (recode [u, v]) := by
  have hu := CodeUnit.isHighSurrogate_iff.1 hhigh
  have hv := CodeUnit.isLowSurrogate_iff.1 hlow
  rw [recode_pair hhigh hlow, recode_nil, List.append_nil]
  exact isWide_utf8OfCodePoint (by omega) (by omega)

theorem IsWide.newline_notMem {t : Text} (h : IsWide t) : CodeUnit.newline ∉ t :=
  fun hmem => absurd (h.2 _ hmem) (by decide)

theorem WellFormed.cons {t : Text} {u : CodeUnit} (h : WellFormed t) (hu : u.isAscii = true) :
    WellFormed (u :: t) :=
  WellFormed.unit (CodeUnit.not_surrogate_of_isAscii hu).1
    (CodeUnit.not_surrogate_of_isAscii hu).2 h

theorem wellFormed_of_isAscii {t : Text} (h : ∀ u ∈ t, u.isAscii = true) : WellFormed t := by
  induction t with
  | nil => exact WellFormed.nil
  | cons u t ih =>
      have ht : WellFormed t := ih fun v hv => h v (List.mem_cons_of_mem _ hv)
      exact ht.cons (h u List.mem_cons_self)

namespace WellFormed

theorem append {s t : Text} (hs : WellFormed s) (ht : WellFormed t) : WellFormed (s ++ t) := by
  induction hs with
  | nil => exact ht
  | unit hhigh hlow _ ih => exact WellFormed.unit hhigh hlow ih
  | pair hhigh hlow _ ih => exact WellFormed.pair hhigh hlow ih

/-- The bytes of a text do not depend on what is written behind it. -/
theorem recode_append {s : Text} (hs : WellFormed s) (t : Text) :
    recode (s ++ t) = recode s ++ recode t := by
  induction hs with
  | nil => rfl
  | @unit u s hhigh hlow _ ih =>
      rw [List.cons_append, recode_unit hhigh hlow, ih, recode_unit hhigh hlow s,
        List.append_assoc]
  | @pair u v s hhigh hlow _ ih =>
      rw [List.cons_append, List.cons_append, recode_pair hhigh hlow, ih,
        recode_pair hhigh hlow s, List.append_assoc]

/-- Both sides of an ASCII unit are well-formed. -/
theorem split {s t : Text} {u : CodeUnit} (h : WellFormed (s ++ u :: t))
    (hu : u.isAscii = true) : WellFormed s ∧ WellFormed t := by
  generalize hl : s ++ u :: t = l at h
  induction h generalizing s with
  | nil => exact absurd hl (by simp)
  | unit hhigh hlow h ih =>
      cases s with
      | nil =>
          rw [List.nil_append, List.cons.injEq] at hl
          rw [hl.2]
          exact ⟨WellFormed.nil, h⟩
      | cons v s =>
          rw [List.cons_append, List.cons.injEq] at hl
          rw [hl.1]
          exact ⟨WellFormed.unit hhigh hlow (ih hl.2).1, (ih hl.2).2⟩
  | pair hhigh hlow h ih =>
      -- The unit is neither of the halves, as these are outside ASCII.
      cases s with
      | nil =>
          rw [List.nil_append, List.cons.injEq] at hl
          exact absurd hl.1.symm
            (CodeUnit.ne_of_not_isAscii (CodeUnit.not_isAscii_of_isHighSurrogate hhigh) hu)
      | cons v s =>
          rw [List.cons_append, List.cons.injEq] at hl
          cases s with
          | nil =>
              rw [List.nil_append, List.cons.injEq] at hl
              exact absurd hl.2.1.symm
                (CodeUnit.ne_of_not_isAscii (CodeUnit.not_isAscii_of_isLowSurrogate hlow) hu)
          | cons w s =>
              rw [List.cons_append, List.cons.injEq] at hl
              rw [hl.1, hl.2.1]
              exact ⟨WellFormed.pair hhigh hlow (ih hl.2.2).1, (ih hl.2.2).2⟩

theorem split_before {s t : Text} {u : CodeUnit} (h : WellFormed (s ++ u :: t))
    (hu : u.isAscii = true) : WellFormed s ∧ WellFormed (u :: t) :=
  ⟨(h.split hu).1, (h.split hu).2.cons hu⟩

theorem split_behind {s t : Text} {u : CodeUnit} (h : WellFormed (s ++ [u] ++ t))
    (hu : u.isAscii = true) : WellFormed (s ++ [u]) ∧ WellFormed t := by
  rw [List.append_assoc] at h
  exact ⟨(h.split hu).1.append (WellFormed.nil.cons hu), (h.split hu).2⟩

/-- The first code point of a text is an ASCII unit, or is outside ASCII in
    both forms. -/
theorem first_cases {t : Text} (h : WellFormed t) :
    t = [] ∨ (∃ u rest, t = u :: rest ∧ u.isAscii = true ∧ WellFormed rest) ∨
      ∃ c rest, t = c ++ rest ∧ IsWide c ∧ IsWide (recode c) ∧ WellFormed c ∧ WellFormed rest := by
  cases h with
  | nil => exact Or.inl rfl
  | @unit u rest hhigh hlow h =>
      -- Only a unit that stands alone can be in ASCII.
      by_cases hu : u.isAscii = true
      · exact Or.inr (Or.inl ⟨u, rest, rfl, hu, h⟩)
      · have hu' : u.isAscii = false := by simpa using hu
        exact Or.inr (Or.inr ⟨[u], rest, rfl, ⟨by simp, by simpa using hu'⟩,
          isWide_recode_unit hhigh hlow hu', WellFormed.unit hhigh hlow WellFormed.nil, h⟩)
  | @pair u v rest hhigh hlow h =>
      have hwide : IsWide [u, v] := by
        refine ⟨by simp, ?_⟩
        simp [CodeUnit.not_isAscii_of_isHighSurrogate hhigh,
          CodeUnit.not_isAscii_of_isLowSurrogate hlow]
      exact Or.inr (Or.inr ⟨[u, v], rest, rfl, hwide, isWide_recode_pair hhigh hlow,
        WellFormed.pair hhigh hlow WellFormed.nil, h⟩)

/-- A text is read as one that begins with the same unit, or with one outside
    ASCII. -/
theorem exists_recode_eq_cons {u : CodeUnit} {t : Text} (h : WellFormed (u :: t)) :
    ∃ v rest, recode (u :: t) = v :: rest ∧ (v = u ∨ v.isAscii = false) := by
  rcases h.first_cases with hnil | ⟨u', rest, heq, hu, _⟩ | ⟨c, rest, heq, _, hwide, hc, _⟩
  · exact absurd hnil (List.cons_ne_nil _ _)
  · rw [List.cons.injEq] at heq
    rw [← heq.1] at hu
    exact ⟨u, recode t, recode_cons hu t, Or.inl rfl⟩
  · rw [heq, hc.recode_append]
    cases hbytes : recode c with
    | nil => exact absurd hbytes hwide.1
    | cons v bytes =>
        refine ⟨v, bytes ++ recode rest, rfl, Or.inr (hwide.2 v ?_)⟩
        rw [hbytes]
        exact List.mem_cons_self

theorem head_recode {t : Text} {v : CodeUnit} (h : WellFormed t)
    (hv : (recode t).head? = some v) : t.head? = some v ∨ v.isAscii = false := by
  cases t with
  | nil => exact absurd hv (by simp)
  | cons u t =>
      rcases h.exists_recode_eq_cons with ⟨w, rest, heq, hw⟩
      rw [heq, List.head?_cons, Option.some.injEq] at hv
      rw [← hv, List.head?_cons, Option.some.injEq]
      exact hw.imp_left Eq.symm

/-- Newlines are ASCII, so a text is read as one of the same number of
    lines. -/
theorem count_newline_recode {t : Text} (h : WellFormed t) :
    (recode t).count CodeUnit.newline = t.count CodeUnit.newline := by
  induction hn : t.length using Nat.strong_induction_on generalizing t with
  | _ n ih =>
      rcases h.first_cases with rfl | ⟨u, rest, rfl, hu, hrest⟩ |
        ⟨c, rest, rfl, hwide, hwide', hc, hrest⟩
      · rfl
      · rw [List.length_cons] at hn
        rw [recode_cons hu, List.count_cons, List.count_cons, ih rest.length (by omega) hrest rfl]
      · -- The code point has no newline as text, and none as bytes.
        have hpos := List.length_pos_iff.2 hwide.1
        rw [List.length_append] at hn
        rw [hc.recode_append, List.count_append, List.count_append,
          ih rest.length (by omega) hrest rfl, List.count_eq_zero.2 hwide.newline_notMem,
          List.count_eq_zero.2 hwide'.newline_notMem]

end WellFormed

theorem isBoundary_append {s t : Text} (hs : WellFormed s) (ht : WellFormed t) :
    IsBoundary (s ++ t) s.length := by
  refine ⟨by simp, ?_, ?_⟩
  · rwa [List.take_left]
  · rwa [List.drop_left]

theorem utf8Offset_append (s t : Text) : utf8Offset (s ++ t) s.length = (recode s).length := by
  rw [utf8Offset, List.take_left, length_recode]

theorem wellFormed_ofCodePoint (c : Char) : WellFormed (ofCodePoint c.toNat) := by
  -- A character is no surrogate itself, and beyond the basic plane it is small
  -- enough for a pair.
  have hvalid : c.toNat < 0xD800 ∨ 0xDFFF < c.toNat ∧ c.toNat < 0x110000 := c.valid
  unfold ofCodePoint
  split
  · refine WellFormed.unit ?_ ?_ WellFormed.nil
    · rw [← Bool.not_eq_true, CodeUnit.isHighSurrogate_iff, UInt16.toNat_ofNat']
      omega
    · rw [← Bool.not_eq_true, CodeUnit.isLowSurrogate_iff, UInt16.toNat_ofNat']
      omega
  · refine WellFormed.pair ?_ ?_ WellFormed.nil
    · rw [CodeUnit.isHighSurrogate_iff, UInt16.toNat_ofNat']
      omega
    · rw [CodeUnit.isLowSurrogate_iff, UInt16.toNat_ofNat']
      omega

/-- The text of a string has no half of a surrogate pair without its other
    half. -/
theorem wellFormed_text (s : String) : WellFormed (text s) := by
  unfold text
  induction s.toList with
  | nil => exact WellFormed.nil
  | cons c cs ih => exact (wellFormed_ofCodePoint c).append ih

end Text

end GlyphLexer
