import GlyphLexer.Proofs.Grammar.Recode
import GlyphLexer.Proofs.Json.Decoder

/-!
# Documents read back

What this program writes as JSON is JSON, and says what was to be written.

A string is escaped unit by unit, except that the two halves of a surrogate
pair are kept together. Each escape is one that the grammar has, and a pair
stands for itself unit by unit, so the escaped text is taken apart along the
recursion that put it together. No half of a pair is left alone in it,
whatever the string was, and so a document can be encoded
(`Json.wellFormed_pretty`).

The lines of a layout are white space to the grammar. A line break with its
indentation stands before every member, which makes it part of the text of
the member, and the last one stands before the closing bracket. An array
without members has none of them, and is the two brackets
(`Json.block_eq_bracketed`).

## Main definitions

* `Text.named`: The units that have an escape of two units.
* `Json.value`: What a document of the program is to say.
* `Json.lineBreak`, `Json.fieldEntry`: The parts of a layout.
* `Json.IsDocument`: A text is a document and is decoded.

## Theorems

* `Text.escapedUnit_cases`: How a unit is written.
* `Text.characters_escaped`: An escaped text stands for the text.
* `Text.numeral_ofInt`: The numeral of an integer is a number of the grammar.
* `Json.induction`: A property of documents, from their members and fields.
* `Json.denotes_pretty`: The text of a document says what the document is to
  say.
* `Json.wellFormed_pretty`: It has no half of a surrogate pair alone.
* `Json.isDocument_pretty`: Both, and that it is decoded.
-/

namespace GlyphLexer

namespace Text

/-! ## Strings -/

theorem digitValue?_hexDigit (n : Nat) : (hexDigit n).digitValue? = some (n % 16) :=
  CodeUnit.digitValue?_ofChar_digitChar (Nat.mod_lt n (by decide))

/-- The four digits of an escape are read as the number of the unit. -/
theorem natural?_hexDigits (u : CodeUnit) :
    natural? 16 [hexDigit (u.toNat / 4096), hexDigit (u.toNat / 256), hexDigit (u.toNat / 16),
      hexDigit u.toNat] = some u.toNat := by
  have hdigit : ∀ acc n : Nat, addDigit? 16 acc (hexDigit n) = some (acc * 16 + n % 16) := by
    intro acc n
    have hlt : n % 16 < 16 := Nat.mod_lt n (by decide)
    simp only [addDigit?, digitValue?_hexDigit, if_pos hlt]
  have hmax : u.toNat < 65536 := u.toNat_lt
  simp only [natural?, List.isEmpty_cons, Bool.false_eq_true, if_false, List.foldlM_cons, hdigit,
    Option.bind_eq_bind, Option.bind_some, List.foldlM_nil, Option.pure_def, Option.some.injEq]
  omega

theorem characters_numericEscape (u : CodeUnit) : Json.Characters (numericEscape u) [u] := by
  have h := Json.Characters.numeric (natural?_hexDigits u) .nil
  rwa [UInt16.ofNat_toNat] at h

theorem isPlain_of_surrogate {u : CodeUnit}
    (h : u.isHighSurrogate = true ∨ u.isLowSurrogate = true) :
    Json.isPlain u = true := by
  have hwide : u.isAscii = false := by
    rcases h with hhigh | hlow
    · exact CodeUnit.not_isAscii_of_isHighSurrogate hhigh
    · exact CodeUnit.not_isAscii_of_isLowSurrogate hlow
  have hquote : u ≠ CodeUnit.quote := CodeUnit.ne_of_not_isAscii hwide (by decide)
  have hbackslash : u ≠ CodeUnit.backslash := CodeUnit.ne_of_not_isAscii hwide (by decide)
  have hspace : 32 ≤ u := by
    have hle := CodeUnit.isAscii_eq_false_iff.1 hwide
    have hvalue : (32 : UInt16).toNat = 32 := rfl
    rw [UInt16.le_iff_toNat_le]
    omega
  simp [Json.isPlain, hquote, hbackslash, hspace]

/-- The units that are written as escapes of two units. -/
def named : List CodeUnit :=
  [CodeUnit.quote, CodeUnit.backslash, 8, CodeUnit.tab, CodeUnit.newline, 12,
    CodeUnit.carriageReturn]

theorem escapedUnit_of_mem_named {u : CodeUnit} (h : u ∈ named) :
    ∃ mark, (mark, u) ∈ Json.shortEscapes ∧ escapedUnit u = [CodeUnit.backslash, mark] := by
  have hall : (named.all fun v => Json.shortEscapes.any fun e =>
      e.2 == v && escapedUnit v == [CodeUnit.backslash, e.1]) = true := by decide
  have hu := List.all_eq_true.1 hall u h
  simp only [List.any_eq_true, Bool.and_eq_true, beq_iff_eq] at hu
  rcases hu with ⟨⟨mark, v⟩, hmem, rfl, heq⟩
  exact ⟨mark, hmem, heq⟩

theorem escapedUnit_of_notMem_named {u : CodeUnit} (h : u ∉ named) :
    escapedUnit u =
      if u < 32 || u.isHighSurrogate || u.isLowSurrogate then numericEscape u else [u] := by
  simp only [named, List.mem_cons, List.not_mem_nil, or_false, not_or] at h
  rcases h with ⟨h1, h2, h3, h4, h5, h6, h7⟩
  rw [escapedUnit, if_neg h1, if_neg h2, if_neg h3, if_neg h4, if_neg h5, if_neg h6, if_neg h7]

/-- A unit is written as an escape of two units, as one that gives its
    number, or as itself. -/
theorem escapedUnit_cases (u : CodeUnit) :
    (∃ mark, (mark, u) ∈ Json.shortEscapes ∧ escapedUnit u = [CodeUnit.backslash, mark]) ∨
      escapedUnit u = numericEscape u ∨
      (Json.isPlain u = true ∧ u.isHighSurrogate = false ∧ u.isLowSurrogate = false ∧
        escapedUnit u = [u]) := by
  by_cases hmem : u ∈ named
  · exact Or.inl (escapedUnit_of_mem_named hmem)
  · rw [escapedUnit_of_notMem_named hmem]
    split
    · exact Or.inr (Or.inl rfl)
    · next hplain =>
        simp only [Bool.or_eq_true, decide_eq_true_eq, not_or, Bool.not_eq_true,
          UInt16.not_lt] at hplain
        simp only [named, List.mem_cons, not_or] at hmem
        refine Or.inr (Or.inr ⟨?_, hplain.1.2, hplain.2, rfl⟩)
        simp [Json.isPlain, hmem.1, hmem.2.1, hplain.1.1]

/-- A unit is written as an escape of the grammar, or as itself. -/
theorem characters_escapedUnit (u : CodeUnit) : Json.Characters (escapedUnit u) [u] := by
  rcases escapedUnit_cases u with ⟨mark, hmark, heq⟩ | heq | ⟨hplain, -, -, heq⟩
  · rw [heq]
    exact .short hmark .nil
  · rw [heq]
    exact characters_numericEscape u
  · rw [heq]
    exact .plain hplain .nil

theorem characters_escaped (t : Text) : Json.Characters (escaped t) t := by
  -- A pair of halves is two units that stand for themselves, and any other unit
  -- is on its own.
  fun_induction escaped t with
  | case1 => exact .nil
  | case2 u => exact characters_escapedUnit u
  | case3 u v rest hpair ih =>
      rw [Bool.and_eq_true] at hpair
      exact .plain (isPlain_of_surrogate (Or.inl hpair.1))
        (.plain (isPlain_of_surrogate (Or.inr hpair.2)) ih)
  | case4 u v rest _ ih => exact (characters_escapedUnit u).append ih

theorem wellFormed_numericEscape (u : CodeUnit) : WellFormed (numericEscape u) := by
  have hdigit : ∀ n, (hexDigit n).isAscii = true := by
    intro n
    have hall : ∀ d < 16, (CodeUnit.ofChar (Nat.digitChar d)).isAscii = true := by decide
    exact hall (n % 16) (Nat.mod_lt n (by decide))
  refine (wellFormed_text "\\u").append (wellFormed_of_isAscii ?_)
  simp only [List.forall_mem_cons, hdigit, List.not_mem_nil, false_implies, implies_true, and_self]

theorem wellFormed_escapedUnit (u : CodeUnit) : WellFormed (escapedUnit u) := by
  rcases escapedUnit_cases u with ⟨mark, hmark, heq⟩ | heq | ⟨-, hhigh, hlow, heq⟩
  · have hall : (Json.shortEscapes.all fun e => e.1.isAscii) = true := by decide
    have hascii : mark.isAscii = true := List.all_eq_true.1 hall (mark, u) hmark
    rw [heq]
    exact (WellFormed.nil.cons hascii).cons (by decide)
  · rw [heq]
    exact wellFormed_numericEscape u
  · rw [heq]
    exact .unit hhigh hlow .nil

theorem wellFormed_escaped (t : Text) : WellFormed (escaped t) := by
  fun_induction escaped t with
  | case1 => exact .nil
  | case2 u => exact wellFormed_escapedUnit u
  | case3 u v rest hpair ih =>
      rw [Bool.and_eq_true] at hpair
      exact .pair hpair.1 hpair.2 ih
  | case4 u v rest _ ih => exact (wellFormed_escapedUnit u).append ih

/-! ## Numbers -/

theorem whole_ofNat (n : Nat) : Json.Whole (ofNat n) n := by
  refine ⟨natural?_ofNat n, ?_⟩
  intro hzero
  rw [head?_ofNat_eq_zero_iff] at hzero
  rw [hzero]
  decide

theorem magnitude_ofNat (n : Nat) : Json.Magnitude (ofNat n) n := by
  have h := Json.Magnitude.mk (whole_ofNat n) .missing .missing
  rwa [List.append_nil, List.append_nil, add_zero, zpow_zero, mul_one] at h

theorem numeral_ofInt (n : Int) : Json.Numeral (ofInt n) n := by
  by_cases hneg : n < 0
  · have hvalue : (n : ℚ) = -(n.natAbs : ℚ) := by
      rw [← Int.cast_natCast, ← Int.cast_neg, Int.ofNat_natAbs_of_nonpos (by omega), neg_neg]
    rw [ofInt_of_neg hneg, hvalue]
    exact .negative (magnitude_ofNat n.natAbs)
  · have hvalue : (n : ℚ) = (n.natAbs : ℚ) := by
      rw [← Int.cast_natCast, Int.natAbs_of_nonneg (by omega)]
    rw [ofInt_of_nonneg (by omega), hvalue]
    exact .unsigned (magnitude_ofNat n.natAbs)

end Text

namespace Json

/-! ## Layouts -/

mutual

/-- What a document is to say. -/
def value : Json → Value
  | number n => .number n
  | string t => .string t
  | array items => .array (values items)
  | object fields => .object (members fields)

/-- What the members of a list are to say. -/
def values : List Json → List Value
  | [] => []
  | item :: rest => item.value :: values rest

/-- What the fields of an object are to say. -/
def members : List (Text × Json) → List (Text × Value)
  | [] => []
  | (name, item) :: rest => (name, item.value) :: members rest

end

theorem values_eq_map (items : List Json) : values items = items.map value := by
  induction items with
  | nil => rfl
  | cons item rest ih => rw [values, ih, List.map_cons]

theorem members_eq_map (fields : List (Text × Json)) :
    members fields = fields.map fun f => (f.1, f.2.value) := by
  induction fields with
  | nil => rfl
  | cons field rest ih => rw [members, ih, List.map_cons]

theorem layoutItems_eq_map (indent : Nat) (items : List Json) :
    layoutItems indent items = items.map (layout indent) := by
  induction items with
  | nil => rfl
  | cons item rest ih => rw [layoutItems, ih, List.map_cons]

theorem layoutFields_eq_map (indent : Nat) (fields : List (Text × Json)) :
    layoutFields indent fields =
      fields.map fun f => f.1.quoted ++ text ": " ++ layout indent f.2 := by
  induction fields with
  | nil => rfl
  | cons field rest ih => rw [layoutFields, ih, List.map_cons]

/-- A line break and the indentation behind it. -/
def lineBreak (indent : Nat) : Text := CodeUnit.newline :: List.replicate indent CodeUnit.space

theorem isSpace_lineBreak (indent : Nat) : IsSpace (lineBreak indent) := by
  intro u hu
  rcases List.mem_cons.1 hu with rfl | hmem
  · decide
  · rw [List.eq_of_mem_replicate hmem]
    decide

theorem intercalate_append_lineBreak (w : Text) {parts : List Text} (hne : parts ≠ []) :
    w ++ List.intercalate (text "," ++ w) parts =
      List.intercalate [comma] (parts.map fun p => w ++ p) := by
  induction parts with
  | nil => exact absurd rfl hne
  | cons p parts ih =>
      by_cases hrest : parts = []
      · simp [hrest]
      · rw [List.intercalate_cons_of_ne_nil hrest, List.map_cons,
          List.intercalate_cons_of_ne_nil (by simpa using hrest), ← ih hrest]
        simp only [List.append_assoc]
        rfl

/-- Each line break stands before a member, except the one before the closing
    bracket. -/
theorem block_eq_bracketed (left right : CodeUnit) (indent : Nat) (parts : List Text) :
    block [left] [right] indent parts =
      bracketed left (parts.map fun p => lineBreak (indent + 2) ++ p)
        (if parts.isEmpty then [] else lineBreak indent) right := by
  by_cases hne : parts = []
  · rw [hne]
    rfl
  · have hempty : parts.isEmpty = false := List.isEmpty_eq_false_iff.2 hne
    rw [bracketed, ← intercalate_append_lineBreak _ hne, block, hempty]
    simp only [Bool.false_eq_true, if_false, lineBreak]
    simp

theorem denotes_quoted (t : Text) : Denotes t.quoted (.string t) :=
  .string (Text.characters_escaped t)

/-- A property of documents, from that of the members of lists and of the
    fields of objects. -/
theorem induction {motive : Json → Prop} (number : ∀ n, motive (.number n))
    (string : ∀ t, motive (.string t))
    (array : ∀ items, (∀ j ∈ items, motive j) → motive (.array items))
    (object : ∀ fields, (∀ f ∈ fields, motive f.2) → motive (.object fields)) (j : Json) :
    motive j := by
  -- The recursion goes through lists, and there the property is that of every
  -- member.
  refine @Json.rec motive (fun items => ∀ j ∈ items, motive j)
    (fun fields => ∀ f ∈ fields, motive f.2) (fun f => motive f.2) number string array object
    ?_ ?_ ?_ ?_ ?_ j
  · intro j hj
    exact absurd hj List.not_mem_nil
  · intro item rest hitem hrest
    exact List.forall_mem_cons.2 ⟨hitem, hrest⟩
  · intro f hf
    exact absurd hf List.not_mem_nil
  · intro field rest hfield hrest
    exact List.forall_mem_cons.2 ⟨hfield, hrest⟩
  · intro name item hitem
    exact hitem

theorem layout_array (indent : Nat) (items : List Json) :
    layout indent (.array items) =
      bracketed leftBracket (items.map fun j => lineBreak (indent + 2) ++ layout (indent + 2) j)
        (if items.isEmpty then [] else lineBreak indent) rightBracket := by
  have hleft : text "[" = [leftBracket] := by decide
  have hright : text "]" = [rightBracket] := by decide
  rw [layout, hleft, hright, block_eq_bracketed, layoutItems_eq_map, List.map_map, List.isEmpty_map]
  rfl

/-- The text of one field, behind its line break. -/
def fieldEntry (indent : Nat) (f : Text × Json) : Entry :=
  ⟨lineBreak indent ++ f.1.quoted, f.1, CodeUnit.space :: layout indent f.2, f.2.value⟩

theorem layout_object (indent : Nat) (fields : List (Text × Json)) :
    layout indent (.object fields) =
      bracketed CodeUnit.leftBrace ((fields.map (fieldEntry (indent + 2))).map Entry.written)
        (if fields.isEmpty then [] else lineBreak indent) CodeUnit.rightBrace := by
  have hleft : text "\x7b" = [CodeUnit.leftBrace] := by decide
  have hright : text "\x7d" = [CodeUnit.rightBrace] := by decide
  have hcolon : text ": " = [colon, CodeUnit.space] := by decide
  rw [layout, hleft, hright, block_eq_bracketed, layoutFields_eq_map, List.map_map,
    List.isEmpty_map, List.map_map, hcolon]
  congr 1
  refine List.map_congr_left fun f _ => ?_
  simp [fieldEntry, Entry.written]

/-- Nothing, or a line break before the closing bracket. -/
theorem isSpace_ite_lineBreak (b : Bool) (indent : Nat) :
    IsSpace (if b then [] else lineBreak indent) := by
  cases b with
  | true => exact isSpace_nil
  | false => exact isSpace_lineBreak indent

theorem denotes_layout (j : Json) : ∀ indent, Denotes (layout indent j) j.value := by
  induction j using Json.induction with
  | number n =>
      intro indent
      exact .number (Text.numeral_ofInt n)
  | string t =>
      intro indent
      exact denotes_quoted t
  | array items ih =>
      intro indent
      have hparts :
          ∀ p ∈ items.map fun j => (lineBreak (indent + 2) ++ layout (indent + 2) j, j.value),
            Denotes p.1 p.2 := by
        rw [List.forall_mem_map]
        intro j hj
        exact denotes_spaced_before (isSpace_lineBreak _) (ih j hj _)
      have h := Denotes.array hparts (isSpace_ite_lineBreak items.isEmpty indent)
      rw [List.map_map, List.map_map] at h
      rw [layout_array, value, values_eq_map]
      exact h
  | object fields ih =>
      intro indent
      have hname :
          ∀ e ∈ fields.map (fieldEntry (indent + 2)), Denotes e.label (.string e.name) := by
        rw [List.forall_mem_map]
        intro f hf
        exact denotes_spaced_before (isSpace_lineBreak _) (denotes_quoted f.1)
      have hbody : ∀ e ∈ fields.map (fieldEntry (indent + 2)), Denotes e.body e.value := by
        rw [List.forall_mem_map]
        intro f hf
        exact denotes_spaced_before (List.forall_mem_singleton.2 (by decide)) (ih f hf _)
      have h := Denotes.object hname hbody (isSpace_ite_lineBreak fields.isEmpty indent)
      have hmember : (fields.map (fieldEntry (indent + 2))).map Entry.member =
          fields.map fun f => (f.1, f.2.value) := List.map_map
      rw [hmember] at h
      rw [layout_object, value, members_eq_map]
      exact h

theorem denotes_pretty (j : Json) : Denotes j.pretty j.value := denotes_layout j 0

/-! ## Surrogate pairs -/

theorem wellFormed_intercalate {parts : List Text} (h : ∀ p ∈ parts, p.WellFormed) :
    Text.WellFormed (List.intercalate [comma] parts) := by
  induction parts with
  | nil => exact .nil
  | cons p parts ih =>
      rw [List.forall_mem_cons] at h
      by_cases hne : parts = []
      · rw [hne, List.intercalate_singleton]
        exact h.1
      · rw [List.intercalate_cons_of_ne_nil hne, List.append_assoc]
        exact h.1.append ((ih h.2).cons (by decide))

theorem wellFormed_bracketed {left right : CodeUnit} {parts : List Text} {w : Text}
    (hleft : left.isAscii = true) (hright : right.isAscii = true)
    (hparts : ∀ p ∈ parts, p.WellFormed) (hw : w.WellFormed) :
    (bracketed left parts w right).WellFormed := by
  have hend : Text.WellFormed (w ++ [right]) := hw.append (.cons .nil hright)
  exact ((wellFormed_intercalate hparts).append hend).cons hleft

theorem wellFormed_of_isSpace {w : Text} (hw : IsSpace w) : w.WellFormed := by
  refine Text.wellFormed_of_isAscii fun u hu => ?_
  rcases isSpace_iff.1 (hw u hu) with rfl | rfl | rfl | rfl <;> decide

theorem wellFormed_quoted (t : Text) : t.quoted.WellFormed :=
  ((Text.wellFormed_text "\"").append (Text.wellFormed_escaped t)).append
    (Text.wellFormed_text "\"")

theorem wellFormed_ofInt (n : Int) : (Text.ofInt n).WellFormed := by
  unfold Text.ofInt
  have hdigits : (Text.ofNat n.natAbs).WellFormed :=
    Text.wellFormed_of_isAscii fun u hu =>
      CodeUnit.isAscii_of_isDigit (Text.isDigit_of_mem_ofNat hu)
  split
  · exact (Text.wellFormed_text "-").append hdigits
  · exact hdigits

theorem wellFormed_layout (j : Json) : ∀ indent, (layout indent j).WellFormed := by
  induction j using Json.induction with
  | number n =>
      intro indent
      exact wellFormed_ofInt n
  | string t =>
      intro indent
      exact wellFormed_quoted t
  | array items ih =>
      intro indent
      rw [layout_array]
      refine wellFormed_bracketed (by decide) (by decide) ?_
        (wellFormed_of_isSpace (isSpace_ite_lineBreak items.isEmpty indent))
      rw [List.forall_mem_map]
      intro j hj
      exact (wellFormed_of_isSpace (isSpace_lineBreak _)).append (ih j hj _)
  | object fields ih =>
      intro indent
      rw [layout_object]
      refine wellFormed_bracketed (by decide) (by decide) ?_
        (wellFormed_of_isSpace (isSpace_ite_lineBreak fields.isEmpty indent))
      rw [List.map_map, List.forall_mem_map]
      intro f hf
      have hlabel := (wellFormed_of_isSpace (isSpace_lineBreak (indent + 2))).append
        (wellFormed_quoted f.1)
      have hbody : Text.WellFormed (CodeUnit.space :: layout (indent + 2) f.2) :=
        (ih f hf _).cons (by decide)
      exact hlabel.append (hbody.cons (by decide))

/-- No half of a surrogate pair stands alone in the text of a document,
    whatever its strings have. -/
theorem wellFormed_pretty (j : Json) : j.pretty.WellFormed := wellFormed_layout j 0

/-- A text is a document that can be encoded, and says a value that the
    decoder finds in it. -/
structure IsDocument (t : Text) (v : Value) : Prop where
  wellFormed : t.WellFormed
  denotes : Denotes t v
  decoded : decode? t = some v

theorem isDocument_pretty (j : Json) : IsDocument j.pretty j.value :=
  ⟨wellFormed_pretty j, denotes_pretty j, decode?_eq_some_iff.2 (denotes_pretty j)⟩

end Json

end GlyphLexer
