import GlyphLexer.Proofs.Json.Scalars

/-!
# A decoder of JSON

A decoder, and that it accepts what the grammar has and nothing else.

The decoder reads one value with the white space on both sides of it, and
hands on what is left. So it has to be said of a text what is read where the
text stands in front of something else. A number would go on if a digit stood
there, and not every rest will do: behind the white space there has to be a
comma, a colon, a closing bracket or nothing (`Json.Ends`). Between the
members of an array or an object that is always so, and `Json.ReadsBack` is
the statement that the induction over the grammar is about.

Members are read in the same way for arrays and objects, by a reader of one
member. What is said of that reader is said for any kind of member, with the
text it is written as and what it says.

Values in values are counted down, and so are members. Neither count runs out
before the text does, since every bracket and every comma is a unit of the
text.

## Main definitions

* `Json.isCloser`, `Json.skip`, `Json.Ends`: A value may end in front of a
  text.
* `Json.readSequence`, `Json.readBracketed`: Members up to the closing
  bracket.
* `Json.readWord`, `Json.readMember`, `Json.readItem`: A constant or a
  number, a member of an object, a value.
* `Json.decode?`: The value that a text says.
* `Json.ReadsOnly`, `Json.Sound`: What a reader takes off, and that it takes
  off values.
* `Json.ReadsBack`, `Json.Opens`: A reader takes off a text, and finds
  nothing in front of a closing mark.

## Theorems

* `Json.sound_readItem`: What is read is in the grammar.
* `Json.Denotes.readsBack`: What is in the grammar is read.
* `Json.decode?_eq_some_iff`: The decoder is the grammar.
* `Json.Denotes.unique`: A text says one value at most.
-/

namespace GlyphLexer

namespace Json

/-- A mark that a value may end in front of. -/
def isCloser (u : CodeUnit) : Bool :=
  u == comma || u == colon || u == rightBracket || u == CodeUnit.rightBrace

theorem isCloser_iff {u : CodeUnit} : isCloser u = true ↔
    u = comma ∨ u = colon ∨ u = rightBracket ∨ u = CodeUnit.rightBrace := by
  simp only [isCloser, Bool.or_eq_true, beq_iff_eq, or_assoc]

/-- A text without the white space it begins with. -/
def skip (t : Text) : Text := t.dropWhile isSpace

/-- A value may end in front of a text. -/
def Ends (rest : Text) : Prop := ∀ u, (skip rest).head? = some u → isCloser u = true

section Members

variable {α : Type}

/-- Reads members with commas between them up to the closing bracket, at most
    as many as the count says. -/
def readSequence (read : Text → Option (α × Text)) (close : CodeUnit) :
    Nat → Text → Option (List α × Text)
  | 0, _ => none
  | count + 1, t =>
    match read t with
    | some (a, u :: rest) =>
      if u = comma then (readSequence read close count rest).map fun r => (a :: r.1, r.2)
      else if u = close then some ([a], rest)
      else none
    | _ => none

/-- Reads from behind an opening bracket up to the closing one. -/
def readBracketed (read : Text → Option (α × Text)) (close : CodeUnit) (t : Text) :
    Option (List α × Text) :=
  match skip t with
  | [] => none
  | u :: rest => if u = close then some ([], rest) else readSequence read close t.length t

end Members

/-- The value that a word says. -/
def scalar? (word : Text) : Option Value :=
  if word = text "null" then some .null
  else if word = text "false" then some (.boolean false)
  else if word = text "true" then some (.boolean true)
  else (number? word).map .number

/-- Reads a word. -/
def readWord (t : Text) : Option (Value × Text) :=
  (scalar? (t.takeWhile isWordUnit)).map fun v => (v, t.dropWhile isWordUnit)

/-- Reads a member of an object with a reader of values. -/
def readMember (read : Text → Option (Value × Text)) (t : Text) : Option ((Text × Value) × Text) :=
  match read t with
  | some (.string name, u :: rest) =>
    if u = colon then (read rest).map fun r => ((name, r.1), r.2) else none
  | _ => none

/-- Reads a value without white space around it. A reader of values reads
    those inside it. -/
def readValue (read : Text → Option (Value × Text)) : Text → Option (Value × Text)
  | [] => none
  | u :: rest =>
    if u = CodeUnit.quote then (readCharacters rest).map fun r => (.string r.1, r.2)
    else if u = leftBracket then
      (readBracketed read rightBracket rest).map fun r => (.array r.1, r.2)
    else if u = CodeUnit.leftBrace then
      (readBracketed (readMember read) CodeUnit.rightBrace rest).map fun r => (.object r.1, r.2)
    else readWord (u :: rest)

/-- Reads a value and the white space around it, with at most as many values
    around one another as the depth says. -/
def readItem : Nat → Text → Option (Value × Text)
  | 0, _ => none
  | depth + 1, t => (readValue (readItem depth) (skip t)).map fun r => (r.1, skip r.2)

/-- The value that a text says. -/
def decode? (t : Text) : Option Value :=
  match readItem t.length t with
  | some (v, []) => some v
  | _ => none

/-! ## White space -/

theorem exists_space (t : Text) : ∃ w, IsSpace w ∧ t = w ++ skip t :=
  ⟨t.takeWhile isSpace, fun _ hu => List.mem_takeWhile_imp hu, List.takeWhile_append_dropWhile.symm⟩

theorem skip_append {w : Text} (hw : IsSpace w) (t : Text) : skip (w ++ t) = skip t :=
  List.dropWhile_append_of_pos hw

theorem skip_cons {u : CodeUnit} (hu : isSpace u = false) (t : Text) : skip (u :: t) = u :: t :=
  List.dropWhile_cons_of_neg (by simp [hu])

theorem isSpace_of_isCloser {u : CodeUnit} (h : isCloser u = true) : isSpace u = false := by
  rcases isCloser_iff.1 h with rfl | rfl | rfl | rfl <;> decide

theorem isWordUnit_of_isCloser {u : CodeUnit} (h : isCloser u = true) : isWordUnit u = false := by
  rcases isCloser_iff.1 h with rfl | rfl | rfl | rfl <;> decide

theorem isWordUnit_of_isSpace {u : CodeUnit} (h : isSpace u = true) : isWordUnit u = false := by
  rcases isSpace_iff.1 h with rfl | rfl | rfl | rfl <;> decide

theorem ends_nil : Ends [] := by
  intro u hu
  cases hu

theorem ends_cons {u : CodeUnit} (hu : isCloser u = true) (t : Text) : Ends (u :: t) := by
  intro v hv
  rw [skip_cons (isSpace_of_isCloser hu), List.head?_cons, Option.some.injEq] at hv
  rw [← hv, hu]

theorem ends_append {w t : Text} (hw : IsSpace w) : Ends (w ++ t) ↔ Ends t := by
  rw [Ends, Ends, skip_append hw]

/-- What a value may end in front of does not go on with a word. -/
theorem Ends.head {rest : Text} (h : Ends rest) :
    ∀ u, rest.head? = some u → isWordUnit u = false := by
  intro u hu
  cases rest with
  | nil => cases hu
  | cons v rest =>
      rw [List.head?_cons, Option.some.injEq] at hu
      subst hu
      cases hspace : isSpace v with
      | true => exact isWordUnit_of_isSpace hspace
      | false => exact isWordUnit_of_isCloser (h v (by rw [skip_cons hspace, List.head?_cons]))

/-! ## Members -/

section Members

variable {α β : Type} {read : Text → Option (α × Text)} {written : β → Text} {meaning : β → α}
  {P : β → Prop} {close : CodeUnit}

/-- What a reader takes off is the text of something with a property, and it
    says what that means. -/
def ReadsOnly (read : Text → Option (α × Text)) (written : β → Text) (meaning : β → α)
    (P : β → Prop) : Prop :=
  ∀ t a rest, read t = some (a, rest) → ∃ b, t = written b ++ rest ∧ meaning b = a ∧ P b

/-- A reader takes a text off, and the white space behind it, wherever the
    text may end. -/
def ReadsBack (read : Text → Option (α × Text)) (t : Text) (a : α) : Prop :=
  ∀ rest, Ends rest → read (t ++ rest) = some (a, skip rest)

/-- A reader finds nothing where a mark stands that would end what it
    reads. -/
def Opens (read : Text → Option (α × Text)) : Prop :=
  ∀ t r, read t = some r → ∃ u rest, skip t = u :: rest ∧ isCloser u = false

theorem intercalate_cons_append {parts : List Text} (hne : parts ≠ []) (p tail : Text) :
    List.intercalate [comma] (p :: parts) ++ tail =
      p ++ comma :: (List.intercalate [comma] parts ++ tail) := by
  rw [List.intercalate_cons_of_ne_nil hne, List.append_assoc, List.append_assoc,
    List.singleton_append]

theorem readsOnly_readSequence (hread : ReadsOnly read written meaning P) {count : Nat}
    {t rest : Text} {as : List α} (h : readSequence read close count t = some (as, rest)) :
    ∃ bs : List β, bs ≠ [] ∧ t = List.intercalate [comma] (bs.map written) ++ close :: rest ∧
      bs.map meaning = as ∧ ∀ b ∈ bs, P b := by
  -- The first member is what the reader takes off, and the others are found
  -- with the rest of the count.
  induction count generalizing t as with
  | zero => cases h
  | succ count ih =>
      rw [readSequence] at h
      split at h
      · next a u after hfirst =>
          rcases hread t a (u :: after) hfirst with ⟨b, rfl, rfl, hb⟩
          split at h
          · next hcomma =>
              rcases map_fst_eq_some_iff.1 h with ⟨as', hmore, rfl⟩
              rcases ih hmore with ⟨bs, hne, rfl, rfl, hbs⟩
              have hmap : bs.map written ≠ [] := by
                rw [Ne, List.map_eq_nil_iff]
                exact hne
              refine ⟨b :: bs, List.cons_ne_nil b bs, ?_, rfl, List.forall_mem_cons.2 ⟨hb, hbs⟩⟩
              rw [hcomma, List.map_cons, intercalate_cons_append hmap]
          · split at h
            · next hclose =>
                rw [Option.some.injEq, Prod.mk.injEq] at h
                rcases h with ⟨rfl, rfl⟩
                refine ⟨[b], List.cons_ne_nil b [], ?_, rfl, List.forall_mem_singleton.2 hb⟩
                rw [hclose, List.map_singleton, List.intercalate_singleton]
            · cases h
      · cases h

theorem readsOnly_readBracketed (hread : ReadsOnly read written meaning P) {t rest : Text}
    {as : List α} (h : readBracketed read close t = some (as, rest)) (left : CodeUnit) :
    ∃ (bs : List β) (w : Text), IsSpace w ∧
      left :: t = bracketed left (bs.map written) w close ++ rest ∧
      bs.map meaning = as ∧ ∀ b ∈ bs, P b := by
  unfold readBracketed at h
  split at h
  · cases h
  · next u after hskip =>
      split at h
      · next hclose =>
          rw [Option.some.injEq, Prod.mk.injEq] at h
          rcases h with ⟨rfl, rfl⟩
          rcases exists_space t with ⟨w, hw, ht⟩
          refine ⟨[], w, hw, ?_, rfl, fun b hb => absurd hb List.not_mem_nil⟩
          rw [ht, hskip, hclose, bracketed, List.map_nil, List.intercalate_nil]
          simp
      · rcases readsOnly_readSequence hread h with ⟨bs, -, ht, hmeaning, hbs⟩
        refine ⟨bs, [], isSpace_nil, ?_, hmeaning, hbs⟩
        rw [ht, bracketed]
        simp

theorem ReadsBack.readSequence {bs : List β}
    (hread : ∀ b ∈ bs, ReadsBack read (written b) (meaning b))
    (hclose : isCloser close = true) (hcomma : close ≠ comma) {w : Text} (hw : IsSpace w)
    (rest : Text) (hne : bs ≠ []) {count : Nat} (hcount : bs.length ≤ count) :
    Json.readSequence read close count
      (List.intercalate [comma] (bs.map written) ++ (w ++ close :: rest)) =
        some (bs.map meaning, rest) := by
  induction bs generalizing count with
  | nil => exact absurd rfl hne
  | cons b bs ih =>
      rw [List.forall_mem_cons] at hread
      rw [List.length_cons] at hcount
      cases count with
      | zero => omega
      | succ count =>
          cases bs with
          | nil =>
              have hends : Ends (w ++ close :: rest) := (ends_append hw).2 (ends_cons hclose rest)
              have hfirst := hread.1 _ hends
              rw [skip_append hw, skip_cons (isSpace_of_isCloser hclose)] at hfirst
              rw [List.map_singleton, List.intercalate_singleton, Json.readSequence, hfirst]
              simp only [if_neg hcomma, if_pos, List.map_singleton]
          | cons b' bs =>
              have hmore :=
                ih hread.2 (List.cons_ne_nil b' bs) (by omega : (b' :: bs).length ≤ count)
              have hmark : isCloser comma = true := by decide
              have hfirst := hread.1 _ (ends_cons hmark
                (List.intercalate [comma] ((b' :: bs).map written) ++ (w ++ close :: rest)))
              rw [skip_cons (isSpace_of_isCloser hmark)] at hfirst
              rw [List.map_cons, intercalate_cons_append (by simp), Json.readSequence, hfirst]
              simp only [if_pos]
              rw [hmore]
              rfl

/-- A sequence has a first member. -/
theorem exists_read_of_readSequence {count : Nat} {t : Text} {r : List α × Text}
    (h : readSequence read close count t = some r) : ∃ first, read t = some first := by
  cases count with
  | zero => cases h
  | succ count =>
      rw [readSequence] at h
      cases hfirst : read t with
      | none =>
          rw [hfirst] at h
          cases h
      | some first => exact ⟨first, rfl⟩

/-- Every comma is a unit of the text. -/
theorem length_le_intercalate (parts : List Text) :
    parts.length ≤ (List.intercalate [comma] parts).length + 1 := by
  induction parts with
  | nil => exact Nat.zero_le _
  | cons p parts ih =>
      by_cases hne : parts = []
      · simp [hne]
      · rw [List.intercalate_cons_of_ne_nil hne]
        simp only [List.length_append, List.length_cons, List.length_nil]
        omega

theorem ReadsBack.readBracketed {bs : List β}
    (hread : ∀ b ∈ bs, ReadsBack read (written b) (meaning b))
    (hopens : Opens read) (hclose : isCloser close = true) (hcomma : close ≠ comma) {w : Text}
    (hw : IsSpace w) (rest : Text) :
    Json.readBracketed read close
      (List.intercalate [comma] (bs.map written) ++ (w ++ close :: rest)) =
        some (bs.map meaning, rest) := by
  by_cases hne : bs = []
  · rw [hne, List.map_nil, List.intercalate_nil, List.nil_append, Json.readBracketed,
      skip_append hw, skip_cons (isSpace_of_isCloser hclose)]
    simp only [if_pos, List.map_nil]
  · have hlength := length_le_intercalate (bs.map written)
    rw [List.length_map] at hlength
    have hseq := ReadsBack.readSequence hread hclose hcomma hw rest hne
      (show bs.length ≤
          (List.intercalate [comma] (bs.map written) ++ (w ++ close :: rest)).length by
        simp only [List.length_append, List.length_cons]
        omega)
    -- Something is read at the first member, so no closing bracket stands
    -- there.
    rcases exists_read_of_readSequence hseq with ⟨first, hfirst⟩
    rcases hopens _ _ hfirst with ⟨u, t, hskip, hu⟩
    have hother : u ≠ close := by
      rintro rfl
      rw [hu] at hclose
      cases hclose
    rw [Json.readBracketed, hskip]
    simp only [if_neg hother, hseq]

end Members

/-! ## Words and members of objects -/

theorem denotes_of_scalar? {word : Text} {v : Value} (h : scalar? word = some v) :
    Denotes word v := by
  unfold scalar? at h
  split at h
  · next hnull =>
      rw [Option.some.injEq] at h
      rw [hnull, ← h]
      exact .null
  · split at h
    · next hfalse =>
        rw [Option.some.injEq] at h
        rw [hfalse, ← h]
        exact .false
    · split at h
      · next htrue =>
          rw [Option.some.injEq] at h
          rw [htrue, ← h]
          exact .true
      · rcases Option.map_eq_some_iff.1 h with ⟨q, hq, rfl⟩
        exact .number (number?_eq_some_iff.1 hq)

theorem denotes_of_readWord {t rest : Text} {v : Value} (h : readWord t = some (v, rest)) :
    ∃ word, t = word ++ rest ∧ Denotes word v := by
  rcases Option.map_eq_some_iff.1 h with ⟨v', hv, heq⟩
  rw [Prod.mk.injEq] at heq
  rcases heq with ⟨rfl, rfl⟩
  exact ⟨t.takeWhile isWordUnit, List.takeWhile_append_dropWhile.symm, denotes_of_scalar? hv⟩

/-- A reader of values takes off texts that say the value. -/
def Sound (read : Text → Option (Value × Text)) : Prop :=
  ReadsOnly read Prod.fst Prod.snd fun p : Text × Value => Denotes p.1 p.2

theorem Sound.exists {read : Text → Option (Value × Text)} (hread : Sound read) {t rest : Text}
    {v : Value} (h : read t = some (v, rest)) : ∃ t', t = t' ++ rest ∧ Denotes t' v := by
  rcases hread t v rest h with ⟨⟨t', v'⟩, ht, rfl, hdenotes⟩
  exact ⟨t', ht, hdenotes⟩

theorem Sound.readMember {read : Text → Option (Value × Text)} (hread : Sound read) :
    ReadsOnly (readMember read) Entry.written Entry.member fun e =>
      Denotes e.label (.string e.name) ∧ Denotes e.body e.value := by
  intro t a rest h
  rw [Json.readMember] at h
  split at h
  · next name u after hname =>
      split at h
      · next hcolon =>
          rcases map_fst_eq_some_iff.1 h with ⟨v, hv, rfl⟩
          rcases hread.exists hname with ⟨label, rfl, hlabel⟩
          rcases hread.exists hv with ⟨body, rfl, hbody⟩
          refine ⟨⟨label, name, body, v⟩, ?_, rfl, hlabel, hbody⟩
          rw [hcolon, Entry.written, List.append_assoc, List.cons_append]
      · cases h
  · cases h

theorem Sound.readValue {read : Text → Option (Value × Text)} (hread : Sound read) {t rest : Text}
    {v : Value} (h : readValue read t = some (v, rest)) : ∃ t', t = t' ++ rest ∧ Denotes t' v := by
  unfold Json.readValue at h
  split at h
  · cases h
  · next u after =>
      split at h
      · next hquote =>
          rcases map_fst_eq_some_iff.1 h with ⟨s, hs, rfl⟩
          rcases characters_of_readCharacters hs with ⟨t', rfl, hchars⟩
          refine ⟨CodeUnit.quote :: (t' ++ [CodeUnit.quote]), ?_, .string hchars⟩
          rw [hquote]
          simp
      · split at h
        · next hbracket =>
            rcases map_fst_eq_some_iff.1 h with ⟨vs, hvs, rfl⟩
            rcases readsOnly_readBracketed hread hvs leftBracket with
              ⟨parts, w, hw, ht, rfl, hparts⟩
            rw [hbracket]
            exact ⟨_, ht, .array hparts hw⟩
        · split at h
          · next hbrace =>
              rcases map_fst_eq_some_iff.1 h with ⟨vs, hvs, rfl⟩
              rcases readsOnly_readBracketed hread.readMember hvs CodeUnit.leftBrace with
                ⟨entries, w, hw, ht, rfl, hentries⟩
              rw [hbrace]
              exact ⟨_, ht,
                .object (fun e he => (hentries e he).1) (fun e he => (hentries e he).2) hw⟩
          · exact denotes_of_readWord h

theorem sound_readItem (depth : Nat) : Sound (readItem depth) := by
  induction depth with
  | zero =>
      intro t v rest h
      cases h
  | succ depth ih =>
      intro t v rest h
      rcases Option.map_eq_some_iff.1 h with ⟨⟨v', after⟩, hread, heq⟩
      rw [Prod.mk.injEq] at heq
      rcases heq with ⟨rfl, rfl⟩
      -- The value stands between the white space in front of it and that behind
      -- it.
      rcases ih.readValue hread with ⟨t', hskip, hdenotes⟩
      rcases exists_space t with ⟨w, hw, ht⟩
      rcases exists_space after with ⟨w', hw', hafter⟩
      refine ⟨(w ++ (t' ++ w'), v'), ?_, rfl, .spaced hw hdenotes hw'⟩
      rw [ht, hskip]
      simp only [List.append_assoc]
      rw [← hafter]

/-! ## The grammar is read -/

theorem opens_readItem (depth : Nat) : Opens (readItem depth) := by
  intro t r h
  cases depth with
  | zero => cases h
  | succ depth =>
      rcases Option.map_eq_some_iff.1 h with ⟨r', hread, -⟩
      cases hskip : skip t with
      | nil =>
          rw [hskip] at hread
          cases hread
      | cons u rest =>
          refine ⟨u, rest, rfl, ?_⟩
          cases hcloser : isCloser u with
          | false => rfl
          | true =>
              -- A mark begins no value: it is no bracket that opens, and no
              -- word has it.
              have hword := isWordUnit_of_isCloser hcloser
              rw [hskip, readValue, readWord, List.takeWhile_cons_of_neg (by simp [hword])] at hread
              rcases isCloser_iff.1 hcloser with rfl | rfl | rfl | rfl <;> cases hread

theorem Opens.readMember {read : Text → Option (Value × Text)} (hopens : Opens read) :
    Opens (readMember read) := by
  intro t r h
  rw [Json.readMember] at h
  split at h
  · next hname => exact hopens t _ hname
  · cases h

theorem ReadsBack.readMember {read : Text → Option (Value × Text)} {e : Entry}
    (hlabel : ReadsBack read e.label (.string e.name)) (hbody : ReadsBack read e.body e.value) :
    ReadsBack (readMember read) e.written e.member := by
  intro rest hrest
  have hmark : isCloser colon = true := by decide
  have hname := hlabel _ (ends_cons hmark (e.body ++ rest))
  rw [skip_cons (isSpace_of_isCloser hmark)] at hname
  rw [Entry.written, List.append_assoc, List.cons_append, Json.readMember, hname]
  simp only [if_pos]
  rw [hbody rest hrest, Option.map_some, Entry.member]

theorem readItem_append {w : Text} (hw : IsSpace w) (depth : Nat) (t : Text) :
    readItem depth (w ++ t) = readItem depth t := by
  cases depth with
  | zero => rfl
  | succ depth => rw [readItem, readItem, skip_append hw]

/-- What `readValue` reads of a text that does not begin with white space is
    read as a whole. -/
theorem readItem_of_readValue {depth : Nat} {u : CodeUnit} {t rest : Text} {v : Value}
    (hu : isSpace u = false) (h : readValue (readItem depth) (u :: t) = some (v, rest)) :
    readItem (depth + 1) (u :: t) = some (v, skip rest) := by
  rw [readItem, skip_cons hu, h, Option.map_some]

theorem isSpace_of_isWordUnit {u : CodeUnit} (h : isWordUnit u = true) :
    isSpace u = false ∧ u ≠ CodeUnit.quote ∧ u ≠ leftBracket ∧ u ≠ CodeUnit.leftBrace := by
  refine ⟨?_, ?_, ?_, ?_⟩
  · cases hspace : isSpace u with
    | false => rfl
    | true =>
        rw [isWordUnit_of_isSpace hspace] at h
        cases h
  all_goals
    rintro rfl
    exact absurd h (by decide)

/-- A word is read to its end. -/
theorem readsBack_word {word : Text} {v : Value} (hne : word ≠ [])
    (hword : ∀ u ∈ word, isWordUnit u = true) (hv : scalar? word = some v) {depth : Nat}
    (hdepth : word.length ≤ depth) : ReadsBack (readItem depth) word v := by
  intro rest hrest
  cases word with
  | nil => exact absurd rfl hne
  | cons u word =>
      cases depth with
      | zero => exact absurd hdepth (by simp)
      | succ depth =>
          rcases isSpace_of_isWordUnit (hword u List.mem_cons_self) with
            ⟨hu, hquote, hbracket, hbrace⟩
          rw [List.cons_append]
          refine readItem_of_readValue hu ?_
          rw [readValue, if_neg hquote, if_neg hbracket, if_neg hbrace, readWord,
            ← List.cons_append, Text.takeWhile_append_of_head hword hrest.head,
            Text.dropWhile_append_of_head hword hrest.head, hv, Option.map_some]

/-- A member is no longer than what it is a member of. -/
theorem length_le_of_mem {parts : List Text} {p : Text} (h : p ∈ parts) :
    p.length ≤ (List.intercalate [comma] parts).length := by
  induction parts with
  | nil => cases h
  | cons p' parts ih =>
      by_cases hne : parts = []
      · rw [hne, List.mem_singleton] at h
        rw [hne, h, List.intercalate_singleton]
      · rw [List.intercalate_cons_of_ne_nil hne]
        simp only [List.length_append, List.length_cons, List.length_nil]
        rcases List.mem_cons.1 h with rfl | hmem
        · omega
        · have hle := ih hmem
          omega

theorem length_bracketed (left : CodeUnit) (parts : List Text) (w : Text) (right : CodeUnit) :
    (bracketed left parts w right).length =
      (List.intercalate [comma] parts).length + w.length + 2 := by
  rw [bracketed, List.length_cons, List.length_append, List.length_append, List.length_singleton]
  omega

theorem bracketed_append (left : CodeUnit) (parts : List Text) (w : Text) (right : CodeUnit)
    (rest : Text) : bracketed left parts w right ++ rest =
      left :: (List.intercalate [comma] parts ++ (w ++ right :: rest)) := by
  rw [bracketed, List.cons_append, List.append_assoc, List.append_assoc, List.singleton_append]

/-- No number is the name of a constant. -/
theorem scalar?_of_numeral {t : Text} {q : ℚ} (h : Numeral t q) : scalar? t = some (.number q) := by
  have hread := number?_eq_some_iff.2 h
  have hne : ∀ name : Text, number? name = none → t ≠ name := by
    rintro name hname rfl
    rw [hname] at hread
    cases hread
  rw [scalar?, if_neg (hne _ rfl), if_neg (hne _ rfl), if_neg (hne _ rfl), hread, Option.map_some]

/-- What is in the grammar is read, in front of anything that a value may end
    in front of. -/
theorem Denotes.readsBack {t : Text} {v : Value} (h : Denotes t v) {depth : Nat}
    (hdepth : t.length ≤ depth) : ReadsBack (readItem depth) t v := by
  -- By induction on how the text was derived. What is between brackets is
  -- shorter by two units, so the depth that is left is enough for every member.
  induction h generalizing depth with
  | spaced hw _ hw' ih =>
      intro rest hrest
      simp only [List.length_append] at hdepth
      rw [List.append_assoc, List.append_assoc, readItem_append hw,
        ih (by omega) _ ((ends_append hw').2 hrest), skip_append hw']
  | null => exact readsBack_word (by decide) (List.all_eq_true.1 (by decide)) rfl hdepth
  | false => exact readsBack_word (by decide) (List.all_eq_true.1 (by decide)) rfl hdepth
  | true => exact readsBack_word (by decide) (List.all_eq_true.1 (by decide)) rfl hdepth
  | number hq =>
      rcases hq.isWordUnit with ⟨hne, hword⟩
      exact readsBack_word hne hword (scalar?_of_numeral hq) hdepth
  | string hchars =>
      intro rest _
      cases depth with
      | zero => exact absurd hdepth (by simp)
      | succ depth =>
          rw [List.cons_append, List.append_assoc, List.singleton_append]
          refine readItem_of_readValue (by decide) ?_
          rw [readValue, if_pos rfl, hchars.read, Option.map_some]
  | @array parts w _ hw ih =>
      intro rest _
      rw [length_bracketed] at hdepth
      cases depth with
      | zero => omega
      | succ depth =>
          have hparts : ∀ p ∈ parts, ReadsBack (readItem depth) p.1 p.2 := by
            intro p hp
            have hmem : p.1 ∈ parts.map Prod.fst := List.mem_map_of_mem hp
            have hle := length_le_of_mem hmem
            exact ih p hp (by omega)
          rw [bracketed_append]
          refine readItem_of_readValue (by decide) ?_
          rw [readValue, if_neg (by decide), if_pos rfl,
            ReadsBack.readBracketed hparts (opens_readItem depth) (by decide) (by decide) hw,
            Option.map_some]
  | @object entries w _ _ hw ihname ihbody =>
      intro rest _
      rw [length_bracketed] at hdepth
      cases depth with
      | zero => omega
      | succ depth =>
          have hentries :
              ∀ e ∈ entries, ReadsBack (readMember (readItem depth)) e.written e.member := by
            intro e he
            have hmem : e.written ∈ entries.map Entry.written := List.mem_map_of_mem he
            have hle := length_le_of_mem hmem
            rw [Entry.written, List.length_append, List.length_cons] at hle
            exact .readMember (ihname e he (by omega)) (ihbody e he (by omega))
          rw [bracketed_append]
          refine readItem_of_readValue (by decide) ?_
          rw [readValue, if_neg (by decide), if_neg (by decide), if_pos rfl,
            ReadsBack.readBracketed hentries (opens_readItem depth).readMember (by decide)
              (by decide) hw,
            Option.map_some]

/-- A text is decoded exactly if the grammar has it, and to the value it
    says. -/
theorem decode?_eq_some_iff {t : Text} {v : Value} : decode? t = some v ↔ Denotes t v := by
  constructor
  · intro h
    unfold decode? at h
    split at h
    · next v' hread =>
        rw [Option.some.injEq] at h
        rcases (sound_readItem t.length).exists hread with ⟨t', ht, hdenotes⟩
        rw [List.append_nil] at ht
        rw [ht, ← h]
        exact hdenotes
    · cases h
  · intro h
    have hread := h.readsBack (Nat.le_refl t.length) [] ends_nil
    rw [List.append_nil] at hread
    rw [decode?, hread]
    rfl

example : (decode? (text "[1 , -2.5e1] ")).isSome = true ∧ (decode? (text "[1,]")).isNone = true ∧
    (decode? (text "[01]")).isNone = true := by decide +kernel

/-- A text says one value at most. -/
theorem Denotes.unique {t : Text} {v v' : Value} (h : Denotes t v) (h' : Denotes t v') :
    v = v' := by
  rw [← decode?_eq_some_iff] at h h'
  exact Option.some.inj (h.symm.trans h')

end Json

end GlyphLexer
