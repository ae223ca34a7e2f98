import GlyphLexer.Proofs.Grammar.Breakage
import GlyphLexer.Reading

/-!
# The reader and the grammar

One reading gives the longest lexeme if it stands free, and the fault of one
of the six shapes otherwise.

The reader is a function, and the grammar says of every text that it begins
with a longest lexeme or has a shape. It is enough, then, to show that the
reader does what each of the two says: on a longest lexeme it reads it
(`Reading.token_of_longestLexeme`), and on a shape it meets the fault
(`Reading.token_of_fits`). Both equivalences follow, and so does what the
grammar by itself leaves open, that lexeme and shape exclude each other and
are determined by the text.

The rules are needed for string literals and numbers only, where the reader
has states of its own: the items read so far go in front of whatever the rest
is read as (`Reading.string_append`), and a numeral is read up to the first
unit that is neither a digit nor its point.

## Theorems

* `Reading.string_append`: Items are passed one after the other.
* `Reading.numeral_integer`, `Reading.numeral_float`: A numeral ends before
  the first unit that does not go on it.
* `Reading.token_of_longestLexeme`: The longest lexeme is read.
* `Reading.token_of_fits`: The fault of a shape is met.
* `Reading.token_eq_lexeme_iff`, `Reading.token_eq_fault_iff`: What a reading
  says of the text.
-/

namespace GlyphLexer

namespace Reading

theorem after_after (front decoded front' decoded' : Text) (r : Reading) :
    (r.after front decoded).after front' decoded' =
      r.after (front' ++ front) (decoded' ++ decoded) := by
  cases r with
  | lexeme taken type literal => cases literal <;> simp [after]
  | fault passed f => simp [after]

@[simp] theorem after_nil (r : Reading) : r.after [] [] = r := by
  cases r with
  | lexeme taken type literal => cases literal <;> rfl
  | fault passed f => rfl

theorem string_plain {u : CodeUnit} (hquote : u ≠ CodeUnit.quote)
    (hbackslash : u ≠ CodeUnit.backslash) (hnewline : u ≠ CodeUnit.newline) (rest : Text) :
    string (u :: rest) = (string rest).after [u] [u] := by
  rw [string.eq_def]
  simp only [if_neg hquote, if_neg hbackslash, if_neg hnewline]

theorem string_quote (rest : Text) :
    string (CodeUnit.quote :: rest) = lexeme [CodeUnit.quote] .string (some []) := by
  rw [string.eq_def]
  simp only [if_true]

theorem string_nil : string [] = fault [] .endOfFile := by
  rw [string]

theorem string_newline (rest : Text) :
    string (CodeUnit.newline :: rest) = fault [] .endOfLine := by
  have hquote : CodeUnit.newline ≠ CodeUnit.quote := by decide
  rw [string.eq_def]
  simp only [if_neg hquote, if_true]

theorem string_backslash : string [CodeUnit.backslash] = fault [CodeUnit.backslash] .endOfFile :=
  rfl

theorem string_escape {v d : CodeUnit} (h : Escape.decode? v = some d) (rest : Text) :
    string (CodeUnit.backslash :: v :: rest) =
      (string rest).after [CodeUnit.backslash, v] [d] := by
  have hquote : CodeUnit.backslash ≠ CodeUnit.quote := by decide
  have hnewline : CodeUnit.backslash ≠ CodeUnit.newline := by decide
  rw [string.eq_def]
  simp only [if_neg hquote, if_neg hnewline, if_true, h]

theorem string_unknownEscape {v : CodeUnit} (h : Escape.decode? v = none) (rest : Text) :
    string (CodeUnit.backslash :: v :: rest) = fault [CodeUnit.backslash] (.invalidEscape v) := by
  have hquote : CodeUnit.backslash ≠ CodeUnit.quote := by decide
  have hnewline : CodeUnit.backslash ≠ CodeUnit.newline := by decide
  rw [string.eq_def]
  simp only [if_neg hquote, if_neg hnewline, if_true, h]

/-- Items go in front of what the text behind them is read as. -/
theorem string_append {body decoded : Text} (h : StringItems body decoded) (tail : Text) :
    string (body ++ tail) = (string tail).after body decoded := by
  induction h with
  | nil => rw [List.nil_append, after_nil]
  | plain hquote hbackslash hnewline _ ih =>
      rw [List.cons_append, string_plain hquote hbackslash hnewline, ih, after_after]
      rfl
  | escape hentry _ ih =>
      rw [List.cons_append, List.cons_append, string_escape (Escape.mem_table_iff.1 hentry), ih,
        after_after]
      rfl

theorem numeral_integer {t tail : Text} (h : IsDigits t)
    (htail : ∀ u, tail.head? = some u → u.isDigit = false ∧ u ≠ CodeUnit.dot) :
    numeral (t ++ tail) = (t, .integer) := by
  have htake := Text.takeWhile_append_of_head h.2 fun u hu => (htail u hu).1
  have hdrop := Text.dropWhile_append_of_head h.2 fun u hu => (htail u hu).1
  unfold numeral
  simp only [htake, hdrop]
  cases tail with
  | nil => rfl
  | cons u rest => exact if_neg (htail u rfl).2

theorem numeral_float {whole fraction tail : Text} (h : IsDigits whole)
    (hfraction : ∀ u ∈ fraction, u.isDigit = true)
    (htail : ∀ u, tail.head? = some u → u.isDigit = false) :
    numeral (whole ++ CodeUnit.dot :: fraction ++ tail) =
      (whole ++ CodeUnit.dot :: fraction, .float) := by
  have hdot : ∀ u, (CodeUnit.dot :: fraction ++ tail).head? = some u → u.isDigit = false := by
    rintro u ⟨⟩
    decide
  rw [List.append_assoc]
  unfold numeral
  rw [Text.takeWhile_append_of_head h.2 hdot, Text.dropWhile_append_of_head h.2 hdot]
  simp only [List.cons_append, if_true, Text.takeWhile_append_of_head hfraction htail]

/-- A numeral that the next unit does not cut is a number. -/
theorem number_of_numeral {l tail : Text} {type : TokenType} (h : numeral (l ++ tail) = (l, type))
    (htail : ∀ u, tail.head? = some u → cutsNumber type u = false) :
    number (l ++ tail) = lexeme l type none := by
  unfold number
  simp only [h, List.drop_left]
  cases tail with
  | nil => rfl
  | cons u rest => simp only [htail u rfl, Bool.false_eq_true, if_false]

theorem number_of_numeral_cut {l rest : Text} {type : TokenType} {u : CodeUnit}
    (h : numeral (l ++ u :: rest) = (l, type)) (hu : cutsNumber type u = true) :
    number (l ++ u :: rest) = fault l (.symbolBehindNumber u) := by
  unfold number
  simp only [h, List.drop_left, hu, if_true]

theorem cutsNumber_of_detached {type : TokenType} {tail : Text} {u : CodeUnit}
    (htype : type = .integer ∨ type = .float) (h : Detached type tail) (hu : tail.head? = some u) :
    cutsNumber type u = false := by
  have hname := (h u hu).1 htype
  rcases htype with rfl | rfl
  · simp [cutsNumber, hname]
  · simp [cutsNumber, hname, (h u hu).2 rfl]

/-! The reader that the first unit calls for. -/

theorem token_quote (rest : Text) :
    token CodeUnit.quote rest = (string rest).after [CodeUnit.quote] [] := by
  rw [token, if_pos rfl]

theorem token_of_isDigit {u : CodeUnit} (hu : u.isDigit = true) (rest : Text) :
    token u rest = number (u :: rest) := by
  rw [token, if_neg (CodeUnit.ne_of_isDigit hu).1, if_pos hu]

theorem token_of_isNameStart {u : CodeUnit} (hu : u.isNameStart = true) (rest : Text) :
    token u rest = name (u :: rest) := by
  have hne := CodeUnit.ne_of_isNameStart hu
  rw [token, if_neg hne.1, if_neg (by simp [hne.2.2]), if_pos hu]

theorem token_of_longest? {u : CodeUnit} {rest l : Text} {type : TokenType}
    (h : Operator.longest? (u :: rest) = some (l, type)) (hu : Operator.mayStart u = true) :
    token u rest = lexeme l type none := by
  have hne := Operator.mayStart_iff.1 hu
  rw [token, if_neg hne.2.2.2, if_neg (by simp [hne.1]), if_neg (by simp [hne.2.1])]
  simp only [h]

theorem token_of_stray {u : CodeUnit} (hquote : u ≠ CodeUnit.quote) (hdigit : u.isDigit = false)
    (hname : u.isNameStart = false) {rest : Text} (h : Operator.longest? (u :: rest) = none) :
    token u rest = fault [] (.unexpectedSymbol u) := by
  rw [token, if_neg hquote, if_neg (by simp [hdigit]), if_neg (by simp [hname])]
  simp only [h]

/-! The readers on a whole lexeme. -/

theorem token_identifier {u : CodeUnit} {t tail : Text} (hstart : u.isNameStart = true)
    (hpart : ∀ v ∈ t, v.isNamePart = true)
    (htail : ∀ v, tail.head? = some v → v.isNamePart = false) :
    token u (t ++ tail) = lexeme (u :: t) .identifier none := by
  have hall : ∀ v ∈ u :: t, v.isNamePart = true := by
    intro v hv
    rcases List.mem_cons.1 hv with rfl | hv
    · exact CodeUnit.isNamePart_of_isNameStart hstart
    · exact hpart v hv
  rw [token_of_isNameStart hstart, name, ← List.cons_append,
    Text.takeWhile_append_of_head hall htail]

theorem token_string {body decoded : Text} (h : StringItems body decoded) (tail : Text) :
    token CodeUnit.quote (body ++ CodeUnit.quote :: tail) =
      lexeme (CodeUnit.quote :: (body ++ [CodeUnit.quote])) .string (some decoded) := by
  rw [token_quote, string_append h, string_quote, after_after]
  simp [after]

/-- The longest lexeme is read, if it is no number that runs into
    something. -/
theorem token_of_longestLexeme {u : CodeUnit} {rest l tail : Text} {type : TokenType}
    {literal : Option Text} (heq : u :: rest = l ++ tail) (h : Lexeme l type literal)
    (hlong : LongestLexeme l tail) (hfree : Detached type tail) :
    token u rest = lexeme l type literal := by
  -- In each class a unit that the reader would go on with makes a longer
  -- lexeme.
  have hnext := (longestLexeme_iff.1 hlong).2
  cases h with
  | @identifier v t hstart hpart =>
      rw [List.cons_append, List.cons.injEq] at heq
      rw [heq.1, heq.2]
      refine token_identifier hstart hpart fun w hw => ?_
      by_contra hpart'
      exact hnext w hw (IsLexeme.identifier_snoc hstart hpart (by simpa using hpart'))
  | integer h =>
      have htail : ∀ w, tail.head? = some w → w.isDigit = false ∧ w ≠ CodeUnit.dot := by
        intro w hw
        have hno := fun hw' => hnext w hw (IsLexeme.integer_snoc h hw')
        exact ⟨by simpa using fun hdigit => hno (Or.inl hdigit), fun hdot => hno (Or.inr hdot)⟩
      rw [token_of_isDigit (h.head_of_append heq), heq]
      exact number_of_numeral (numeral_integer h htail)
        fun w hw => cutsNumber_of_detached (Or.inl rfl) hfree hw
  | @float whole fraction h hfraction =>
      have htail : ∀ w, tail.head? = some w → w.isDigit = false := by
        intro w hw
        by_contra hdigit
        exact hnext w hw (IsLexeme.float_snoc h hfraction (by simpa using hdigit))
      rw [token_of_isDigit (h.head_of_append (by rw [heq, List.append_assoc])), heq]
      exact number_of_numeral (numeral_float h hfraction htail)
        fun w hw => cutsNumber_of_detached (Or.inr rfl) hfree hw
  | string h =>
      -- A literal ends at its closing quotation mark, whatever follows.
      rw [List.cons_append, List.append_assoc, List.singleton_append, List.cons.injEq] at heq
      rw [heq.1, heq.2]
      exact token_string h tail
  | operator h =>
      cases l with
      | nil => exact absurd rfl (Operator.ne_nil_of_mem _ h)
      | cons v t =>
          have hfound := Operator.longest?_of_mem h fun w hw type' hmem =>
            hnext w hw ⟨_, _, Lexeme.operator hmem⟩
          rw [← heq] at hfound
          rw [List.cons_append, List.cons.injEq] at heq
          rw [← heq.1] at h
          exact token_of_longest? hfound (Operator.mayStart_of_mem h)

/-! The three ways in which a reader that has begun well meets a fault. -/

theorem token_of_integer_cut {u v : CodeUnit} {t number rest : Text} (h : IsDigits number)
    (heq : u :: t = number ++ v :: rest) (hdigit : v.isDigit = false) (hdot : v ≠ CodeUnit.dot)
    (hcut : cutsNumber .integer v = true) : token u t = fault number (.symbolBehindNumber v) := by
  have htail : ∀ w, (v :: rest).head? = some w → w.isDigit = false ∧ w ≠ CodeUnit.dot := by
    rintro w ⟨⟩
    exact ⟨hdigit, hdot⟩
  rw [token_of_isDigit (h.head_of_append heq), heq]
  exact number_of_numeral_cut (numeral_integer h htail) hcut

theorem token_of_float_cut {u v : CodeUnit} {t number rest : Text}
    (h : Lexeme number .float none) (heq : u :: t = number ++ v :: rest)
    (hdigit : v.isDigit = false) (hcut : cutsNumber .float v = true) :
    token u t = fault number (.symbolBehindNumber v) := by
  have htail : ∀ w, (v :: rest).head? = some w → w.isDigit = false := by
    rintro w ⟨⟩
    exact hdigit
  rcases h.exists_of_float with ⟨whole, fraction, rfl, hwhole, hfraction⟩
  rw [token_of_isDigit (hwhole.head_of_append (by rw [heq, List.append_assoc])), heq]
  exact number_of_numeral_cut (numeral_float hwhole hfraction htail) hcut

theorem token_of_items {body decoded tail passed : Text} {f : Fault}
    (h : StringItems body decoded) (hstop : string tail = fault passed f) :
    token CodeUnit.quote (body ++ tail) = fault (CodeUnit.quote :: (body ++ passed)) f := by
  rw [token_quote, string_append h, hstop]
  rfl

/-- The fault of a shape is met behind what is passed. -/
theorem token_of_fits {u : CodeUnit} {t passed rest : Text} {b : Breakage} {f : Fault}
    (heq : u :: t = passed ++ rest) (h : b.Fits passed rest f) : token u t = fault passed f := by
  cases h with
  | stray hquote hdigit hname hop =>
      rw [List.nil_append, List.cons.injEq] at heq
      rw [heq.1]
      refine token_of_stray hquote hdigit hname (Operator.longest?_eq_none_iff.2 fun hmem => ?_)
      rcases List.mem_map.1 hmem with ⟨entry, hentry, hunit⟩
      exact hop entry hentry hunit
  | secondPoint h => exact token_of_float_cut h heq (by decide) (by decide)
  | @nameBehindNumber _ rest v h hv =>
      have hne := CodeUnit.ne_of_isNameStart hv
      have hcut : ∀ type, cutsNumber type v = true := fun type => by simp [cutsNumber, hv]
      rcases h with h | h
      · exact token_of_integer_cut h.isDigits_of_integer heq hne.2.2 hne.2.1 (hcut _)
      · exact token_of_float_cut h heq hne.2.2 (hcut _)
  | newlineInString h =>
      rcases h.1 with ⟨decoded, hbody⟩
      rw [List.cons_append, List.cons.injEq] at heq
      rw [heq.1, heq.2, token_of_items hbody (string_newline _), List.append_nil]
  | endInString h =>
      rcases h.1 with ⟨decoded, hbody⟩
      rw [List.cons_append, List.cons.injEq] at heq
      rw [heq.1, heq.2, token_of_items hbody string_nil, List.append_nil]
  | endBehindBackslash h =>
      rcases h.1 with ⟨decoded, hbody⟩
      rw [List.cons_append, List.append_nil, List.cons.injEq] at heq
      rw [heq.1, heq.2, token_of_items hbody string_backslash]
  | unknownEscape h hv =>
      rcases h.1 with ⟨decoded, hbody⟩
      rw [List.cons_append, List.append_assoc, List.singleton_append, List.cons.injEq] at heq
      have hstop := string_unknownEscape (Escape.decode?_eq_none_iff.2 hv)
      rw [heq.1, heq.2, token_of_items hbody (hstop _)]

/-- A reading gives a lexeme if and only if it is the longest one and stands
    free. -/
theorem token_eq_lexeme_iff {u : CodeUnit} {rest l : Text} {type : TokenType}
    {literal : Option Text} : token u rest = lexeme l type literal ↔
      ∃ tail, u :: rest = l ++ tail ∧ Lexeme l type literal ∧ LongestLexeme l tail ∧
        Detached type tail := by
  constructor
  · intro hread
    rcases exists_lexeme_or_breakage u rest with
      ⟨l', tail, type', literal', heq, hl, hlong, hfree⟩ | ⟨b, passed, behind, f, heq, hfits⟩
    · rw [token_of_longestLexeme heq hl hlong hfree, lexeme.injEq] at hread
      rcases hread with ⟨rfl, rfl, rfl⟩
      exact ⟨tail, heq, hl, hlong, hfree⟩
    · rw [token_of_fits heq hfits] at hread
      cases hread
  · rintro ⟨tail, heq, hl, hlong, hfree⟩
    exact token_of_longestLexeme heq hl hlong hfree

/-- A reading meets a fault if and only if the text has a shape that shows
    it. -/
theorem token_eq_fault_iff {u : CodeUnit} {t passed : Text} {f : Fault} :
    token u t = fault passed f ↔
      ∃ b rest, u :: t = passed ++ rest ∧ Breakage.Fits b passed rest f := by
  constructor
  · intro hread
    rcases exists_lexeme_or_breakage u t with
      ⟨l, tail, type, literal, heq, hl, hlong, hfree⟩ | ⟨b, passed', rest, f', heq, hfits⟩
    · rw [token_of_longestLexeme heq hl hlong hfree] at hread
      cases hread
    · rw [token_of_fits heq hfits, fault.injEq] at hread
      rcases hread with ⟨rfl, rfl⟩
      exact ⟨b, rest, heq, hfits⟩
  · rintro ⟨b, rest, heq, hfits⟩
    exact token_of_fits heq hfits

end Reading

end GlyphLexer
