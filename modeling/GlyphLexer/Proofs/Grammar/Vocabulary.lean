import GlyphLexer.CharacterClass
import GlyphLexer.Operator
import Mathlib.Data.List.Infix
import Mathlib.Data.List.Nodup
import Mathlib.Data.List.TakeWhile

/-!
# Facts of the vocabularies

What the fixed tables and the character classes have to satisfy for a lexer
that looks at one unit at a time.

The first unit of a lexeme decides which class it is of. That works because
the classes of first units do not meet: digits, the beginnings of names, the
quotation mark, the first units of operators and trivia are five separate
sets. The facts below say so for the classes of `CodeUnit`, and
`Operator.mayStart_of_mem` says it for every entry of the operator tables at
once.

Operators are read longest first, and it is `Operator.mem_of_prefix` that
makes this safe: the beginnings of an operator are operators themselves, so a
reader that stops where no longer operator fits has never passed a piece of
one.

## Theorems

* `Text.exists_run`, `Text.takeWhile_append_of_head`,
  `Text.dropWhile_append_of_head`: The longest run of one class is there and
  is what the library cuts off.
* `Text.run_append_inj`: It is found again in a longer text.
* `CodeUnit.not_isNameStart_of_isDigit`,
  `CodeUnit.not_isTrivia_of_isNamePart`: Digits begin no name, and what goes
  on a name is no trivia.
* `CodeUnit.ne_of_isDigit`, `CodeUnit.ne_of_isNameStart`: Neither is a mark
  of punctuation.
* `Operator.mayStart_of_mem`: No operator begins like another lexeme or like
  trivia.
* `Operator.mem_of_prefix`: A beginning of an operator is an operator.
* `Operator.singleton_mem_one`: What an operator begins with is an operator
  of one unit.
* `Operator.longest?_of_mem`: The operator that no longer one extends is
  found.
* `Escape.mem_table_iff`: The table has what is decoded.
-/

namespace GlyphLexer

namespace Text

/-- A run of units of one class ends before the first unit that is not of the
    class. -/
theorem takeWhile_append_of_head {p : CodeUnit → Bool} {run tail : Text}
    (hrun : ∀ u ∈ run, p u = true) (htail : ∀ u, tail.head? = some u → p u = false) :
    (run ++ tail).takeWhile p = run := by
  rw [List.takeWhile_append_of_pos hrun]
  cases tail with
  | nil => rw [List.takeWhile_nil, List.append_nil]
  | cons u rest => rw [List.takeWhile_cons_of_neg (by simp [htail u rfl]), List.append_nil]

theorem dropWhile_append_of_head {p : CodeUnit → Bool} {run tail : Text}
    (hrun : ∀ u ∈ run, p u = true) (htail : ∀ u, tail.head? = some u → p u = false) :
    (run ++ tail).dropWhile p = tail := by
  rw [List.dropWhile_append_of_pos hrun]
  cases tail with
  | nil => rfl
  | cons u rest => rw [List.dropWhile_cons_of_neg (by simp [htail u rfl])]

/-- A run of units of one class in front of a text is found again if the text
    does not go on with the class. -/
theorem run_append_inj {p : CodeUnit → Bool} {run run' tail tail' : Text}
    (hrun : ∀ u ∈ run, p u = true) (hrun' : ∀ u ∈ run', p u = true)
    (htail : ∀ u, tail.head? = some u → p u = false)
    (htail' : ∀ u, tail'.head? = some u → p u = false)
    (h : run ++ tail = run' ++ tail') : run = run' ∧ tail = tail' := by
  have hsame := congrArg (List.takeWhile p) h
  rw [takeWhile_append_of_head hrun htail, takeWhile_append_of_head hrun' htail'] at hsame
  rw [hsame, List.append_cancel_left_eq] at h
  exact ⟨hsame, h⟩

theorem drop_length_takeWhile (p : CodeUnit → Bool) (t : Text) :
    t.drop (t.takeWhile p).length = t.dropWhile p := by
  have hsplit : (t.takeWhile p ++ t.dropWhile p).drop (t.takeWhile p).length = t.dropWhile p :=
    List.drop_left
  rwa [List.takeWhile_append_dropWhile] at hsplit

/-- A text is the longest run of one class that it begins with, and the
    rest. -/
theorem exists_run (p : CodeUnit → Bool) (t : Text) :
    ∃ run tail, t = run ++ tail ∧ (∀ u ∈ run, p u = true) ∧
      ∀ u, tail.head? = some u → p u = false := by
  refine ⟨t.takeWhile p, t.dropWhile p, List.takeWhile_append_dropWhile.symm,
    fun u hu => List.mem_takeWhile_imp hu, fun u hu => ?_⟩
  have := List.head?_dropWhile_not p t
  rw [hu] at this
  simpa using this

end Text

namespace CodeUnit

theorem not_isNameStart_of_isDigit {u : CodeUnit} (h : u.isDigit = true) :
    u.isNameStart = false := by
  grind [isDigit, isNameStart, isLetter]

theorem not_isTrivia_of_isNamePart {u : CodeUnit} (h : u.isNamePart = true) :
    u.isTrivia = false := by
  grind [isNamePart, isDigit, isNameStart, isLetter, isTrivia, isBlank]

theorem not_isNamePart_of_isTrivia {u : CodeUnit} (h : u.isTrivia = true) :
    u.isNamePart = false := by
  by_contra hc
  rw [not_isTrivia_of_isNamePart (by simpa using hc)] at h
  exact absurd h (by decide)

theorem isNamePart_of_isNameStart {u : CodeUnit} (h : u.isNameStart = true) :
    u.isNamePart = true := by
  simp only [isNamePart, h, Bool.true_or]

theorem isNamePart_of_isDigit {u : CodeUnit} (h : u.isDigit = true) : u.isNamePart = true := by
  simp only [isNamePart, h, Bool.or_true]

theorem ne_of_isDigit {u : CodeUnit} (h : u.isDigit = true) :
    u ≠ quote ∧ u ≠ dot ∧ u ≠ newline := by
  refine ⟨?_, ?_, ?_⟩ <;> (rintro rfl; exact absurd h (by decide))

theorem ne_of_isNameStart {u : CodeUnit} (h : u.isNameStart = true) :
    u ≠ quote ∧ u ≠ dot ∧ u.isDigit = false := by
  refine ⟨?_, ?_, ?_⟩
  · rintro rfl; exact absurd h (by decide)
  · rintro rfl; exact absurd h (by decide)
  · by_contra hc
    rw [not_isNameStart_of_isDigit (by simpa using hc)] at h
    exact absurd h (by decide)

end CodeUnit

namespace Operator

/-- A unit that may begin an operator: not one that a name, a number, a
    string or trivia begins with. -/
def mayStart (u : CodeUnit) : Bool :=
  !u.isDigit && !u.isNameStart && !u.isTrivia && u != CodeUnit.quote

theorem head_mayStart : ∀ entry ∈ all, entry.1.head?.all mayStart = true := by decide

theorem prefixes_mem : ∀ entry ∈ all, ∀ p ∈ entry.1.inits, p ≠ [] → p ∈ all.map Prod.fst := by
  decide

theorem heads_mem_one : ∀ entry ∈ all, entry.1.take 1 ∈ one.map Prod.fst := by decide

theorem longer_first : all.Pairwise fun a b => b.1.length ≤ a.1.length := by decide

theorem keys_nodup : (all.map Prod.fst).Nodup := by decide

theorem no_trivia : ∀ entry ∈ all, ∀ u ∈ entry.1, u.isTrivia = false := by
  -- `decide` has to go along the text of an entry, and not through all units.
  have hall : ∀ entry ∈ all, entry.1.any CodeUnit.isTrivia = false := by decide
  intro entry hentry u hu
  simpa using List.any_eq_false.1 (hall entry hentry) u hu

/-- The kinds that the operator tables give are kinds of their own. -/
theorem type_of_mem : ∀ entry ∈ all, entry.2 ≠ .identifier ∧ entry.2 ≠ .integer ∧
    entry.2 ≠ .float ∧ entry.2 ≠ .string ∧ entry.2 ≠ .eof := by decide

theorem mayStart_of_mem {u : CodeUnit} {t : Text} {type : TokenType} (h : (u :: t, type) ∈ all) :
    mayStart u = true := by
  simpa only [List.head?_cons, Option.all_some] using head_mayStart _ h

theorem mayStart_iff {u : CodeUnit} : mayStart u = true ↔
    u.isDigit = false ∧ u.isNameStart = false ∧ u.isTrivia = false ∧ u ≠ CodeUnit.quote := by
  simp [mayStart, and_assoc]

theorem mem_of_prefix {p t : Text} {type : TokenType} (h : (t, type) ∈ all) (hp : p <+: t)
    (hne : p ≠ []) : ∃ type', (p, type') ∈ all := by
  have := prefixes_mem _ h p ((List.mem_inits p t).2 hp) hne
  simpa using this

theorem singleton_mem_one {u : CodeUnit} {t : Text} {type : TokenType} (h : (u :: t, type) ∈ all) :
    [u] ∈ one.map Prod.fst :=
  heads_mem_one _ h

theorem type_unique {t : Text} {type type' : TokenType} (h : (t, type) ∈ all)
    (h' : (t, type') ∈ all) : type = type' := by
  have := List.inj_on_of_nodup_map keys_nodup h h' rfl
  exact congrArg Prod.snd this

/-- The tables are searched longest first, so what is found is no shorter
    than any operator that the text begins with. -/
theorem length_le_of_longest? {t l : Text} {type : TokenType} {found : Text × TokenType}
    (hfound : longest? t = some found) (h : (l, type) ∈ all) (hp : l <+: t) :
    l.length ≤ found.1.length := by
  rcases List.find?_eq_some_iff_append.1 hfound with ⟨_, before, behind, hall, hbefore⟩
  rw [hall] at h
  rcases List.mem_append.1 h with hmem | hmem
  · -- An entry before the one found is no beginning of the text.
    have hno := hbefore _ hmem
    rw [List.isPrefixOf_iff_prefix.2 hp] at hno
    exact absurd hno (by decide)
  · rcases List.mem_cons.1 hmem with heq | hmem
    · rw [← heq]
    · have hsorted := longer_first
      rw [hall, List.pairwise_append] at hsorted
      exact List.rel_of_pairwise_cons hsorted.2.1 hmem

theorem longest?_of_mem {l tail : Text} {type : TokenType} (h : (l, type) ∈ all)
    (hmax : ∀ u, tail.head? = some u → ∀ type', (l ++ [u], type') ∉ all) :
    longest? (l ++ tail) = some (l, type) := by
  rcases hfound : longest? (l ++ tail) with _ | found
  · -- The operator itself is one that is looked for.
    have hno := List.find?_eq_none.1 hfound _ h
    exact absurd (List.isPrefixOf_iff_prefix.2 (List.prefix_append l tail)) hno
  · have hmem := mem_of_longest? hfound
    have hpre := isPrefix_of_longest? hfound
    rcases List.prefix_of_prefix_length_le (List.prefix_append l tail) hpre
      (length_le_of_longest? hfound h (List.prefix_append l tail)) with ⟨more, hmore⟩
    cases more with
    | nil =>
        rw [List.append_nil] at hmore
        have htype : found.2 = type := by
          refine type_unique (t := l) ?_ h
          rw [hmore]
          exact hmem
        rw [hmore, ← htype]
    | cons u more =>
        -- A longer operator was found, so one that is longer by one unit fits
        -- as well.
        exfalso
        rw [← hmore, List.prefix_append_right_inj] at hpre
        rcases hpre with ⟨rest, hrest⟩
        have hlu : l ++ [u] <+: found.1 := ⟨more, by rw [← hmore, List.append_assoc]; rfl⟩
        rcases mem_of_prefix hmem hlu (by simp) with ⟨type', hmem'⟩
        exact hmax u (by rw [← hrest]; rfl) type' hmem'

theorem longest?_eq_none_iff {u : CodeUnit} {rest : Text} :
    longest? (u :: rest) = none ↔ [u] ∉ one.map Prod.fst := by
  constructor
  · -- The entry of one unit would be found if no longer one is.
    intro hnone hone
    rcases List.mem_map.1 hone with ⟨entry, hmem, hentry⟩
    have hall : entry ∈ all := List.mem_append_right _ hmem
    have hno := List.find?_eq_none.1 hnone entry hall
    rw [hentry] at hno
    exact hno (List.isPrefixOf_iff_prefix.2 ⟨rest, rfl⟩)
  · intro hone
    rcases hfound : longest? (u :: rest) with _ | ⟨found, type⟩
    · rfl
    · exfalso
      have hmem := mem_of_longest? hfound
      have hpre := isPrefix_of_longest? hfound
      cases found with
      | nil => exact ne_nil_of_mem _ hmem rfl
      | cons v t =>
          rw [List.cons_prefix_cons] at hpre
          rw [hpre.1] at hmem
          exact hone (singleton_mem_one hmem)

end Operator

namespace Escape

theorem no_newline : ∀ entry ∈ table, entry.1 ≠ CodeUnit.newline := by
  have hall : table.all (fun entry => entry.1 != CodeUnit.newline) = true := by decide
  intro entry hentry
  simpa using List.all_eq_true.1 hall entry hentry

theorem decode?_of_mem : ∀ entry ∈ table, decode? entry.1 = some entry.2 := by
  have hall : table.all (fun entry => decode? entry.1 == some entry.2) = true := by decide
  intro entry hentry
  simpa using List.all_eq_true.1 hall entry hentry

theorem mem_table_iff {v d : CodeUnit} : (v, d) ∈ table ↔ decode? v = some d := by
  constructor
  · exact decode?_of_mem _
  · intro h
    rcases List.lookup_eq_some_iff.1 h with ⟨before, behind, hall, _⟩
    rw [hall]
    exact List.mem_append_right _ List.mem_cons_self

theorem decode?_eq_none_iff {v : CodeUnit} :
    decode? v = none ↔ ∀ entry ∈ table, v ≠ entry.1 := by
  unfold decode?
  simp only [List.lookup_eq_none_iff, bne_iff_ne]

end Escape

end GlyphLexer
