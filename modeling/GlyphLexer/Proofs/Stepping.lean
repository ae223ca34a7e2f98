import GlyphLexer.Lexer
import GlyphLexer.Proofs.Position
import Mathlib.Data.List.Infix

/-!
# Stepping through a text

Whatever is done with a lexer, and in whatever order, its cursor says where
it is.

A lexer can be driven one step at a time, and nothing keeps a caller from
reading a string literal at a newline, going on after a fault, or moving past
the end. The cursor is kept by adding to what it was, so a single step that
passed a newline without counting it would put every later line and column
out. That no step does is a statement about what steps pass: each passes
units that are next in the text, in their order, or moves a number of places.
`Reading.passed` is what a reading passes, the unit behind a backslash that
makes no escape included, and `Reading.string_passed` and its companions say
that it is a beginning of the unread text.

With this every step leads from the lexer at one offset to the lexer at
another, no smaller one (`Step.run_ofOffset`), and so does every run of
steps. `Lexer.ofOffset` knows nothing of the steps that led to it, which is
the invariant: line and column can be counted in the text. A lexer that was
driven in any way is therefore one at an offset
(`exists_reached_eq_ofOffset`), and what it does next can be asked of the
offset.

## Main definitions

* `Lexer.Step`, `Lexer.Outcome`: What can be done with a lexer, and what it
  gives.
* `Lexer.Step.run`, `Lexer.trace`: One step, and steps one after the other on
  one lexer.
* `Lexer.reached`: The lexer after steps taken one after the other.
* `Lexer.ofOffset`: The lexer at an offset of a text.
* `Lexer.beyond`: The lexer behind units that it passes.
* `Reading.passed`: The units that a reading passes.

## Theorems

* `Reading.string_passed`, `Reading.number_passed`, `Reading.token_passed`: A
  reading passes a beginning of the text.
* `Lexer.finish_ofOffset`: Passing a reading.
* `Lexer.Step.run_ofOffset`: A step leads from one offset to another.
* `Lexer.exists_reached_eq_ofOffset`: Steps lead to the lexer at an offset.
* `Lexer.exists_ofOffset_of_mem_trace`: So does each step of a run.
* `Lexer.trace_exact`: After every step the cursor is exact, and so is every
  location given.
* `Lexer.trace_exact_newlines`: A run that passes newlines in unusual ways.
-/

namespace GlyphLexer

namespace Reading

/-- All units that a reading passes, those behind the place of a fault
    included. -/
def passed : Reading → Text
  | lexeme taken _ _ => taken
  | fault passed f => passed ++ f.passed

@[simp] theorem passed_after (front decoded : Text) (r : Reading) :
    (r.after front decoded).passed = front ++ r.passed := by
  cases r with
  | lexeme taken type literal => rfl
  | fault passed f => exact List.append_assoc front passed f.passed

theorem string_passed (t : Text) : (string t).passed <+: t := by
  fun_induction string t with
  | case1 => exact List.nil_prefix
  | case2 => exact List.prefix_append [_] _
  | case3 => exact List.nil_prefix
  | case4 => exact List.prefix_refl _
  | case5 _ _ _ v rest _ ih =>
      rw [passed_after]
      exact (List.prefix_append_right_inj _).2 ih
  | case6 => exact List.prefix_append [_, _] _
  | case7 u rest _ _ _ ih =>
      rw [passed_after]
      exact (List.prefix_append_right_inj _).2 ih

theorem number_passed (t : Text) : (number t).passed <+: t := by
  have hunits : (number t).passed = (numeral t).1 := by
    unfold number
    simp only
    split
    · split
      · exact List.append_nil _
      · rfl
    · rfl
  rw [hunits]
  exact numeral_prefix t

theorem token_passed (u : CodeUnit) (rest : Text) : (token u rest).passed <+: u :: rest := by
  unfold token
  split
  · rw [passed_after]
    exact (List.prefix_append_right_inj [u]).2 (string_passed rest)
  · split
    · exact number_passed _
    · split
      · exact List.takeWhile_prefix _
      · split
        · next h => exact Operator.isPrefix_of_longest? h
        · exact List.nil_prefix

end Reading

namespace Lexer

/-- What can be done with a lexer. To take a negative number of units is to
    take none. -/
inductive Step where
  | next
  | string
  | number
  | name
  | take (n : Int) (type : TokenType)
  | advance
  | peek (k : Int)
  | peekString (n : Int)
  | location
  | atEnd

/-- What a step gives. -/
inductive Outcome where
  | token (t : Token)
  | error (e : LexError)
  | text (t : Text)
  | location (l : Location)
  | flag (b : Bool)

/-- What a step that reads gives. -/
def Outcome.ofReading : Except LexError Token → Outcome
  | .ok t => token t
  | .error e => error e

/-- The locations that are given. -/
def Outcome.locations : Outcome → List Location
  | token t => [t.start, t.stop]
  | error e => [e.location]
  | location l => [l]
  | _ => []

/-- Takes a step: what it gives, and the lexer after it. -/
def Step.run (l : Lexer) : Step → Outcome × Lexer
  | next => (Outcome.ofReading l.next.1, l.next.2)
  | string => (Outcome.ofReading l.string.1, l.string.2)
  | number => (Outcome.ofReading l.number.1, l.number.2)
  | name => (Outcome.ofReading l.name.1, l.name.2)
  | take n type => (.token (l.take n.toNat type).1, (l.take n.toNat type).2)
  | advance => (.text l.advance.1, l.advance.2)
  | peek k => (.text (l.peek k), l)
  | peekString n => (.text (l.peekString n), l)
  | location => (.location l.location, l)
  | atEnd => (.flag l.atEnd, l)

/-- One step of a run: the lexer before it, what it gave, and the lexer after
    it. -/
structure Passage where
  before : Lexer
  outcome : Outcome
  after : Lexer

/-- Takes steps one after the other, going on from where each one left the
    lexer. -/
def trace : Lexer → List Step → List Passage
  | _, [] => []
  | l, step :: steps => ⟨l, (step.run l).1, (step.run l).2⟩ :: trace (step.run l).2 steps

/-- A step on a text that has not gone back, and has left the lexer on the
    line that its offset is on, or the end of the text if the offset is past
    it. Line and column of the locations given are counted in what is before
    their offsets. -/
structure Passage.Exact (s : Text) (passage : Passage) : Prop where
  source : passage.after.source = s
  forward : passage.before.cursor.pos ≤ passage.after.cursor.pos
  line : passage.after.cursor.line =
    1 + (s.take (min passage.after.cursor.pos s.length)).count CodeUnit.newline
  lineStart : passage.after.cursor.lineStart =
    Text.lineStart (s.take (min passage.after.cursor.pos s.length))
  locations : ∀ l ∈ passage.outcome.locations, ∃ p : Nat, l.offset = p ∧
    l.line = 1 + (s.take p).count CodeUnit.newline ∧
    l.column = p - Text.lineStart (s.take p) + 1

/-- The lexer at an offset of a text, which may be past its end. -/
def ofOffset (s : Text) (p : Nat) : Lexer := ⟨s, Cursor.ofOffset s p⟩

theorem unread_ofOffset (s : Text) (p : Nat) : (ofOffset s p).unread = s.drop p := rfl

theorem location_ofOffset (s : Text) (p : Nat) :
    (ofOffset s p).location = Location.ofOffset s p :=
  Cursor.location_ofOffset s p

theorem moved_ofOffset (s : Text) (p n : Nat) : (ofOffset s p).moved n = ofOffset s (p + n) := by
  unfold moved
  rw [unread_ofOffset]
  unfold ofOffset
  rw [Cursor.advance_ofOffset]

/-- The lexer behind units that it passes. -/
def beyond (l : Lexer) (t : Text) : Lexer := { l with cursor := l.cursor.beyond t }

theorem beyond_append (l : Lexer) (a b : Text) : l.beyond (a ++ b) = (l.beyond a).beyond b := by
  unfold beyond
  rw [Cursor.beyond_append]

theorem beyond_ofOffset {s t : Text} {p : Nat} (h : t <+: s.drop p) :
    (ofOffset s p).beyond t = ofOffset s (p + t.length) := by
  unfold beyond ofOffset
  rw [Cursor.beyond_ofOffset h]

theorem exists_skipTrivia_ofOffset (s : Text) (p : Nat) :
    ∃ q, p ≤ q ∧ (ofOffset s p).skipTrivia = ofOffset s q :=
  ⟨_, Nat.le_add_right _ _, beyond_ofOffset (List.takeWhile_prefix CodeUnit.isTrivia)⟩

/-- What a step has to do: lead from the lexer at one offset to the lexer at
    one no smaller, and give locations of offsets. -/
def Leads (s : Text) (p : Nat) (r : Outcome × Lexer) : Prop :=
  (∃ q, p ≤ q ∧ r.2 = ofOffset s q) ∧ ∀ l ∈ r.1.locations, ∃ k, l = Location.ofOffset s k

/-- Passing a reading of the unread text, as a token or an error that begins
    at another offset. -/
theorem finish_ofOffset (s : Text) (p k : Nat) {r : Reading} (hr : r.passed <+: s.drop p) :
    Leads s p (Outcome.ofReading ((ofOffset s p).finish (Location.ofOffset s k) r).1,
      ((ofOffset s p).finish (Location.ofOffset s k) r).2) := by
  cases r with
  | lexeme taken type literal =>
      have hstop := Cursor.beyond_ofOffset hr
      simp only [Reading.passed] at hstop
      refine ⟨⟨p + taken.length, Nat.le_add_right _ _, ?_⟩, fun l hl => ?_⟩
      · simp only [finish, ofOffset, hstop]
      · simp only [finish, ofOffset, hstop, Cursor.location_ofOffset, Outcome.ofReading,
          Outcome.locations, List.mem_cons, List.not_mem_nil, or_false] at hl
        rcases hl with rfl | rfl
        · exact ⟨k, rfl⟩
        · exact ⟨_, rfl⟩
  | fault passed f =>
      -- The place of the fault comes first, and what else is passed follows it.
      have hplace : (Cursor.ofOffset s p).beyond passed = Cursor.ofOffset s (p + passed.length) :=
        Cursor.beyond_ofOffset ((List.prefix_append _ _).trans hr)
      have hstop := Cursor.beyond_ofOffset hr
      simp only [Reading.passed, Cursor.beyond_append, hplace] at hstop
      refine ⟨⟨p + (passed ++ f.passed).length, Nat.le_add_right _ _, ?_⟩, fun l hl => ?_⟩
      · simp only [finish, ofOffset, hplace, hstop]
      · simp only [finish, ofOffset, hplace, Cursor.location_ofOffset, Outcome.ofReading,
          Outcome.locations, List.mem_singleton] at hl
        rw [hl]
        exact ⟨_, rfl⟩

theorem Leads.of_le {s : Text} {p q : Nat} {r : Outcome × Lexer} (h : Leads s q r) (hpq : p ≤ q) :
    Leads s p r := by
  rcases h with ⟨⟨m, hm, hlexer⟩, hlocations⟩
  exact ⟨⟨m, hpq.trans hm, hlexer⟩, hlocations⟩

/-- A step that leaves the lexer as it is and gives no location. -/
theorem Leads.of_eq {s : Text} {p : Nat} {o : Outcome} (ho : o.locations = []) :
    Leads s p (o, ofOffset s p) := by
  refine ⟨⟨p, le_refl p, rfl⟩, fun l hl => ?_⟩
  rw [ho] at hl
  exact absurd hl List.not_mem_nil

/-- The next token is read behind the trivia, and the end of the text is met
    there. -/
theorem next_ofOffset (s : Text) (p : Nat) : Leads s p (Step.next.run (ofOffset s p)) := by
  rcases exists_skipTrivia_ofOffset s p with ⟨q, hpq, hskip⟩
  refine Leads.of_le (q := q) ?_ hpq
  unfold Step.run next
  cases hunread : s.drop q with
  | nil =>
      simp only [hskip, unread_ofOffset, hunread, location_ofOffset]
      refine ⟨⟨q, le_refl q, rfl⟩, fun l hl => ⟨q, ?_⟩⟩
      simpa [Outcome.ofReading, Outcome.locations, Token.endOfFile] using hl
  | cons u rest =>
      have hpassed := Reading.token_passed u rest
      rw [← hunread] at hpassed
      simp only [hskip, unread_ofOffset, hunread, location_ofOffset]
      exact finish_ofOffset s q q hpassed

/-- A step leads from one offset to another. -/
theorem Step.run_ofOffset (s : Text) (p : Nat) (step : Step) :
    Leads s p (step.run (ofOffset s p)) := by
  cases step with
  | next => exact next_ofOffset s p
  | string =>
      -- The opening quotation mark is whatever stands there, or nothing past
      -- the end.
      have hread := finish_ofOffset s (p + 1) p (Reading.string_passed (s.drop (p + 1)))
      simp only [run, Lexer.string, moved_ofOffset, unread_ofOffset, location_ofOffset]
      exact hread.of_le (Nat.le_succ p)
  | number => exact finish_ofOffset s p p (Reading.number_passed (s.drop p))
  | name => exact finish_ofOffset s p p (List.takeWhile_prefix _)
  | take n type =>
      refine ⟨⟨p + n.toNat, Nat.le_add_right _ _, moved_ofOffset s p n.toNat⟩, fun l hl => ?_⟩
      simp only [run, Lexer.take, moved_ofOffset, location_ofOffset, Outcome.locations,
        List.mem_cons, List.not_mem_nil, or_false] at hl
      rcases hl with rfl | rfl
      · exact ⟨p, rfl⟩
      · exact ⟨p + n.toNat, rfl⟩
  | advance =>
      exact ⟨⟨p + 1, Nat.le_succ p, moved_ofOffset s p 1⟩, fun l hl => absurd hl List.not_mem_nil⟩
  | peek k => exact Leads.of_eq rfl
  | peekString n => exact Leads.of_eq rfl
  | location =>
      refine ⟨⟨p, le_refl p, rfl⟩, fun l hl => ⟨p, ?_⟩⟩
      simpa [run, Outcome.locations, location_ofOffset] using hl
  | atEnd => exact Leads.of_eq rfl

/-- The lexer after steps taken one after the other. -/
def reached (l : Lexer) (steps : List Step) : Lexer := steps.foldl (fun l step => (step.run l).2) l

/-- Whatever the steps, they lead to the lexer at an offset, which may be in
    the middle of a lexeme. -/
theorem exists_reached_eq_ofOffset (s : Text) (steps : List Step) :
    ∃ p, reached (Lexer.ofSource s) steps = ofOffset s p := by
  induction steps using List.reverseRecOn with
  | nil => exact ⟨0, rfl⟩
  | append_singleton steps step ih =>
      rcases ih with ⟨p, hp⟩
      rcases (step.run_ofOffset s p).1 with ⟨q, _, hq⟩
      refine ⟨q, ?_⟩
      rw [← hq, ← hp]
      exact List.foldl_append

/-- Every step of a run leads from one offset to another. -/
theorem exists_ofOffset_of_mem_trace {s : Text} {p : Nat} {steps : List Step} {passage : Passage}
    (h : passage ∈ trace (ofOffset s p) steps) :
    ∃ q, passage.before = ofOffset s q ∧ Leads s q (passage.outcome, passage.after) := by
  induction steps generalizing p with
  | nil => exact absurd h List.not_mem_nil
  | cons step steps ih =>
      have hstep := step.run_ofOffset s p
      rcases List.mem_cons.1 h with rfl | hrest
      · exact ⟨p, rfl, hstep⟩
      · -- The rest of the run begins at the offset that the step led to.
        rcases hstep.1 with ⟨q, _, hafter⟩
        rw [hafter] at hrest
        exact ih hrest

/-- After every step of a run from the beginning of a text, the place of the
    lexer and every location that the step gave are those that counting
    newlines gives. -/
theorem trace_exact (s : Text) (steps : List Step) :
    ∀ passage ∈ trace (Lexer.ofSource s) steps, passage.Exact s := by
  intro passage hpassage
  have hmem : passage ∈ trace (ofOffset s 0) steps := hpassage
  rcases exists_ofOffset_of_mem_trace hmem with ⟨p, hbefore, ⟨q, hpq, hafter⟩, hlocations⟩
  have htake : s.take (min q s.length) = s.take q := by
    rw [← List.take_take, List.take_length]
  simp only at hafter
  refine ⟨?_, ?_, ?_, ?_, fun l hl => ?_⟩
  · rw [hafter]
    rfl
  · rw [hbefore, hafter]
    exact hpq
  · rw [hafter]
    simp only [ofOffset, Cursor.ofOffset, htake]
  · rw [hafter]
    simp only [ofOffset, Cursor.ofOffset, htake]
  · rcases hlocations l hl with ⟨k, rfl⟩
    exact ⟨k, rfl, rfl, rfl⟩

/-- A string literal read where a newline stands takes the newline for its
    opening quotation mark, and an escape that does not exist takes a newline
    with it. -/
theorem trace_exact_newlines :
    ∃ passage ∈ trace (Lexer.ofSource (text "\n\"a\\\n")) [.string, .string, .advance],
      passage.before.cursor = ⟨2, 2, 1⟩ ∧ passage.outcome.locations = [⟨2, 4, 4⟩] ∧
        passage.after.cursor = ⟨5, 3, 5⟩ ∧ passage.Exact (text "\n\"a\\\n") := by
  have hmem := List.getElem_mem (l := trace (Lexer.ofSource (text "\n\"a\\\n"))
    [.string, .string, .advance]) (n := 1) (by decide +kernel)
  refine ⟨_, hmem, ?_, ?_, ?_, trace_exact _ _ _ hmem⟩
  · decide +kernel
  · decide +kernel
  · decide +kernel

end Lexer

end GlyphLexer
