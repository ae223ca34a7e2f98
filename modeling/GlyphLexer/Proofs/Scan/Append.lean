import GlyphLexer.Proofs.Scan.Cut

/-!
# Scanning two texts as one

The scan of two texts one behind the other, where no lexeme can run over from
the first into the second.

A scan that begins behind a text `s` finds what the scan of the rest alone
finds, moved by `s` (`scanFrom_beyond`): nothing but the place is carried on
from one round to the next. What the first text could still do is to read
further, into the second. A lexeme that ended with the first text would have
to go on with the first unit of the second, and no lexeme has trivia at its
end; a lexeme that ended before does not see the second text at all. So the
cut of the first text stays right (`Completion.Valid.append`), and the two
facts together are `scan_append`.

## Main definitions

* `Token.behind`, `LexError.behind`: A token, or an error, moved by a text
  read before.
* `Apart`: Two texts between which there is trivia, or one of which is empty.

## Theorems

* `Segment.tokens_behind`: The tokens of segments move with the segments.
* `scanFrom_beyond`: A scan goes on as the scan of the rest, moved.
* `scanFrom_append_of_isTrivia`: Trivia only moves the cursor.
* `IsCut.last_not_isTrivia`: A cut ends in no trivia.
* `Completion.Valid.append`: A cut stays right before a text that stands
  apart.
* `scan_append`: Two texts that stand apart are scanned one after the other.
* `scan_append_unclosed`: A name and an operator, and an unclosed string on
  the next line.
-/

namespace GlyphLexer

open Segment (join join_nil join_cons)

/-- A token of a text, when the text `s` is read before that text. -/
def Token.behind (s : Text) (t : Token) : Token :=
  { t with start := t.start.behind s, stop := t.stop.behind s }

/-- An error in a text, when the text `s` is read before that text. -/
def LexError.behind (s : Text) (e : LexError) : LexError :=
  { e with location := e.location.behind s }

namespace Segment

theorem token_behind (s before : Text) (g : Segment) :
    g.token (s ++ before) = (g.token before).behind s := by
  unfold token Token.behind
  rw [List.append_assoc, List.append_assoc, Location.after_append s (before ++ g.gap),
    Location.after_append s (before ++ g.text)]

theorem tokens_behind (s before : Text) (gs : List Segment) :
    tokens (s ++ before) gs = (tokens before gs).map (Token.behind s) := by
  induction gs generalizing before with
  | nil => rfl
  | cons g gs ih =>
      unfold tokens
      rw [token_behind, List.append_assoc, ih, List.map_cons]

end Segment

theorem Token.endOfFile_behind (s t : Text) :
    Token.endOfFile (Location.after (s ++ t)) =
      (Token.endOfFile (Location.after t)).behind s := by
  rw [Location.after_append]
  rfl

theorem LexError.toError_behind (s t : Text) (f : Fault) :
    f.toError (Location.after (s ++ t)) = (f.toError (Location.after t)).behind s := by
  rw [Location.after_append]
  rfl

/-- A scan that begins behind a text finds what the scan of the rest finds,
    moved by that text. -/
theorem scanFrom_beyond (before : Text) (found : List Token) (t : Text) :
    scanFrom (Cursor.start.beyond before) found t =
      ⟨found.reverse ++ (scan t).tokens.map (Token.behind before),
        (scan t).error.map (LexError.behind before)⟩ := by
  have hmoved := Segment.tokens_behind before []
  rw [List.append_nil] at hmoved
  rcases scan_cases t with ⟨c, rfl, hc, hscan⟩ | ⟨d, rfl, hd, hscan⟩
  · rw [scanFrom_of_completion hc, hscan, hmoved, Token.endOfFile_behind]
    simp [Completion.tokens]
  · rw [scanFrom_of_breakdown hd, hscan, hmoved, LexError.toError_behind]
    simp [Breakdown.tokens, Breakdown.error]

/-- Trivia only moves the cursor, whatever follows it. -/
theorem scanFrom_append_of_isTrivia {w : Text} (hw : IsTrivia w) (c : Cursor)
    (found : List Token) (t : Text) :
    scanFrom c found (w ++ t) = scanFrom (c.beyond w) found t := by
  have hread : firstReading (w ++ t) = (w ++ (firstReading t).1, (firstReading t).2) := by
    unfold firstReading
    rw [List.takeWhile_append_of_pos hw, List.dropWhile_append_of_pos hw]
  rw [scanFrom_eq, scanFrom_eq (c.beyond w), hread]
  rcases firstReading t with ⟨gap, reading⟩
  cases reading with
  | none => simp only [Cursor.beyond_append]
  | some r =>
      cases r with
      | lexeme taken type literal =>
          simp only [List.append_assoc, Cursor.beyond_append]
          rw [List.length_append, ← List.drop_drop, List.drop_left]
      | fault passed f => simp only [List.append_assoc, Cursor.beyond_append]

/-- No lexeme runs over from the first text into the second: one of them is
    empty, or the first ends or the second begins with trivia. -/
def Apart (a b : Text) : Prop :=
  a = [] ∨ b = [] ∨ (∃ u, a.getLast? = some u ∧ u.isTrivia = true) ∨
    ∃ u, b.head? = some u ∧ u.isTrivia = true

theorem IsCut.eq_nil_of_join {gs : List Segment} {rest : Text} (h : IsCut gs rest)
    (hjoin : join gs = []) : gs = [] := by
  cases gs with
  | nil => rfl
  | cons g gs =>
      rw [join_cons, List.append_eq_nil_iff, List.append_eq_nil_iff] at hjoin
      exact absurd hjoin.2.1 h.1.lexeme.ne_nil

/-- A cut ends in a lexeme, and no lexeme ends in trivia. -/
theorem IsCut.last_not_isTrivia {gs : List Segment} {rest : Text} {u : CodeUnit}
    (h : IsCut gs rest) (hu : (join gs).getLast? = some u) : u.isTrivia = false := by
  induction gs with
  | nil => exact absurd hu (by simp)
  | cons g gs ih =>
      by_cases hjoin : join gs = []
      · rw [join_cons, hjoin, List.append_nil,
          List.getLast?_append_of_ne_nil _ h.1.lexeme.ne_nil] at hu
        rcases List.getLast?_eq_some_iff.1 hu with ⟨front, hfront⟩
        have hl := h.1.lexeme
        rw [hfront] at hl
        exact hl.last_not_isTrivia
      · refine ih h.2 ?_
        rw [← hu, join_cons, ← List.append_assoc, List.getLast?_append_of_ne_nil _ hjoin]

/-- The cut of a text stays right before a text that stands apart from it. -/
theorem Completion.Valid.append {c : Completion} {b : Text} (h : c.Valid) (hb : Apart c.text b) :
    IsCut c.segments (c.last ++ b) := by
  unfold Apart at hb
  rw [Completion.text] at hb
  rcases hb with hnil | hb
  · rw [h.cut.eq_nil_of_join (List.append_eq_nil_iff.1 hnil).1]
    exact trivial
  · refine h.cut.of_head fun u hu => ?_
    cases hlast : c.last with
    | cons v last =>
        rw [hlast] at hu
        exact Or.inl hu
    | nil =>
        -- No trivia is left behind the last lexeme, so `b` begins where that
        -- lexeme ends.
        rw [hlast, List.nil_append] at hu
        rw [hlast, List.append_nil] at hb
        rcases hb with hnil | ⟨v, hv, htrivia⟩ | ⟨v, hv, htrivia⟩
        · rw [hnil] at hu
          exact absurd hu (by simp)
        · rw [h.cut.last_not_isTrivia hv] at htrivia
          exact absurd htrivia (by decide)
        · rw [hu] at hv
          rw [Option.some.inj hv]
          exact Or.inr htrivia

/-- A text that is scanned to its end and a text that stands apart from it
    are scanned together as each is alone: the tokens and the error of the
    second are moved, and only the token for the end of the first is left
    out. -/
theorem scan_append {a b : Text} (ha : (scan a).success = true) (hab : Apart a b) :
    ∃ front : List Token,
      (scan a).tokens = front ++ [Token.endOfFile (Location.after a)] ∧
      (∀ t ∈ front, t.type ≠ .eof) ∧
      (scan (a ++ b)).success = (scan b).success ∧
      (scan (a ++ b)).tokens = front ++ (scan b).tokens.map (Token.behind a) ∧
      (scan (a ++ b)).error = (scan b).error.map (LexError.behind a) := by
  rcases scan_cases a with ⟨c, rfl, hc, hscan⟩ | ⟨d, _, _, hscan⟩
  · -- The rounds over `a` are as they were, and the rest of the scan begins where `a` ends.
    have hcut : IsCut c.segments (c.last ++ b) := hc.append hab
    have happend : scan (c.text ++ b) =
        ⟨Segment.tokens [] c.segments ++ (scan b).tokens.map (Token.behind c.text),
          (scan b).error.map (LexError.behind c.text)⟩ := by
      have hrun := scanFrom_of_isCut hcut [] []
      rw [Cursor.beyond_nil, List.nil_append, List.append_nil] at hrun
      rw [scan, Completion.text, List.append_assoc, hrun, scanFrom_append_of_isTrivia hc.last,
        ← Cursor.beyond_append, scanFrom_beyond, List.reverse_reverse]
    refine ⟨Segment.tokens [] c.segments, ?_, fun t ht => ?_, ?_, ?_, ?_⟩
    · rw [hscan]
      rfl
    · rcases exists_of_mem_tokens hc.cut ht with ⟨g, front, tail, hfits, rfl, _⟩
      exact hfits.lexeme.type_ne_eof
    · rw [happend]
      exact Option.isNone_map
    · rw [happend]
    · rw [happend]
  · rw [hscan] at ha
    exact absurd ha (by simp [Scan.success])

/-- A name and an operator, and an unclosed string on the next line: the
    error is on the second line of both texts together, and its column
    stays. -/
theorem scan_append_unclosed :
    ∃ front : List Token,
      (scan (text "x +=\n")).tokens = front ++ [Token.endOfFile ⟨2, 1, 5⟩] ∧
      (∀ t ∈ front, t.type ≠ .eof) ∧
      (scan (text "x +=\n" ++ text "\"ab")).success = (scan (text "\"ab")).success ∧
      (scan (text "x +=\n" ++ text "\"ab")).tokens =
        front ++ (scan (text "\"ab")).tokens.map (Token.behind (text "x +=\n")) ∧
      (scan (text "x +=\n" ++ text "\"ab")).error =
        (scan (text "\"ab")).error.map (LexError.behind (text "x +=\n")) := by
  have ha : (scan (text "x +=\n")).success = true := by decide +kernel
  have hab : Apart (text "x +=\n") (text "\"ab") :=
    Or.inr (Or.inr (Or.inl ⟨10, by decide, by decide⟩))
  exact scan_append ha hab

end GlyphLexer
