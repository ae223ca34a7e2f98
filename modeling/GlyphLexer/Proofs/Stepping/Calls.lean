import GlyphLexer.Proofs.Scan.Cut
import GlyphLexer.Proofs.Stepping

/-!
# Calling the lexer until it ends

What a caller gets who asks a lexer for the next token again and again.

A scan has a loop of its own, which keeps a cursor and the unread text and
knows nothing of lexers. A caller who drives a lexer has another loop: one
call of `next` after the other, until the token for the end comes or an
error. `Lexer.calls` is that loop, and `results_scanFrom` says that the two
give the same, from whatever place they begin, reachable or not. What is
proved of scans then holds of calls.

Both loops do in one round what `firstReading` says about the unread text.
For a call this is `next_of_trivia`, `next_of_lexeme` and `next_of_fault`,
which is all that is ever used of `next`. A lexeme is not empty, so every
call but the last makes the unread text shorter, and this is why the loop
ends and how long it can be (`length_calls_le`).

## Main definitions

* `Lexer.calls`: What the calls give, in order.
* `Scan.results`: What a scan found, in the order in which calls give it.

## Theorems

* `Lexer.next_of_trivia`, `Lexer.next_of_lexeme`, `Lexer.next_of_fault`: One
  call, by what is read first.
* `Lexer.length_unread_next_lt`: A call that gives a token leaves less to
  read.
* `Lexer.length_calls_le`: There are no more calls than units to read, and
  one for the end.
* `Lexer.results_scanFrom`: A scan finds what calls give.
-/

namespace GlyphLexer

/-- What a scan found, call by call: its tokens, and then its error if there
    is one. -/
def Scan.results (sc : Scan) : List (Except LexError Token) :=
  sc.tokens.map Except.ok ++ (sc.error.map Except.error).toList

namespace Lexer

variable {l after : Lexer}

theorem unread_beyond (l : Lexer) (t : Text) : (l.beyond t).unread = l.unread.drop t.length := by
  unfold unread beyond
  simp only
  rw [Cursor.pos_beyond, List.drop_drop]

/-- One call, by what is read first: it passes the trivia, and then the
    reading decides. -/
theorem next_eq (l : Lexer) :
    l.next =
      match firstReading l.unread with
      | (gap, none) => (.ok (Token.endOfFile (l.beyond gap).location), l.beyond gap)
      | (gap, some r) => (l.beyond gap).finish (l.beyond gap).location r := by
  have hskip : l.skipTrivia = l.beyond (l.unread.takeWhile CodeUnit.isTrivia) := rfl
  unfold next firstReading
  simp only [hskip, unread_beyond, Text.drop_length_takeWhile]
  cases l.unread.dropWhile CodeUnit.isTrivia with
  | nil => rfl
  | cons u rest => rfl

theorem next_of_trivia {gap : Text} (h : firstReading l.unread = (gap, none)) :
    l.next = (.ok (Token.endOfFile (l.beyond gap).location), l.beyond gap) := by
  rw [next_eq, h]

theorem next_of_lexeme {gap taken : Text} {type : TokenType} {literal : Option Text}
    (h : firstReading l.unread = (gap, some (.lexeme taken type literal))) :
    l.next =
      (.ok ⟨type, (l.beyond gap).location, (l.beyond (gap ++ taken)).location, literal⟩,
        l.beyond (gap ++ taken)) := by
  rw [next_eq, h, beyond_append]
  rfl

/-- The place of a fault is behind what is passed before it, and the lexer is
    left behind what the fault takes with it. -/
theorem next_of_fault {gap passed : Text} {f : Fault}
    (h : firstReading l.unread = (gap, some (.fault passed f))) :
    l.next =
      (.error (f.toError (l.beyond (gap ++ passed)).location),
        l.beyond (gap ++ passed ++ f.passed)) := by
  rw [next_eq, h, beyond_append _ (gap ++ passed), beyond_append _ gap]
  rfl

theorem length_unread_next_lt {t : Token} (h : l.next = (.ok t, after)) (ht : t.type ≠ .eof) :
    after.unread.length < l.unread.length := by
  have hbegins := begins_firstReading l.unread
  generalize hfirst : firstReading l.unread = first at hbegins
  cases hbegins with
  | trivia =>
      rw [next_of_trivia hfirst, Prod.mk.injEq, Except.ok.injEq] at h
      rw [← h.1] at ht
      exact absurd rfl ht
  | @segment g tail hunread hg =>
      have hpos := List.length_pos_iff.2 hg.lexeme.ne_nil
      rw [next_of_lexeme hfirst, Prod.mk.injEq] at h
      rw [← h.2, unread_beyond, List.length_drop, hunread]
      simp only [List.length_append]
      omega
  | fault =>
      rw [next_of_fault hfirst, Prod.mk.injEq] at h
      exact absurd h.1 (by simp)

/-- What calls of `next` give, one after the other on one lexer, up to the
    token for the end or an error. -/
def calls (l : Lexer) : List (Except LexError Token) :=
  match _h : l.next with
  | (.error e, _) => [.error e]
  | (.ok t, after) => if _ht : t.type = .eof then [.ok t] else .ok t :: calls after
termination_by l.unread.length
decreasing_by exact length_unread_next_lt _h _ht

theorem calls_of_error {e : LexError} (h : l.next = (.error e, after)) : l.calls = [.error e] := by
  rw [calls]
  split
  · next h' =>
    rw [h', Prod.mk.injEq] at h
    rw [h.1]
  · next h' =>
    rw [h', Prod.mk.injEq] at h
    exact absurd h.1 (by simp)

theorem calls_of_eof {t : Token} (h : l.next = (.ok t, after)) (ht : t.type = .eof) :
    l.calls = [.ok t] := by
  rw [calls]
  split
  · next h' =>
    rw [h', Prod.mk.injEq] at h
    exact absurd h.1 (by simp)
  · next h' =>
    rw [h', Prod.mk.injEq, Except.ok.injEq] at h
    rw [h.1, dif_pos ht]

theorem calls_of_token {t : Token} (h : l.next = (.ok t, after)) (ht : t.type ≠ .eof) :
    l.calls = .ok t :: after.calls := by
  rw [calls]
  split
  · next h' =>
    rw [h', Prod.mk.injEq] at h
    exact absurd h.1 (by simp)
  · next h' =>
    rw [h', Prod.mk.injEq, Except.ok.injEq] at h
    rw [h.1, h.2, dif_neg ht]

/-- No call but the last one leaves as much to read as there was. -/
theorem length_calls_le (l : Lexer) : l.calls.length ≤ l.unread.length + 1 := by
  fun_induction calls l with
  | case1 => exact Nat.le_add_left _ _
  | case2 => exact Nat.le_add_left _ _
  | case3 l t after h ht ih =>
      have hlt := length_unread_next_lt h ht
      rw [List.length_cons]
      omega

/-- A scan from the place of a lexer finds what calls of `next` give, behind
    the tokens found before. -/
theorem results_scanFrom (l : Lexer) (found : List Token) :
    (scanFrom l.cursor found l.unread).results = found.reverse.map Except.ok ++ l.calls := by
  -- Each round of the scan is one call, and the call leaves less to read.
  induction hn : l.unread.length using Nat.strong_induction_on generalizing l found with
  | _ n ih =>
      have hbegins := begins_firstReading l.unread
      generalize hfirst : firstReading l.unread = first at hbegins
      rw [scanFrom_eq, hfirst]
      cases hbegins with
      | trivia =>
          rw [calls_of_eof (next_of_trivia hfirst) rfl]
          simp [Scan.results, beyond, location]
      | @segment g tail hunread hg =>
          have hnext := next_of_lexeme hfirst
          have hlt := length_unread_next_lt hnext hg.lexeme.type_ne_eof
          have hrest := ih _ (hn ▸ hlt) (l.beyond (g.gap ++ g.lexeme))
            (⟨g.type, (l.beyond g.gap).location, (l.beyond (g.gap ++ g.lexeme)).location,
              g.literal⟩ :: found) rfl
          rw [unread_beyond] at hrest
          rw [calls_of_token hnext hg.lexeme.type_ne_eof]
          simpa [beyond, location] using hrest
      | fault =>
          rw [calls_of_error (next_of_fault hfirst)]
          simp [Scan.results, beyond, location]

end Lexer

end GlyphLexer
