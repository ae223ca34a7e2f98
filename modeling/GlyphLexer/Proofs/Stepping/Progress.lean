import GlyphLexer.Proofs.Stepping.Calls

/-!
# Progress of single calls

What one call of the lexer does to a place in a text, and what a caller may
expect who does not stop at an error.

A call ends in one of seven ways, and `NextAt` has them all: the token for
the end, a token, or one of five errors, each with the unit that stands at
its place. It is read off the beginning of the unread text (`nextAt`), and
all that follows goes through its cases.

A caller who goes on after an error may never come further. The place of an
error is where the lexer is left, but for an unknown escape, of which one
more unit is passed. Whether the next call comes further depends on the unit
there. A unit that begins no lexeme is an error again, the same one at the
same place, for ever. Every other error leaves a unit that may be passed:
what cuts a number begins a lexeme of its own, what cuts a string literal is
a newline, which is trivia, and at the end of the text there is only the end.

## Main definitions

* `CodeUnit.BeginsLexeme`: A unit that some lexeme begins with.
* `Lexer.NextAt`: What a call at an offset does.
* `Lexer.Ends`, `Lexer.Yields`, `Lexer.Fails`: The three sorts of calls.
* `Lexer.Repeats`, `LexError.IsStray`: The next call fails in the same way,
  and the errors after which it does.

## Theorems

* `Reading.token_of_not_beginsLexeme`: A unit that begins no lexeme is a
  fault at once.
* `Lexer.nextAt`: A call does one of the seven.
* `Lexer.ends_or_lt_or_stray`: A call comes to the end, comes further, or
  stands before a stray unit.
* `Lexer.fails_of_stray`, `Lexer.fails_of_passed`: The calls that fail, with
  what comes after them.
* `Lexer.next_progress`: A call is of one of the three sorts, and a scan
  takes no more of them than there are units, and one for the end.
* `Lexer.next_progress_newlineEscape`: A call that fails, behind one that
  took a line break with it.
-/

namespace GlyphLexer

/-- A unit that some lexeme begins with. -/
def CodeUnit.BeginsLexeme (u : CodeUnit) : Prop := ∃ rest, IsLexeme (u :: rest)

namespace CodeUnit

theorem beginsLexeme_of_isNameStart {u : CodeUnit} (h : u.isNameStart = true) : u.BeginsLexeme :=
  ⟨[], _, _, Lexeme.identifier h fun _ hv => absurd hv List.not_mem_nil⟩

theorem beginsLexeme_dot : dot.BeginsLexeme := ⟨[], .dot, none, Lexeme.operator (by decide)⟩

theorem not_beginsLexeme {u : CodeUnit} (hquote : u ≠ quote) (hdigit : u.isDigit = false)
    (hname : u.isNameStart = false) (hop : ∀ entry ∈ Operator.one, entry.1 ≠ [u]) :
    ¬ u.BeginsLexeme := by
  rintro ⟨rest, type, literal, h⟩
  rcases h.head_cases with ⟨hstart, _⟩ | ⟨hstart, _⟩ | ⟨hstart, _⟩ | ⟨_, _, hmem⟩
  · rw [hstart] at hname
    exact absurd hname (by decide)
  · rw [hstart] at hdigit
    exact absurd hdigit (by decide)
  · exact hquote hstart
  · rcases List.mem_map.1 (Operator.singleton_mem_one hmem) with ⟨entry, hentry, hunit⟩
    exact hop entry hentry hunit

end CodeUnit

/-- A unit that begins no lexeme is a fault at once, whatever follows it. -/
theorem Reading.token_of_not_beginsLexeme {u : CodeUnit} (h : ¬ u.BeginsLexeme) (rest : Text) :
    token u rest = fault [] (.unexpectedSymbol u) := by
  refine token_of_stray ?_ ?_ ?_ (Operator.longest?_eq_none_iff.2 fun hmem => h ?_)
  · rintro rfl
    exact h ⟨[CodeUnit.quote], _, _, Lexeme.string StringItems.nil⟩
  · by_contra hdigit
    exact h ⟨[], _, _, Lexeme.integer ⟨List.cons_ne_nil _ _, by simpa using hdigit⟩⟩
  · by_contra hname
    exact h (CodeUnit.beginsLexeme_of_isNameStart (by simpa using hname))
  · rcases List.mem_map.1 hmem with ⟨entry, hentry, hunit⟩
    refine ⟨[], entry.2, none, Lexeme.operator ?_⟩
    rw [← hunit]
    exact List.mem_append_right _ hentry

/-- What a fault takes with it stands at its place. -/
theorem Breakage.Fits.passed_prefix {b : Breakage} {passed rest : Text} {f : Fault}
    (h : b.Fits passed rest f) : f.passed <+: rest := by
  cases h with
  | @unknownEscape _ rest v _ _ => exact List.prefix_append [v] rest
  | _ => exact List.nil_prefix

/-- The error is at a unit that begins no lexeme. -/
def LexError.IsStray (s : Text) (e : LexError) : Prop :=
  e.kind = .unexpectedSymbol ∧
    ∃ (q : Nat) (u : CodeUnit), e.location.offset = q ∧ s[q]? = some u ∧ ¬ u.BeginsLexeme

namespace Lexer

/-- What one call of `next` does at an offset: what it gives, and the lexer
    after it. -/
inductive NextAt (s : Text) (p : Nat) : Except LexError Token × Lexer → Prop where
  | endOfText (h : IsTrivia (s.drop p)) :
      NextAt s p (.ok (Token.endOfFile (Location.ofOffset s s.length)), ofOffset s s.length)
  | token {start stop : Nat} {type : TokenType} {literal : Option Text} (hstart : p ≤ start)
      (hlt : start < stop) (htype : type ≠ .eof) :
      NextAt s p
        (.ok ⟨type, Location.ofOffset s start, Location.ofOffset s stop, literal⟩, ofOffset s stop)
  /-- A unit that begins no lexeme stands behind the trivia. -/
  | stray {q : Nat} {u : CodeUnit} (hq : p ≤ q) (hu : s[q]? = some u) (htrivia : u.isTrivia = false)
      (hbegins : ¬ u.BeginsLexeme) :
      NextAt s p (.error ((Fault.unexpectedSymbol u).toError (Location.ofOffset s q)), ofOffset s q)
  /-- A number runs into a unit that begins a lexeme of its own. -/
  | numberCut {q : Nat} {u : CodeUnit} (hq : p < q) (hu : s[q]? = some u)
      (hbegins : u.BeginsLexeme) :
      NextAt s p
        (.error ((Fault.symbolBehindNumber u).toError (Location.ofOffset s q)), ofOffset s q)
  | newlineInString {q : Nat} (hq : p < q) (hu : s[q]? = some CodeUnit.newline) :
      NextAt s p (.error (Fault.endOfLine.toError (Location.ofOffset s q)), ofOffset s q)
  | endInString (hlt : p < s.length) :
      NextAt s p
        (.error (Fault.endOfFile.toError (Location.ofOffset s s.length)), ofOffset s s.length)
  /-- The unit behind the backslash is passed. -/
  | unknownEscape {q : Nat} {v : CodeUnit} (hq : p < q) (hlt : q < s.length) :
      NextAt s p
        (.error ((Fault.invalidEscape v).toError (Location.ofOffset s q)), ofOffset s (q + 1))

section Calls

variable {s : Text} {p q : Nat}

theorem next_of_isTrivia (hp : p ≤ s.length) (h : IsTrivia (s.drop p)) :
    (ofOffset s p).next =
      (.ok (Token.endOfFile (Location.ofOffset s s.length)), ofOffset s s.length) := by
  have hend : p + (s.drop p).length = s.length := by
    rw [List.length_drop]
    omega
  rw [next_of_trivia (l := ofOffset s p) (firstReading_of_isTrivia h), unread_ofOffset,
    beyond_ofOffset (List.prefix_refl (s.drop p)), hend, location_ofOffset]

/-- A fault of the unread text, behind trivia and what is passed. -/
theorem next_of_unread {gap passed rest : Text} {f : Fault}
    (h : firstReading (s.drop p) = (gap, some (.fault passed f)))
    (hunread : s.drop p = gap ++ (passed ++ rest)) (hf : f.passed <+: rest) :
    (ofOffset s p).next =
      (.error (f.toError (Location.ofOffset s (p + (gap ++ passed).length))),
        ofOffset s (p + (gap ++ passed).length + f.passed.length)) := by
  have hplace : gap ++ passed <+: s.drop p := ⟨rest, by rw [hunread, List.append_assoc]⟩
  have hstop : gap ++ passed ++ f.passed <+: s.drop p := by
    rw [hunread, ← List.append_assoc]
    exact (List.prefix_append_right_inj _).2 hf
  rw [next_of_fault (l := ofOffset s p) h, beyond_ofOffset hplace, beyond_ofOffset hstop,
    location_ofOffset, Nat.add_assoc, ← List.length_append]

/-- A call does one of the seven. -/
theorem nextAt (hp : p ≤ s.length) : NextAt s p (ofOffset s p).next := by
  have hbegins := begins_firstReading (s.drop p)
  generalize hfirst : firstReading (s.drop p) = first at hbegins
  cases hbegins with
  | trivia h =>
      rw [next_of_isTrivia hp h]
      exact NextAt.endOfText h
  | @segment g tail hunread hg =>
      have hpos := List.length_pos_iff.2 hg.lexeme.ne_nil
      have hgap : g.gap <+: s.drop p := ⟨_, hunread.symm⟩
      have htext : g.gap ++ g.lexeme <+: s.drop p := ⟨tail, by rw [hunread, List.append_assoc]⟩
      rw [next_of_lexeme (l := ofOffset s p) hfirst, beyond_ofOffset hgap, beyond_ofOffset htext,
        location_ofOffset, location_ofOffset]
      refine NextAt.token (Nat.le_add_right _ _) ?_ hg.lexeme.type_ne_eof
      rw [List.length_append]
      omega
  | @fault gap passed rest b f hunread hgap hhead hfits =>
      rw [next_of_unread hfirst hunread hfits.passed_prefix]
      -- What is unread at the place of the fault is the rest, which is empty at
      -- the end of the text.
      generalize hq : p + (gap ++ passed).length = q
      have hrest : s.drop q = rest := by
        rw [← hq, ← List.drop_drop, hunread, ← List.append_assoc, List.drop_left]
      have hunit : ∀ u, rest.head? = some u → s[q]? = some u := by
        intro u hu
        rw [← List.head?_drop, hrest, hu]
      have hlength : q + rest.length = s.length := by
        have hsplit := congrArg List.length hunread
        rw [← hq]
        simp only [List.length_append, List.length_drop] at hsplit ⊢
        omega
      have hpassed : passed ≠ [] → p < q := by
        intro hne
        have hpos := List.length_pos_iff.2 hne
        rw [← hq, List.length_append]
        omega
      have hend : rest = [] → passed ≠ [] → NextAt s p
          (.error (Fault.endOfFile.toError (Location.ofOffset s q)), ofOffset s q) := by
        intro hnil hne
        rw [hnil, List.length_nil, Nat.add_zero] at hlength
        rw [hlength] at hpassed ⊢
        exact NextAt.endInString (hpassed hne)
      cases hfits with
      | stray hquote hdigit hname hop =>
          exact NextAt.stray (by omega) (hunit _ rfl) (hhead _ rfl)
            (CodeUnit.not_beginsLexeme hquote hdigit hname hop)
      | secondPoint h =>
          exact NextAt.numberCut (hpassed h.ne_nil) (hunit _ rfl) CodeUnit.beginsLexeme_dot
      | nameBehindNumber h hu =>
          have hne : passed ≠ [] := by
            rcases h with h | h <;> exact h.ne_nil
          exact NextAt.numberCut (hpassed hne) (hunit _ rfl)
            (CodeUnit.beginsLexeme_of_isNameStart hu)
      | newlineInString _ =>
          exact NextAt.newlineInString (hpassed (List.cons_ne_nil _ _)) (hunit _ rfl)
      | endInString _ => exact hend rfl (List.cons_ne_nil _ _)
      | endBehindBackslash _ => exact hend rfl (List.cons_ne_nil _ _)
      | unknownEscape _ _ =>
          refine NextAt.unknownEscape (hpassed (List.cons_ne_nil _ _)) ?_
          rw [List.length_cons] at hlength
          omega

/-- No call goes back, and no error is in front of the lexer that meets
    it. -/
theorem le_pos_next (hp : p ≤ s.length) : p ≤ (ofOffset s p).next.2.cursor.pos := by
  have hnext := nextAt hp
  generalize (ofOffset s p).next = r at hnext
  cases hnext <;> simp only [ofOffset, Cursor.ofOffset] <;> omega

end Calls

/-- Only trivia is left. The call gives the token for the end and comes to
    the end, and every later call does the same. -/
structure Ends (l : Lexer) : Prop where
  trivia : IsTrivia l.unread
  result : l.next.1 = .ok (Token.endOfFile l.next.2.location)
  pos : l.next.2.cursor.pos = l.source.length
  later : ∀ n, ∀ passage ∈ trace l.next.2 (List.replicate n .next),
    passage = ⟨l.next.2, Outcome.ofReading l.next.1, l.next.2⟩

/-- The call gives a token that is not the one for the end, of one unit or
    more, and comes to its end. -/
structure Yields (l : Lexer) (t : Token) : Prop where
  result : l.next.1 = .ok t
  type : t.type ≠ .eof
  start : l.cursor.pos ≤ t.start.offset
  nonempty : t.start.offset < t.stop.offset
  stop : t.stop.offset = l.next.2.cursor.pos

/-- The next call fails as a call before did, and does not move the lexer. -/
def Repeats (l : Lexer) (e : LexError) : Prop :=
  l.next.2 = l ∧ ∃ e', l.next.1 = .error e' ∧ e'.kind = e.kind ∧ e'.location = e.location ∧
    e'.context = e.context

/-- The call fails, and leaves the lexer at the place of the error or, behind
    an unknown escape, one unit further on. The next call repeats the error
    if that is at a stray unit, and otherwise comes to the end or further
    than the error. -/
structure Fails (l : Lexer) (e : LexError) : Prop where
  result : l.next.1 = .error e
  pos : l.next.2.cursor.pos = e.location.offset + if e.kind = .invalidEscapeCharacter then 1 else 0
  repeats : l.next.2.Repeats e ↔ e.IsStray l.source
  advances : ¬ e.IsStray l.source →
    l.next.2.Ends ∨ e.location.offset < l.next.2.next.2.cursor.pos

section Progress

variable {s : Text} {p q : Nat}

theorem eq_of_mem_trace_replicate {l : Lexer} {r : Except LexError Token} (h : l.next = (r, l))
    (n : Nat) :
    ∀ passage ∈ trace l (List.replicate n .next), passage = ⟨l, Outcome.ofReading r, l⟩ := by
  induction n with
  | zero => exact fun _ hmem => absurd hmem List.not_mem_nil
  | succ n ih =>
      intro passage hmem
      rw [List.replicate_succ, trace, Step.run, h] at hmem
      rcases List.mem_cons.1 hmem with heq | hmem
      · exact heq
      · exact ih passage hmem

theorem ends_of_isTrivia (hp : p ≤ s.length) (h : IsTrivia (s.drop p)) : (ofOffset s p).Ends := by
  have hlast : (ofOffset s s.length).next =
      (.ok (Token.endOfFile (Location.ofOffset s s.length)), ofOffset s s.length) := by
    refine next_of_isTrivia (le_refl _) ?_
    rw [List.drop_length]
    exact fun _ hmem => absurd hmem List.not_mem_nil
  have hnext := next_of_isTrivia hp h
  refine ⟨h, ?_, ?_, fun n passage hmem => ?_⟩
  · rw [hnext, location_ofOffset]
  · rw [hnext]
    rfl
  · rw [hnext] at hmem ⊢
    exact eq_of_mem_trace_replicate hlast n passage hmem

/-- A stray unit fails where it stands. -/
theorem next_of_stray {u : CodeUnit} (hu : s[q]? = some u) (htrivia : u.isTrivia = false)
    (hbegins : ¬ u.BeginsLexeme) :
    (ofOffset s q).next =
      (.error ((Fault.unexpectedSymbol u).toError (Location.ofOffset s q)), ofOffset s q) := by
  rw [← List.head?_drop] at hu
  rcases List.head?_eq_some_iff.1 hu with ⟨rest, hunread⟩
  have hfirst : firstReading (s.drop q) = ([], some (.fault [] (.unexpectedSymbol u))) := by
    have hgap : IsTrivia [] := fun _ hmem => absurd hmem List.not_mem_nil
    rw [hunread, ← Reading.token_of_not_beginsLexeme hbegins rest]
    exact firstReading_append hgap htrivia
  exact next_of_unread hfirst hunread List.nil_prefix

/-- A call comes to the end of the text, or comes further, or stands before a
    stray unit. -/
theorem ends_or_lt_or_stray (hq : q ≤ s.length) :
    (ofOffset s q).Ends ∨ q < (ofOffset s q).next.2.cursor.pos ∨
      ∃ u, s[q]? = some u ∧ u.isTrivia = false ∧ ¬ u.BeginsLexeme := by
  have hnext := nextAt hq
  generalize (ofOffset s q).next = r at hnext ⊢
  cases hnext with
  | endOfText h => exact Or.inl (ends_of_isTrivia hq h)
  | token hstart hlt _ => exact Or.inr (Or.inl (Nat.lt_of_le_of_lt hstart hlt))
  | stray hle hu htrivia hbegins =>
      rcases Nat.eq_or_lt_of_le hle with rfl | hlt
      · exact Or.inr (Or.inr ⟨_, hu, htrivia, hbegins⟩)
      · exact Or.inr (Or.inl hlt)
  | numberCut hlt _ _ => exact Or.inr (Or.inl hlt)
  | newlineInString hlt _ => exact Or.inr (Or.inl hlt)
  | endInString hlt => exact Or.inr (Or.inl hlt)
  | unknownEscape hlt _ => exact Or.inr (Or.inl (Nat.lt_succ_of_lt hlt))

theorem le_offset_of_error {e : LexError} (hp : p ≤ s.length)
    (h : (ofOffset s p).next.1 = .error e) :
    (p : Int) ≤ e.location.offset := by
  have hnext := nextAt hp
  generalize (ofOffset s p).next = r at hnext h
  cases hnext with
  | endOfText => cases h
  | token => cases h
  | stray hle => cases h; exact Int.ofNat_le.2 hle
  | numberCut hlt => cases h; exact Int.ofNat_le.2 hlt.le
  | newlineInString hlt => cases h; exact Int.ofNat_le.2 hlt.le
  | endInString hlt => cases h; exact Int.ofNat_le.2 hlt.le
  | unknownEscape hlt => cases h; exact Int.ofNat_le.2 hlt.le

/-- A call that fails at a stray unit fails again. -/
theorem fails_of_stray {u : CodeUnit} (hu : s[q]? = some u) (htrivia : u.isTrivia = false)
    (hbegins : ¬ u.BeginsLexeme)
    (hnext : (ofOffset s p).next =
      (.error ((Fault.unexpectedSymbol u).toError (Location.ofOffset s q)), ofOffset s q)) :
    (ofOffset s p).Fails ((Fault.unexpectedSymbol u).toError (Location.ofOffset s q)) := by
  have hstray : ((Fault.unexpectedSymbol u).toError (Location.ofOffset s q)).IsStray s :=
    ⟨rfl, q, u, rfl, hu, hbegins⟩
  have hagain := next_of_stray hu htrivia hbegins
  refine ⟨by rw [hnext], by rw [hnext]; rfl, ?_, fun hno => absurd hstray hno⟩
  rw [hnext]
  refine iff_of_true ⟨?_, _, ?_, rfl, rfl, rfl⟩ hstray
  · rw [hagain]
  · rw [hagain]

/-- A call that fails elsewhere leaves the lexer where the next call comes
    further. -/
theorem fails_of_passed {f : Fault} (hstop : q + f.passed.length ≤ s.length)
    (hnext : (ofOffset s p).next =
      (.error (f.toError (Location.ofOffset s q)), ofOffset s (q + f.passed.length)))
    (hunit : f.passed = [] → ∀ u, s[q]? = some u → u.isTrivia = true ∨ u.BeginsLexeme)
    (hsymbol : f.kind = .unexpectedSymbol → ∃ u, s[q]? = some u ∧ u.BeginsLexeme) :
    (ofOffset s p).Fails (f.toError (Location.ofOffset s q)) := by
  have hfurther : (ofOffset s (q + f.passed.length)).Ends ∨
      q < (ofOffset s (q + f.passed.length)).next.2.cursor.pos := by
    by_cases hpassed : f.passed = []
    · rw [hpassed, List.length_nil, Nat.add_zero] at hstop ⊢
      rcases ends_or_lt_or_stray hstop with hends | hlt | ⟨u, hu, htrivia, hbegins⟩
      · exact Or.inl hends
      · exact Or.inr hlt
      · rcases hunit hpassed u hu with h | h
        · rw [h] at htrivia
          exact absurd htrivia (by decide)
        · exact absurd h hbegins
    · -- More than the place of the fault was passed already.
      have hpos := List.length_pos_iff.2 hpassed
      have hle := le_pos_next hstop
      exact Or.inr (by omega)
  have hrepeats :
      ¬ (ofOffset s (q + f.passed.length)).Repeats (f.toError (Location.ofOffset s q)) := by
    rintro ⟨hstay, e', he', _, hlocation, _⟩
    rcases hfurther with hends | hlt
    · rw [hends.result] at he'
      cases he'
    · have hoffset := le_offset_of_error hstop he'
      rw [hlocation] at hoffset
      rw [hstay] at hlt
      simp only [ofOffset, Cursor.ofOffset, Fault.toError, LexError.ofKind,
        Location.ofOffset] at hlt hoffset
      omega
  have hstray : ¬ (f.toError (Location.ofOffset s q)).IsStray s := by
    rintro ⟨hkind, q', u, hoffset, hu, hbegins⟩
    have hq : q = q' := Int.ofNat_inj.1 hoffset
    rcases hsymbol hkind with ⟨v, hv, hbegins'⟩
    rw [hq, hu, Option.some.injEq] at hv
    rw [hv] at hbegins
    exact hbegins hbegins'
  refine ⟨by rw [hnext], ?_, ?_, fun _ => ?_⟩
  · rw [hnext]
    cases f <;> rfl
  · rw [hnext]
    exact iff_of_false hrepeats hstray
  · rw [hnext]
    exact hfurther.imp_right Int.ofNat_lt.2

theorem ends_or_yields_or_fails (hp : p ≤ s.length) :
    (ofOffset s p).Ends ∨ (∃ t, (ofOffset s p).Yields t) ∨ ∃ e, (ofOffset s p).Fails e := by
  have hat := nextAt hp
  generalize hnext : (ofOffset s p).next = r at hat
  cases hat with
  | endOfText h => exact Or.inl (ends_of_isTrivia hp h)
  | @token start stop type literal hstart hlt htype =>
      refine Or.inr (Or.inl ⟨_, by rw [hnext], htype, ?_, ?_, by rw [hnext]; rfl⟩)
      · exact Int.ofNat_le.2 hstart
      · exact Int.ofNat_lt.2 hlt
  | stray _ hu htrivia hbegins => exact Or.inr (Or.inr ⟨_, fails_of_stray hu htrivia hbegins hnext⟩)
  | @numberCut q u hq hu hbegins =>
      refine Or.inr (Or.inr ⟨_, fails_of_passed ?_ hnext (fun _ v hv => Or.inr ?_) ?_⟩)
      · exact (List.getElem?_eq_some_iff.1 hu).1.le
      · rw [hu, Option.some.injEq] at hv
        rwa [← hv]
      · exact fun _ => ⟨u, hu, hbegins⟩
  | @newlineInString q hq hu =>
      refine Or.inr (Or.inr ⟨_, fails_of_passed ?_ hnext (fun _ v hv => Or.inl ?_) ?_⟩)
      · exact (List.getElem?_eq_some_iff.1 hu).1.le
      · rw [hu, Option.some.injEq] at hv
        rw [← hv]
        decide
      · exact fun hkind => by cases hkind
  | endInString _ =>
      refine Or.inr (Or.inr ⟨_, fails_of_passed (le_refl _) hnext (fun _ v hv => ?_) ?_⟩)
      · rw [List.getElem?_eq_none (le_refl _)] at hv
        cases hv
      · exact fun hkind => by cases hkind
  | unknownEscape _ hlt =>
      refine Or.inr (Or.inr ⟨_, fails_of_passed hlt hnext (fun h => ?_) ?_⟩)
      · exact absurd h (List.cons_ne_nil _ _)
      · exact fun hkind => by cases hkind

end Progress

/-- Wherever steps have led a lexer, if not past the end of its text, the
    next call is of exactly one of three sorts: it comes to the end, which is
    when only trivia is left, gives a token, or fails. A scan is nothing but
    such calls, and it takes no more of them than there are units in the
    text, and one for the end. -/
theorem next_progress (s : Text) :
    (∀ (steps : List Step) (l : Lexer), reached (ofSource s) steps = l → l.cursor.pos ≤ s.length →
      (l.Ends ↔ IsTrivia l.unread) ∧ (l.Ends ∨ (∃ t, l.Yields t) ∨ ∃ e, l.Fails e) ∧
        ¬ (l.Ends ∧ ∃ t, l.Yields t) ∧ ¬ (l.Ends ∧ ∃ e, l.Fails e) ∧
        ¬ ((∃ t, l.Yields t) ∧ ∃ e, l.Fails e)) ∧
    (ofSource s).calls = (scan s).results ∧ (ofSource s).calls.length ≤ s.length + 1 := by
  refine ⟨fun steps l hl hp => ?_, ?_, length_calls_le (ofSource s)⟩
  · rcases exists_reached_eq_ofOffset s steps with ⟨p, hreached⟩
    rw [hreached] at hl
    rw [← hl] at hp ⊢
    refine ⟨⟨Ends.trivia, ends_of_isTrivia hp⟩, ends_or_yields_or_fails hp, ?_, ?_, ?_⟩
    · rintro ⟨hends, t, ht⟩
      have heq := hends.result.symm.trans ht.result
      rw [Except.ok.injEq] at heq
      exact ht.type (by rw [← heq]; rfl)
    · rintro ⟨hends, e, he⟩
      cases hends.result.symm.trans he.result
    · rintro ⟨⟨t, ht⟩, e, he⟩
      cases ht.result.symm.trans he.result
  · have hscan := results_scanFrom (ofSource s) []
    rw [List.reverse_nil, List.map_nil, List.nil_append] at hscan
    exact hscan.symm

/-- An unknown escape takes a line break with it, and the call behind it
    fails at a sign that is no token. -/
theorem next_progress_newlineEscape :
    (reached (ofSource (text "\"\\\n$")) [.next]).cursor = ⟨3, 2, 3⟩ ∧
      ∃ e, (reached (ofSource (text "\"\\\n$")) [.next]).Fails e := by
  have hcursor : (reached (ofSource (text "\"\\\n$")) [.next]).cursor = ⟨3, 2, 3⟩ := by
    decide +kernel
  have hfails : (reached (ofSource (text "\"\\\n$")) [.next]).next.1.isOk = false := by
    decide +kernel
  have hsorts := (next_progress (text "\"\\\n$")).1 [.next] _ rfl (by rw [hcursor]; decide)
  rcases hsorts.2.1 with hends | ⟨t, ht⟩ | he
  · rw [hends.result] at hfails
    cases hfails
  · rw [ht.result] at hfails
    cases hfails
  · exact ⟨hcursor, he⟩

end Lexer

end GlyphLexer
