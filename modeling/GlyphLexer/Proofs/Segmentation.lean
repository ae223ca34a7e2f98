import GlyphLexer.Error
import GlyphLexer.Proofs.Grammar.Reader
import GlyphLexer.Proofs.Position

/-!
# Segmentations

A text cut into lexemes with the trivia between them.

A `Segment` is a lexeme with the trivia in front of it. `IsCut gs rest` says
that the segments `gs`, standing before the text `rest`, are cut as the
lexical grammar asks: every lexeme is the longest one at its place. Behind
the last segment there is trivia only (`Completion`), or trivia and a text
with one of the shapes that have no token (`Breakdown`). Every text has one
of the two (`exists_completion_or_breakdown`), and only one.

A scan says no more than this cut. Its tokens are the segments with their
places (`Segment.tokens`), and its error is the fault of the breakdown. Facts
about scanning become facts about segments, in which nothing is left of the
cursor or of the order of reading. Tokens are taken of segments behind a text
`before` that has been read already, since that is the step from one segment
to the next.

That there is only one cut comes from the reader, which is a function:
`firstReading` cuts off what comes first, and `EndsCut` says that it finds no
lexeme.

## Main definitions

* `IsTrivia`: A text of white space and line breaks.
* `Segment`, `Segment.text`, `Segment.join`: A lexeme with trivia in front of
  it, and their texts.
* `Segment.Fits`, `IsCut`: A segment, or a list of them, is cut right before
  a text.
* `Segment.token`, `Segment.tokens`: The tokens of segments behind a text.
* `Completion`, `Breakdown`: The two ways in which a cut of a whole text
  ends.
* `firstReading`: The trivia a text begins with, and the reading of what
  follows it.
* `EndsCut`: No lexeme is read first.
* `Begins`: How a text begins, and what is read first.

## Theorems

* `firstReading_of_fits`, `firstReading_of_stuck`: What the reader does on a
  segment and on a breakdown.
* `Segment.Fits.of_head`, `IsCut.of_head`: Whether a cut is right depends on
  the next unit only.
* `isCut_append`: A cut falls into two at every segment.
* `IsCut.unique`: Two cuts of one text agree, if both go on until no lexeme
  is left.
* `Breakdown.Valid.unique`: A text breaks down in one way.
* `begins_firstReading`: What is read first shows how a text begins.
* `exists_completion_or_breakdown`: Every text has a cut.
-/

namespace GlyphLexer

/-- White space and line breaks only. -/
def IsTrivia (t : Text) : Prop := ∀ u ∈ t, u.isTrivia = true

/-- A lexeme with the trivia in front of it. -/
structure Segment where
  gap : Text
  lexeme : Text
  type : TokenType
  literal : Option Text
  deriving DecidableEq, Repr

namespace Segment

/-- The text that a segment covers. -/
def text (g : Segment) : Text := g.gap ++ g.lexeme

/-- The text that segments cover one after the other. -/
def join (gs : List Segment) : Text := gs.flatMap text

/-- The segment is cut right before `tail`: its lexeme is the longest one
    there, and not a number that runs into what follows. -/
structure Fits (g : Segment) (tail : Text) : Prop where
  gap : IsTrivia g.gap
  lexeme : Lexeme g.lexeme g.type g.literal
  longest : LongestLexeme g.lexeme tail
  detached : Detached g.type tail

/-- The token of a segment that stands behind the text `before`. -/
def token (before : Text) (g : Segment) : Token :=
  ⟨g.type, Location.after (before ++ g.gap), Location.after (before ++ g.text), g.literal⟩

/-- The tokens of segments that stand behind the text `before`. -/
def tokens (before : Text) : List Segment → List Token
  | [] => []
  | g :: gs => g.token before :: tokens (before ++ g.text) gs

@[simp] theorem join_nil : join [] = [] := rfl

@[simp] theorem join_cons (g : Segment) (gs : List Segment) :
    join (g :: gs) = g.gap ++ (g.lexeme ++ join gs) := by
  rw [join, List.flatMap_cons, text, List.append_assoc]
  rfl

theorem join_append (gs gs' : List Segment) : join (gs ++ gs') = join gs ++ join gs' :=
  List.flatMap_append

theorem tokens_concat (before : Text) (gs : List Segment) (g : Segment) :
    tokens before (gs ++ [g]) = tokens before gs ++ [g.token (before ++ join gs)] := by
  induction gs generalizing before with
  | nil => simp [tokens]
  | cons g' gs ih => simp [tokens, ih, text]

end Segment

open Segment (join join_nil join_cons)

/-- The segments, standing before `rest`, are all cut right. -/
def IsCut : List Segment → Text → Prop
  | [], _ => True
  | g :: gs, rest => g.Fits (join gs ++ rest) ∧ IsCut gs rest

/-- Whether a segment is cut right depends on the next unit only, and trivia
    may always follow. -/
theorem Segment.Fits.of_head {g : Segment} {tail tail' : Text} (h : g.Fits tail)
    (hhead : ∀ u, tail'.head? = some u → tail.head? = some u ∨ u.isTrivia = true) :
    g.Fits tail' := by
  refine ⟨h.gap, h.lexeme, ?_, fun u hu => ?_⟩
  · -- Trivia extends no lexeme, as it would be the last unit of a longer one.
    refine longestLexeme_iff.2 ⟨⟨_, _, h.lexeme⟩, fun u hu hlonger => ?_⟩
    rcases hhead u hu with hsame | htrivia
    · exact (longestLexeme_iff.1 h.longest).2 u hsame hlonger
    · rcases hlonger with ⟨type, literal, hlonger⟩
      rw [hlonger.last_not_isTrivia] at htrivia
      exact absurd htrivia (by decide)
  · rcases hhead u hu with hsame | htrivia
    · exact h.detached u hsame
    · have hpart := CodeUnit.not_isNamePart_of_isTrivia htrivia
      refine ⟨fun _ => ?_, fun _ => ?_⟩
      · by_contra hstart
        rw [CodeUnit.isNamePart_of_isNameStart (by simpa using hstart)] at hpart
        exact absurd hpart (by decide)
      · rintro rfl
        exact absurd htrivia (by decide)

/-- Segments stay cut right when what follows them begins as it did, or
    begins with trivia. -/
theorem IsCut.of_head {gs : List Segment} {rest rest' : Text} (h : IsCut gs rest)
    (hhead : ∀ u, rest'.head? = some u → rest.head? = some u ∨ u.isTrivia = true) :
    IsCut gs rest' := by
  induction gs with
  | nil => exact trivial
  | cons g gs ih =>
      refine ⟨h.1.of_head fun u hu => ?_, ih h.2⟩
      -- What is next to `g` is the next segment, and the rest only if there is
      -- none.
      rw [List.head?_append] at hu ⊢
      cases hjoin : (join gs).head? with
      | none =>
          rw [hjoin] at hu
          simpa [hjoin] using hhead u hu
      | some v =>
          rw [hjoin] at hu
          exact Or.inl hu

/-- What is next to the last segment is known if there is anything, whatever
    else follows. -/
theorem IsCut.append_right {gs : List Segment} {rest : Text} (h : IsCut gs rest) (hne : rest ≠ [])
    (more : Text) : IsCut gs (rest ++ more) := by
  refine h.of_head fun u hu => Or.inl ?_
  rwa [List.head?_append_of_ne_nil _ hne] at hu

/-- A cut falls into the cut before a place and the cut behind it. -/
theorem isCut_append {gs gs' : List Segment} {rest : Text} :
    IsCut (gs ++ gs') rest ↔ IsCut gs (join gs' ++ rest) ∧ IsCut gs' rest := by
  induction gs with
  | nil => simp [IsCut]
  | cons g gs ih =>
      simp only [List.cons_append, IsCut, ih, Segment.join_append, List.append_assoc, and_assoc]

theorem IsCut.exists_fits {gs : List Segment} {rest : Text} {g : Segment} (h : IsCut gs rest)
    (hg : g ∈ gs) : ∃ tail, g.Fits tail := by
  induction gs with
  | nil => exact absurd hg List.not_mem_nil
  | cons g' gs ih =>
      rcases List.mem_cons.1 hg with rfl | hg
      · exact ⟨_, h.1⟩
      · exact ih h.2 hg

/-- A token of a cut is the token of a segment that is cut right at its
    place. -/
theorem exists_of_mem_tokens {gs : List Segment} {rest before : Text} {t : Token}
    (h : IsCut gs rest) (ht : t ∈ Segment.tokens before gs) :
    ∃ (g : Segment) (front tail : Text), g.Fits tail ∧ t = g.token front ∧ before <+: front ∧
      before ++ (join gs ++ rest) = front ++ (g.gap ++ (g.lexeme ++ tail)) := by
  induction gs generalizing before with
  | nil => exact absurd ht List.not_mem_nil
  | cons g gs ih =>
      rcases List.mem_cons.1 ht with rfl | ht
      · exact ⟨g, before, _, h.1, rfl, List.prefix_refl _, by simp⟩
      · rcases ih h.2 ht with ⟨g', front, tail, hfits, htoken, hpre, heq⟩
        refine ⟨g', front, tail, hfits, htoken, (List.prefix_append _ _).trans hpre, ?_⟩
        rw [← heq]
        simp [Segment.text]

/-- A cut of a whole text: segments, and trivia behind the last of them. -/
structure Completion where
  segments : List Segment
  last : Text

/-- The text that is cut. -/
def Completion.text (c : Completion) : Text := join c.segments ++ c.last

/-- The segments are cut right, and nothing but trivia is left. -/
structure Completion.Valid (c : Completion) : Prop where
  cut : IsCut c.segments c.last
  last : IsTrivia c.last

/-- A cut of a text up to a place where no token begins: segments, the trivia
    behind the last of them, and a text of one of the shapes, as what is
    passed and what begins at the place of the fault. -/
structure Breakdown where
  segments : List Segment
  gap : Text
  shape : Breakage
  passed : Text
  rest : Text
  fault : Fault

namespace Breakdown

/-- The text from where no token begins. -/
def stuck (d : Breakdown) : Text := d.passed ++ d.rest

/-- The text before the place where no token begins. -/
def front (d : Breakdown) : Text := join d.segments ++ d.gap

/-- The text that is cut. -/
def text (d : Breakdown) : Text := d.front ++ d.stuck

/-- The segments are cut right, no trivia is left, and the rest has the
    shape. -/
structure Valid (d : Breakdown) : Prop where
  cut : IsCut d.segments (d.gap ++ d.stuck)
  gap : IsTrivia d.gap
  head : ∀ u, d.stuck.head? = some u → u.isTrivia = false
  shape : d.shape.Fits d.passed d.rest d.fault

/-- The error of a breakdown: the fault, at the place behind all that was
    read and passed. -/
def error (d : Breakdown) : LexError := d.fault.toError (Location.after (d.front ++ d.passed))

theorem text_eq (d : Breakdown) : d.text = join d.segments ++ (d.gap ++ d.stuck) := by
  unfold text front
  rw [List.append_assoc]

end Breakdown

/-- The trivia that a text begins with, and the reading of what follows it,
    if anything does. -/
def firstReading (t : Text) : Text × Option Reading :=
  (t.takeWhile CodeUnit.isTrivia,
    match t.dropWhile CodeUnit.isTrivia with
    | [] => none
    | u :: rest => some (Reading.token u rest))

theorem firstReading_of_isTrivia {t : Text} (h : IsTrivia t) : firstReading t = (t, none) := by
  unfold firstReading
  rw [List.takeWhile_eq_self_iff.2 h, List.dropWhile_eq_nil_iff.2 h]

theorem firstReading_append {gap rest : Text} {u : CodeUnit} (hgap : IsTrivia gap)
    (hu : u.isTrivia = false) :
    firstReading (gap ++ u :: rest) = (gap, some (Reading.token u rest)) := by
  have hhead : ∀ v, (u :: rest).head? = some v → v.isTrivia = false := by
    rintro v ⟨⟩
    exact hu
  unfold firstReading
  rw [Text.takeWhile_append_of_head hgap hhead, Text.dropWhile_append_of_head hgap hhead]

theorem firstReading_of_fits {g : Segment} {tail : Text} (h : g.Fits tail) :
    firstReading (g.gap ++ (g.lexeme ++ tail)) =
      (g.gap, some (.lexeme g.lexeme g.type g.literal)) := by
  cases hl : g.lexeme with
  | nil => exact absurd hl h.lexeme.ne_nil
  | cons u l =>
      have hhead : u.isTrivia = false := by
        have := h.lexeme
        rw [hl] at this
        exact this.head_not_isTrivia
      rw [List.cons_append, firstReading_append h.gap hhead, ← hl,
        Reading.token_of_longestLexeme (by rw [hl]; rfl) h.lexeme h.longest h.detached]

theorem firstReading_of_stuck {d : Breakdown} (h : d.Valid) :
    firstReading (d.gap ++ d.stuck) = (d.gap, some (.fault d.passed d.fault)) := by
  cases hstuck : d.stuck with
  | nil => exact absurd hstuck h.shape.ne_nil
  | cons u t =>
      rw [firstReading_append h.gap (h.head u (by rw [hstuck]; rfl)),
        Reading.token_of_fits hstuck.symm h.shape]

/-- What stands before a text and is not read as a lexeme there is an end of
    the cut. -/
def EndsCut (rest : Text) : Prop :=
  ∀ taken type literal, (firstReading rest).2 ≠ some (.lexeme taken type literal)

theorem Completion.Valid.endsCut {c : Completion} (h : c.Valid) : EndsCut c.last := by
  intro taken type literal
  rw [firstReading_of_isTrivia h.last]
  simp

theorem Breakdown.Valid.endsCut {d : Breakdown} (h : d.Valid) : EndsCut (d.gap ++ d.stuck) := by
  intro taken type literal
  rw [firstReading_of_stuck h]
  simp

theorem Segment.Fits.not_endsCut {g : Segment} {tail : Text} (h : g.Fits tail) :
    ¬ EndsCut (g.gap ++ (g.lexeme ++ tail)) := by
  intro hend
  refine hend g.lexeme g.type g.literal ?_
  rw [firstReading_of_fits h]

theorem Segment.Fits.unique {g g' : Segment} {tail tail' : Text} (h : g.Fits tail)
    (h' : g'.Fits tail')
    (heq : g.gap ++ (g.lexeme ++ tail) = g'.gap ++ (g'.lexeme ++ tail')) :
    g = g' ∧ tail = tail' := by
  have hread := congrArg firstReading heq
  rw [firstReading_of_fits h, firstReading_of_fits h'] at hread
  simp only [Prod.mk.injEq, Option.some.injEq, Reading.lexeme.injEq] at hread
  rcases hread with ⟨hgap, hlexeme, htype, hliteral⟩
  rw [hgap, hlexeme, List.append_cancel_left_eq, List.append_cancel_left_eq] at heq
  cases g
  cases g'
  simp_all

/-- Two cuts of one text agree, if both go on until no lexeme is left. -/
theorem IsCut.unique {gs gs' : List Segment} {rest rest' : Text} (h : IsCut gs rest)
    (h' : IsCut gs' rest') (hend : EndsCut rest) (hend' : EndsCut rest')
    (heq : join gs ++ rest = join gs' ++ rest') : gs = gs' ∧ rest = rest' := by
  -- Neither cut can end where the other has a segment, since the reader finds a
  -- lexeme there.
  induction gs generalizing gs' with
  | nil =>
      cases gs' with
      | nil => exact ⟨rfl, heq⟩
      | cons g' gs' =>
          simp only [join_nil, join_cons, List.nil_append, List.append_assoc] at heq
          rw [heq] at hend
          exact absurd hend h'.1.not_endsCut
  | cons g gs ih =>
      cases gs' with
      | nil =>
          simp only [join_nil, join_cons, List.nil_append, List.append_assoc] at heq
          rw [← heq] at hend'
          exact absurd hend' h.1.not_endsCut
      | cons g' gs' =>
          simp only [join_cons, List.append_assoc] at heq
          rcases h.1.unique h'.1 heq with ⟨rfl, htail⟩
          rcases ih h.2 h'.2 htail with ⟨rfl, hrest⟩
          exact ⟨rfl, hrest⟩

theorem Breakdown.Valid.unique {d d' : Breakdown} (h : d.Valid) (h' : d'.Valid)
    (heq : d.text = d'.text) : d = d' := by
  simp only [Breakdown.text, Breakdown.front, List.append_assoc] at heq
  rcases h.cut.unique h'.cut h.endsCut h'.endsCut heq with ⟨hsegments, hrest⟩
  -- The segments agree, so both are stuck in one text, and that is read in one
  -- way.
  have hread := congrArg firstReading hrest
  rw [firstReading_of_stuck h, firstReading_of_stuck h'] at hread
  simp only [Prod.mk.injEq, Option.some.injEq, Reading.fault.injEq] at hread
  rcases hread with ⟨hgap, hpassed, hfault⟩
  have hshape : d.shape = d'.shape := by
    rw [h.shape.eq_ofFault, h'.shape.eq_ofFault, hfault]
  rw [hgap, List.append_cancel_left_eq, Breakdown.stuck, Breakdown.stuck, hpassed,
    List.append_cancel_left_eq] at hrest
  cases d
  cases d'
  simp_all

/-- How a text begins, and what is read first: nothing if there is trivia
    only, a segment, or a fault behind the trivia. -/
inductive Begins (t : Text) : Text × Option Reading → Prop where
  | trivia (h : IsTrivia t) : Begins t (t, none)
  | segment {g : Segment} {tail : Text} (ht : t = g.gap ++ (g.lexeme ++ tail)) (h : g.Fits tail) :
      Begins t (g.gap, some (.lexeme g.lexeme g.type g.literal))
  | fault {gap passed rest : Text} {b : Breakage} {f : Fault} (ht : t = gap ++ (passed ++ rest))
      (hgap : IsTrivia gap) (hhead : ∀ u, (passed ++ rest).head? = some u → u.isTrivia = false)
      (h : b.Fits passed rest f) : Begins t (gap, some (.fault passed f))

theorem begins_firstReading (t : Text) : Begins t (firstReading t) := by
  rcases Text.exists_run CodeUnit.isTrivia t with ⟨gap, behind, rfl, hgap, hhead⟩
  cases behind with
  | nil =>
      rw [List.append_nil, firstReading_of_isTrivia hgap]
      exact Begins.trivia hgap
  | cons u rest =>
      rw [firstReading_append hgap (hhead u rfl)]
      rcases exists_lexeme_or_breakage u rest with
        ⟨l, tail, type, literal, heq, hl, hlong, hfree⟩ | ⟨b, passed, behind, f, heq, hfits⟩
      · rw [Reading.token_of_longestLexeme heq hl hlong hfree, heq]
        exact Begins.segment (g := ⟨gap, l, type, literal⟩) rfl ⟨hgap, hl, hlong, hfree⟩
      · rw [Reading.token_of_fits heq hfits]
        rw [heq] at hhead ⊢
        exact Begins.fault rfl hgap hhead hfits

/-- Every text is cut into lexemes up to its end or up to a place where no
    token begins. -/
theorem exists_completion_or_breakdown (t : Text) :
    (∃ c : Completion, c.text = t ∧ c.Valid) ∨ ∃ d : Breakdown, d.text = t ∧ d.Valid := by
  induction hn : t.length using Nat.strong_induction_on generalizing t with
  | _ n ih =>
      obtain ⟨first, hfirst⟩ : ∃ first, Begins t first := ⟨_, begins_firstReading t⟩
      cases hfirst with
      | trivia h => exact Or.inl ⟨⟨[], t⟩, rfl, trivial, h⟩
      | @segment g tail ht hg =>
          -- The rest behind the lexeme is shorter, and its cut goes on the one
          -- of `t`.
          have hlt : tail.length < n := by
            have hpos := List.length_pos_iff.2 hg.lexeme.ne_nil
            rw [← hn, ht, List.length_append, List.length_append]
            omega
          rw [ht]
          rcases ih tail.length hlt tail rfl with ⟨c, rfl, hc⟩ | ⟨d, rfl, hd⟩
          · refine Or.inl ⟨⟨g :: c.segments, c.last⟩, ?_, ⟨hg, hc.cut⟩, hc.last⟩
            simp [Completion.text]
          · refine Or.inr ⟨⟨g :: d.segments, d.gap, d.shape, d.passed, d.rest, d.fault⟩, ?_,
              ⟨?_, hd.cut⟩, hd.gap, hd.head, hd.shape⟩
            · simp [Breakdown.text, Breakdown.front, Breakdown.stuck]
            · simpa [Breakdown.text, Breakdown.front, Breakdown.stuck] using hg
      | @fault gap passed rest b f ht hgap hhead hfits =>
          -- No token begins behind the trivia: a breakdown without segments.
          exact Or.inr ⟨⟨[], gap, b, passed, rest, f⟩, ht.symm, trivial, hgap, hhead, hfits⟩

end GlyphLexer
