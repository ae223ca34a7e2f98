import GlyphLexer.Template
import Mathlib.Data.List.TakeWhile

/-!
# Templates filled in

What the pieces of a template are, and what filling them in gives.

A template is taken apart from its front. Units that are no opening brace are
pieces of their own (`cut_append_of_notMem`), so is an opening brace in front
of another one (`cut_brace`), and a placeholder goes up to the first closing
brace (`cut_placeholder`). With one placeholder, and no other brace that
opens, the value stands in its place as it is, whatever braces it has itself
(`render_placeholder`).

## Theorems

* `Template.cut_append_of_notMem`: The pieces of a text without opening
  braces in front.
* `Template.cut_brace`: The piece of an opening brace in front of another
  one.
* `Template.cut_placeholder`: The pieces of a placeholder and what follows
  it.
* `Template.render_of_notMem`: A template without opening braces stays as it
  is.
* `Template.render_placeholder`: The value of a placeholder stands in its
  place.
-/

namespace GlyphLexer

namespace Template

theorem cut_append_of_notMem {front : Text} (h : CodeUnit.leftBrace ∉ front) (t : Text) :
    cut (front ++ t) = (cut t).map (front.map Piece.plain ++ ·) id := by
  induction front with
  | nil => rfl
  | cons u front ih =>
      rw [List.mem_cons, not_or] at h
      have hopen : ¬ (u = CodeUnit.leftBrace ∧
          (front ++ t).head? ≠ some CodeUnit.leftBrace) := fun hc => h.1 hc.1.symm
      rw [List.cons_append, cut, if_neg hopen, ih h.2]
      rfl

theorem cut_brace (t : Text) :
    cut (CodeUnit.leftBrace :: CodeUnit.leftBrace :: t) =
      (cut (CodeUnit.leftBrace :: t)).map (Piece.plain CodeUnit.leftBrace :: ·) id := by
  rw [cut, if_neg (fun hc => hc.2 rfl)]

theorem cut_placeholder {name : Text} (hopen : name.head? ≠ some CodeUnit.leftBrace)
    (hclose : CodeUnit.rightBrace ∉ name) (rest : Text) :
    cut (CodeUnit.leftBrace :: (name ++ CodeUnit.rightBrace :: rest)) =
      (cut rest).map (Piece.placeholder name :: ·) id := by
  -- An empty name has the closing brace directly behind the opening one.
  have hhead : (name ++ CodeUnit.rightBrace :: rest).head? ≠ some CodeUnit.leftBrace := by
    cases name with
    | nil =>
        rw [List.nil_append, List.head?_cons]
        decide
    | cons u name => exact hopen
  have hname : ∀ u ∈ name, decide (u ≠ CodeUnit.rightBrace) = true := by
    intro u hu
    rw [decide_eq_true_iff]
    rintro rfl
    exact hclose hu
  have hdrop : (name ++ CodeUnit.rightBrace :: rest).dropWhile (· ≠ CodeUnit.rightBrace) =
      CodeUnit.rightBrace :: rest := by
    rw [List.dropWhile_append_of_pos hname, List.dropWhile_cons_of_neg (by simp)]
  have htake : (name ++ CodeUnit.rightBrace :: rest).takeWhile (· ≠ CodeUnit.rightBrace) =
      name := by
    rw [List.takeWhile_append_of_pos hname, List.takeWhile_cons_of_neg (by simp),
      List.append_nil]
  rw [cut, if_pos ⟨rfl, hhead⟩, htake]
  split
  · next hnil =>
    rw [hdrop] at hnil
    cases hnil
  · next hcons =>
    rw [hdrop, List.cons.injEq] at hcons
    rw [hcons.2]

theorem flatMap_fill_plain (context : Context) (t : Text) :
    (t.map Piece.plain).flatMap (Piece.fill context) = t := by
  rw [List.flatMap_map]
  exact List.flatMap_singleton' t

theorem cut_of_notMem {t : Text} (h : CodeUnit.leftBrace ∉ t) :
    cut t = (t.map Piece.plain, []) := by
  have hcut := cut_append_of_notMem h []
  rwa [List.append_nil, cut, Prod.map_apply, List.append_nil, id] at hcut

/-- A template without opening braces stays as it is. -/
theorem render_of_notMem {t : Text} (h : CodeUnit.leftBrace ∉ t) (context : Context) :
    render t context = t := by
  rw [render, cut_of_notMem h]
  exact flatMap_fill_plain context t

/-- The value of the only placeholder stands in its place as it is. -/
theorem render_placeholder {before name behind : Text} {context : Context} {value : Value}
    (hbefore : CodeUnit.leftBrace ∉ before) (hopen : CodeUnit.leftBrace ∉ name)
    (hclose : CodeUnit.rightBrace ∉ name) (hbehind : CodeUnit.leftBrace ∉ behind)
    (hvalue : context.lookup name = some value) :
    render (before ++ CodeUnit.leftBrace :: (name ++ CodeUnit.rightBrace :: behind)) context =
      before ++ (value.display ++ behind) := by
  have hhead : name.head? ≠ some CodeUnit.leftBrace := fun hc => hopen (List.mem_of_head? hc)
  have hfill : (Piece.placeholder name).fill context = value.display := by
    rw [Piece.fill, hvalue]
  rw [render, cut_append_of_notMem hbefore, cut_placeholder hhead hclose, cut_of_notMem hbehind,
    Prod.map_apply, Prod.map_apply]
  simp only [id, List.flatMap_append, List.flatMap_cons, flatMap_fill_plain, hfill]

end Template

end GlyphLexer
