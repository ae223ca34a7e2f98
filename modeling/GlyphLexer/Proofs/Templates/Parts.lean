import GlyphLexer.Proofs.Templates

/-!
# The parts of a template

What filling a template gives, read off the way in which the template is
written.

A template is written as a sequence of parts: texts without opening braces,
opening braces in front of another one, and placeholders. `Reads` says so,
and looks at nothing but the parts. It leaves a rest, since a template with a
brace that is not closed has parts too, the ones before that brace, and the
values of those are asked for their texts.

A text may be cut into plain parts in many ways, and this is all the freedom
there is. The pieces of a template are its parts with the plain ones cut into
single units, whatever the parts are (`Reads.cut_eq`), and joining the plain
parts of a sequence gives the same as joining the ones that were cut
(`joined_recut`). So the sequence in which all plain parts are joined is
determined by the pieces, and they by the template.

That a brace is not closed is a statement about the whole rest of the
template, whereas taking a template apart looks for a closing brace from one
placeholder after the other. The two agree because a placeholder that is
closed has nothing in it that is not (`unclosed_append`).

## Main definitions

* `Template.Part`, `Template.Part.fill`: A part of a template as it is
  written, and what it turns into.
* `Template.Reads`: A template begins with a sequence of parts.
* `Template.joined`: A sequence of parts with the plain ones next to each
  other joined.
* `Template.Unclosed`: A template has an opening brace that no closing one
  follows.
* `Template.AsksInVain`: A template asks for a value that has no text.

## Theorems

* `Template.Reads.cut_eq`: The pieces of a template are those of its parts.
* `Template.reads_cut`: The pieces of a template are parts of it.
* `Template.joined_recut`: Parts whose plain texts are cut into units are
  joined to the same.
* `Template.cut_snd_ne_nil_iff`: Something is left of a template if a brace
  is not closed.
* `Template.render?_eq_none_iff`: A template cannot be filled if it asks for
  a value without a text.
* `Template.render_substitutes`: A template turns into what its parts turn
  into.
* `Template.render_substitutes_unclosed`: A value without a text before a
  brace that is not closed.
-/

namespace GlyphLexer

namespace Template

/-- A part of a template as it is written: text without opening braces, an
    opening brace in front of another one, or a placeholder. -/
inductive Part where
  | plain (t : Text)
  | brace
  | placeholder (name : Text)
  deriving DecidableEq, Repr

/-- What a part turns into: itself, or the text of the value it names, if
    there is one. -/
def Part.fill (context : Context) : Part → Text
  | plain t => t
  | brace => [CodeUnit.leftBrace]
  | placeholder name => ((context.lookup name).map Value.display).getD []

/-- A template begins with a sequence of parts, in front of a rest. Plain
    parts have at least one unit. -/
inductive Reads (rest : Text) : Text → List Part → Prop where
  | nil : Reads rest rest []
  | plain {t behind : Text} {parts : List Part} (hne : t ≠ []) (hopen : CodeUnit.leftBrace ∉ t)
      (h : Reads rest behind parts) : Reads rest (t ++ behind) (.plain t :: parts)
  | brace {behind : Text} {parts : List Part}
      (h : Reads rest (CodeUnit.leftBrace :: behind) parts) :
      Reads rest (CodeUnit.leftBrace :: CodeUnit.leftBrace :: behind) (.brace :: parts)
  | placeholder {name behind : Text} {parts : List Part}
      (hopen : name.head? ≠ some CodeUnit.leftBrace) (hclose : CodeUnit.rightBrace ∉ name)
      (h : Reads rest behind parts) :
      Reads rest (CodeUnit.leftBrace :: (name ++ CodeUnit.rightBrace :: behind))
        (.placeholder name :: parts)

/-- A part in front of parts, joined with the first of them if both are
    plain. -/
def Part.join : Part → List Part → List Part
  | plain t, plain t' :: parts => plain (t ++ t') :: parts
  | part, parts => part :: parts

/-- A sequence of parts with the plain ones next to each other joined. -/
def joined (parts : List Part) : List Part := parts.foldr Part.join []

/-- A template has an opening brace that no closing one follows. -/
def Unclosed (template : Text) : Prop :=
  ∃ before behind, template = before ++ CodeUnit.leftBrace :: behind ∧ CodeUnit.rightBrace ∉ behind

/-- A template asks for a value that has no text. What follows the
    placeholder does not matter: it may have a brace that is not closed. -/
def AsksInVain (template : Text) (context : Context) : Prop :=
  ∃ rest parts name value, Reads rest template parts ∧ .placeholder name ∈ parts ∧
    context.lookup name = some value ∧ value.hasText = false

/-! ### Parts and pieces -/

/-- The pieces of a part. -/
def Part.pieces : Part → List Piece
  | plain t => t.map Piece.plain
  | brace => [.plain CodeUnit.leftBrace]
  | placeholder name => [.placeholder name]

/-- The part that is one piece. -/
def Piece.part : Piece → Part
  | plain u => if u = CodeUnit.leftBrace then .brace else .plain [u]
  | placeholder name => .placeholder name

theorem Part.flatMap_pieces (context : Context) (part : Part) :
    part.pieces.flatMap (Piece.fill context) = part.fill context := by
  cases part with
  | plain t => exact flatMap_fill_plain context t
  | brace => rfl
  | placeholder name =>
      rw [Part.pieces, List.flatMap_singleton, Piece.fill, Part.fill]
      cases context.lookup name with
      | none => rfl
      | some value => rfl

/-- The pieces of a template are those of its parts, and of what follows
    them. -/
theorem Reads.cut_eq {rest template : Text} {parts : List Part} (h : Reads rest template parts) :
    cut template = (cut rest).map (parts.flatMap Part.pieces ++ ·) id := by
  induction h with
  | nil => rfl
  | plain hne hopen _ ih =>
      rw [cut_append_of_notMem hopen, ih, Prod.map_map, List.flatMap_cons]
      simp only [Function.comp_def, List.append_assoc, Part.pieces]
      rfl
  | brace _ ih =>
      rw [cut_brace, ih, Prod.map_map]
      rfl
  | placeholder hopen hclose _ ih =>
      rw [cut_placeholder hopen hclose, ih, Prod.map_map]
      rfl

/-- A text with a closing brace is what stands in front of the first one, the
    brace, and the rest. -/
theorem eq_append_of_dropWhile {t behind : Text} {v : CodeUnit}
    (h : t.dropWhile (· ≠ CodeUnit.rightBrace) = v :: behind) :
    t = t.takeWhile (· ≠ CodeUnit.rightBrace) ++ CodeUnit.rightBrace :: behind := by
  have hv : v = CodeUnit.rightBrace := by
    have hhead := List.head?_dropWhile_not (· ≠ CodeUnit.rightBrace) t
    rw [h] at hhead
    simpa using hhead
  calc t = t.takeWhile (· ≠ CodeUnit.rightBrace) ++ t.dropWhile (· ≠ CodeUnit.rightBrace) :=
        List.takeWhile_append_dropWhile.symm
    _ = t.takeWhile (· ≠ CodeUnit.rightBrace) ++ CodeUnit.rightBrace :: behind := by rw [h, hv]

/-- The pieces of a template are parts of it. -/
theorem reads_cut (template : Text) :
    Reads (cut template).2 template ((cut template).1.map Piece.part) := by
  fun_induction cut template with
  | case1 => exact Reads.nil
  | case2 => exact Reads.nil
  | case3 u rest hopen v behind hrest ih =>
      have hsplit := eq_append_of_dropWhile hrest
      have hclose : CodeUnit.rightBrace ∉ rest.takeWhile (· ≠ CodeUnit.rightBrace) := by
        intro hmem
        simpa using List.mem_takeWhile_imp hmem
      have hhead : (rest.takeWhile (· ≠ CodeUnit.rightBrace)).head? ≠ some CodeUnit.leftBrace := by
        intro hname
        rw [hsplit, List.head?_append, hname] at hopen
        exact hopen.2 rfl
      have hreads := Reads.placeholder hhead hclose ih
      rw [← hsplit, ← hopen.1] at hreads
      exact hreads
  | case4 u rest hopen ih =>
      by_cases hu : u = CodeUnit.leftBrace
      · -- Another opening brace follows, so the rest can be taken apart at it.
        have hhead : rest.head? = some CodeUnit.leftBrace := by
          by_contra hne
          exact hopen ⟨hu, hne⟩
        rcases List.head?_eq_some_iff.1 hhead with ⟨behind, rfl⟩
        simp only [Prod.map_fst, Prod.map_snd, List.map_cons, Piece.part, hu]
        exact Reads.brace ih
      · simp only [Prod.map_fst, Prod.map_snd, List.map_cons, Piece.part, if_neg hu]
        have hnotMem : CodeUnit.leftBrace ∉ [u] := by
          rw [List.mem_singleton]
          exact fun hc => hu hc.symm
        exact Reads.plain (List.cons_ne_nil u []) hnotMem ih

/-! ### Joining plain parts -/

theorem Part.join_plain_join (t t' : Text) (parts : List Part) :
    (plain t).join ((plain t').join parts) = (plain (t ++ t')).join parts := by
  cases parts with
  | nil => rfl
  | cons part parts =>
      cases part with
      | plain t'' => simp only [join, List.append_assoc]
      | brace => rfl
      | placeholder name => rfl

theorem joined_units {t : Text} (hne : t ≠ []) (hopen : CodeUnit.leftBrace ∉ t)
    (parts : List Part) :
    joined ((t.map Piece.plain).map Piece.part ++ parts) = joined (.plain t :: parts) := by
  induction t with
  | nil => exact absurd rfl hne
  | cons u t ih =>
      rw [List.mem_cons, not_or] at hopen
      have hpart : (Piece.plain u).part = .plain [u] := if_neg fun hu => hopen.1 hu.symm
      cases t with
      | nil => rw [List.map_singleton, List.map_singleton, hpart, List.singleton_append]
      | cons v t =>
          have hrest := ih (List.cons_ne_nil v t) hopen.2
          calc joined (((u :: v :: t).map Piece.plain).map Piece.part ++ parts)
              = (Part.plain [u]).join
                  (joined (((v :: t).map Piece.plain).map Piece.part ++ parts)) := by
                rw [← hpart]
                rfl
            _ = (Part.plain [u]).join ((Part.plain (v :: t)).join (joined parts)) := by
                rw [hrest]
                rfl
            _ = joined (.plain (u :: v :: t) :: parts) :=
              Part.join_plain_join [u] (v :: t) (joined parts)

/-- Parts whose plain texts are cut into units are joined to the same. -/
theorem joined_recut {rest template : Text} {parts : List Part} (h : Reads rest template parts) :
    joined ((parts.flatMap Part.pieces).map Piece.part) = joined parts := by
  induction h with
  | nil => rfl
  | @plain t behind parts hne hopen _ ih =>
      rw [List.flatMap_cons, List.map_append, Part.pieces, joined_units hne hopen]
      exact congrArg (Part.plain t).join ih
  | brace _ ih => exact congrArg Part.brace.join ih
  | @placeholder name behind parts _ _ _ ih => exact congrArg (Part.placeholder name).join ih

/-! ### Braces that are not closed -/

theorem not_unclosed_nil : ¬ Unclosed [] := by
  rintro ⟨before, behind, htemplate, _⟩
  exact absurd htemplate.symm (List.append_ne_nil_of_right_ne_nil before (List.cons_ne_nil _ _))

theorem unclosed_cons (u : CodeUnit) (t : Text) :
    Unclosed (u :: t) ↔ (u = CodeUnit.leftBrace ∧ CodeUnit.rightBrace ∉ t) ∨ Unclosed t := by
  constructor
  · rintro ⟨before, behind, htemplate, hclose⟩
    cases before with
    | nil =>
        rw [List.nil_append, List.cons.injEq] at htemplate
        exact Or.inl ⟨htemplate.1, htemplate.2 ▸ hclose⟩
    | cons v before =>
        rw [List.cons_append, List.cons.injEq] at htemplate
        exact Or.inr ⟨before, behind, htemplate.2, hclose⟩
  · rintro (⟨rfl, hclose⟩ | ⟨before, behind, rfl, hclose⟩)
    · exact ⟨[], t, rfl, hclose⟩
    · exact ⟨u :: before, behind, rfl, hclose⟩

/-- No brace in front of a closing one is left open. -/
theorem unclosed_append (t behind : Text) :
    Unclosed (t ++ CodeUnit.rightBrace :: behind) ↔ Unclosed behind := by
  induction t with
  | nil =>
      rw [List.nil_append, unclosed_cons]
      exact or_iff_right fun hc => absurd hc.1 (by decide)
  | cons u t ih =>
      rw [List.cons_append, unclosed_cons, ih]
      exact or_iff_right fun hc => hc.2 (List.mem_append_right t List.mem_cons_self)

/-- Something is left of a template if a brace is not closed. -/
theorem cut_snd_ne_nil_iff (template : Text) : (cut template).2 ≠ [] ↔ Unclosed template := by
  fun_induction cut template with
  | case1 => exact iff_of_false (fun hne => hne rfl) not_unclosed_nil
  | case2 u rest hopen hrest =>
      have hclose : CodeUnit.rightBrace ∉ rest := by
        intro hmem
        simpa using List.dropWhile_eq_nil_iff.1 hrest _ hmem
      exact iff_of_true (List.cons_ne_nil u rest)
        ((unclosed_cons u rest).2 (Or.inl ⟨hopen.1, hclose⟩))
  | case3 u rest hopen v behind hrest ih =>
      rw [Prod.map_snd, id, ih, eq_append_of_dropWhile hrest, ← List.cons_append, unclosed_append]
  | case4 u rest hopen ih =>
      rw [Prod.map_snd, id, ih, unclosed_cons]
      refine (or_iff_right_of_imp fun hc => ?_).symm
      -- What stands for itself is a brace in front of another one, and if no
      -- brace closes behind the first, none closes behind the second.
      have hhead : rest.head? = some CodeUnit.leftBrace := by
        by_contra hne
        exact hopen ⟨hc.1, hne⟩
      rcases List.head?_eq_some_iff.1 hhead with ⟨behind, rfl⟩
      exact (unclosed_cons _ _).2 (Or.inl ⟨rfl, fun hmem => hc.2 (List.mem_cons_of_mem _ hmem)⟩)

/-! ### What a template turns into -/

theorem placeholder_mem_pieces_iff {parts : List Part} {name : Text} :
    .placeholder name ∈ parts.flatMap Part.pieces ↔ .placeholder name ∈ parts := by
  rw [List.mem_flatMap]
  constructor
  · rintro ⟨part, hpart, hname⟩
    cases part with
    | plain t =>
        rcases List.mem_map.1 hname with ⟨u, _, hu⟩
        cases hu
    | brace =>
        rw [Part.pieces, List.mem_singleton] at hname
        cases hname
    | placeholder name' =>
        rw [Part.pieces, List.mem_singleton, Piece.placeholder.injEq] at hname
        rwa [hname]
  · exact fun h => ⟨_, h, List.mem_singleton_self _⟩

theorem mem_names_iff {template name : Text} :
    name ∈ names template ↔ Piece.placeholder name ∈ (cut template).1 := by
  rw [names, List.mem_filterMap]
  constructor
  · rintro ⟨piece, hpiece, hname⟩
    cases piece with
    | plain u => cases hname
    | placeholder name' => rwa [← Option.some.inj hname]
  · exact fun h => ⟨_, h, rfl⟩

theorem hasTexts_eq_false_iff (template : Text) (context : Context) :
    hasTexts template context = false ↔
      ∃ name ∈ names template, ∃ value,
        context.lookup name = some value ∧ value.hasText = false := by
  rw [hasTexts, List.all_eq_false]
  refine exists_congr fun name => and_congr_right fun _ => ?_
  cases context.lookup name with
  | none => simp
  | some value => simp

/-- A template cannot be filled if it asks for a value without a text. -/
theorem render?_eq_none_iff (template : Text) (context : Context) :
    render? template context = none ↔ AsksInVain template context := by
  have hnone : render? template context = none ↔ hasTexts template context = false := by
    rw [render?]
    cases hasTexts template context <;> simp
  rw [hnone, hasTexts_eq_false_iff]
  constructor
  · rintro ⟨name, hname, value, hvalue⟩
    exact ⟨_, _, name, value, reads_cut template,
      List.mem_map.2 ⟨_, mem_names_iff.1 hname, rfl⟩, hvalue⟩
  · rintro ⟨rest, parts, name, value, hreads, hname, hvalue⟩
    refine ⟨name, mem_names_iff.2 ?_, value, hvalue⟩
    rw [hreads.cut_eq, Prod.map_fst]
    exact List.mem_append_left _ (placeholder_mem_pieces_iff.2 hname)

theorem render?_of_not_asksInVain {template : Text} {context : Context}
    (h : ¬ AsksInVain template context) :
    render? template context = some (render template context) := by
  rw [← render?_eq_none_iff] at h
  by_cases htexts : hasTexts template context = true
  · rw [render?, if_pos htexts]
  · exact absurd (by rw [render?, if_neg htexts]) h

theorem render_of_unclosed {template : Text} (h : Unclosed template) (context : Context) :
    render template context = template := by
  rw [← cut_snd_ne_nil_iff] at h
  rw [render]
  rcases hcut : cut template with ⟨pieces, _ | ⟨u, rest⟩⟩
  · rw [hcut] at h
    exact absurd rfl h
  · rfl

theorem Reads.render_eq {template : Text} {parts : List Part} (h : Reads [] template parts)
    (context : Context) : render template context = parts.flatMap (Part.fill context) := by
  have hcut := h.cut_eq
  rw [cut, Prod.map_apply, List.append_nil, id] at hcut
  rw [render, hcut]
  simp only [List.flatMap_assoc, Part.flatMap_pieces]

/-- Parts of one template are the same once the plain ones are joined. -/
theorem Reads.joined_eq {template : Text} {parts parts' : List Part} (h : Reads [] template parts)
    (h' : Reads [] template parts') : joined parts = joined parts' := by
  have hpieces := congrArg Prod.fst (h.cut_eq.symm.trans h'.cut_eq)
  rw [cut, Prod.map_fst, Prod.map_fst, List.append_nil, List.append_nil] at hpieces
  rw [← joined_recut h, ← joined_recut h', hpieces]

/-- A template is made of parts if each of its braces is closed. -/
theorem exists_reads_iff (template : Text) :
    (∃ parts, Reads [] template parts) ↔ ¬ Unclosed template := by
  rw [← cut_snd_ne_nil_iff, not_not]
  constructor
  · rintro ⟨parts, h⟩
    rw [h.cut_eq, cut]
    rfl
  · intro h
    have hreads := reads_cut template
    rw [h] at hreads
    exact ⟨_, hreads⟩

/-- A template fails to turn into anything if it asks for a value that has no
    text. Otherwise it stays as it is if a brace is not closed, and if none
    is, it is made of parts, in one way up to the cutting of plain text, and
    turns into what they turn into. -/
theorem render_substitutes (template : Text) (context : Context) :
    (render? template context = none ↔ AsksInVain template context) ∧
      (¬ AsksInVain template context → Unclosed template →
        render? template context = some template) ∧
      ((∃ parts, Reads [] template parts) ↔ ¬ Unclosed template) ∧
      (∀ parts parts', Reads [] template parts → Reads [] template parts' →
        joined parts = joined parts') ∧
      (¬ AsksInVain template context → ∀ parts, Reads [] template parts →
        render? template context = some (parts.flatMap (Part.fill context))) := by
  refine ⟨render?_eq_none_iff template context, fun htexts hunclosed => ?_,
    exists_reads_iff template, fun parts parts' h h' => h.joined_eq h',
    fun htexts parts h => ?_⟩
  · rw [render?_of_not_asksInVain htexts, render_of_unclosed hunclosed]
  · rw [render?_of_not_asksInVain htexts, h.render_eq]

/-- A value without a text keeps a template with a brace that is not closed
    from being taken as it stands. -/
theorem render_substitutes_unclosed :
    Unclosed (text "\x7bx\x7d \x7b") ∧
      render? (text "\x7bx\x7d \x7b") [(text "x", .mapping [(text "toString", .boolean true)])] =
        none := by
  refine ⟨⟨text "\x7bx\x7d ", [], rfl, List.not_mem_nil⟩, ?_⟩
  refine (render_substitutes _ _).1.2 ⟨text " \x7b", [.placeholder (text "x")], text "x", _,
    ?_, List.mem_cons_self, rfl, rfl⟩
  exact Reads.placeholder (by decide) (by decide) Reads.nil

end Template

end GlyphLexer
