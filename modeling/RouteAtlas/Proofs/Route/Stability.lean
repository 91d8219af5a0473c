import RouteAtlas.Proofs.Route.Translation
import RouteAtlas.Proofs.Route.Weight

/-!
# Stable templates

A template is not always its own template: `/:a:b` becomes `/{a}:b`, in which the second name
stands behind a brace and is read as well. `canonical_canonical_iff` says which templates are
stable. Of the six forms only brackets, braces and colons can be left in a template. The other three
are never left: the passes behind theirs write nothing but names in braces, from which none of the
three is read (`findAll_canonical_eq_nil`). The paths that the forms are meant for, in which each
part is a literal or one placeholder, have stable templates (`canonical_canonical_of_parts`), since
the template of a part is a part that stays as it is (`exists_template_segment`).
-/

namespace RouteAtlas.Route

open Scanner Text

variable {form : Scanner Text} {t : Text}

/-! ### What is never left -/

theorem prefix_of_prefix_spelled {b : Option Char} {w : Text} (consumes : Consumes form)
    (free : '{' ∉ w) (h : w <+: spelled (piecesAt (placeholder <$> form) ⟨b, t⟩)) : w <+: t := by
  revert free h
  refine piecesAt_induction (consumes_map (g := placeholder) consumes) (motive := fun _ t ps =>
    ∀ {w : Text}, '{' ∉ w → w <+: spelled ps → w <+: t) ?_ ?_ ?_ b t
  · exact fun _ {w} _ h => h
  · intro b x t _ ih w free h
    cases w with
    | nil => exact List.nil_prefix
    | cons y w =>
      obtain ⟨rfl, rest⟩ := List.cons_prefix_cons.mp h
      exact List.cons_prefix_cons.mpr
        ⟨rfl, ih (fun inside => free (List.mem_cons_of_mem y inside)) rest⟩
  · intro b v a t _ found ih w free h
    obtain ⟨name, _, rfl⟩ := map_eq_some.mp found
    cases w with
    | nil => exact List.nil_prefix
    | cons y w =>
      obtain ⟨rfl, _⟩ := List.cons_prefix_cons.mp h
      exact absurd List.mem_cons_self free

theorem infix_of_infix_append {y : Char} {p q w : Text} (free : y ∉ p) (h : y :: w <:+: p ++ q) :
    y :: w <:+: q := by
  induction p with
  | nil => exact h
  | cons x p ih =>
    rcases List.infix_cons_iff.mp h with front | behind
    · obtain ⟨rfl, _⟩ := List.cons_prefix_cons.mp front
      exact absurd List.mem_cons_self free
    · exact ih (fun inside => free (List.mem_cons_of_mem x inside)) behind

/-- A stretch without braces that begins outside names was there before the pass, at a place where
the form was not read. -/
theorem exists_of_infix_pass {y : Char} {w : Text} (consumes : Consumes form) (names : Names form)
    (other : isIdentifier y = false) (free : '{' ∉ y :: w ∧ '}' ∉ y :: w)
    (h : y :: w <:+: pass form t) :
    ∃ u v, t = u ++ (y :: w ++ v) ∧ form ⟨u.getLast?, y :: w ++ v⟩ = none := by
  have outside : y ≠ '{' ∧ y ≠ '}' :=
    ⟨fun e => free.1 (e ▸ List.mem_cons_self), fun e => free.2 (e ▸ List.mem_cons_self)⟩
  -- By induction on the pieces: the stretch starts at a character that is passed over, since no
  -- placeholder holds `y`, and from there on no opening brace ends it early.
  have general : ∃ u v, t = u ++ (y :: w ++ v) ∧
      (placeholder <$> form) ⟨u.getLast?.or none, y :: w ++ v⟩ = none := by
    revert h
    refine piecesAt_induction (consumes_map (g := placeholder) consumes) (motive := fun b t ps =>
      y :: w <:+: spelled ps → ∃ u v, t = u ++ (y :: w ++ v) ∧
        (placeholder <$> form) ⟨u.getLast?.or b, y :: w ++ v⟩ = none) ?_ ?_ ?_ none t
    · intro b h
      exact absurd (List.infix_nil.mp h) (List.cons_ne_nil y w)
    · intro b x t unread ih h
      rcases List.infix_cons_iff.mp h with front | behind
      · obtain ⟨rfl, rest⟩ := List.cons_prefix_cons.mp front
        obtain ⟨v, rfl⟩ := prefix_of_prefix_spelled consumes
          (fun inside => free.1 (List.mem_cons_of_mem y inside)) rest
        exact ⟨[], v, rfl, unread⟩
      · obtain ⟨u, v, rfl, unread⟩ := ih behind
        exact ⟨x :: u, v, rfl, by rwa [getLast?_cons_or]⟩
    · intro b v a t _ found ih h
      obtain ⟨name, read, rfl⟩ := map_eq_some.mp found
      obtain ⟨n, rfl⟩ := names _ _ _ read
      obtain ⟨u, v', rfl, unread⟩ :=
        ih (infix_of_infix_append (notMem_placeholder other outside) h)
      exact ⟨v ++ u, v', (List.append_assoc _ _ _).symm, by rwa [getLast?_append_or]⟩
  obtain ⟨u, v, text, unread⟩ := general
  rw [Option.or_none, map_apply, Option.map_eq_none_iff] at unread
  exact ⟨u, v, text, unread⟩

theorem infix_of_infix_pass {y : Char} {w : Text} (consumes : Consumes form) (names : Names form)
    (other : isIdentifier y = false) (free : '{' ∉ y :: w ∧ '}' ∉ y :: w)
    (h : y :: w <:+: pass form t) : y :: w <:+: t := by
  obtain ⟨u, v, rfl, _⟩ := exists_of_infix_pass consumes names other free h
  exact ⟨u, v, List.append_assoc _ _ _⟩

/-- What the form reads begins with a stretch without slashes and braces, and the form is read
wherever that stretch stands. -/
def Signed (form : Scanner Text) : Prop :=
  ∀ b r a c', form ⟨b, r⟩ = some (a, c') → ∃ y w rest, r = y :: w ++ rest ∧
    isIdentifier y = false ∧ (∀ x ∈ ("/\x7b\x7d" : Text), x ∉ y :: w) ∧
      ∀ b v, form ⟨b, y :: w ++ v⟩ ≠ none

theorem signed_dollar : Signed Route.dollar := by
  intro b r a c' found
  obtain ⟨n, bound, _, _, rfl⟩ := dollar_shape found
  -- The sign is `$` with the first letter. More of the name would not do: a constraint may hold
  -- slashes, and a name that is cut short is a name still.
  refine ⟨'$', [n.first], n.more ++ (bound ++ c'.rest), rfl, by decide, fun x hx inside => ?_,
    fun b v none => ?_⟩
  · have other : ∀ x ∈ ("/\x7b\x7d" : Text), x ≠ '$' ∧ isIdentifier x = false :=
      forall_of_all (by decide)
    rcases List.mem_cons.mp inside with same | same
    · exact (other x hx).1 same
    · exact n.first_ne (other x hx).2 (List.mem_singleton.mp same).symm
  · obtain ⟨name, mid, read⟩ : ∃ name mid, identifier ⟨some '$', n.first :: v⟩ = some (name, mid) :=
      ⟨_, _, by rw [identifier, bind_apply, one_cons, if_pos n.first_start]; rfl⟩
    obtain ⟨o, last, optional⟩ := exists_option (do
      literal ['<']
      let _ ← run fun c => c != '>'
      literal ['>']) mid
    have opened : literal ['$'] ⟨b, '$' :: n.first :: v⟩ = some ((), ⟨some '$', n.first :: v⟩) := by
      simp
    have some : Route.dollar ⟨b, '$' :: n.first :: v⟩ = some (name, last) :=
      bind_eq_some.mpr ⟨(), _, opened, bind_eq_some.mpr ⟨name, mid, read,
        bind_eq_some.mpr ⟨o, last, optional, rfl⟩⟩⟩
    exact absurd (none.symm.trans some) (by simp)

theorem signed_angled : Signed (angled anyConverter) := by
  intro b r a c' found
  obtain ⟨n, type, _, typed, rfl⟩ := angled_shape readsName_anyConverter found
  have shape (rest : Text) : '<' :: (type ++ (n.text ++ ['>'])) ++ rest =
      '<' :: (type ++ (n.text ++ '>' :: rest)) := by simp
  refine ⟨'<', _, c'.rest, (shape c'.rest).symm, by decide, fun x hx => ?_, fun b v none => ?_⟩
  · have other : ∀ x ∈ ("/\x7b\x7d" : Text),
        x ≠ '<' ∧ x ≠ ':' ∧ x ≠ '>' ∧ isIdentifier x = false := forall_of_all (by decide)
    obtain ⟨opens, parts, closes, name⟩ := other x hx
    rcases typed with rfl | ⟨t, rfl⟩
    · simp [opens, closes, n.notMem name]
    · simp [opens, parts, closes, n.notMem name, t.notMem name]
  · rw [shape, angled_any typed] at none
    cases none

theorem signed_catchAllNamed : Signed catchAllNamed := by
  intro b r a c' found
  obtain ⟨_, w, known, rfl⟩ := catchAllNamed_shape found
  rcases known with rfl | rfl
  · refine ⟨'(', ".*)", c'.rest, rfl, by decide, forall_of_all (by decide), fun b v none => ?_⟩
    have read : catchAllNamed ⟨b, '(' :: '.' :: '*' :: ')' :: v⟩ = _ :=
      bind_eq_some.mpr ⟨(), _, catchAll_star, rfl⟩
    exact absurd (none.symm.trans read) (by simp)
  · refine ⟨'(', ".+)", c'.rest, rfl, by decide, forall_of_all (by decide), fun b v none => ?_⟩
    have read : catchAllNamed ⟨b, '(' :: '.' :: '+' :: ')' :: v⟩ = _ :=
      bind_eq_some.mpr ⟨(), _, catchAll_plus, rfl⟩
    exact absurd (none.symm.trans read) (by simp)

/-- Later passes write nothing that a form is read from: if what a pass has left is left in the
template, then nothing that the pass reads is. -/
theorem findAll_canonical_eq_nil {path : Text} (consumes : Consumes form) (names : Names form)
    (signed : Signed form)
    (back : ∀ y w, isIdentifier y = false → '{' ∉ y :: w ∧ '}' ∉ y :: w →
      y :: w <:+: unify (strip path) → ∃ t, y :: w <:+: pass form t) :
    form.findAll (canonical path) = [] := by
  rw [findAll_eq_nil_iff consumes]
  rintro a ⟨u, r, c', text, found⟩
  obtain ⟨y, w, rest, rfl, other, free, always⟩ := signed _ _ _ _ found
  have braces : '{' ∉ y :: w ∧ '}' ∉ y :: w := ⟨free '{' (by decide), free '}' (by decide)⟩
  have inside : y :: w <:+: canonical path := ⟨u, rest, by rw [text, List.append_assoc]⟩
  have earlier := (infix_canonical_iff (List.cons_ne_nil y w) (free '/' (by decide))).mp inside
  obtain ⟨t, left⟩ := back y w other braces earlier
  obtain ⟨u', v, _, unread⟩ := exists_of_infix_pass consumes names other braces left
  exact always _ v unread

theorem findAll_catchAll_canonical (path : Text) : catchAllNamed.findAll (canonical path) = [] := by
  refine findAll_canonical_eq_nil consumes_catchAllNamed names_catchAllNamed signed_catchAllNamed
    fun y w _ _ h => ?_
  rw [unify_eq_passes] at h
  exact ⟨_, h⟩

theorem findAll_angled_canonical (path : Text) :
    (angled anyConverter).findAll (canonical path) = [] := by
  refine findAll_canonical_eq_nil consumes_anyConverter (names_angled readsName_anyConverter)
    signed_angled fun y w other free h => ?_
  rw [unify_eq_passes] at h
  have colons := infix_of_infix_pass consumes_catchAllNamed names_catchAllNamed other free h
  have braces := infix_of_infix_pass consumes_colonMarked names_colonMarked other free colons
  exact ⟨_, infix_of_infix_pass consumes_braced names_braced other free braces⟩

theorem findAll_dollar_canonical (path : Text) : Route.dollar.findAll (canonical path) = [] := by
  refine findAll_canonical_eq_nil consumes_dollar names_dollar signed_dollar
    fun y w other free h => ?_
  rw [unify_eq_passes] at h
  have colons := infix_of_infix_pass consumes_catchAllNamed names_catchAllNamed other free h
  have braces := infix_of_infix_pass consumes_colonMarked names_colonMarked other free colons
  have angles := infix_of_infix_pass consumes_braced names_braced other free braces
  exact ⟨_, infix_of_infix_pass consumes_anyConverter (names_angled readsName_anyConverter) other
    free angles⟩

/-! ### Stable templates -/

theorem settled_canonical (path : Text) :
    unclosed (squeeze (rooted (canonical path))) = canonical path := by
  rw [settled_eq, canonical_eq, parts_slash, parts_join fun _ => mem_parts]

/-- Nothing is left in a template that would be settled once more: no blank at the end, no brackets
and no colons in front of names, and no braces around a name with anything else. -/
structure Settled (t : Text) : Prop where
  last : ∀ x ∈ t.getLast?, isBlank x = false
  brackets : bracketed.findAll t = []
  colons : colon.findAll t = []
  braces : PlainBraces t

theorem findAll_colonMarked_eq_nil : colonMarked.findAll t = [] ↔ colon.findAll t = [] := by
  rw [findAll_eq_nil_iff consumes_colonMarked, findAll_eq_nil_iff consumes_colon]
  simp only [fitsAt_colonMarked_iff]

theorem isBlank_getLast?_strip {x : Char} (h : x ∈ (strip t).getLast?) : isBlank x = false := by
  rw [strip, trim, List.getLast?_reverse] at h
  have first := List.head?_dropWhile_not isBlank (t.dropWhile isBlank).reverse
  rw [Option.mem_def.mp h] at first
  simpa using first

/-- A template is its own template exactly if it is settled. -/
theorem canonical_canonical_iff (path : Text) :
    canonical (canonical path) = canonical path ↔ Settled (canonical path) := by
  constructor
  · intro same
    obtain ⟨stripped, unified⟩ := steps_of_canonical_eq same
    have passes := unify_eq_self_iff.mp unified
    rw [forms_eq] at passes
    simp only [List.forall_mem_cons] at passes
    obtain ⟨brackets, _, _, braces, colons, _⟩ := passes
    refine ⟨fun x hx => isBlank_getLast?_strip (stripped.symm ▸ hx), ?_, ?_,
      pass_braced_eq_self_iff.mp braces⟩
    · exact (pass_eq_self_iff consumes_bracketed lightens_bracketed).mp brackets
    · exact findAll_colonMarked_eq_nil.mp
        ((pass_eq_self_iff consumes_colonMarked lightens_colonMarked).mp colons)
  · intro settled
    have stripped : strip (canonical path) = canonical path := by
      refine trim_of_edges (fun x hx => ?_) settled.last
      rw [canonical_eq] at hx
      obtain rfl := Option.some.inj hx
      decide
    have unified : unify (canonical path) = canonical path := by
      refine unify_eq_self_iff.mpr ?_
      rw [forms_eq]
      simp only [List.forall_mem_cons, List.not_mem_nil, false_implies, implies_true, and_true]
      exact ⟨pass_of_findAll_eq_nil consumes_bracketed settled.brackets,
        pass_of_findAll_eq_nil consumes_dollar (findAll_dollar_canonical path),
        pass_of_findAll_eq_nil consumes_anyConverter (findAll_angled_canonical path),
        pass_braced_eq_self_iff.mpr settled.braces,
        pass_of_findAll_eq_nil consumes_colonMarked
          (findAll_colonMarked_eq_nil.mpr settled.colons),
        pass_of_findAll_eq_nil consumes_catchAllNamed (findAll_catchAll_canonical path)⟩
    -- With both first steps idle, what is left is to settle slashes that are settled already.
    calc canonical (canonical path) = unclosed (squeeze (rooted (canonical path))) := by
          rw [canonical, stripped, unified]
      _ = canonical path := settled_canonical path

/-- Of two names with nothing between them only the first is read at once. -/
theorem canonical_canonical_adjacent : canonical (canonical "/:a:b") ≠ canonical "/:a:b" := by
  decide +kernel

/-! ### Paths with stable templates -/

/-- The template of a segment is a segment that is its own template. -/
theorem exists_template_segment (seg : Segment) :
    ∃ seg' : Segment, seg'.text = seg.template ∧ seg'.template = seg.template := by
  rcases seg.template_cases with ⟨none, nonempty, plain⟩ | ⟨n, _, same⟩
  · exact ⟨.literal seg.template nonempty plain, rfl, rfl⟩
  · exact ⟨.named .brace n, by rw [same]; rfl, by rw [same]; rfl⟩

/-- The template of a path whose parts are segments is stable. -/
theorem canonical_canonical_of_parts {path : Text} {segs : List Segment}
    (h : parts path = segs.map Segment.text) : canonical (canonical path) = canonical path := by
  choose own texts templates using exists_template_segment
  have whole : parts (canonical path) = (segs.map own).map Segment.text := by
    rw [canonical_of_parts h, parts_slash, parts_join, List.map_map]
    · exact List.map_congr_left fun seg _ => (texts seg).symm
    · intro v hv
      obtain ⟨seg, _, rfl⟩ := List.mem_map.mp hv
      exact ⟨Segment.template_ne_nil, Segment.notMem_template (by decide) (by decide) (by decide)⟩
  rw [canonical_of_parts whole, canonical_of_parts h, List.map_map]
  exact congrArg _ (congrArg _ (List.map_congr_left fun seg _ => templates seg))

end RouteAtlas.Route
