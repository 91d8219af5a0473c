import Mathlib.Data.List.DropRight
import RouteAtlas.Proofs.Route.Shapes
import RouteAtlas.Proofs.Scanner.Places

/-!
# Blanks at the ends of a path

Taking the blanks away at both ends of a path keeps what can be read in it. For a scanner that
reads no blanks this holds place by place (`fitsAt_strip`). The constraint of a braced placeholder
may hold blanks, but what is read ends at a closing brace, so the finds are the same
(`findAll_braced_strip`).
-/

namespace RouteAtlas.Route

open Scanner Text

variable {α : Type} {s : Scanner α} {b : Option Char} {t v : Text}

theorem exists_blanks (t : Text) : ∃ u v, t = u ++ (strip t ++ v) ∧
    (∀ x ∈ u, isBlank x = true) ∧ ∀ x ∈ v, isBlank x = true := by
  have front : t = t.takeWhile isBlank ++ t.dropWhile isBlank :=
    List.takeWhile_append_dropWhile.symm
  have back (w : Text) : w =
      (w.reverse.dropWhile isBlank).reverse ++ (w.reverse.takeWhile isBlank).reverse := by
    rw [← List.reverse_append, List.takeWhile_append_dropWhile, List.reverse_reverse]
  refine ⟨t.takeWhile isBlank, ((t.dropWhile isBlank).reverse.takeWhile isBlank).reverse,
    front.trans (congrArg _ (back _)), List.all_eq_true.mp List.all_takeWhile, fun x hx => ?_⟩
  exact List.all_eq_true.mp List.all_takeWhile x (List.mem_reverse.mp hx)

theorem mem_of_mem_strip {x : Char} (h : x ∈ strip t) : x ∈ t := by
  obtain ⟨u, v, whole, _⟩ := exists_blanks t
  rw [whole]
  exact List.mem_append_right u (List.mem_append_left v h)

theorem strip_ne_nil (visible : ∃ x ∈ t, isBlank x = false) : strip t ≠ [] := by
  intro nothing
  obtain ⟨x, member, shown⟩ := visible
  obtain ⟨u, v, whole, front, back⟩ := exists_blanks t
  rw [nothing, List.nil_append] at whole
  have blank : ∀ x ∈ t, isBlank x = true := whole ▸ List.forall_mem_append.mpr ⟨front, back⟩
  rw [blank x member] at shown
  cases shown

theorem strip_dropWhile (t : Text) : strip (t.dropWhile isBlank) = strip t := by
  unfold strip trim
  rw [List.dropWhile_idempotent]

/-! ### Scanners that read no blanks -/

/-- What is read holds no blank, and it is read as well at the start of the text and where less of
the text follows. -/
def Robust (s : Scanner α) : Prop :=
  ∀ b r a c', s ⟨b, r⟩ = some (a, c') → ∃ w, r = w ++ c'.rest ∧ w ≠ [] ∧
    (∀ x ∈ w, isBlank x = false) ∧ ∀ b' rest, b' = b ∨ b' = none → rest <+: c'.rest →
      ∃ c'', s ⟨b', w ++ rest⟩ = some (a, c'')

theorem getLast?_dropWhile (p : Char → Bool) (u : Text) :
    (u.dropWhile p).getLast? = u.getLast? ∨ u.dropWhile p = [] := by
  by_cases none : u.dropWhile p = []
  · exact .inr none
  · obtain ⟨x, last⟩ := Option.isSome_iff_exists.mp (List.getLast?_isSome.mpr none)
    obtain ⟨v, whole⟩ := List.dropWhile_suffix (l := u) p
    have same : u.getLast? = some x := by rw [← whole, List.getLast?_append, last, Option.some_or]
    exact .inl (last.trans same.symm)

theorem fitsAt_strip (robust : Robust s) {a : α} (h : FitsAt s none t a) :
    FitsAt s none (strip t) a := by
  obtain ⟨u, r, c', rfl, found⟩ := h
  obtain ⟨w, rfl, nonempty, inside, again⟩ := robust _ _ _ _ found
  have less : (c'.rest.reverse.dropWhile isBlank).reverse <+: c'.rest := by
    rw [← List.reverse_suffix, List.reverse_reverse]
    exact List.dropWhile_suffix _
  have before : (u.dropWhile isBlank).getLast?.or none = u.getLast?.or none ∨
      (u.dropWhile isBlank).getLast?.or none = none := by
    rcases getLast?_dropWhile isBlank u with same | empty
    · exact .inl (by rw [same])
    · exact .inr (by rw [empty]; rfl)
  -- The blanks in front are gone from before what is read, those at the end from behind it.
  obtain ⟨c'', found'⟩ := again _ _ before less
  refine ⟨_, _, c'', ?_, found'⟩
  exact trim_append nonempty (fun x hx => inside x (List.mem_of_head? hx))
    (fun x hx => inside x (List.mem_of_getLast? hx)) u c'.rest

theorem stops_of_shorter {p : Char → Bool} {rest : Text} (stop : Stops p t) (less : rest <+: t) :
    Stops p rest := by
  obtain ⟨v, rfl⟩ := less
  cases rest with
  | nil => exact stops_nil p
  | cons x rest => exact stops_cons.mpr (stops_cons.mp stop)

theorem isBlank_of_mem_cons {x y : Char} {n : Identifier} (opener : isBlank y = false)
    (h : x ∈ y :: n.text) : isBlank x = false := by
  rcases List.mem_cons.mp h with rfl | h
  · exact opener
  · exact isBlank_of_isIdentifier (n.inside x h)

theorem robust_colon : Robust colon := by
  intro b r a c' found
  obtain ⟨n, rfl, free, stop, text⟩ := colon_shape found
  refine ⟨':' :: n.text, text, List.cons_ne_nil _ _, fun _ => isBlank_of_mem_cons (by decide),
    fun b' rest before less => ⟨_, colon_name (fun x hx => ?_) (stops_of_shorter stop less)⟩⟩
  rcases before with rfl | rfl
  · exact free x hx
  · cases hx

theorem robust_angled : Robust (angled anyConverter) := by
  intro b r a c' found
  obtain ⟨n, type, rfl, typed, text⟩ := angled_shape readsName_anyConverter found
  have shape (rest : Text) : '<' :: (type ++ (n.text ++ '>' :: rest)) =
      '<' :: (type ++ (n.text ++ ['>'])) ++ rest := by simp
  refine ⟨_, text.trans (shape _), List.cons_ne_nil _ _, fun x hx => ?_, fun b' rest _ _ => ?_⟩
  · have closed : isBlank x = false ∨ x ∈ type := by
      simp only [List.mem_cons, List.mem_append, List.not_mem_nil, or_false] at hx
      rcases hx with rfl | hx | hx | rfl
      · exact .inl (by decide)
      · exact .inr hx
      · exact .inl (isBlank_of_isIdentifier (n.inside x hx))
      · exact .inl (by decide)
    rcases typed with rfl | ⟨t, rfl⟩
    · exact closed.resolve_right List.not_mem_nil
    · refine closed.elim id fun hx => ?_
      rcases List.mem_append.mp hx with hx | hx
      · exact isBlank_of_isIdentifier (t.inside x hx)
      · obtain rfl := List.mem_singleton.mp hx
        decide
  · rw [← shape]
    exact ⟨_, angled_any typed b' n rest⟩

theorem robust_catchAll : Robust catchAll := by
  intro b r a c' found
  obtain ⟨w, known, text⟩ := catchAll_shape found
  refine ⟨w, text, ?_, ?_, fun b' rest _ _ => ?_⟩ <;> rcases known with rfl | rfl
  · exact List.cons_ne_nil _ _
  · exact List.cons_ne_nil _ _
  · exact forall_of_all (by decide)
  · exact forall_of_all (by decide)
  · exact ⟨_, catchAll_star⟩
  · exact ⟨_, catchAll_plus⟩

/-! ### Braced placeholders -/

theorem braced_before (b b' : Option Char) (t : Text) : braced ⟨b, t⟩ = braced ⟨b', t⟩ := by
  cases t <;> simp [braced, bind_apply]

/-- What a braced placeholder reads ends at a closing brace, whatever follows. -/
theorem braced_append_of_free (free : '}' ∉ v) (b : Option Char) (t : Text) :
    braced ⟨b, t ++ v⟩ = (braced ⟨b, t⟩).map fun p => (p.1, ⟨p.2.before, p.2.rest ++ v⟩) := by
  cases found : braced ⟨b, t⟩ with
  | none =>
    -- A placeholder read in the longer text would end before `v`, and so be read in `t` as well.
    rw [Option.map_none, Option.eq_none_iff_forall_ne_some]
    rintro ⟨a, c'⟩ found'
    obtain ⟨n, stars, mark, bound, _, starred, marked, bounded, shape⟩ := braced_shape found'
    have whole : t ++ v = ('{' :: (stars ++ (n.text ++ (mark ++ bound)))) ++ '}' :: c'.rest := by
      rw [shape]
      simp
    obtain ⟨r, inner, _⟩ := within_of_notMem free whole
    have same : t = '{' :: (stars ++ (n.text ++ (mark ++ (bound ++ '}' :: r)))) := by
      rw [inner]
      simp
    rw [same, braced_append stars mark bound starred marked bounded] at found
    cases found
  | some p =>
    obtain ⟨a, ⟨before, rest⟩⟩ := p
    obtain ⟨n, stars, mark, bound, rfl, starred, marked, bounded, rfl⟩ := braced_shape found
    have again (r : Text) := @braced_append b r n stars mark bound starred marked bounded
    rw [again] at found
    obtain ⟨_, same⟩ := Prod.mk.inj (Option.some.inj found)
    obtain ⟨rfl, _⟩ := Cursor.mk.inj same
    simpa using again (rest ++ v)

theorem finds_braced_append (opening : '{' ∉ v) (closing : '}' ∉ v) (b : Option Char) (t : Text) :
    finds (piecesAt braced ⟨b, t ++ v⟩) = finds (piecesAt braced ⟨b, t⟩) := by
  have pieces := piecesAt_append consumes_braced (P := fun _ => True) (fun _ _ _ => trivial)
    (fun b t _ => braced_append_of_free closing b t) b (t := t) trivial
  have passed := piecesAt_pass (b := t.getLast?.or b) opens_braced
    (fun y hy e => opening (e ▸ hy)) []
  rw [List.append_nil, piecesAt_end, List.append_nil] at passed
  rw [pieces, passed, finds_append, finds_plain, List.append_nil]

/-- The braced placeholders of a path are those of the path without blanks at its ends. -/
theorem findAll_braced_strip (t : Text) : braced.findAll (strip t) = braced.findAll t := by
  obtain ⟨u, v, whole, front, back⟩ := exists_blanks t
  have free {y : Char} {w : Text} (blank : ∀ x ∈ w, isBlank x = true)
      (other : isBlank y = false) : y ∉ w := fun h => by simp [blank y h] at other
  have opening : ∀ x ∈ u, x ≠ '{' := fun x hx e => free front (by decide) (e ▸ hx)
  have passed : finds (piecesAt braced ⟨none, u ++ (strip t ++ v)⟩) =
      finds (piecesAt braced ⟨none, strip t⟩) := by
    rw [piecesAt_pass opens_braced opening, finds_append, finds_plain, List.nil_append,
      piecesAt_congr (braced_before _ none _),
      finds_braced_append (free back (by decide)) (free back (by decide))]
  rw [← whole] at passed
  exact passed.symm

end RouteAtlas.Route
