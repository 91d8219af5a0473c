import Mathlib.Data.List.Infix
import RouteAtlas.Proofs.Scanner.Quoted

/-!
# Stretches in which nothing begins

`Silent` says of a stretch that a scanner reads nothing that begins in it, whatever stands around the
stretch. Silent stretches can be put together, and `finds_silent` passes over them. For a scanner
that begins with a fixed opening it is enough that the stretch `Shuns` the opening.
-/

namespace RouteAtlas.Scanner

variable {α β : Type} {s : Scanner α} {b : Option Char} {u w t opening : Text} {x : Char}

/-- Nothing that begins in the stretch is read, whatever stands before and behind it. -/
def Silent (s : Scanner α) (w : Text) : Prop :=
  ∀ v, v <:+ w → v ≠ [] → ∀ b rest, s ⟨b, v ++ rest⟩ = none

theorem suffix_of_append {v : Text} (h : v ++ w <:+ u ++ w) : v <:+ u := by
  obtain ⟨r, whole⟩ := h
  rw [← List.append_assoc] at whole
  exact ⟨r, List.append_cancel_right whole⟩

theorem suffix_append_cases {v : Text} (h : v <:+ u ++ w) :
    v <:+ w ∨ ∃ v', v' ≠ [] ∧ v' <:+ u ∧ v = v' ++ w := by
  rcases List.suffix_or_suffix_of_suffix h (List.suffix_append u w) with inner | ⟨v', rfl⟩
  · exact .inl inner
  · cases v' with
    | nil => exact .inl (List.suffix_refl w)
    | cons y v' => exact .inr ⟨_, List.cons_ne_nil y v', suffix_of_append h, rfl⟩

theorem silent_nil : Silent s [] := fun _ h nonempty => absurd (List.suffix_nil.mp h) nonempty

theorem Silent.append (hu : Silent s u) (hw : Silent s w) : Silent s (u ++ w) := by
  intro v h nonempty b rest
  rcases suffix_append_cases h with inner | ⟨v', nonempty', outer, rfl⟩
  · exact hw v inner nonempty b rest
  · rw [List.append_assoc]
    exact hu v' outer nonempty' b (w ++ rest)

theorem silent_cons (here : ∀ b rest, s ⟨b, x :: (w ++ rest)⟩ = none) (h : Silent s w) :
    Silent s (x :: w) := by
  intro v inner nonempty b rest
  rcases List.suffix_cons_iff.mp inner with rfl | later
  · exact here b rest
  · exact h v later nonempty b rest

theorem silent_flatMap {ι : Type} {l : List ι} {f : ι → Text} (h : ∀ i ∈ l, Silent s (f i)) :
    Silent s (l.flatMap f) := by
  induction l with
  | nil => exact silent_nil
  | cons i l ih =>
    rw [List.flatMap_cons]
    exact (h i List.mem_cons_self).append (ih fun j member => h j (List.mem_cons_of_mem i member))

theorem silent_of_opens (opens : Opens s x) (free : x ∉ w) : Silent s w := by
  rintro v ⟨u, rfl⟩ nonempty b rest
  cases v with
  | nil => exact absurd rfl nonempty
  | cons y v =>
    refine opens b y (v ++ rest) fun e => free ?_
    exact e ▸ List.mem_append_right u List.mem_cons_self

theorem finds_silent (silent : Silent s w) (b : Option Char) (t : Text) :
    finds (piecesAt s ⟨b, w ++ t⟩) = finds (piecesAt s ⟨w.getLast?.or b, t⟩) :=
  finds_skip fun u v whole nonempty => silent v ⟨u, whole.symm⟩ nonempty _ t

theorem silent_check_bind {p : Cursor → Bool} {f : Unit → Scanner β} (h : Silent (f ()) w) :
    Silent (check p >>= f) w := by
  intro v inner nonempty b rest
  rw [bind_apply, check]
  split
  · exact h v inner nonempty b rest
  · rfl

/-- What is read reaches a mark before any `x`, and the stretch holds no mark before the `x` at its
end. -/
theorem silent_concat {mark : Char → Bool} (reaches : ∀ b r a c', s ⟨b, r⟩ = some (a, c') →
      ∃ u y t, x ∉ u ∧ mark y = true ∧ r = u ++ y :: t)
    (unmarked : ∀ z ∈ w, mark z = false) (other : mark x = false) : Silent s (w ++ [x]) := by
  intro v inner nonempty b rest
  obtain rfl | ⟨v', rfl, inner'⟩ := List.suffix_concat_iff.mp inner
  · exact absurd rfl nonempty
  refine eq_none_of_forall fun a c' found => ?_
  obtain ⟨u, y, t, free, marked, text⟩ := reaches _ _ _ _ found
  have outside : y ∉ v' ++ [x] := by
    intro inside
    have plain : mark y = false := by
      rcases List.mem_append.mp inside with inside | inside
      · exact unmarked y (inner'.subset inside)
      · exact List.mem_singleton.mp inside ▸ other
    rw [plain] at marked
    cases marked
  obtain ⟨u', rfl, _⟩ := beyond_of_notMem outside text rfl
  exact free (by simp)

/-! ### Openings -/

/-- No part of the text, not even one that is cut short by its end, is the opening. -/
def Shuns (opening w : Text) : Prop :=
  ∀ v, v <:+ w → v ≠ [] → ¬ v <+: opening ∧ ¬ opening <+: v

instance (opening w : Text) : Decidable (Shuns opening w) :=
  decidable_of_iff (∀ v ∈ w.tails, v ≠ [] → ¬ v <+: opening ∧ ¬ opening <+: v) <| by
    simp only [Shuns, List.mem_tails]

theorem shuns_nil : Shuns opening [] := fun _ h nonempty => absurd (List.suffix_nil.mp h) nonempty

theorem Shuns.append (hu : Shuns opening u) (hw : Shuns opening w) : Shuns opening (u ++ w) := by
  intro v h nonempty
  rcases suffix_append_cases h with inner | ⟨v', nonempty', outer, rfl⟩
  · exact hw v inner nonempty
  · obtain ⟨short, long⟩ := hu v' outer nonempty'
    refine ⟨fun e => short ((List.prefix_append v' w).trans e), fun e => ?_⟩
    rcases List.prefix_or_prefix_of_prefix e (List.prefix_append v' w) with inner | inner
    · exact long inner
    · exact short inner

theorem shuns_flatMap {ι : Type} {l : List ι} {f : ι → Text} (h : ∀ i ∈ l, Shuns opening (f i)) :
    Shuns opening (l.flatMap f) := by
  induction l with
  | nil => exact shuns_nil
  | cons i l ih =>
    rw [List.flatMap_cons]
    exact (h i List.mem_cons_self).append (ih fun j member => h j (List.mem_cons_of_mem i member))

theorem shuns_of_head_notMem (first : opening.head? = some x) (free : x ∉ w) :
    Shuns opening w := by
  obtain ⟨o, rfl⟩ := List.head?_eq_some_iff.mp first
  rintro v ⟨u, rfl⟩ nonempty
  cases v with
  | nil => exact absurd rfl nonempty
  | cons y v =>
    have other : y ≠ x := fun e => free (e ▸ List.mem_append_right u List.mem_cons_self)
    exact ⟨fun h => other (List.cons_prefix_cons.mp h).1,
      fun h => other (List.cons_prefix_cons.mp h).1.symm⟩

/-- At the end of a line no opening is cut short. -/
theorem shuns_line (free : ¬ opening <:+: w) (other : x ∉ opening) : Shuns opening (w ++ [x]) := by
  intro v h nonempty
  obtain ⟨v', rfl⟩ : ∃ v', v = v' ++ [x] := by
    rcases suffix_append_cases h with inner | ⟨v', _, _, whole⟩
    · rcases List.suffix_cons_iff.mp inner with rfl | none
      · exact ⟨[], rfl⟩
      · exact absurd (List.suffix_nil.mp none) nonempty
    · exact ⟨v', whole⟩
  refine ⟨fun ⟨r, whole⟩ => other (whole ▸ by simp), fun ⟨r, whole⟩ => ?_⟩
  have inner : v' <:+ w := suffix_of_append h
  rcases List.eq_nil_or_concat r with rfl | ⟨r', y, rfl⟩
  · rw [List.append_nil] at whole
    exact other (whole ▸ by simp)
  · rw [List.concat_eq_append, ← List.append_assoc] at whole
    have front := (List.append_inj' whole rfl).1
    exact free (List.IsInfix.trans ⟨[], r', front⟩ inner.isInfix)

theorem Shuns.absent (nonempty : opening ≠ []) (h : Shuns opening w) : ¬ opening <:+: w := by
  rintro ⟨u, v, whole⟩
  rw [List.append_assoc] at whole
  exact (h (opening ++ v) ⟨u, whole⟩ (by simp [nonempty])).2 (List.prefix_append opening v)

theorem silent_of_shuns {f : Unit → Scanner β} (h : Shuns opening w) :
    Silent (literal opening >>= f) w := by
  intro v inner nonempty b rest
  obtain ⟨short, long⟩ := h v inner nonempty
  have none : literal opening ⟨b, v ++ rest⟩ = none := eq_none_of_forall fun _ _ found => by
    obtain ⟨r, whole, _⟩ := literal_eq_some.mp found
    have opened : opening <+: v ++ rest := ⟨r, whole.symm⟩
    rcases List.prefix_or_prefix_of_prefix opened (List.prefix_append v rest) with h | h
    · exact long h
    · exact short h
  rw [bind_apply, none]
  rfl

end RouteAtlas.Scanner
