import RouteAtlas.Proofs.Scanner.Places
import RouteAtlas.Proofs.Text.Splitting

/-!
# Replaced parts

What replacing every occurrence of a part does to a text. `replace_eq_substitute` makes a scanner of it;
no character comes in but those of the replacement (`mem_replace`), and only the empty text and a lone
slash become so (`replace_eq_nil`, `replace_eq_slash`).
-/

namespace RouteAtlas

namespace Text

open Scanner

variable {part new t : Text} {x : Char}

theorem replaceGo_skip (w : Text) : replaceGo part new w.length (w ++ t) = replaceGo part new 0 t := by
  induction w with
  | nil => rfl
  | cons y w ih => exact ih

theorem replace_cons (part new : Text) (x : Char) (t : Text) :
    replace part new (x :: t) =
      if startsWith part (x :: t) then new ++ replaceGo part new (part.length - 1) t
      else x :: replace part new t := rfl

theorem replace_append (nonempty : part ≠ []) (new t : Text) :
    replace part new (part ++ t) = new ++ replace part new t := by
  cases part with
  | nil => exact absurd rfl nonempty
  | cons p part =>
    have here : startsWith (p :: part) (p :: (part ++ t)) = true :=
      startsWith_iff.mpr (List.prefix_append (p :: part) t)
    rw [List.cons_append, replace_cons, if_pos here]
    exact congrArg (new ++ ·) (replaceGo_skip part)

/-- Replacing is reading the part and returning what it is replaced by. -/
theorem replace_eq_substitute (nonempty : part ≠ []) (new t : Text) :
    replace part new t = substitute (literal part >>= fun _ => pure new) t := by
  have consumes : Consumes (literal part >>= fun _ => (pure new : Scanner Text)) :=
    consumes_bind (consumes_literal nonempty) fun _ => reads_pure _
  refine piecesAt_induction consumes (motive := fun _ t ps => replace part new t = spelled ps)
    ?_ ?_ ?_ none t
  · exact fun _ => rfl
  · intro b x t none ih
    have passed : ¬ startsWith part (x :: t) = true := fun h => by
      obtain ⟨r, whole⟩ := startsWith_iff.mp h
      rw [← whole, bind_apply, literal_append] at none
      cases none
    rw [replace_cons, if_neg passed, ih]
    rfl
  · intro b w a t _ found ih
    obtain ⟨_, mid, first, second⟩ := bind_eq_some.mp found
    obtain ⟨rfl, rfl⟩ := Prod.mk.inj (Option.some.inj second)
    obtain rfl : w = part := List.append_cancel_right (between_literal first).1
    rw [replace_append nonempty, ih]
    rfl

theorem mem_replaceGo {skip : Nat} (h : x ∈ replaceGo part new skip t) : x ∈ t ∨ x ∈ new := by
  induction t generalizing skip with
  | nil => cases skip <;> cases h
  | cons y t ih =>
    have later {skip : Nat} (h : x ∈ replaceGo part new skip t) : x ∈ y :: t ∨ x ∈ new :=
      (ih h).imp_left (List.mem_cons_of_mem y)
    cases skip with
    | zero =>
      rw [replaceGo] at h
      split at h
      · exact (List.mem_append.mp h).elim .inr later
      · rcases List.mem_cons.mp h with rfl | h
        · exact .inl List.mem_cons_self
        · exact later h
    | succ skip => exact later h

theorem mem_replace (h : x ∈ replace part new t) : x ∈ t ∨ x ∈ new := mem_replaceGo h

theorem mem_replaceFirst (h : x ∈ replaceFirst part new t) : x ∈ t ∨ x ∈ new := by
  induction t with
  | nil => cases h
  | cons y t ih =>
    rw [replaceFirst] at h
    split at h
    · rename_i rest behind
      rcases List.mem_append.mp h with inside | inside
      · exact .inr inside
      · exact .inl (after?_eq_some_iff.mp behind ▸ List.mem_append_right part inside)
    · rcases List.mem_cons.mp h with rfl | h
      · exact .inl List.mem_cons_self
      · exact (ih h).imp_left (List.mem_cons_of_mem y)

theorem replace_slash_cons (first : part.head? = some '[') (new t : Text) :
    replace part new ('/' :: t) = '/' :: replace part new t := by
  obtain ⟨o, rfl⟩ := List.head?_eq_some_iff.mp first
  have passed : ¬ startsWith ('[' :: o) ('/' :: t) = true := fun h =>
    absurd (List.cons_prefix_cons.mp (startsWith_iff.mp h)).1 (by decide)
  rw [replace_cons, if_neg passed]

theorem replace_eq_nil (some : new ≠ []) (h : replace part new t = []) : t = [] := by
  cases t with
  | nil => rfl
  | cons x t =>
    rw [replace_cons] at h
    split at h
    · exact absurd (List.append_eq_nil_iff.mp h).1 some
    · cases h

/-- Only a lone slash becomes one. -/
theorem replace_eq_slash (some : new ≠ []) (free : '/' ∉ new) (h : replace part new t = "/") :
    t = "/" := by
  cases t with
  | nil => cases h
  | cons x t =>
    rw [replace_cons] at h
    split at h
    · obtain ⟨y, new, rfl⟩ := List.exists_cons_of_ne_nil some
      obtain ⟨rfl, _⟩ := List.cons.inj h
      exact absurd List.mem_cons_self free
    · obtain ⟨rfl, rest⟩ := List.cons.inj h
      rw [replace_eq_nil some rest]
      rfl

end Text

end RouteAtlas
