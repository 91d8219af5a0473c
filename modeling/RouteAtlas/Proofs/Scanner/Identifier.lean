import RouteAtlas.Proofs.Scanner.Pieces

/-!
# Identifiers

An `Identifier` is a text that the scanner `identifier` reads as a whole (`identifier_append`).
-/

namespace RouteAtlas

/-- An ASCII letter or underscore, then letters, digits and underscores. -/
structure Identifier where
  first : Char
  more : Text
  first_start : Text.isIdentifierStart first = true
  more_inside : ∀ x ∈ more, Text.isIdentifier x = true

namespace Identifier

variable (n : Identifier) {x : Char}

def text : Text := n.first :: n.more

theorem text_ne_nil : n.text ≠ [] := List.cons_ne_nil n.first n.more

theorem inside : ∀ x ∈ n.text, Text.isIdentifier x = true := by
  intro x h
  rcases List.mem_cons.mp h with rfl | h
  · exact Text.isIdentifierStart_isIdentifier n.first_start
  · exact n.more_inside x h

theorem ne_of_mem {y : Char} (h : x ∈ n.text) (other : Text.isIdentifier y = false) : x ≠ y := by
  rintro rfl
  exact absurd (n.inside x h) (by simp [other])

theorem notMem {y : Char} (other : Text.isIdentifier y = false) : y ∉ n.text :=
  fun h => n.ne_of_mem h other rfl

theorem first_ne {y : Char} (other : Text.isIdentifier y = false) : n.first ≠ y :=
  n.ne_of_mem List.mem_cons_self other

end Identifier

namespace Scanner

variable {b : Option Char} {rest : Text}

theorem identifier_append (n : Identifier) (stop : Stops Text.isIdentifier rest) :
    identifier ⟨b, n.text ++ rest⟩ = some (n.text, ⟨n.text.getLast?, rest⟩) := by
  rw [identifier, bind_apply, Identifier.text, List.cons_append, one_cons, if_pos n.first_start,
    Option.bind_some, bind_apply, run_append n.more_inside stop, Option.bind_some, pure_apply]
  cases n.more <;> simp [List.getLast?_cons]

theorem identifier_eq_some {c c' : Cursor} {a : Text} (found : identifier c = some (a, c')) :
    ∃ n : Identifier, a = n.text ∧ c.rest = n.text ++ c'.rest ∧
      Stops Text.isIdentifier c'.rest := by
  obtain ⟨x, mid, first, found⟩ := bind_eq_some.mp found
  obtain ⟨more, mid', second, found⟩ := bind_eq_some.mp found
  obtain ⟨rfl, rfl⟩ := Prod.mk.inj (Option.some.inj found)
  obtain ⟨start, text⟩ := one_eq_some first
  obtain ⟨inside, stop, text'⟩ := run_eq_some second
  exact ⟨⟨x, more, start, inside⟩, rfl, by rw [text, text']; rfl, stop⟩

theorem literal_identifier (n : Identifier) {x : Char} (other : Text.isIdentifier x = false)
    (w : Text) : literal (x :: w) ⟨b, n.text ++ rest⟩ = none := by
  rw [Identifier.text, List.cons_append, literal_cons, if_neg (n.first_ne other).symm]

end Scanner
end RouteAtlas
