import RouteAtlas.Proofs.Route.Passes

/-!
# The shapes of placeholders

What stood in the text where a form of placeholder was read. These are the converses of the readings
of `Placeholders`, and with the name a form gives they decide which characters it can have passed.
-/

namespace RouteAtlas.Route

open Scanner

variable {b : Option Char} {c c' : Cursor} {r a : Text}

/-! ### The forms -/

theorem dollar_shape (found : dollar ⟨b, r⟩ = some (a, c')) :
    ∃ (n : Identifier) (bound : Text), a = n.text ∧
      (bound = [] ∨ ∃ w, '>' ∉ w ∧ bound = '<' :: (w ++ ['>'])) ∧
        r = '$' :: (n.text ++ (bound ++ c'.rest)) := by
  obtain ⟨_, opened, first, found⟩ := bind_eq_some.mp found
  obtain ⟨name, named, second, found⟩ := bind_eq_some.mp found
  obtain ⟨_, last, third, found⟩ := bind_eq_some.mp found
  obtain ⟨rfl, rfl⟩ := Prod.mk.inj (Option.some.inj found)
  have text : r = _ := (between_literal first).1
  obtain ⟨n, rfl, text₂, _⟩ := identifier_eq_some second
  rw [text, text₂]
  rcases option_eq_some third with ⟨_, third⟩ | rfl
  · obtain ⟨_, inner, third, fourth⟩ := bind_eq_some.mp third
    obtain ⟨w, closed, fourth, fifth⟩ := bind_eq_some.mp fourth
    obtain ⟨inside, _, text₄⟩ := run_eq_some fourth
    refine ⟨n, '<' :: (w ++ ['>']), rfl, .inr ⟨w, fun h => ?_, rfl⟩, ?_⟩
    · exact absurd (inside _ h) (by decide)
    · rw [(between_literal third).1, text₄, (between_literal fifth).1]
      simp
  · exact ⟨n, [], rfl, .inl rfl, rfl⟩

/-- What counts as a converter is an identifier. -/
def ReadsName (convertible : Scanner Unit) : Prop :=
  ∀ c u c', convertible c = some (u, c') → ∃ t : Identifier, c.rest = t.text ++ c'.rest

theorem readsName_anyConverter : ReadsName anyConverter := by
  intro c u c' found
  obtain ⟨_, mid, first, found⟩ := bind_eq_some.mp found
  obtain ⟨_, rfl⟩ := Prod.mk.inj (Option.some.inj found)
  obtain ⟨t, _, text, _⟩ := identifier_eq_some first
  exact ⟨t, text⟩

/-- What stands in front of the colon is what the converters are read from. -/
theorem angled_shape_of {convertible : Scanner Unit} {IsConverter : Text → Prop}
    (reads : ∀ c u c', convertible c = some (u, c') → ∃ t, IsConverter t ∧ c.rest = t ++ c'.rest)
    (found : angled convertible ⟨b, r⟩ = some (a, c')) :
    ∃ (n : Identifier) (type : Text), a = n.text ∧
      (type = [] ∨ ∃ t, IsConverter t ∧ type = t ++ [':']) ∧
        r = '<' :: (type ++ (n.text ++ '>' :: c'.rest)) := by
  obtain ⟨_, opened, first, found⟩ := bind_eq_some.mp found
  obtain ⟨_, typed, second, found⟩ := bind_eq_some.mp found
  obtain ⟨name, named, third, found⟩ := bind_eq_some.mp found
  obtain ⟨_, last, fourth, found⟩ := bind_eq_some.mp found
  obtain ⟨rfl, rfl⟩ := Prod.mk.inj (Option.some.inj found)
  have text : r = _ := (between_literal first).1
  obtain ⟨n, rfl, text₃, _⟩ := identifier_eq_some third
  have text₄ := (between_literal fourth).1
  rcases option_eq_some second with ⟨_, second⟩ | rfl
  · obtain ⟨_, mid, second, colon⟩ := bind_eq_some.mp second
    obtain ⟨t, known, text₂⟩ := reads _ _ _ second
    refine ⟨n, t ++ [':'], rfl, .inr ⟨t, known, rfl⟩, ?_⟩
    rw [text, text₂, (between_literal colon).1, text₃, text₄]
    simp
  · exact ⟨n, [], rfl, .inl rfl, by rw [text, text₃, text₄]; rfl⟩

theorem angled_shape {convertible : Scanner Unit} (reads : ReadsName convertible)
    (found : angled convertible ⟨b, r⟩ = some (a, c')) :
    ∃ (n : Identifier) (type : Text), a = n.text ∧
      (type = [] ∨ ∃ t : Identifier, type = t.text ++ [':']) ∧
        r = '<' :: (type ++ (n.text ++ '>' :: c'.rest)) := by
  have texts : ∀ c u c', convertible c = some (u, c') →
      ∃ t, (∃ n : Identifier, t = n.text) ∧ c.rest = t ++ c'.rest := by
    intro c u c' found
    obtain ⟨t, text⟩ := reads c u c' found
    exact ⟨t.text, ⟨t, rfl⟩, text⟩
  obtain ⟨n, type, name, typed, text⟩ := angled_shape_of texts found
  refine ⟨n, type, name, typed.imp_right ?_, text⟩
  rintro ⟨_, ⟨t, rfl⟩, same⟩
  exact ⟨t, same⟩

theorem braced_shape (found : braced ⟨b, r⟩ = some (a, c')) :
    ∃ (n : Identifier) (stars mark bound : Text), a = n.text ∧
      (stars = [] ∨ stars = ['*'] ∨ stars = ['*', '*']) ∧ (mark = [] ∨ mark = ['?']) ∧
        (bound = [] ∨ ∃ w, bound = ':' :: w ∧ '}' ∉ w) ∧
          r = '{' :: (stars ++ (n.text ++ (mark ++ (bound ++ '}' :: c'.rest)))) := by
  obtain ⟨_, opened, first, found⟩ := bind_eq_some.mp found
  obtain ⟨_, once, second, found⟩ := bind_eq_some.mp found
  obtain ⟨_, twice, third, found⟩ := bind_eq_some.mp found
  obtain ⟨name, named, fourth, found⟩ := bind_eq_some.mp found
  obtain ⟨_, marked, fifth, found⟩ := bind_eq_some.mp found
  obtain ⟨_, bounded, sixth, found⟩ := bind_eq_some.mp found
  obtain ⟨_, last, seventh, found⟩ := bind_eq_some.mp found
  obtain ⟨rfl, rfl⟩ := Prod.mk.inj (Option.some.inj found)
  have text : r = _ := (between_literal first).1
  obtain ⟨star, one, text₂⟩ := option_literal_eq_some second
  obtain ⟨star', two, text₃⟩ := option_literal_eq_some third
  obtain ⟨n, rfl, text₄, _⟩ := identifier_eq_some fourth
  obtain ⟨mark, question, text₅⟩ := option_literal_eq_some fifth
  obtain ⟨bound, constraint, text₆⟩ : ∃ bound, (bound = [] ∨ ∃ w, bound = ':' :: w ∧ '}' ∉ w) ∧
      marked.rest = bound ++ bounded.rest := by
    rcases option_eq_some sixth with ⟨w, sixth⟩ | rfl
    · obtain ⟨_, mid, colon, sixth⟩ := bind_eq_some.mp sixth
      obtain ⟨inside, _, text₆⟩ := run_eq_some sixth
      refine ⟨':' :: w, .inr ⟨w, rfl, fun h => absurd (inside _ h) (by decide)⟩, ?_⟩
      rw [(between_literal colon).1, text₆]
      rfl
    · exact ⟨[], .inl rfl, rfl⟩
  refine ⟨n, star ++ star', mark, bound, rfl, ?_, question, constraint, ?_⟩
  · rcases one with rfl | rfl <;> rcases two with rfl | rfl <;> simp
  · rw [text, text₂, text₃, text₄, text₅, text₆, (between_literal seventh).1]
    simp

theorem colon_shape (found : colon ⟨b, r⟩ = some (a, c')) :
    ∃ n : Identifier, a = n.text ∧ (∀ x ∈ b, Text.isWord x = false ∧ x ≠ '{') ∧
      Stops Text.isIdentifier c'.rest ∧ r = ':' :: (n.text ++ c'.rest) := by
  obtain ⟨_, here, first, found⟩ := bind_eq_some.mp found
  obtain ⟨_, opened, second, third⟩ := bind_eq_some.mp found
  obtain ⟨n, rfl, text, stop⟩ := identifier_eq_some third
  unfold check at first
  split at first
  · rename_i free
    obtain ⟨_, rfl⟩ := Prod.mk.inj (Option.some.inj first)
    have text' : r = _ := (between_literal second).1
    refine ⟨n, rfl, ?_, stop, by rw [text', text]; rfl⟩
    rintro x rfl
    simpa using free
  · cases first

theorem colonMarked_shape (found : colonMarked ⟨b, r⟩ = some (a, c')) :
    ∃ (n : Identifier) (mark : Text), a = n.text ∧ (mark = [] ∨ mark = ['?']) ∧
      r = ':' :: (n.text ++ (mark ++ c'.rest)) := by
  obtain ⟨name, mid, first, found⟩ := bind_eq_some.mp found
  obtain ⟨_, last, second, found⟩ := bind_eq_some.mp found
  obtain ⟨rfl, rfl⟩ := Prod.mk.inj (Option.some.inj found)
  obtain ⟨n, rfl, _, _, text⟩ := colon_shape first
  obtain ⟨mark, question, text'⟩ := option_literal_eq_some second
  exact ⟨n, mark, rfl, question, by rw [text, text']⟩

theorem catchAll_shape {u : Unit} (found : catchAll ⟨b, r⟩ = some (u, c')) :
    ∃ w : Text, (w = "(.*)" ∨ w = "(.+)") ∧ r = w ++ c'.rest := by
  obtain ⟨w, mid, first, found⟩ := bind_eq_some.mp found
  obtain ⟨_, rfl⟩ := Prod.mk.inj (Option.some.inj found)
  exact ⟨w, by simpa using mem_of_oneOf first, (between_oneOf first).1⟩

end RouteAtlas.Route
