import RouteAtlas.Proofs.Scanner.Places

/-!
# Replacing what is found

What stays of a text in which the finds of a scanner are replaced. A replacement is a part of the
new text, a stretch that no find touches stays (`infix_spelled_of_avoids`), and where a find has
more characters of some class than its replacement the class tells whether anything was replaced
(`countP_spelled`).
-/

namespace RouteAtlas.Scanner

variable {s : Scanner Text} {b : Option Char} {t w : Text}

theorem infix_spelled_of_mem_finds {a : Text} {ps : List (Piece Text)} (h : a ∈ finds ps) :
    a <:+: spelled ps := by
  induction ps with
  | nil => cases h
  | cons p ps ih =>
    cases p with
    | plain c => exact (ih h).trans (List.suffix_cons c _).isInfix
    | found a' =>
      rcases List.mem_cons.mp h with rfl | h
      · exact (List.prefix_append a _).isInfix
      · exact (ih h).trans (List.suffix_append a' _).isInfix

/-- A text in which whatever fits is written as its replacement does not change. -/
theorem spelled_eq_self (consumes : Consumes s)
    (same : ∀ u r a c', t = u ++ r → s ⟨u.getLast?.or b, r⟩ = some (a, c') → r = a ++ c'.rest) :
    spelled (piecesAt s ⟨b, t⟩) = t := by
  revert same
  refine piecesAt_induction consumes (motive := fun b t ps =>
    (∀ u r a c', t = u ++ r → s ⟨u.getLast?.or b, r⟩ = some (a, c') → r = a ++ c'.rest) →
      spelled ps = t) ?_ ?_ ?_ b t
  · exact fun _ _ => rfl
  · intro b x t _ ih same
    refine congrArg (x :: ·) (ih fun u r a c' text found => ?_)
    exact same (x :: u) r a c' (congrArg (x :: ·) text) (by rwa [getLast?_cons_or])
  · intro b w a t _ found ih same
    have here : w ++ t = a ++ t := same [] _ a _ rfl found
    rw [here]
    refine congrArg (a ++ ·) (ih fun u r a' c' text found' => ?_)
    exact same (w ++ u) r a' c' (by rw [text, List.append_assoc]) (by rwa [getLast?_append_or])

theorem mem_spelled {x : Char} {ps : List (Piece Text)} (h : x ∈ spelled ps) :
    Piece.plain x ∈ ps ∨ ∃ a ∈ finds ps, x ∈ a := by
  obtain ⟨p, member, inside⟩ := List.mem_flatMap.mp h
  cases p with
  | plain c =>
    obtain rfl := List.mem_singleton.mp inside
    exact .inl member
  | found a => exact .inr ⟨a, List.mem_filterMap.mpr ⟨_, member, rfl⟩, inside⟩

theorem mem_of_plain {α : Type} {s : Scanner α} {x : Char} (consumes : Consumes s)
    (h : Piece.plain x ∈ piecesAt s ⟨b, t⟩) : x ∈ t := by
  revert h
  refine piecesAt_induction consumes (motive := fun _ t ps => Piece.plain x ∈ ps → x ∈ t)
    ?_ ?_ ?_ b t
  · exact fun _ h => absurd h List.not_mem_nil
  · intro b y t _ ih h
    rcases List.mem_cons.mp h with same | h
    · obtain rfl := Piece.plain.inj same
      exact List.mem_cons_self
    · exact List.mem_cons_of_mem y (ih h)
  · intro b w a t _ _ ih h
    rcases List.mem_cons.mp h with same | h
    · cases same
    · exact List.mem_append_right w (ih h)

theorem spelled_of_finds_eq_nil (consumes : Consumes s) (none : finds (piecesAt s ⟨b, t⟩) = []) :
    spelled (piecesAt s ⟨b, t⟩) = t :=
  spelled_eq_self consumes fun u r a c' text found =>
    absurd ⟨u, r, c', text, found⟩ ((finds_eq_nil_iff consumes).mp none a)

/-! ### What no find touches -/

def Avoids {α : Type} (s : Scanner α) (y : Char) : Prop :=
  ∀ c a c', s c = some (a, c') → ∃ w, y ∉ w ∧ c.rest = w ++ c'.rest

theorem avoids_map {α β : Type} {s : Scanner α} {g : α → β} {y : Char} (h : Avoids s y) :
    Avoids (g <$> s) y := by
  intro c a c' found
  obtain ⟨a, found, _⟩ := map_eq_some.mp found
  exact h c a c' found

/-- The text is cut in front of a character that no find holds. -/
theorem exists_cut {α : Type} {s : Scanner α} (consumes : Consumes s) {y : Char}
    (avoids : Avoids s y) (b : Option Char) (u r : Text) :
    ∃ ps, piecesAt s ⟨b, u ++ y :: r⟩ = ps ++ piecesAt s ⟨u.getLast?.or b, y :: r⟩ := by
  refine piecesAt_induction consumes (motive := fun b t ps => ∀ u, t = u ++ y :: r →
    ∃ qs, ps = qs ++ piecesAt s ⟨u.getLast?.or b, y :: r⟩) ?_ ?_ ?_ b _ u rfl
  · intro b u text
    exact absurd text (by simp)
  · intro b x t none ih u text
    cases u with
    | nil =>
      rw [← piecesAt_of_none none, text]
      exact ⟨[], rfl⟩
    | cons z u =>
      obtain ⟨rfl, tail⟩ := List.cons.inj text
      obtain ⟨qs, same⟩ := ih u tail
      exact ⟨.plain x :: qs, by rw [same, getLast?_cons_or]; rfl⟩
  · intro b w a t nonempty found ih u text
    obtain ⟨v, free, read⟩ := avoids _ a _ found
    obtain rfl : w = v := List.append_cancel_right read
    obtain ⟨u', rfl, rest⟩ := beyond_of_notMem free text rfl
    obtain ⟨qs, same⟩ := ih u' rest
    exact ⟨.found a :: qs, by rw [same, getLast?_append_or]; rfl⟩

/-- A stretch that begins with a character no find holds and does not hold the opening character
stays. -/
theorem infix_spelled_of_avoids (consumes : Consumes s) {x y : Char} (opens : Opens s x)
    (avoids : Avoids s y) (free : x ∉ y :: w) (h : y :: w <:+: t) :
    y :: w <:+: spelled (piecesAt s ⟨b, t⟩) := by
  obtain ⟨u, v, rfl⟩ := h
  obtain ⟨ps, cut⟩ := exists_cut consumes avoids b u (w ++ v)
  have pass := piecesAt_pass (b := u.getLast?.or b) opens (fun z hz e => free (e ▸ hz)) v
  rw [List.append_assoc]
  rw [List.cons_append] at pass ⊢
  rw [cut, pass, spelled_append, spelled_append, spelled_plain]
  exact ⟨_, _, List.append_assoc _ _ _⟩

/-! ### Counting -/

/-- Where each find is written as its replacement or has more characters of a class, so has the
text. -/
theorem countP_spelled (consumes : Consumes s) {p : Char → Bool}
    (less : ∀ b w a r, s ⟨b, w ++ r⟩ = some (a, ⟨w.getLast?.or b, r⟩) →
      a = w ∨ a.countP p < w.countP p) (b : Option Char) (t : Text) :
    spelled (piecesAt s ⟨b, t⟩) = t ∨ (spelled (piecesAt s ⟨b, t⟩)).countP p < t.countP p := by
  refine piecesAt_induction consumes (motive := fun _ t ps =>
    spelled ps = t ∨ (spelled ps).countP p < t.countP p) ?_ ?_ ?_ b t
  · exact fun _ => .inl rfl
  · intro b x t _ ih
    refine ih.imp (congrArg (x :: ·)) fun fewer => ?_
    change (x :: spelled _).countP p < _
    rw [List.countP_cons, List.countP_cons]
    omega
  · intro b w a t _ found ih
    change a ++ spelled _ = _ ∨ (a ++ spelled _).countP p < _
    rw [List.countP_append, List.countP_append]
    rcases less b w a t found with rfl | fewer
    · exact ih.imp (congrArg (a ++ ·)) fun rest => by omega
    · refine .inr ?_
      rcases ih with same | rest
      · rw [same]
        omega
      · omega

/-- Each find with more characters of a class than its replacement takes one from the text. -/
theorem countP_spelled_add (consumes : Consumes s) {p : Char → Bool}
    (less : ∀ b w a r, s ⟨b, w ++ r⟩ = some (a, ⟨w.getLast?.or b, r⟩) → a.countP p < w.countP p)
    (b : Option Char) (t : Text) :
    (spelled (piecesAt s ⟨b, t⟩)).countP p + (finds (piecesAt s ⟨b, t⟩)).length ≤ t.countP p := by
  refine piecesAt_induction consumes (motive := fun _ t ps =>
    (spelled ps).countP p + (finds ps).length ≤ t.countP p) ?_ ?_ ?_ b t
  · exact fun _ => Nat.le_refl 0
  · intro b x t _ ih
    have same : finds (.plain x :: piecesAt s ⟨some x, t⟩) = finds (piecesAt s ⟨some x, t⟩) := rfl
    change (x :: spelled _).countP p + _ ≤ _
    rw [same, List.countP_cons, List.countP_cons]
    omega
  · intro b w a t _ found ih
    change (a ++ spelled _).countP p + (finds _).length + 1 ≤ _
    rw [List.countP_append, List.countP_append]
    have fewer := less b w a t found
    omega

/-- Where the text does not change, its first find is written as its replacement. -/
theorem eq_of_spelled_append {p : Char → Bool} {a : Text} (consumes : Consumes s)
    (less : ∀ b w a r, s ⟨b, w ++ r⟩ = some (a, ⟨w.getLast?.or b, r⟩) →
      a = w ∨ a.countP p < w.countP p)
    (found : s ⟨b, w ++ t⟩ = some (a, ⟨w.getLast?.or b, t⟩))
    (same : a ++ spelled (piecesAt s ⟨w.getLast?.or b, t⟩) = w ++ t) : a = w := by
  refine (less b w a t found).resolve_right fun fewer => ?_
  have count := congrArg (List.countP p) same
  rw [List.countP_append, List.countP_append] at count
  rcases countP_spelled consumes less (w.getLast?.or b) t with rest | rest
  · rw [rest] at count
    omega
  · omega

/-- A text that does not change is written plainly wherever something fits, provided that what fits
begins with the opening character and its replacement has no second one. -/
theorem eq_append_of_spelled_eq (consumes : Consumes s) {x : Char} (opens : Opens s x)
    {p : Char → Bool}
    (less : ∀ b w a r, s ⟨b, w ++ r⟩ = some (a, ⟨w.getLast?.or b, r⟩) →
      a = w ∨ a.countP p < w.countP p)
    (front : ∀ c a c', s c = some (a, c') → ∃ a', a = x :: a' ∧ x ∉ a')
    (same : spelled (piecesAt s ⟨b, t⟩) = t) :
    ∀ u r a c', t = u ++ r → s ⟨u.getLast?.or b, r⟩ = some (a, c') → r = a ++ c'.rest := by
  revert same
  refine piecesAt_induction consumes (motive := fun b t ps => spelled ps = t →
    ∀ u r a c', t = u ++ r → s ⟨u.getLast?.or b, r⟩ = some (a, c') → r = a ++ c'.rest)
    ?_ ?_ ?_ b t
  · intro b _ u r a c' text found
    obtain ⟨rfl, rfl⟩ := List.append_eq_nil_iff.mp text.symm
    exact absurd (length_lt_of_consumes consumes found) (Nat.not_lt_zero _)
  · intro b y t none ih same u r a c' text found
    cases u with
    | nil =>
      obtain rfl : y :: t = r := text
      rw [show (([] : Text).getLast?.or b) = b from rfl, none] at found
      cases found
    | cons z u =>
      obtain ⟨rfl, tail⟩ := List.cons.inj text
      rw [getLast?_cons_or] at found
      exact ih (List.cons.inj same).2 u r a c' tail found
  · intro b w a t _ found ih same u r a' c' text found'
    -- This find is plain, so the text behind it does not change either; and what fits inside of the
    -- find is the find itself, because its text has only one opening character.
    obtain rfl := eq_of_spelled_append consumes less found same
    obtain ⟨v, rfl, free⟩ := front _ _ _ found
    cases u with
    | nil =>
      obtain rfl : x :: v ++ t = r := text
      rw [show (([] : Text).getLast?.or b) = b from rfl, found] at found'
      obtain ⟨rfl, rfl⟩ := Prod.mk.inj (Option.some.inj found')
      rfl
    | cons y u =>
      obtain ⟨rfl, tail⟩ := List.cons.inj text
      obtain ⟨u', rfl, rest⟩ := beyond_of_notMem free tail (head?_of_opens consumes opens found')
      rw [← List.cons_append, getLast?_append_or] at found'
      exact ih (List.append_cancel_left same) u' r a' c' rest found'

end RouteAtlas.Scanner
