import RouteAtlas.Proofs.Scanner.Quoted

/-!
# Texts cut behind a character

What is found in a text that is cut behind the first `x`, compared with what is found in the whole. A
scanner that `Heeds` the character never reads past it. Where a scanner either does so or finds nothing
before the cut, `finds_cut` says that the finds of the cut text are those of the whole text behind which
the character is still to come.
-/

namespace RouteAtlas.Scanner

variable {α β : Type} {s : Scanner α} {b : Option Char} {t u r : Text} {x : Char}

/-- The same is read, up to a place before the cut. -/
inductive SameBefore (x : Char) (r : Text) :
    Option (α × Cursor) → Option (α × Cursor) → Prop where
  | none : SameBefore x r none none
  | some (a : α) (b : Option Char) {u : Text} (free : x ∉ u) :
      SameBefore x r (some (a, ⟨b, u ++ [x]⟩)) (some (a, ⟨b, u ++ x :: r⟩))

/-- The scanner sees nothing of what is behind the character. -/
def Heeds (x : Char) (s : Scanner α) : Prop :=
  ∀ b {u : Text} r, x ∉ u → SameBefore x r (s ⟨b, u ++ [x]⟩) (s ⟨b, u ++ x :: r⟩)

theorem heeds_pure (a : α) : Heeds x (pure a : Scanner α) := fun b _ _ free => .some a b free

theorem heeds_bind {f : α → Scanner β} (hs : Heeds x s) (hf : ∀ a, Heeds x (f a)) :
    Heeds x (s >>= f) := by
  intro b u r free
  have first := hs b r free
  rw [bind_apply, bind_apply]
  generalize s ⟨b, u ++ [x]⟩ = p at first
  generalize s ⟨b, u ++ x :: r⟩ = q at first
  cases first with
  | none => exact .none
  | some a b' free => exact hf a b' r free

theorem heeds_literal {w : Text} (other : x ∉ w) : Heeds x (literal w) := by
  intro b u r free
  have fails {v : Text} (h : ¬ w <+: u) : literal w ⟨b, u ++ x :: v⟩ = none :=
    eq_none_of_forall fun _ _ found => by
      obtain ⟨rest, text, _⟩ := literal_eq_some.mp found
      rcases List.append_eq_append_iff.mp text with ⟨d, whole, behind⟩ | ⟨d, whole, _⟩
      · cases d with
        | nil => exact h (whole ▸ by simp)
        | cons y d => exact other (whole ▸ (List.cons.inj behind).1 ▸ by simp)
      · exact h (whole ▸ List.prefix_append w d)
  by_cases found : w <+: u
  · obtain ⟨u', rfl⟩ := found
    rw [List.append_assoc, List.append_assoc, literal_append, literal_append]
    exact .some () _ fun h => free (List.mem_append_right w h)
  · rw [fails found, fails found]
    exact .none

theorem heeds_one {p : Char → Bool} (stop : p x = false) : Heeds x (one p) := by
  intro b u r free
  cases u with
  | nil =>
    rw [List.nil_append, List.nil_append, one_cons, one_cons, stop]
    exact .none
  | cons y u =>
    rw [List.cons_append, List.cons_append, one_cons, one_cons]
    split
    · exact .some y _ fun h => free (List.mem_cons_of_mem y h)
    · exact .none

theorem heeds_run {p : Char → Bool} (stop : p x = false) : Heeds x (run p) := by
  intro b u r free
  have inside : ∀ y ∈ u.takeWhile p, p y = true := List.all_eq_true.mp List.all_takeWhile
  have stops (v : Text) : Stops p (u.dropWhile p ++ x :: v) := by
    cases rest : u.dropWhile p with
    | nil => exact stops_cons.mpr stop
    | cons y d =>
      have first := List.head?_dropWhile_not p u
      rw [rest] at first
      exact stops_cons.mpr (by simpa using first)
  have split (v : Text) : u ++ x :: v = u.takeWhile p ++ (u.dropWhile p ++ x :: v) := by
    rw [← List.append_assoc, List.takeWhile_append_dropWhile]
  rw [split, split, run_append inside (stops _), run_append inside (stops _)]
  exact .some _ _ fun h => free ((List.dropWhile_suffix p).subset h)

theorem heeds_run1 {p : Char → Bool} (stop : p x = false) : Heeds x (run1 p) :=
  heeds_bind (heeds_one stop) fun _ => heeds_bind (heeds_run stop) fun _ => heeds_pure _

/-! ### Finds and what follows them -/

/-- What is read, with the text behind it. -/
def placed (s : Scanner α) : Scanner (α × Text) := do
  let a ← s
  let place ← get
  return (a, place.rest)

theorem placed_apply (s : Scanner α) (c : Cursor) :
    placed s c = (s c).map fun p => ((p.1, p.2.rest), p.2) := by
  show (s c).bind _ = _
  cases s c <;> rfl

theorem consumes_placed (consumes : Consumes s) : Consumes (placed s) := by
  intro c p c' found
  rw [placed_apply] at found
  obtain ⟨⟨a, mid⟩, read, same⟩ := Option.map_eq_some_iff.mp found
  obtain ⟨_, rfl⟩ := Prod.mk.inj same
  exact consumes c a mid read

theorem finds_placed (consumes : Consumes s) (b : Option Char) (t : Text) :
    (finds (piecesAt (placed s) ⟨b, t⟩)).map Prod.fst = finds (piecesAt s ⟨b, t⟩) := by
  have forget : Prod.fst <$> placed s = s := by
    funext c
    rw [map_apply, placed_apply]
    cases s c <;> rfl
  rw [← finds_map (consumes_placed consumes), forget]

/-- A find with the text behind it lies where the scanner reads it. -/
theorem mem_finds_placed (consumes : Consumes s) {p : α × Text}
    (h : p ∈ finds (piecesAt (placed s) ⟨b, t⟩)) :
    ∃ v w c', t = v ++ w ∧ s ⟨v.getLast?.or b, w⟩ = some (p.1, c') ∧ p.2 = c'.rest := by
  obtain ⟨v, w, c', text, found⟩ := fitsAt_of_mem_finds (consumes_placed consumes) h
  rw [placed_apply] at found
  obtain ⟨⟨a, mid⟩, read, same⟩ := Option.map_eq_some_iff.mp found
  obtain ⟨rfl, rfl⟩ := Prod.mk.inj same
  exact ⟨v, w, mid, text, read, rfl⟩

theorem length_le_of_mem_placed (consumes : Consumes s) {p : α × Text}
    (h : p ∈ finds (piecesAt (placed s) ⟨b, t⟩)) : p.2.length ≤ t.length := by
  obtain ⟨v, w, c', rfl, read, behind⟩ := mem_finds_placed consumes h
  have shorter := length_lt_of_consumes consumes read
  rw [behind, List.length_append]
  simp only at shorter
  omega

/-! ### The cut text -/

/-- The finds behind which the character is still to come. -/
def early (r : Text) (ps : List (α × Text)) : List α :=
  (ps.filter fun p => r.length < p.2.length).map Prod.fst

theorem early_eq_nil {ps : List (α × Text)} (h : ∀ p ∈ ps, p.2.length ≤ r.length) :
    early r ps = [] := by
  rw [early, List.map_eq_nil_iff, List.filter_eq_nil_iff]
  intro p member
  simpa using h p member

theorem early_cons (a : α) (u : Text) (ps : List (α × Text)) :
    early r ((a, u ++ x :: r) :: ps) = a :: early r ps := by
  have later : r.length < (u ++ x :: r).length := by simp; omega
  rw [early, List.filter_cons_of_pos (by simpa using later)]
  rfl

/-- None is lost only if the character is still to come behind all. -/
theorem early_eq_map_iff {ps : List (α × Text)} :
    early r ps = ps.map Prod.fst ↔ ∀ p ∈ ps, r.length < p.2.length := by
  constructor
  · intro same p member
    have full := congrArg List.length same
    rw [early, List.length_map, List.length_map] at full
    exact of_decide_eq_true (List.length_filter_eq_length_iff.mp full p member)
  · intro before
    rw [early, List.filter_eq_self.mpr fun p member => decide_eq_true (before p member)]

/-- Where the scanner reads the same before the cut, or else nothing, the finds of the cut text are the
early ones of the whole. -/
theorem finds_cut (consumes : Consumes s)
    (step : ∀ b u r, x ∉ u → SameBefore x r (s ⟨b, u ++ [x]⟩) (s ⟨b, u ++ x :: r⟩) ∨
      finds (piecesAt s ⟨b, u ++ [x]⟩) = [] ∧
        ∀ p ∈ finds (piecesAt (placed s) ⟨b, u ++ x :: r⟩), p.2.length ≤ r.length)
    (b : Option Char) (free : x ∉ u) (r : Text) :
    finds (piecesAt s ⟨b, u ++ [x]⟩) =
      early r (finds (piecesAt (placed s) ⟨b, u ++ x :: r⟩)) := by
  -- On the length: what stands behind a find that ends before the cut is itself a text with a cut.
  induction length : u.length using Nat.strongRecOn generalizing u b with
  | _ n ih =>
    subst length
    rcases step b u r free with same | ⟨nothing, beyond⟩
    · have there := placed_apply s ⟨b, u ++ x :: r⟩
      generalize cut : s ⟨b, u ++ [x]⟩ = p at same
      generalize s ⟨b, u ++ x :: r⟩ = q at same there
      cases same with
      | none =>
        cases u with
        | nil =>
          rw [List.nil_append] at cut there
          rw [List.nil_append, List.nil_append, piecesAt_of_none cut, piecesAt_of_none there]
          exact (early_eq_nil fun p member => length_le_of_mem_placed consumes member).symm
        | cons y u =>
          rw [List.cons_append] at cut there
          rw [List.cons_append, List.cons_append, piecesAt_of_none cut, piecesAt_of_none there]
          exact ih u.length (by simp) _ (fun h => free (List.mem_cons_of_mem y h)) rfl
      | @some a b' u' free' =>
        have shorter := length_lt_of_consumes consumes cut
        simp only [List.length_append, List.length_singleton] at shorter
        have later := ih u'.length (by omega) b' free' rfl
        rw [piecesAt_of_some consumes cut, piecesAt_of_some (consumes_placed consumes) there]
        exact (congrArg (a :: ·) later).trans (early_cons a u' _).symm
    · rw [nothing, early_eq_nil beyond]

end RouteAtlas.Scanner
