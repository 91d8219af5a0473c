import RouteAtlas.Proofs.Scanner.Reading

/-!
# The pieces of a text

`piecesAt` cuts the text at a place into the finds of a scanner and the characters between them. For
a scanner that consumes, the bound on the number of pieces does not matter, so the pieces can be read
off one by one; `piecesAt_pass` passes over a stretch in which no find can begin.
-/

namespace RouteAtlas.Scanner

variable {α : Type} {s : Scanner α} {b : Option Char} {c : Cursor} {t : Text}

def finds (ps : List (Piece α)) : List α :=
  ps.filterMap fun
    | .plain _ => none
    | .found a => some a

/-- The text of pieces whose finds are texts. -/
def spelled (ps : List (Piece Text)) : Text :=
  ps.flatMap fun
    | .plain c => [c]
    | .found a => a

theorem findAll_eq_finds (s : Scanner α) (t : Text) : s.findAll t = finds (s.pieces t) := rfl

theorem substitute_eq_spelled (s : Scanner Text) (t : Text) :
    s.substitute t = spelled (s.pieces t) := rfl

theorem finds_append (ps qs : List (Piece α)) : finds (ps ++ qs) = finds ps ++ finds qs :=
  List.filterMap_append

theorem spelled_append (ps qs : List (Piece Text)) :
    spelled (ps ++ qs) = spelled ps ++ spelled qs := List.flatMap_append

@[simp] theorem finds_plain (t : Text) : finds (t.map Piece.plain : List (Piece α)) = [] := by
  induction t with
  | nil => rfl
  | cons x t ih => exact ih

@[simp] theorem spelled_plain (t : Text) : spelled (t.map .plain) = t := by
  induction t with
  | nil => rfl
  | cons x t ih => exact congrArg (x :: ·) ih

/-! ### Finds -/

theorem mem_finds_piecesGo {a : α} {fuel : Nat} (h : a ∈ finds (piecesGo s fuel c)) :
    ∃ mid mid', s mid = some (a, mid') := by
  induction fuel generalizing c with
  | zero => simp [piecesGo] at h
  | succ fuel ih =>
    obtain ⟨before, text⟩ := c
    cases text with
    | nil => cases h
    | cons x r =>
      rw [piecesGo] at h
      cases found : s ⟨before, x :: r⟩ with
      | none =>
        rw [found] at h
        exact ih h
      | some p =>
        obtain ⟨a', mid'⟩ := p
        rw [found] at h
        rcases List.mem_cons.mp h with rfl | h
        · exact ⟨_, mid', found⟩
        · exact ih h

theorem gives_findAll {P : α → Prop} (gives : Gives s P) {a : α} (h : a ∈ s.findAll t) : P a := by
  obtain ⟨mid, mid', found⟩ := mem_finds_piecesGo h
  exact gives mid a mid' found

/-! ### Pieces at a place -/

def piecesAt (s : Scanner α) (c : Cursor) : List (Piece α) := piecesGo s c.rest.length c

theorem pieces_eq_piecesAt (s : Scanner α) (t : Text) : s.pieces t = piecesAt s ⟨none, t⟩ := rfl

theorem length_lt_of_consumes {a : α} {c' : Cursor} (consumes : Consumes s)
    (found : s c = some (a, c')) : c'.rest.length < c.rest.length := by
  obtain ⟨w, nonempty, text, _⟩ := consumes c a c' found
  rw [text, List.length_append]
  have : 0 < w.length := List.length_pos_iff.mpr nonempty
  omega

theorem piecesGo_fuel (consumes : Consumes s) {m n : Nat} (hm : c.rest.length ≤ m)
    (hn : c.rest.length ≤ n) : piecesGo s m c = piecesGo s n c := by
  induction m generalizing n c with
  | zero =>
    obtain ⟨before, text⟩ := c
    obtain rfl := List.eq_nil_of_length_eq_zero (Nat.le_zero.mp hm)
    cases n <;> rfl
  | succ m ih =>
    obtain ⟨before, text⟩ := c
    cases text with
    | nil => cases n <;> rfl
    | cons x r =>
      cases n with
      | zero => exact absurd hn (by simp)
      | succ n =>
        simp only [List.length_cons, Nat.add_le_add_iff_right] at hm hn
        rw [piecesGo, piecesGo]
        cases found : s ⟨before, x :: r⟩ with
        | none => exact congrArg (_ :: ·) (ih hm hn)
        | some p =>
          have shorter := length_lt_of_consumes consumes found
          simp only [List.length_cons] at shorter
          exact congrArg (_ :: ·) (ih (by omega) (by omega))

@[simp] theorem piecesAt_end : piecesAt s ⟨b, []⟩ = [] := rfl

theorem piecesAt_of_none {x : Char} (h : s ⟨b, x :: t⟩ = none) :
    piecesAt s ⟨b, x :: t⟩ = .plain x :: piecesAt s ⟨some x, t⟩ := by
  unfold piecesAt
  rw [List.length_cons, piecesGo, h]

theorem finds_of_none {x : Char} (h : s ⟨b, x :: t⟩ = none) :
    finds (piecesAt s ⟨b, x :: t⟩) = finds (piecesAt s ⟨some x, t⟩) := by
  rw [piecesAt_of_none h]
  rfl

theorem piecesAt_of_some (consumes : Consumes s) {a : α} {c' : Cursor}
    (found : s c = some (a, c')) : piecesAt s c = .found a :: piecesAt s c' := by
  have shorter := length_lt_of_consumes consumes found
  obtain ⟨before, text⟩ := c
  cases text with
  | nil => exact absurd shorter (Nat.not_lt_zero _)
  | cons x r =>
    unfold piecesAt
    rw [List.length_cons, piecesGo, found]
    simp only [List.length_cons] at shorter
    exact congrArg (_ :: ·) (piecesGo_fuel consumes (by omega) (Nat.le_refl _))

/-- Only the first read sees what stands before the place. -/
theorem piecesAt_congr {b' : Option Char} (h : s ⟨b, t⟩ = s ⟨b', t⟩) :
    piecesAt s ⟨b, t⟩ = piecesAt s ⟨b', t⟩ := by
  cases t with
  | nil => rfl
  | cons x t =>
    unfold piecesAt
    rw [List.length_cons, piecesGo, piecesGo, h]

/-! ### Where finds begin -/

/-- A find begins with the character `x`. -/
def Opens (s : Scanner α) (x : Char) : Prop :=
  ∀ b y r, y ≠ x → s ⟨b, y :: r⟩ = none

theorem head?_of_opens {x : Char} {r : Text} {a : α} {c' : Cursor} (consumes : Consumes s)
    (opens : Opens s x) (found : s ⟨b, r⟩ = some (a, c')) : r.head? = some x := by
  cases r with
  | nil => exact absurd (length_lt_of_consumes consumes found) (Nat.not_lt_zero _)
  | cons y r =>
    refine congrArg some (Decidable.byContradiction fun different => ?_)
    rw [opens b y r different] at found
    cases found

theorem opens_literal (x : Char) (w : Text) : Opens (literal (x :: w)) x := by
  intro b y r different
  rw [literal_cons, if_neg different.symm]

theorem opens_bind {β : Type} {f : α → Scanner β} {x : Char} (h : Opens s x) :
    Opens (s >>= f) x := by
  intro b y r different
  rw [bind_apply, h b y r different]
  rfl

theorem opens_check_bind {β : Type} {p : Cursor → Bool} {f : Unit → Scanner β} {x : Char}
    (h : Opens (f ()) x) : Opens (check p >>= f) x := by
  intro b y r different
  rw [bind_apply, check]
  split
  · exact h b y r different
  · rfl

theorem opens_map {β : Type} {g : α → β} {x : Char} (h : Opens s x) : Opens (g <$> s) x := by
  intro b y r different
  rw [map_apply, h b y r different]
  rfl

/-- A stretch without the opening character is passed over. -/
theorem piecesAt_pass {x : Char} (opens : Opens s x) {w : Text} (other : ∀ y ∈ w, y ≠ x)
    (rest : Text) :
    piecesAt s ⟨b, w ++ rest⟩ = w.map .plain ++ piecesAt s ⟨w.getLast?.or b, rest⟩ := by
  induction w generalizing b with
  | nil => rfl
  | cons y w ih =>
    have skip := piecesAt_of_none (opens b y (w ++ rest) (other y List.mem_cons_self))
    rw [List.cons_append, skip, ih fun z hz => other z (List.mem_cons_of_mem y hz), List.map_cons,
      List.cons_append]
    cases w <;> simp [List.getLast?_cons]

end RouteAtlas.Scanner
