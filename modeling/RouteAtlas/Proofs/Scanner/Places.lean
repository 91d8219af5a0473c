import RouteAtlas.Proofs.Scanner.Pieces

/-!
# Places of a text

`FitsAt` says that a scanner reads something at some place of a text. The finds are among what fits
(`fitsAt_of_mem_finds`), and they are all of it where what a find reads holds no second opening
character (`mem_finds_of_fitsAt`). Proofs about all pieces go through `piecesAt_induction`.
-/

namespace RouteAtlas.Scanner

variable {α : Type} {s : Scanner α} {b : Option Char} {t : Text}

theorem getLast?_append_or (u v : Text) (b : Option Char) :
    (u ++ v).getLast?.or b = v.getLast?.or (u.getLast?.or b) := by
  rw [List.getLast?_append, Option.or_assoc]

theorem getLast?_cons_or (x : Char) (u : Text) (b : Option Char) :
    (x :: u).getLast?.or b = u.getLast?.or (some x) := getLast?_append_or [x] u b

/-- The text at a place is passed over character by character and read find by find. -/
theorem piecesAt_induction (consumes : Consumes s)
    {motive : Option Char → Text → List (Piece α) → Prop} (stop : ∀ b, motive b [] [])
    (skip : ∀ b x t, s ⟨b, x :: t⟩ = none → motive (some x) t (piecesAt s ⟨some x, t⟩) →
      motive b (x :: t) (.plain x :: piecesAt s ⟨some x, t⟩))
    (find : ∀ b w a t, w ≠ [] → s ⟨b, w ++ t⟩ = some (a, ⟨w.getLast?.or b, t⟩) →
      motive (w.getLast?.or b) t (piecesAt s ⟨w.getLast?.or b, t⟩) →
      motive b (w ++ t) (.found a :: piecesAt s ⟨w.getLast?.or b, t⟩))
    (b : Option Char) (t : Text) : motive b t (piecesAt s ⟨b, t⟩) := by
  induction length : t.length using Nat.strongRecOn generalizing b t with
  | _ n ih =>
    subst length
    cases t with
    | nil => exact stop b
    | cons x t =>
      cases found : s ⟨b, x :: t⟩ with
      | none =>
        rw [piecesAt_of_none found]
        exact skip b x t found (ih t.length (by simp) (some x) t rfl)
      | some p =>
        obtain ⟨a, before, rest⟩ := p
        have shorter := length_lt_of_consumes consumes found
        obtain ⟨w, nonempty, text, behind⟩ := consumes _ _ _ found
        obtain rfl : before = w.getLast?.or b := behind
        have read := find b w a rest nonempty
        rw [piecesAt_of_some consumes found]
        change x :: t = w ++ rest at text
        rw [text] at found shorter ih ⊢
        exact read found (ih rest.length shorter _ rest rfl)

theorem finds_map {β : Type} {g : α → β} (consumes : Consumes s) (b : Option Char) (t : Text) :
    finds (piecesAt (g <$> s) ⟨b, t⟩) = (finds (piecesAt s ⟨b, t⟩)).map g := by
  refine piecesAt_induction consumes (motive := fun b t ps =>
    finds (piecesAt (g <$> s) ⟨b, t⟩) = (finds ps).map g) ?_ ?_ ?_ b t
  · exact fun _ => rfl
  · intro b x t none ih
    rw [piecesAt_of_none (by rw [map_apply, none]; rfl)]
    exact ih
  · intro b w a t _ found ih
    have found' : (g <$> s) ⟨b, w ++ t⟩ = some (g a, ⟨w.getLast?.or b, t⟩) := by
      rw [map_apply, found]
      rfl
    rw [piecesAt_of_some (consumes_map consumes) found']
    exact congrArg (g a :: ·) ih

/-- Where reading sees nothing of `v`, the pieces of a text with `v` behind it are its own pieces and
those of `v`. -/
theorem piecesAt_append (consumes : Consumes s) {v : Text} {P : Text → Prop}
    (tail : ∀ w t, P (w ++ t) → P t)
    (same : ∀ b t, P t →
      s ⟨b, t ++ v⟩ = (s ⟨b, t⟩).map fun p => (p.1, ⟨p.2.before, p.2.rest ++ v⟩))
    (b : Option Char) (h : P t) :
    piecesAt s ⟨b, t ++ v⟩ = piecesAt s ⟨b, t⟩ ++ piecesAt s ⟨t.getLast?.or b, v⟩ := by
  revert h
  refine piecesAt_induction consumes (motive := fun b t ps => P t →
    piecesAt s ⟨b, t ++ v⟩ = ps ++ piecesAt s ⟨t.getLast?.or b, v⟩) ?_ ?_ ?_ b t
  · exact fun _ _ => rfl
  · intro b x t none ih h
    have here := same b (x :: t) h
    rw [none, List.cons_append] at here
    rw [List.cons_append, piecesAt_of_none here, ih (tail [x] t h), getLast?_cons_or]
    rfl
  · intro b w a t _ found ih h
    have here := same b (w ++ t) h
    rw [found] at here
    rw [piecesAt_of_some consumes here, getLast?_append_or]
    exact congrArg (_ :: ·) (ih (tail w t h))

/-! ### What fits -/

/-- The scanner reads `a` at some place of the text, which starts behind `b`. -/
def FitsAt (s : Scanner α) (b : Option Char) (t : Text) (a : α) : Prop :=
  ∃ u r c', t = u ++ r ∧ s ⟨u.getLast?.or b, r⟩ = some (a, c')

theorem fitsAt_append {a : α} (w : Text) (h : FitsAt s (w.getLast?.or b) t a) :
    FitsAt s b (w ++ t) a := by
  obtain ⟨u, r, c', rfl, found⟩ := h
  exact ⟨w ++ u, r, c', (List.append_assoc w u r).symm, by rwa [getLast?_append_or]⟩

theorem fitsAt_of_mem_finds (consumes : Consumes s) {a : α} (h : a ∈ finds (piecesAt s ⟨b, t⟩)) :
    FitsAt s b t a := by
  revert h
  refine piecesAt_induction consumes (motive := fun b t ps => a ∈ finds ps → FitsAt s b t a)
    ?_ ?_ ?_ b t
  · exact fun _ h => absurd h List.not_mem_nil
  · exact fun b x t _ ih h => fitsAt_append [x] (ih h)
  · intro b w a' t _ found ih h
    rcases List.mem_cons.mp h with rfl | h
    · exact ⟨[], _, _, rfl, found⟩
    · exact fitsAt_append w (ih h)

theorem fitsAt_mono {s' : Scanner α} {a : α}
    (reads : ∀ c c', s c = some (a, c') → ∃ c'', s' c = some (a, c'')) (h : FitsAt s b t a) :
    FitsAt s' b t a := by
  obtain ⟨u, r, c', text, found⟩ := h
  obtain ⟨c'', found'⟩ := reads _ _ found
  exact ⟨u, r, c'', text, found'⟩

/-- Nothing is found exactly where nothing fits. -/
theorem finds_eq_nil_iff (consumes : Consumes s) :
    finds (piecesAt s ⟨b, t⟩) = [] ↔ ∀ a, ¬FitsAt s b t a := by
  constructor
  · refine piecesAt_induction consumes
      (motive := fun b t ps => finds ps = [] → ∀ a, ¬FitsAt s b t a) ?_ ?_ ?_ b t
    · rintro b _ a ⟨u, r, c', text, found⟩
      obtain ⟨rfl, rfl⟩ := List.append_eq_nil_iff.mp text.symm
      exact absurd (length_lt_of_consumes consumes found) (Nat.not_lt_zero _)
    · rintro b x t none ih empty a ⟨u, r, c', text, found⟩
      cases u with
      | nil =>
        obtain rfl : x :: t = r := text
        rw [show (([] : Text).getLast?.or b) = b from rfl, none] at found
        cases found
      | cons y u =>
        obtain ⟨rfl, rfl⟩ := List.cons.inj text
        exact ih empty a ⟨u, r, c', rfl, by rwa [getLast?_cons_or] at found⟩
    · intro b w a t _ _ _ empty
      cases empty
  · intro none
    exact List.eq_nil_iff_forall_not_mem.mpr fun a member =>
      none a (fitsAt_of_mem_finds consumes member)

theorem findAll_eq_nil_iff (consumes : Consumes s) :
    s.findAll t = [] ↔ ∀ a, ¬FitsAt s none t a := finds_eq_nil_iff consumes

theorem occursIn_iff (consumes : Consumes s) :
    s.occursIn t = true ↔ ∃ a, FitsAt s none t a := by
  rw [occursIn, Bool.not_eq_true', List.isEmpty_eq_false_iff, Ne, findAll_eq_nil_iff consumes,
    Classical.not_forall_not]

/-- A place at which `x` stands does not lie in a stretch without `x`. -/
theorem beyond_of_notMem {x : Char} {w u r : Text} (free : x ∉ w) (text : w ++ t = u ++ r)
    (opens : r.head? = some x) : ∃ u', u = w ++ u' ∧ t = u' ++ r := by
  rcases List.append_eq_append_iff.mp text with ⟨u', rfl, rest⟩ | ⟨r', rfl, rfl⟩
  · exact ⟨u', rfl, rest⟩
  · cases r' with
    | nil => exact ⟨[], by simp, rfl⟩
    | cons z r' =>
      obtain rfl : z = x := Option.some.inj opens
      exact absurd (List.mem_append_right u List.mem_cons_self) free

/-- A place at which `x` stands lies before a stretch without `x`. -/
theorem within_of_notMem {x : Char} {w r v : Text} (free : x ∉ v) (text : t ++ v = w ++ x :: r) :
    ∃ r', t = w ++ x :: r' ∧ r = r' ++ v := by
  rcases List.append_eq_append_iff.mp text with ⟨d, _, rest⟩ | ⟨d, inner, rest⟩
  · exact absurd (rest ▸ List.mem_append_right d List.mem_cons_self) free
  · cases d with
    | nil =>
      obtain rfl : x :: r = v := rest
      exact absurd List.mem_cons_self free
    | cons y d =>
      obtain ⟨rfl, tail⟩ := List.cons.inj rest
      exact ⟨d, inner, tail⟩

/-- Where the opening character stands only at the front of what is read, reads do not overlap, so
whatever fits is found. -/
theorem mem_finds_of_fitsAt (consumes : Consumes s) {x : Char}
    (once : ∀ u r a c', t = u ++ r → s ⟨u.getLast?.or b, r⟩ = some (a, c') →
      ∃ w, x ∉ w ∧ r = x :: w ++ c'.rest) {a : α} (h : FitsAt s b t a) :
    a ∈ finds (piecesAt s ⟨b, t⟩) := by
  revert once h
  refine piecesAt_induction consumes (motive := fun b t ps =>
    (∀ u r a c', t = u ++ r → s ⟨u.getLast?.or b, r⟩ = some (a, c') →
      ∃ w, x ∉ w ∧ r = x :: w ++ c'.rest) → FitsAt s b t a → a ∈ finds ps) ?_ ?_ ?_ b t
  · rintro b - ⟨u, r, c', text, found⟩
    obtain ⟨rfl, rfl⟩ := List.append_eq_nil_iff.mp text.symm
    exact absurd (length_lt_of_consumes consumes found) (Nat.not_lt_zero _)
  · rintro b y t none ih once ⟨u, r, c', text, found⟩
    cases u with
    | nil =>
      obtain rfl : y :: t = r := text
      rw [show (([] : Text).getLast?.or b) = b from rfl, none] at found
      cases found
    | cons z u =>
      obtain ⟨rfl, rfl⟩ := List.cons.inj text
      refine ih (fun u' r' a' c'' text' found' => ?_)
        ⟨u, r, c', rfl, by rwa [getLast?_cons_or] at found⟩
      exact once (y :: u') r' a' c'' (congrArg (y :: ·) text') (by rwa [getLast?_cons_or])
  · -- What fits is this find, or it begins behind it: inside there is no opening character.
    rintro b w a' t nonempty found' ih once ⟨u, r, c', text, found⟩
    obtain ⟨v, free, whole⟩ := once [] _ a' _ rfl found'
    obtain rfl : w = x :: v := List.append_cancel_right whole
    obtain ⟨_, _, opens⟩ := once u r a c' text found
    cases u with
    | nil =>
      obtain rfl : x :: v ++ t = r := text
      rw [show (([] : Text).getLast?.or b) = b from rfl, found'] at found
      exact (Prod.mk.inj (Option.some.inj found)).1 ▸ List.mem_cons_self
    | cons y u =>
      obtain ⟨rfl, tail⟩ := List.cons.inj text
      obtain ⟨u', rfl, rest⟩ := beyond_of_notMem free tail (by rw [opens]; rfl)
      rw [← List.cons_append, getLast?_append_or] at found
      refine List.mem_cons_of_mem _ (ih (fun u'' r'' a'' c'' text'' found'' => ?_)
        ⟨u', r, c', rest, found⟩)
      exact once (x :: v ++ u'') r'' a'' c'' (by rw [text'', List.append_assoc])
        (by rwa [getLast?_append_or])

end RouteAtlas.Scanner
