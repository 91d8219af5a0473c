import RouteAtlas.Proofs.Route.Placeholders
import RouteAtlas.Proofs.Scanner.Places
import RouteAtlas.Proofs.Text.Splitting

/-!
# Stretches between slashes

A scanner for placeholders can be followed from slash to slash: `Cuts` says how it cuts one stretch,
whatever stands beyond the slashes around it. `piecesAt_join` puts the stretches of a path together.
-/

namespace RouteAtlas.Route

open Scanner

variable {α : Type} {s : Scanner α} {b : Option Char} {w rest : Text}

/-- At the start of a text or behind a slash. -/
def AfterSlash (b : Option Char) : Prop := b = none ∨ b = some '/'

def BeforeSlash (t : Text) : Prop := t = [] ∨ ∃ r, t = '/' :: r

theorem stops_of_beforeSlash {p : Char → Bool} (slash : p '/' = false) (h : BeforeSlash rest) :
    Stops p rest := by
  rcases h with rfl | ⟨r, rfl⟩
  · exact stops_nil p
  · exact stops_cons.mpr slash

/-- The stretch `w` between slashes is cut into the pieces `ps`. -/
def Cuts (s : Scanner α) (w : Text) (ps : List (Piece α)) : Prop :=
  ∀ b rest, AfterSlash b → BeforeSlash rest →
    piecesAt s ⟨b, w ++ rest⟩ = ps ++ piecesAt s ⟨w.getLast?.or b, rest⟩

theorem cuts_of_free {x : Char} (opens : Opens s x) (free : x ∉ w) : Cuts s w (w.map .plain) :=
  fun _ rest _ _ => piecesAt_pass opens (fun _ hy e => free (e ▸ hy)) rest

/-- A find that ends where the stretch does is the only piece. -/
theorem cuts_of_find {a : α} (consumes : Consumes s)
    (found : ∀ b rest, AfterSlash b → BeforeSlash rest →
      ∃ l, s ⟨b, w ++ rest⟩ = some (a, ⟨l, rest⟩)) :
    Cuts s w [.found a] := by
  intro b rest hb hr
  obtain ⟨l, here⟩ := found b rest hb hr
  obtain ⟨v, _, text, before⟩ := consumes _ a _ here
  obtain rfl : w = v := List.append_cancel_right text
  rw [piecesAt_of_some consumes here]
  change l = w.getLast?.or b at before
  rw [before, List.singleton_append]

/-! ### Scanners that stay between slashes -/

/-- The scanner reads the same from a stretch whatever stands beyond the next slash. -/
def Stays (s : Scanner α) : Prop :=
  ∀ b w rest, '/' ∉ w → BeforeSlash rest →
    s ⟨b, w ++ rest⟩ = (s ⟨b, w⟩).map fun p => (p.1, ⟨p.2.before, p.2.rest ++ rest⟩)

theorem stays_pure (a : α) : Stays (pure a : Scanner α) := fun _ _ _ _ _ => rfl

theorem stays_bind {β : Type} {f : α → Scanner β} (reads : Reads s) (hs : Stays s)
    (hf : ∀ a, Stays (f a)) : Stays (s >>= f) := by
  intro b w rest free hr
  rw [bind_apply, bind_apply, hs b w rest free hr]
  cases first : s ⟨b, w⟩ with
  | none => rfl
  | some p =>
    obtain ⟨a, mid⟩ := p
    obtain ⟨v, text, _⟩ := reads _ a mid first
    have free' : '/' ∉ mid.rest := fun h => free (by
      change w = v ++ mid.rest at text
      rw [text]
      exact List.mem_append_right v h)
    exact hf a mid.before mid.rest rest free' hr

theorem stays_option (hs : Stays s) : Stays (option s) := by
  intro b w rest free hr
  have here := hs b w rest free hr
  unfold option
  rw [here]
  cases s ⟨b, w⟩ <;> rfl

theorem stays_one {p : Char → Bool} (slash : p '/' = false) : Stays (one p) := by
  intro b w rest _ hr
  cases w with
  | nil =>
    rcases hr with rfl | ⟨r, rfl⟩
    · rfl
    · rw [List.nil_append, one_cons, slash]
      rfl
  | cons x w =>
    rw [List.cons_append, one_cons, one_cons]
    cases p x <;> rfl

theorem stays_run {p : Char → Bool} (slash : p '/' = false) : Stays (run p) := by
  intro b w rest _ hr
  have stop : Stops p rest := stops_of_beforeSlash slash hr
  obtain ⟨v, r, rfl, inside, stop'⟩ : ∃ v r, w = v ++ r ∧ (∀ x ∈ v, p x = true) ∧ Stops p r := by
    refine ⟨w.takeWhile p, w.dropWhile p, List.takeWhile_append_dropWhile.symm,
      List.all_eq_true.mp List.all_takeWhile, fun x hx => ?_⟩
    have first := List.head?_dropWhile_not p w
    rw [Option.mem_def.mp hx] at first
    simpa using first
  have stop'' : Stops p (r ++ rest) := by
    cases r with
    | nil => exact stop
    | cons x r => exact stops_cons.mpr (stops_cons.mp stop')
  rw [List.append_assoc, run_append inside stop'', run_append inside stop']
  rfl

theorem stays_literal {x : Char} (other : x ≠ '/') : Stays (literal [x]) := by
  intro b w rest _ hr
  cases w with
  | nil =>
    rcases hr with rfl | ⟨r, rfl⟩
    · rfl
    · rw [List.nil_append, literal_cons, if_neg other]
      rfl
  | cons y w =>
    rw [List.cons_append, literal_cons, literal_cons]
    split <;> simp

theorem stays_run1 {p : Char → Bool} (slash : p '/' = false) : Stays (run1 p) :=
  stays_bind (reads_of_consumes (consumes_one p)) (stays_one slash) fun _ =>
    stays_bind (reads_run p) (stays_run slash) fun _ => stays_pure _

theorem stays_map {β : Type} {g : α → β} (reads : Reads s) (hs : Stays s) : Stays (g <$> s) :=
  stays_bind reads hs fun _ => stays_pure _

theorem piecesAt_stays (consumes : Consumes s) (stays : Stays s) (free : '/' ∉ w)
    (hr : BeforeSlash rest) :
    piecesAt s ⟨b, w ++ rest⟩ = piecesAt s ⟨b, w⟩ ++ piecesAt s ⟨w.getLast?.or b, rest⟩ :=
  piecesAt_append consumes (P := ('/' ∉ ·)) (fun w _ free h => free (List.mem_append_right w h))
    (fun b w free => stays b w rest free hr) b free

/-! ### Paths -/

theorem piecesAt_chunk_slash {x : Char} (opens : Opens s x) (other : x ≠ '/')
    {ps : List (Piece α)} (cuts : Cuts s w ps) (hb : AfterSlash b) (t : Text) :
    piecesAt s ⟨b, w ++ '/' :: t⟩ = ps ++ .plain '/' :: piecesAt s ⟨some '/', t⟩ := by
  rw [cuts b _ hb (.inr ⟨t, rfl⟩), piecesAt_of_none (opens _ _ _ other.symm)]

theorem piecesAt_chunk {ps : List (Piece α)} (cuts : Cuts s w ps) (hb : AfterSlash b) :
    piecesAt s ⟨b, w⟩ = ps := by
  have whole := cuts b [] hb (.inl rfl)
  rwa [List.append_nil, piecesAt_end, List.append_nil] at whole

/-- The stretches of a path are cut one after the other. -/
theorem piecesAt_join {ι : Type} {x : Char} (opens : Opens s x) (other : x ≠ '/') {l : List ι}
    {f : ι → Text} {ps : ι → List (Piece α)} (cuts : ∀ i, Cuts s (f i) (ps i)) (hb : AfterSlash b) :
    piecesAt s ⟨b, Text.join "/" (l.map f)⟩ = [Piece.plain '/'].intercalate (l.map ps) := by
  induction l generalizing b with
  | nil => rfl
  | cons i l ih =>
    cases l with
    | nil => exact (piecesAt_chunk (cuts i) hb).trans List.intercalate_singleton.symm
    | cons j l =>
      have next := ih (b := some '/') (.inr rfl)
      simp only [List.map_cons, Text.join_cons_cons, List.intercalate_cons_cons] at next ⊢
      rw [← next, List.append_assoc]
      exact piecesAt_chunk_slash opens other (cuts i) hb _

theorem spelled_intercalate (pss : List (List (Piece Text))) :
    spelled ([Piece.plain '/'].intercalate pss) = Text.join "/" (pss.map spelled) := by
  induction pss with
  | nil => rfl
  | cons ps pss ih =>
    cases pss with
    | nil => rw [List.intercalate_singleton]; rfl
    | cons qs pss =>
      rw [List.intercalate_cons_cons, spelled_append, spelled_append, ih]
      rfl

theorem finds_intercalate (pss : List (List (Piece α))) :
    finds ([Piece.plain '/'].intercalate pss) = pss.flatMap finds := by
  induction pss with
  | nil => rfl
  | cons ps pss ih =>
    cases pss with
    | nil => simp [List.intercalate_singleton]
    | cons qs pss =>
      have slash : finds [Piece.plain '/'] = ([] : List α) := rfl
      rw [List.intercalate_cons_cons, finds_append, finds_append, ih, slash, List.append_nil]
      rfl

end RouteAtlas.Route
