import RouteAtlas.Text.Scanner

/-!
# Reading with scanners

What single scanners read at a place whose text is known, how a scanner made of several steps is
taken apart, and that scanners only go forward: `Reads` says that a stretch of the text lies between
the place before and the place after, `Consumes` that the stretch is not empty.
-/

namespace RouteAtlas.Scanner

variable {α β : Type} {b : Option Char} {c c' : Cursor} {w rest : Text}

/-! ### Steps -/

theorem bind_apply (s : Scanner α) (f : α → Scanner β) (c : Cursor) :
    (s >>= f) c = (s c).bind fun p => f p.1 p.2 := rfl

theorem pure_apply (a : α) (c : Cursor) : (pure a : Scanner α) c = some (a, c) := rfl

theorem map_apply (g : α → β) (s : Scanner α) (c : Cursor) :
    (g <$> s) c = (s c).map fun p => (g p.1, p.2) := by
  show (s >>= fun a => pure (g a)) c = _
  rw [bind_apply]
  cases s c <;> rfl

theorem bind_eq_some {s : Scanner α} {f : α → Scanner β} {r : β} :
    (s >>= f) c = some (r, c') ↔ ∃ a mid, s c = some (a, mid) ∧ f a mid = some (r, c') := by
  simp [bind_apply, Option.bind_eq_some_iff]

theorem bind_of_some {s : Scanner α} {f : α → Scanner β} {mid : Cursor}
    (here : s c = some (a, mid)) : (s >>= f) c = f a mid := by
  rw [bind_apply, here, Option.bind_some]

theorem map_eq_some {g : α → β} {s : Scanner α} {r : β} :
    (g <$> s) c = some (r, c') ↔ ∃ a, s c = some (a, c') ∧ g a = r := by
  simp [map_apply]

/-! ### Single reads -/

@[simp] theorem literal_nil (c : Cursor) : literal [] c = some ((), c) := by
  simp [literal, Text.after?, Cursor.past]

@[simp] theorem literal_end (x : Char) (w : Text) : literal (x :: w) ⟨b, []⟩ = none := rfl

@[simp] theorem literal_cons (x y : Char) (w r : Text) :
    literal (x :: w) ⟨b, y :: r⟩ = if x = y then literal w ⟨some y, r⟩ else none := by
  simp only [literal, Text.after?]
  split
  · rename_i h
    subst h
    congr 1
    funext t
    cases w <;> simp [Cursor.past, List.getLast?_cons]
  · rfl

theorem literal_eq_some {u : Unit} :
    literal w c = some (u, c') ↔ ∃ rest, c.rest = w ++ rest ∧ c' = c.past w rest := by
  unfold literal
  rw [Option.map_eq_some_iff]
  constructor
  · rintro ⟨rest, text, same⟩
    exact ⟨rest, Text.after?_eq_some_iff.mp text, (Prod.mk.inj same).2.symm⟩
  · rintro ⟨rest, text, rfl⟩
    exact ⟨rest, Text.after?_eq_some_iff.mpr text, rfl⟩

theorem literal_append (w : Text) (b : Option Char) (rest : Text) :
    literal w ⟨b, w ++ rest⟩ = some ((), ⟨w.getLast?.or b, rest⟩) :=
  literal_eq_some.mpr ⟨rest, rfl, rfl⟩

/-- The text does not start with a character of the class. -/
def Stops (p : Char → Bool) (t : Text) : Prop := ∀ x ∈ t.head?, p x = false

theorem stops_nil (p : Char → Bool) : Stops p [] := by simp [Stops]

theorem stops_cons {p : Char → Bool} {x : Char} {t : Text} : Stops p (x :: t) ↔ p x = false := by
  simp [Stops]

theorem takeWhile_of_stops {p : Char → Bool} (inside : ∀ x ∈ w, p x = true) (stop : Stops p rest) :
    (w ++ rest).takeWhile p = w := by
  rw [List.takeWhile_append_of_pos inside]
  cases rest with
  | nil => simp
  | cons x t => simp [stops_cons.mp stop]

theorem dropWhile_of_stops {p : Char → Bool} (inside : ∀ x ∈ w, p x = true) (stop : Stops p rest) :
    (w ++ rest).dropWhile p = rest := by
  rw [List.dropWhile_append_of_pos inside]
  cases rest with
  | nil => rfl
  | cons x t => simp [stops_cons.mp stop]

theorem run_append {p : Char → Bool} (inside : ∀ x ∈ w, p x = true) (stop : Stops p rest) :
    run p ⟨b, w ++ rest⟩ = some (w, ⟨w.getLast?.or b, rest⟩) := by
  simp only [run, takeWhile_of_stops inside stop, dropWhile_of_stops inside stop]
  rfl

theorem bne_of_notMem {x : Char} (free : x ∉ w) : ∀ y ∈ w, (y != x) = true := by
  intro y member
  rw [bne_iff_ne]
  exact fun e => free (e ▸ member)

theorem run_until {x : Char} (free : x ∉ w) (b : Option Char) (rest : Text) :
    run (fun y => y != x) ⟨b, w ++ x :: rest⟩ = some (w, ⟨w.getLast?.or b, x :: rest⟩) :=
  run_append (bne_of_notMem free) (by simp [stops_cons])

theorem one_cons (p : Char → Bool) (x : Char) (r : Text) :
    one p ⟨b, x :: r⟩ = if p x then some (x, ⟨some x, r⟩) else none := rfl

theorem one_end (p : Char → Bool) : one p ⟨b, []⟩ = none := rfl

theorem run1_append {p : Char → Bool} (nonempty : w ≠ []) (inside : ∀ x ∈ w, p x = true)
    (stop : Stops p rest) : run1 p ⟨b, w ++ rest⟩ = some (w, ⟨w.getLast?, rest⟩) := by
  cases w with
  | nil => exact absurd rfl nonempty
  | cons x w =>
    have more : ∀ y ∈ w, p y = true := fun y hy => inside y (List.mem_cons_of_mem x hy)
    rw [run1, bind_apply, List.cons_append, one_cons, if_pos (inside x List.mem_cons_self),
      Option.bind_some, bind_apply, run_append more stop, Option.bind_some, pure_apply]
    cases w <;> simp [List.getLast?_cons]

theorem option_of_some {s : Scanner α} {a : α} (h : s c = some (a, c')) :
    option s c = some (some a, c') := by
  simp [option, h]

theorem option_of_none {s : Scanner α} (h : s c = none) : option s c = some (none, c) := by
  simp [option, h]

/-- What is optional is always passed. -/
theorem exists_option (s : Scanner α) (c : Cursor) : ∃ o c', option s c = some (o, c') := by
  unfold option
  split <;> exact ⟨_, _, rfl⟩

theorem option_eq_some {s : Scanner α} {o : Option α} (h : option s c = some (o, c')) :
    (∃ a, s c = some (a, c')) ∨ c' = c := by
  unfold option at h
  split at h
  · rename_i a mid found
    obtain ⟨_, rfl⟩ := Prod.mk.inj (Option.some.inj h)
    exact .inl ⟨a, found⟩
  · exact .inr (Prod.mk.inj (Option.some.inj h)).2.symm

theorem mem_of_oneOf {words : List Text} (h : oneOf words c = some (w, c')) : w ∈ words := by
  obtain ⟨word, member, found⟩ := List.exists_of_findSome?_eq_some h
  obtain ⟨⟨u, mid⟩, _, same⟩ := Option.map_eq_some_iff.mp found
  rw [← (Prod.mk.inj same).1]
  exact member

/-- Where none of the words is the beginning of another, the one that stands in the text is read. -/
theorem oneOf_append {words : List Text} (apart : ∀ u ∈ words, ∀ v ∈ words, u <+: v → u = v)
    (known : w ∈ words) (b : Option Char) (rest : Text) :
    oneOf words ⟨b, w ++ rest⟩ = some (w, ⟨w.getLast?.or b, rest⟩) := by
  have fails (u : Text) (member : u ∈ words) (other : u ≠ w) :
      literal u ⟨b, w ++ rest⟩ = none := by
    rw [Option.eq_none_iff_forall_ne_some]
    intro found read
    obtain ⟨r, whole, _⟩ := literal_eq_some.mp read
    have start : u <+: w ++ rest := ⟨r, whole.symm⟩
    rcases List.prefix_or_prefix_of_prefix start (List.prefix_append w rest) with short | long
    · exact other (apart u member w known short)
    · exact other (apart w known u member long).symm
  have among (us : List Text) (subset : ∀ u ∈ us, u ∈ words) (here : w ∈ us) :
      oneOf us ⟨b, w ++ rest⟩ = some (w, ⟨w.getLast?.or b, rest⟩) := by
    unfold oneOf
    induction us with
    | nil => exact absurd here List.not_mem_nil
    | cons u us ih =>
      obtain ⟨first, others⟩ := List.forall_mem_cons.mp subset
      rw [List.findSome?_cons]
      by_cases same : u = w
      · rw [same, literal_append]
        rfl
      · rw [fails u first same]
        exact ih others ((List.mem_cons.mp here).resolve_left (Ne.symm same))
  exact among words (fun _ member => member) known

/-- Where a word begins there is a boundary. -/
theorem boundary_word {x : Char} (outside : ∀ y ∈ b, Text.isWord y = false)
    (inside : Text.isWord x = true) (t : Text) :
    boundary ⟨b, x :: t⟩ = some ((), ⟨b, x :: t⟩) := by
  have before : b.any Text.isWord = false := by
    cases b with
    | none => rfl
    | some y => exact outside y rfl
  simp [boundary, check, before, inside]

theorem boundary_eq_some {u : Unit} (found : boundary c = some (u, c')) :
    c' = c ∧ c.before.any Text.isWord ≠ c.rest.head?.any Text.isWord := by
  unfold boundary check at found
  split at found
  · rename_i different
    exact ⟨(Prod.mk.inj (Option.some.inj found)).2.symm, bne_iff_ne.mp different⟩
  · cases found

/-! ### Going forward -/

/-- The text `w` lies between two places. -/
def Between (c : Cursor) (w : Text) (c' : Cursor) : Prop :=
  c.rest = w ++ c'.rest ∧ c'.before = w.getLast?.or c.before

theorem between_refl (c : Cursor) : Between c [] c := ⟨rfl, rfl⟩

theorem between_trans {mid : Cursor} {v : Text} (first : Between c w mid)
    (second : Between mid v c') : Between c (w ++ v) c' := by
  obtain ⟨text, before⟩ := first
  obtain ⟨text', before'⟩ := second
  refine ⟨by rw [text, text', List.append_assoc], ?_⟩
  rw [before', before, List.getLast?_append, Option.or_assoc]

theorem between_past (h : c.rest = w ++ rest) : Between c w (c.past w rest) := ⟨h, rfl⟩

/-- Where the scanner succeeds a stretch of the text has been read. -/
def Reads (s : Scanner α) : Prop := ∀ c a c', s c = some (a, c') → ∃ w, Between c w c'

/-- Where the scanner succeeds at least one character has been read. -/
def Consumes (s : Scanner α) : Prop := ∀ c a c', s c = some (a, c') → ∃ w ≠ [], Between c w c'

theorem reads_of_consumes {s : Scanner α} (h : Consumes s) : Reads s := by
  intro c a c' found
  obtain ⟨w, _, between⟩ := h c a c' found
  exact ⟨w, between⟩

theorem reads_pure (a : α) : Reads (pure a : Scanner α) := by
  intro c r c' found
  rw [pure_apply, Option.some.injEq, Prod.mk.injEq] at found
  exact ⟨[], found.2 ▸ between_refl c⟩

theorem reads_bind {s : Scanner α} {f : α → Scanner β} (hs : Reads s) (hf : ∀ a, Reads (f a)) :
    Reads (s >>= f) := by
  intro c r c' found
  obtain ⟨a, mid, first, second⟩ := bind_eq_some.mp found
  obtain ⟨w, between⟩ := hs c a mid first
  obtain ⟨v, between'⟩ := hf a mid r c' second
  exact ⟨w ++ v, between_trans between between'⟩

theorem consumes_bind {s : Scanner α} {f : α → Scanner β} (hs : Consumes s)
    (hf : ∀ a, Reads (f a)) : Consumes (s >>= f) := by
  intro c r c' found
  obtain ⟨a, mid, first, second⟩ := bind_eq_some.mp found
  obtain ⟨w, nonempty, between⟩ := hs c a mid first
  obtain ⟨v, between'⟩ := hf a mid r c' second
  exact ⟨w ++ v, by simp [nonempty], between_trans between between'⟩

theorem consumes_of_reads_bind {s : Scanner α} {f : α → Scanner β} (hs : Reads s)
    (hf : ∀ a, Consumes (f a)) : Consumes (s >>= f) := by
  intro c r c' found
  obtain ⟨a, mid, first, second⟩ := bind_eq_some.mp found
  obtain ⟨w, between⟩ := hs c a mid first
  obtain ⟨v, nonempty, between'⟩ := hf a mid r c' second
  exact ⟨w ++ v, by simp [nonempty], between_trans between between'⟩

theorem consumes_map {g : α → β} {s : Scanner α} (h : Consumes s) : Consumes (g <$> s) := by
  intro c r c' found
  obtain ⟨a, found, _⟩ := map_eq_some.mp found
  exact h c a c' found

theorem between_literal {u : Unit} (found : literal w c = some (u, c')) : Between c w c' := by
  obtain ⟨rest, text, rfl⟩ := literal_eq_some.mp found
  exact between_past text

theorem reads_literal (w : Text) : Reads (literal w) :=
  fun _ _ _ found => ⟨w, between_literal found⟩

theorem consumes_literal (nonempty : w ≠ []) : Consumes (literal w) :=
  fun _ _ _ found => ⟨w, nonempty, between_literal found⟩

theorem between_run {p : Char → Bool} (found : run p c = some (w, c')) : Between c w c' := by
  obtain ⟨rfl, rfl⟩ := Prod.mk.inj (Option.some.inj found)
  exact between_past List.takeWhile_append_dropWhile.symm

theorem reads_run (p : Char → Bool) : Reads (run p) := fun _ w _ found => ⟨w, between_run found⟩

theorem between_one {p : Char → Bool} {x : Char} (found : one p c = some (x, c')) :
    Between c [x] c' := by
  obtain ⟨before, text⟩ := c
  cases text with
  | nil => exact absurd found (by simp [one_end])
  | cons y r =>
    rw [one_cons] at found
    split at found
    · obtain ⟨rfl, rfl⟩ := Prod.mk.inj (Option.some.inj found)
      exact ⟨rfl, rfl⟩
    · cases found

theorem consumes_one (p : Char → Bool) : Consumes (one p) :=
  fun _ x _ found => ⟨[x], List.cons_ne_nil x [], between_one found⟩

theorem between_run1 {p : Char → Bool} (found : run1 p c = some (w, c')) : Between c w c' := by
  obtain ⟨x, mid, first, found⟩ := bind_eq_some.mp found
  obtain ⟨more, mid', second, found⟩ := bind_eq_some.mp found
  obtain ⟨rfl, rfl⟩ := Prod.mk.inj (Option.some.inj found)
  exact between_trans (between_one first) (between_run second)

theorem consumes_run1 (p : Char → Bool) : Consumes (run1 p) :=
  consumes_bind (consumes_one p) fun _ => reads_bind (reads_run p) fun _ => reads_pure _

theorem consumes_identifier : Consumes identifier :=
  consumes_bind (consumes_one _) fun _ => reads_bind (reads_run _) fun _ => reads_pure _

theorem reads_option {s : Scanner α} (h : Reads s) : Reads (option s) := by
  intro c o c' found
  rcases option_eq_some found with ⟨a, found⟩ | rfl
  · exact h c a c' found
  · exact ⟨[], between_refl c'⟩

theorem reads_check (p : Cursor → Bool) : Reads (check p) := by
  intro c a c' found
  unfold check at found
  split at found
  · obtain ⟨_, rfl⟩ := Prod.mk.inj (Option.some.inj found)
    exact ⟨[], between_refl c⟩
  · cases found

theorem between_oneOf {words : List Text} (found : oneOf words c = some (w, c')) :
    Between c w c' := by
  obtain ⟨word, _, found⟩ := List.exists_of_findSome?_eq_some found
  obtain ⟨⟨u, mid⟩, read, same⟩ := Option.map_eq_some_iff.mp found
  obtain ⟨rfl, rfl⟩ := Prod.mk.inj same
  exact between_literal read

theorem consumes_oneOf {words : List Text} (nonempty : [] ∉ words) : Consumes (oneOf words) :=
  fun _ w _ found => ⟨w, fun e => nonempty (e ▸ mem_of_oneOf found), between_oneOf found⟩

/-! ### What is read -/

def Gives (s : Scanner α) (P : α → Prop) : Prop := ∀ c a c', s c = some (a, c') → P a

theorem gives_pure {P : α → Prop} {a : α} (h : P a) : Gives (pure a) P := by
  intro c r c' found
  obtain ⟨rfl, _⟩ := Prod.mk.inj (Option.some.inj found)
  exact h

theorem gives_bind {s : Scanner α} {f : α → Scanner β} {P : β → Prop} (h : ∀ a, Gives (f a) P) :
    Gives (s >>= f) P := by
  intro c r c' found
  obtain ⟨a, mid, _, second⟩ := bind_eq_some.mp found
  exact h a mid r c' second

theorem gives_bind_of {s : Scanner α} {f : α → Scanner β} {Q : α → Prop} {P : β → Prop}
    (hs : Gives s Q) (hf : ∀ a, Q a → Gives (f a) P) : Gives (s >>= f) P := by
  intro c r c' found
  obtain ⟨a, mid, first, second⟩ := bind_eq_some.mp found
  exact hf a (hs c a mid first) mid r c' second

theorem gives_oneOf (words : List Text) : Gives (oneOf words) (· ∈ words) :=
  fun _ _ _ => mem_of_oneOf

theorem one_eq_some {p : Char → Bool} {x : Char} (found : one p c = some (x, c')) :
    p x = true ∧ c.rest = x :: c'.rest := by
  refine ⟨?_, (between_one found).1⟩
  obtain ⟨before, text⟩ := c
  cases text with
  | nil => cases found
  | cons y r =>
    rw [one_cons] at found
    split at found
    · rename_i inside
      obtain ⟨rfl, _⟩ := Prod.mk.inj (Option.some.inj found)
      exact inside
    · cases found

theorem run_eq_some {p : Char → Bool} (found : run p c = some (w, c')) :
    (∀ x ∈ w, p x = true) ∧ Stops p c'.rest ∧ c.rest = w ++ c'.rest := by
  refine ⟨?_, ?_, (between_run found).1⟩
  · obtain ⟨rfl, _⟩ := Prod.mk.inj (Option.some.inj found)
    exact List.all_eq_true.mp List.all_takeWhile
  · obtain ⟨_, rfl⟩ := Prod.mk.inj (Option.some.inj found)
    intro x hx
    have first := List.head?_dropWhile_not p c.rest
    change (c.rest.dropWhile p).head? = some x at hx
    rw [hx] at first
    simpa using first

theorem run1_eq_some {p : Char → Bool} (found : run1 p c = some (w, c')) :
    w ≠ [] ∧ (∀ x ∈ w, p x = true) ∧ c.rest = w ++ c'.rest := by
  have text := (between_run1 found).1
  obtain ⟨x, mid, first, found⟩ := bind_eq_some.mp found
  obtain ⟨more, mid', second, found⟩ := bind_eq_some.mp found
  obtain ⟨rfl, rfl⟩ := Prod.mk.inj (Option.some.inj found)
  have inside : ∀ y ∈ x :: more, p y = true :=
    List.forall_mem_cons.mpr ⟨(one_eq_some first).1, (run_eq_some second).1⟩
  exact ⟨List.cons_ne_nil x more, inside, text⟩

theorem option_literal_eq_some {o : Option Unit} (found : option (literal w) c = some (o, c')) :
    ∃ v, (v = [] ∨ v = w) ∧ c.rest = v ++ c'.rest := by
  rcases option_eq_some found with ⟨_, read⟩ | rfl
  · exact ⟨w, .inr rfl, (between_literal read).1⟩
  · exact ⟨[], .inl rfl, rfl⟩

end RouteAtlas.Scanner
