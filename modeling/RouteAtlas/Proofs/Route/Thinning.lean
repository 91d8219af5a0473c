import RouteAtlas.Proofs.Route.Survival

/-!
# Repeated slashes

A path may have its slashes repeated, and slashes at its end. `Thinned` says that a text is another
one without some of these. The readers of placeholders see no difference (`Even`), so neither do the
passes of `unify`, and `canonical_thinned` says that such paths have the same template.
-/

namespace RouteAtlas.Route

open Scanner

variable {α β : Type} {s : Scanner α} {b : Option Char} {t u w r : Text}

/-- The second text is the first without some of the slashes that follow a slash or stand at the
end. -/
inductive Thinned : Text → Text → Prop where
  | nil : Thinned [] []
  | cons (x : Char) {t u : Text} (rest : Thinned t u) : Thinned (x :: t) (x :: u)
  | double {t u : Text} (rest : Thinned ('/' :: t) u) : Thinned ('/' :: '/' :: t) u
  | last : Thinned ['/'] []

namespace Thinned

theorem refl (t : Text) : Thinned t t := by
  induction t with
  | nil => exact .nil
  | cons x t ih => exact .cons x ih

theorem append_left (w : Text) (h : Thinned t u) : Thinned (w ++ t) (w ++ u) := by
  induction w with
  | nil => exact h
  | cons x w ih => exact .cons x ih

/-- Only a slash can be missing at the front. -/
theorem head (h : Thinned t u) : u.head? = t.head? ∨ u = [] ∧ t.head? = some '/' := by
  induction h with
  | nil => exact .inl rfl
  | cons x _ _ => exact .inl rfl
  | double _ ih => exact ih
  | last => exact .inr ⟨rfl, rfl⟩

theorem of_cons {x : Char} (other : x ≠ '/') (h : Thinned (x :: t) u) :
    ∃ u', u = x :: u' ∧ Thinned t u' := by
  cases h with
  | cons _ rest => exact ⟨_, rfl, rest⟩
  | double => exact absurd rfl other
  | last => exact absurd rfl other

theorem to_cons {x : Char} (other : x ≠ '/') (h : Thinned t (x :: u)) :
    ∃ t', t = x :: t' ∧ Thinned t' u := by
  generalize whole : x :: u = v at h
  induction h with
  | nil => cases whole
  | cons y rest =>
    obtain ⟨rfl, rfl⟩ := List.cons.inj whole
    exact ⟨_, rfl, rest⟩
  | double _ ih =>
    obtain ⟨t', slash, _⟩ := ih whole
    exact absurd (List.cons.inj slash).1.symm other
  | last => cases whole

theorem of_append (free : '/' ∉ w) (h : Thinned (w ++ t) u) :
    ∃ u', u = w ++ u' ∧ Thinned t u' := by
  induction w generalizing u with
  | nil => exact ⟨u, rfl, h⟩
  | cons x w ih =>
    have other : x ≠ '/' := fun e => free (e ▸ List.mem_cons_self)
    obtain ⟨v, rfl, more⟩ := of_cons other h
    obtain ⟨u', same, rest⟩ := ih (fun e => free (List.mem_cons_of_mem x e)) more
    exact ⟨u', congrArg (x :: ·) same, rest⟩

theorem to_append (free : '/' ∉ w) (h : Thinned t (w ++ u)) :
    ∃ t', t = w ++ t' ∧ Thinned t' u := by
  induction w generalizing t with
  | nil => exact ⟨t, rfl, h⟩
  | cons x w ih =>
    have other : x ≠ '/' := fun e => free (e ▸ List.mem_cons_self)
    obtain ⟨v, rfl, more⟩ := to_cons other h
    obtain ⟨t', same, rest⟩ := ih (fun e => free (List.mem_cons_of_mem x e)) more
    exact ⟨t', congrArg (x :: ·) same, rest⟩

/-- Any other character than a slash first stands at places that correspond. -/
theorem cut {x : Char} (other : x ≠ '/') (h : Thinned t u) :
    x ∉ t ∧ x ∉ u ∨ ∃ v r v' r', t = v ++ x :: r ∧ u = v' ++ x :: r' ∧ x ∉ v ∧ x ∉ v' ∧
      Thinned r r' := by
  induction h with
  | nil => exact .inl ⟨List.not_mem_nil, List.not_mem_nil⟩
  | @cons y t u rest ih =>
    by_cases same : y = x
    · subst same
      exact .inr ⟨[], t, [], u, rfl, rfl, List.not_mem_nil, List.not_mem_nil, rest⟩
    · rcases ih with ⟨none, none'⟩ | ⟨v, r, v', r', rfl, rfl, free, free', rest⟩
      · exact .inl ⟨List.not_mem_cons_of_ne_of_not_mem (Ne.symm same) none,
          List.not_mem_cons_of_ne_of_not_mem (Ne.symm same) none'⟩
      · exact .inr ⟨y :: v, r, y :: v', r', rfl, rfl,
          List.not_mem_cons_of_ne_of_not_mem (Ne.symm same) free,
          List.not_mem_cons_of_ne_of_not_mem (Ne.symm same) free', rest⟩
  | double _ ih =>
    rcases ih with ⟨none, none'⟩ | ⟨v, r, v', r', whole, rfl, free, free', rest⟩
    · exact .inl ⟨List.not_mem_cons_of_ne_of_not_mem other none, none'⟩
    · exact .inr ⟨'/' :: v, r, v', r', congrArg ('/' :: ·) whole, rfl,
        List.not_mem_cons_of_ne_of_not_mem other free, free', rest⟩
  | last => exact .inl ⟨by simpa using other, List.not_mem_nil⟩

theorem subset (h : Thinned t u) : ∀ x ∈ u, x ∈ t := by
  induction h with
  | nil => exact fun _ h => h
  | cons y _ ih =>
    intro x inside
    rcases List.mem_cons.mp inside with rfl | inside
    · exact List.mem_cons_self
    · exact List.mem_cons_of_mem y (ih x inside)
  | double _ ih => exact fun x inside => List.mem_cons_of_mem '/' (ih x inside)
  | last => exact fun x inside => absurd inside List.not_mem_nil

theorem slashes {v : Text} (all : ∀ x ∈ v, x = '/') : Thinned v [] := by
  induction v with
  | nil => exact .nil
  | cons x v ih =>
    obtain rfl := all x List.mem_cons_self
    have rest := ih fun y inside => all y (List.mem_cons_of_mem '/' inside)
    cases v with
    | nil => exact .last
    | cons y v =>
      obtain rfl := all y (List.mem_cons_of_mem '/' List.mem_cons_self)
      exact .double rest

/-- A run of slashes in front of one more may be left out. -/
theorem run {v : Text} (all : ∀ x ∈ v, x = '/') (h : Thinned ('/' :: t) u) :
    Thinned (v ++ '/' :: t) u := by
  induction v with
  | nil => exact h
  | cons x v ih =>
    obtain rfl := all x List.mem_cons_self
    have rest := ih fun y inside => all y (List.mem_cons_of_mem '/' inside)
    cases v with
    | nil => exact .double rest
    | cons y v =>
      obtain rfl := all y (List.mem_cons_of_mem '/' List.mem_cons_self)
      exact .double rest

/-- With one slash more at their ends the texts differ in repeated slashes only. -/
theorem squeeze_eq (h : Thinned t u) : squeeze (t ++ "/") = squeeze (u ++ "/") := by
  induction h with
  | nil => rfl
  | @cons x t u _ ih =>
    have first : (t ++ "/").head? = (u ++ "/").head? := by
      rw [← head?_squeeze, ih, head?_squeeze]
    rw [List.cons_append, List.cons_append, squeeze, squeeze, first, ih]
  | double _ ih => rwa [List.cons_append, List.cons_append, squeeze_slash_slash]
  | last => rfl

theorem parts_eq (h : Thinned t u) : parts t = parts u := by
  have ended (v : Text) : parts (squeeze (v ++ "/")) = parts v := by
    rw [parts_squeeze]
    exact (parts_append v []).trans (List.append_nil _)
  rw [← ended t, h.squeeze_eq, ended u]

end Thinned

/-! ### Readers that see no difference -/

/-- The same is read, and what follows is thinned. -/
inductive SameRead : Option (α × Cursor) → Option (α × Cursor) → Prop where
  | none : SameRead none none
  | some (a : α) (b : Option Char) {t u : Text} (rest : Thinned t u) :
      SameRead (some (a, ⟨b, t⟩)) (some (a, ⟨b, u⟩))

/-- The scanner reads the same from a text and from one in which it is thinned. -/
def Even (s : Scanner α) : Prop :=
  ∀ b {t u : Text}, Thinned t u → SameRead (s ⟨b, t⟩) (s ⟨b, u⟩)

theorem even_pure (a : α) : Even (pure a : Scanner α) := fun b _ _ h => .some a b h

theorem even_bind {f : α → Scanner β} (hs : Even s) (hf : ∀ a, Even (f a)) : Even (s >>= f) := by
  intro b t u h
  have first := hs b h
  rw [bind_apply, bind_apply]
  generalize s ⟨b, t⟩ = p at first
  generalize s ⟨b, u⟩ = q at first
  cases first with
  | none => exact .none
  | some a b' rest => exact hf a b' rest

theorem even_map {g : α → β} (hs : Even s) : Even (g <$> s) := even_bind hs fun _ => even_pure _

theorem even_option (hs : Even s) : Even (option s) := by
  intro b t u h
  have here := hs b h
  unfold option
  generalize s ⟨b, t⟩ = p at here
  generalize s ⟨b, u⟩ = q at here
  cases here with
  | none => exact .some _ b h
  | some a b' rest => exact .some _ b' rest

theorem even_check (p : Option Char → Bool) : Even (check fun c => p c.before) := by
  intro b t u h
  unfold check
  split
  · exact .some () b h
  · exact .none

theorem even_literal (free : '/' ∉ w) : Even (literal w) := by
  intro b t u h
  have fails {v : Text} (other : ¬ w <+: v) : literal w ⟨b, v⟩ = none := by
    refine Option.eq_none_iff_forall_ne_some.mpr fun p found => other ?_
    obtain ⟨rest, whole, _⟩ := literal_eq_some.mp found
    exact ⟨rest, whole.symm⟩
  by_cases found : w <+: t
  · obtain ⟨r, rfl⟩ := found
    obtain ⟨r', rfl, rest⟩ := Thinned.of_append free h
    rw [literal_eq_some.mpr ⟨r, rfl, rfl⟩, literal_eq_some.mpr ⟨r', rfl, rfl⟩]
    exact .some () _ rest
  · have found' : ¬ w <+: u := by
      rintro ⟨r', rfl⟩
      obtain ⟨r, rfl, _⟩ := Thinned.to_append free h
      exact found (List.prefix_append w r)
    rw [fails found, fails found']
    exact .none

theorem even_one {p : Char → Bool} (slash : p '/' = false) : Even (one p) := by
  have fails {v : Text} (first : v = [] ∨ v.head? = some '/') (b : Option Char) :
      one p ⟨b, v⟩ = none := by
    cases v with
    | nil => rfl
    | cons x v =>
      obtain rfl : x = '/' := by simpa using first
      rw [one_cons, slash]
      rfl
  intro b t u h
  cases h with
  | nil => exact .none
  | cons x rest =>
    rw [one_cons, one_cons]
    split
    · exact .some x _ rest
    · exact .none
  | @double t u rest =>
    have first : u = [] ∨ u.head? = some '/' := rest.head.symm.imp And.left id
    rw [fails (.inr List.head?_cons), fails first]
    exact .none
  | last =>
    rw [fails (.inr List.head?_cons)]
    exact .none

theorem even_run {p : Char → Bool} (slash : p '/' = false) : Even (run p) := by
  intro b t u h
  have inside : ∀ x ∈ t.takeWhile p, p x = true := List.all_eq_true.mp List.all_takeWhile
  have stop : Stops p (t.dropWhile p) := by
    intro x first
    have stopped := List.head?_dropWhile_not p t
    rw [Option.mem_def.mp first] at stopped
    simpa using stopped
  have free : '/' ∉ t.takeWhile p := fun h => by
    rw [inside _ h] at slash
    cases slash
  rw [← List.takeWhile_append_dropWhile (p := p) (l := t)] at h ⊢
  obtain ⟨r, rfl, rest⟩ := Thinned.of_append free h
  have stop' : Stops p r := by
    intro x first
    rcases rest.head with same | ⟨rfl, _⟩
    · exact stop x (same ▸ first)
    · cases first
  rw [run_append inside stop, run_append inside stop']
  exact .some _ _ rest

theorem even_run1 {p : Char → Bool} (slash : p '/' = false) : Even (run1 p) :=
  even_bind (even_one slash) fun _ => even_bind (even_run slash) fun _ => even_pure _

theorem even_identifier : Even identifier :=
  even_bind (even_one (by decide)) fun _ => even_bind (even_run (by decide)) fun _ => even_pure _

theorem even_oneOf {words : List Text} (free : ∀ v ∈ words, '/' ∉ v) : Even (oneOf words) := by
  intro b t u h
  unfold oneOf
  induction words with
  | nil => exact .none
  | cons v words ih =>
    have first := even_literal (free v List.mem_cons_self) b h
    rw [List.findSome?_cons, List.findSome?_cons]
    generalize literal v ⟨b, t⟩ = p at first
    generalize literal v ⟨b, u⟩ = q at first
    cases first with
    | none => exact ih fun v' member => free v' (List.mem_cons_of_mem v member)
    | some _ b' rest => exact .some v b' rest

/-- A stretch up to a closing character may hold slashes, and is not seen itself. -/
theorem even_until {x : Char} (other : x ≠ '/') {f : Unit → Scanner β} (hf : Even (f ())) :
    Even (run (fun y => y != x) >>= fun _ => literal [x] >>= f) := by
  intro b t u h
  have closed {v r : Text} (free : x ∉ v) :
      (run (fun y => y != x) >>= fun _ => literal [x] >>= f) ⟨b, v ++ x :: r⟩ =
        f () ⟨some x, r⟩ := by
    rw [bind_apply, run_until free, Option.bind_some, bind_apply, literal_cons, if_pos rfl,
      literal_nil]
    rfl
  have endless {v : Text} (free : x ∉ v) :
      (run (fun y => y != x) >>= fun _ => literal [x] >>= f) ⟨b, v⟩ = none := by
    have whole := run_append (b := b) (bne_of_notMem free) (stops_nil _)
    rw [List.append_nil] at whole
    rw [bind_apply, whole]
    rfl
  rcases Thinned.cut other h with ⟨none, none'⟩ | ⟨v, r, v', r', rfl, rfl, free, free', rest⟩
  · rw [endless none, endless none']
    exact .none
  · rw [closed free, closed free']
    exact hf _ rest

/-! ### The forms of placeholders -/

theorem even_bracketed : Even bracketed :=
  even_bind (even_literal (by decide)) fun _ =>
  even_bind (even_option (even_literal (by decide))) fun _ =>
  even_bind (even_run1 (by decide)) fun _ =>
  even_bind (even_literal (by decide)) fun _ =>
  even_bind (even_option (even_literal (by decide))) fun _ => even_pure _

theorem even_dollar : Even Route.dollar := by
  have bound : Even (run (fun y => y != '>') >>= fun _ => literal ['>']) := by
    have closed := even_until (x := '>') (f := pure) (by decide) (even_pure ())
    rwa [bind_pure] at closed
  exact even_bind (even_literal (by decide)) fun _ =>
    even_bind even_identifier fun _ =>
    even_bind (even_option (even_bind (even_literal (by decide)) fun _ => bound)) fun _ =>
    even_pure _

theorem even_angled : Even (angled anyConverter) :=
  even_bind (even_literal (by decide)) fun _ =>
  even_bind (even_option (even_bind (even_bind even_identifier fun _ => even_pure ()) fun _ =>
    even_literal (by decide))) fun _ =>
  even_bind even_identifier fun _ =>
  even_bind (even_literal (by decide)) fun _ => even_pure _

/-- A constraint may hold slashes: what stands behind the colon is passed over up to the brace. -/
theorem even_constraint (name : Text) : Even (do
    let _ ← option do
      literal ":"
      run fun c => c != '}'
    literal "\x7d"
    return name) := by
  intro b t u h
  have first := even_literal (w := ":") (by decide) b h
  rw [bind_apply, bind_apply]
  unfold option
  rw [bind_apply, bind_apply]
  generalize literal ":" ⟨b, t⟩ = p at first
  generalize literal ":" ⟨b, u⟩ = q at first
  cases first with
  | none =>
    exact even_bind (even_literal (by decide)) (fun _ => even_pure name) b h
  | some _ b' rest =>
    exact even_until (f := fun _ => pure name) (x := '}') (by decide) (even_pure name) b' rest

theorem even_braced : Even braced :=
  even_bind (even_literal (by decide)) fun _ =>
  even_bind (even_option (even_literal (by decide))) fun _ =>
  even_bind (even_option (even_literal (by decide))) fun _ =>
  even_bind even_identifier fun _ =>
  even_bind (even_option (even_literal (by decide))) fun _ => even_constraint _

theorem even_colonMarked : Even colonMarked :=
  even_bind (even_bind (even_check fun b => !b.any fun x => Text.isWord x || x == '{') fun _ =>
    even_bind (even_literal (by decide)) fun _ => even_identifier) fun _ =>
  even_bind (even_option (even_literal (by decide))) fun _ => even_pure _

theorem even_catchAllNamed : Even catchAllNamed :=
  even_bind (even_bind (even_oneOf (by decide)) fun _ => even_pure ()) fun _ => even_pure _

/-! ### Whole paths -/

/-- What a reader makes of a text differs in the same way from what it makes of the thinned one. -/
theorem thinned_substitute {s : Scanner Text} {x : Char} (other : x ≠ '/') (consumes : Consumes s)
    (opens : Opens s x) (even : Even s) (h : Thinned t u) :
    Thinned (s.substitute t) (s.substitute u) := by
  suffices all : ∀ b, Thinned (spelled (piecesAt s ⟨b, t⟩)) (spelled (piecesAt s ⟨b, u⟩)) from
    all none
  have slash (b : Option Char) (v : Text) :
      piecesAt s ⟨b, '/' :: v⟩ = .plain '/' :: piecesAt s ⟨some '/', v⟩ :=
    piecesAt_of_none (opens b '/' v other.symm)
  induction length : t.length using Nat.strongRecOn generalizing t u with
  | _ n ih =>
    subst length
    intro b
    cases h with
    | nil => exact .nil
    | @cons y t u rest =>
      have here := even b (.cons y rest)
      cases found : s ⟨b, y :: t⟩ with
      | none =>
        rw [found] at here
        generalize found' : s ⟨b, y :: u⟩ = q at here
        cases here
        rw [piecesAt_of_none found, piecesAt_of_none found']
        exact .cons y (ih t.length (by simp) rest rfl (some y))
      | some p =>
        rw [found] at here
        have shorter := length_lt_of_consumes consumes found
        generalize found' : s ⟨b, y :: u⟩ = q at here
        cases here with
        | some a b' rest' =>
          rw [piecesAt_of_some consumes found, piecesAt_of_some consumes found']
          exact (ih _ shorter rest' rfl b').append_left a
    | @double t u rest =>
      have later := ih ('/' :: t).length (by simp) rest rfl (some '/')
      -- No find begins with a slash, so the place does not matter for what is left of the run.
      have same : piecesAt s ⟨b, u⟩ = piecesAt s ⟨some '/', u⟩ := by
        rcases rest.head with first | ⟨rfl, _⟩
        · obtain ⟨v, rfl⟩ := List.head?_eq_some_iff.mp first
          rw [slash, slash]
        · rfl
      rw [slash] at later
      rw [slash, slash, same]
      exact .double later
    | last =>
      rw [slash]
      exact .last

theorem thinned_pass {form : Scanner Text} {x : Char} (other : x ≠ '/') (consumes : Consumes form)
    (opens : Opens form x) (even : Even form) (h : Thinned t u) :
    Thinned (pass form t) (pass form u) :=
  thinned_substitute other (consumes_map consumes) (opens_map opens) (even_map even) h

theorem thinned_unify (h : Thinned t u) : Thinned (unify t) (unify u) := by
  rw [unify_eq_passes, unify_eq_passes]
  exact thinned_pass (by decide) consumes_catchAllNamed opens_catchAllNamed even_catchAllNamed <|
    thinned_pass (by decide) consumes_colonMarked opens_colonMarked even_colonMarked <|
    thinned_pass (by decide) consumes_braced opens_braced even_braced <|
    thinned_pass (by decide) consumes_anyConverter (opens_angled _) even_angled <|
    thinned_pass (by decide) consumes_dollar opens_dollar even_dollar <|
    thinned_pass (by decide) consumes_bracketed opens_bracketed even_bracketed h

theorem strip_of_plain (plain : ∀ x ∈ t, Text.isBlank x = false) : Text.strip t = t :=
  Text.trim_of_edges (fun x first => plain x (List.mem_of_head? first))
    fun x last => plain x (List.mem_of_getLast? last)

/-- Paths without blanks that differ in repeated slashes and in slashes at their ends have the same
template. -/
theorem canonical_thinned (h : Thinned t u) (plain : ∀ x ∈ t, Text.isBlank x = false) :
    canonical t = canonical u := by
  rw [canonical_eq, canonical_eq, strip_of_plain plain,
    strip_of_plain fun x inside => plain x (h.subset x inside), (thinned_unify h).parts_eq]

end RouteAtlas.Route
