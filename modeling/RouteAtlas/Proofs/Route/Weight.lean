import RouteAtlas.Proofs.Route.Survival
import RouteAtlas.Proofs.Route.Trimmed

/-!
# The weight of a path

The weight of a text counts blanks and the characters that placeholders have and templates do not
need. No step of `canonical` adds weight, and a step that changes anything takes some away
(`strip_eq_self_or`, `unify_eq_self_or`). A path that is its own template is therefore one in which
every step finds nothing to do (`steps_of_canonical_eq`).
-/

namespace RouteAtlas.Route

open Scanner Text

variable {form : Scanner Text} {t : Text}

/-! ### Weight -/

/-- A blank, or a character that a placeholder has and a template does not need. -/
def isHeavy (x : Char) : Bool := isBlank x || ("[$<*?:(" : Text).contains x

def weight (t : Text) : Nat := t.countP isHeavy

theorem weight_append (t u : Text) : weight (t ++ u) = weight t + weight u := List.countP_append

theorem weight_heavy {x : Char} (heavy : isHeavy x = true) (t : Text) :
    weight (x :: t) = weight t + 1 := List.countP_cons_of_pos heavy

theorem weight_light {x : Char} (light : isHeavy x = false) (t : Text) :
    weight (x :: t) = weight t := List.countP_cons_of_neg (by simp [light])

theorem weight_placeholder (name : Text) : weight (placeholder name) = weight name := by
  change weight ('{' :: (name ++ ['}'])) = weight name
  rw [weight_light (by decide), weight_append, weight_light (by decide)]
  rfl

theorem weight_settled (t : Text) : weight (unclosed (squeeze (rooted t))) = weight t := by
  have slash (t : Text) : weight ('/' :: t) = weight t := weight_light (by decide) t
  have squeezed (t : Text) : weight (squeeze t) = weight t := by
    induction t with
    | nil => rfl
    | cons c t ih =>
      rw [squeeze]
      split
      · rename_i h
        rw [ih, h.1, slash]
      · exact (List.countP_cons.trans (congrArg (· + _) ih)).trans List.countP_cons.symm
  have root (t : Text) : weight (rooted t) = weight t := by
    unfold rooted
    split
    · rfl
    · exact slash t
  have closed (t : Text) : weight (unclosed t) = weight t := by
    unfold unclosed
    split
    · cases found : before? "/" t with
      | none => rfl
      | some body =>
        rw [before?_eq_some_iff.mp found, weight_append]
        exact (Nat.add_zero _).symm
    · rfl
  rw [closed, squeezed, root]

theorem strip_eq_self_or (t : Text) : strip t = t ∨ weight (strip t) < weight t := by
  obtain ⟨u, v, whole, front, back⟩ := exists_blanks t
  have heavy {w : Text} (blank : ∀ x ∈ w, isBlank x = true) : weight w = w.length :=
    List.countP_eq_length.mpr fun x hx => by simp [isHeavy, blank x hx]
  have count : weight t = u.length + (weight (strip t) + v.length) := by
    have same := congrArg weight whole
    rwa [weight_append, weight_append, heavy front, heavy back] at same
  rcases Nat.eq_zero_or_pos (u.length + v.length) with none | some
  · have hu : u = [] := List.eq_nil_of_length_eq_zero (by omega)
    have hv : v = [] := List.eq_nil_of_length_eq_zero (by omega)
    rw [hu, hv, List.nil_append, List.append_nil] at whole
    exact .inl whole.symm
  · exact .inr (by omega)

/-! ### The weight of a pass -/

/-- What the form reads is heavier than its name. -/
def Lightens (form : Scanner Text) : Prop :=
  ∀ b r a c', form ⟨b, r⟩ = some (a, c') → weight a + weight c'.rest < weight r

/-- What the form reads is written plainly or heavier than its name. -/
def Keeps (form : Scanner Text) : Prop := ∀ b r a c', form ⟨b, r⟩ = some (a, c') →
  r = placeholder a ++ c'.rest ∨ weight a + weight c'.rest < weight r

theorem keeps_of_lightens (h : Lightens form) : Keeps form :=
  fun b r a c' found => .inr (h b r a c' found)

theorem lightens_bracketed : Lightens bracketed := by
  intro b r a c' found
  obtain ⟨opening, body, closing, opened, _, _, rfl, rfl⟩ := bracketed_shape found
  have name : weight (bracketName body) ≤ weight body := by
    unfold bracketName
    split
    · rename_i c cs found
      rw [after?_eq_some_iff.mp found, weight_append]
      omega
    · exact Nat.le_refl _
  have positive : 0 < weight opening := by rcases opened with rfl | rfl <;> decide
  rw [weight_append, weight_append, weight_append]
  omega

theorem lightens_dollar : Lightens Route.dollar := by
  intro b r a c' found
  obtain ⟨n, bound, rfl, _, rfl⟩ := dollar_shape found
  rw [weight_heavy (by decide), weight_append, weight_append]
  omega

theorem lightens_angled : Lightens (angled anyConverter) := by
  intro b r a c' found
  obtain ⟨n, type, rfl, _, rfl⟩ := angled_shape readsName_anyConverter found
  rw [weight_heavy (by decide), weight_append, weight_append, weight_light (by decide)]
  omega

theorem lightens_colonMarked : Lightens colonMarked := by
  intro b r a c' found
  obtain ⟨n, mark, rfl, _, rfl⟩ := colonMarked_shape found
  rw [weight_heavy (by decide), weight_append, weight_append]
  omega

theorem lightens_catchAllNamed : Lightens catchAllNamed := by
  intro b r a c' found
  obtain ⟨rfl, w, known, rfl⟩ := catchAllNamed_shape found
  have lighter : weight "path" < weight "(.*)" ∧ weight "path" < weight "(.+)" := by decide
  rw [weight_append]
  rcases known with rfl | rfl <;> omega

/-- Only a name with nothing else between braces is as light as the text it is read from. -/
theorem keeps_braced : Keeps braced := by
  intro b r a c' found
  obtain ⟨n, stars, mark, bound, rfl, starred, marked, bounded, rfl⟩ := braced_shape found
  have star : stars = [] ∨ 0 < weight stars := by
    rcases starred with rfl | rfl | rfl
    · exact .inl rfl
    · exact .inr (by decide)
    · exact .inr (by decide)
  have question : mark = [] ∨ 0 < weight mark := by
    rcases marked with rfl | rfl
    · exact .inl rfl
    · exact .inr (by decide)
  have colon : bound = [] ∨ 0 < weight bound := by
    rcases bounded with rfl | ⟨w, rfl, _⟩
    · exact .inl rfl
    · exact .inr (by rw [weight_heavy (by decide)]; omega)
  have count : weight ('{' :: (stars ++ (n.text ++ (mark ++ (bound ++ '}' :: c'.rest))))) =
      weight stars + (weight n.text + (weight mark + (weight bound + weight c'.rest))) := by
    rw [weight_light (by decide), weight_append, weight_append, weight_append, weight_append,
      weight_light (by decide)]
  rw [count]
  -- Stars, a question mark and a constraint each add weight, so the text is plain or heavier.
  rcases star with rfl | star
  · rcases question with rfl | question
    · rcases colon with rfl | colon
      · exact .inl (placeholder_append n.text c'.rest).symm
      · exact .inr (by omega)
    · exact .inr (by omega)
  · exact .inr (by omega)

theorem placeholder_lt {name w r : Text} (lighter : weight name + weight r < weight (w ++ r)) :
    (placeholder name).countP isHeavy < w.countP isHeavy := by
  change weight (placeholder name) < weight w
  rw [weight_append] at lighter
  rw [weight_placeholder]
  omega

theorem placeholder_eq_or {b : Option Char} {w a r : Text} (keeps : Keeps form)
    (found : (placeholder <$> form) ⟨b, w ++ r⟩ = some (a, ⟨w.getLast?.or b, r⟩)) :
    a = w ∨ a.countP isHeavy < w.countP isHeavy := by
  obtain ⟨name, read, rfl⟩ := map_eq_some.mp found
  exact (keeps _ _ _ _ read).imp (fun plain => (List.append_cancel_right plain).symm) placeholder_lt

theorem pass_eq_self_or (consumes : Consumes form) (keeps : Keeps form) (t : Text) :
    pass form t = t ∨ weight (pass form t) < weight t :=
  countP_spelled (consumes_map consumes) (fun _ _ _ _ => placeholder_eq_or keeps) none t

theorem pass_of_findAll_eq_nil (consumes : Consumes form) (h : form.findAll t = []) :
    pass form t = t := by
  refine spelled_of_finds_eq_nil (consumes_map consumes) ?_
  rw [finds_map consumes]
  exact congrArg (List.map placeholder) h

theorem pass_eq_self_iff (consumes : Consumes form) (lightens : Lightens form) :
    pass form t = t ↔ form.findAll t = [] := by
  refine ⟨fun same => ?_, pass_of_findAll_eq_nil consumes⟩
  have count := countP_spelled_add (consumes_map (g := placeholder) consumes) (p := isHeavy)
    (fun b w a r found => ?_) none t
  · have same : spelled (piecesAt (placeholder <$> form) ⟨none, t⟩) = t := same
    rw [same, finds_map consumes, List.length_map] at count
    exact List.eq_nil_of_length_eq_zero (Nat.le_zero.mp (Nat.add_le_add_iff_left.mp count))
  · obtain ⟨name, read, rfl⟩ := map_eq_some.mp found
    have lighter : weight name + weight r < weight (w ++ r) := lightens _ _ _ _ read
    exact placeholder_lt lighter

/-- Every place where a braced placeholder is read has it written as in a template. -/
def PlainBraces (t : Text) : Prop :=
  ∀ u r name c', t = u ++ r → braced ⟨u.getLast?, r⟩ = some (name, c') →
    r = placeholder name ++ c'.rest

theorem pass_braced_eq_self_iff : pass braced t = t ↔ PlainBraces t := by
  constructor
  · -- Plain braces weigh as much as they are replaced by, so the count alone does not show that
    -- each find is plain; the finds have to be gone through from the left.
    intro same u r name c' text found
    refine eq_append_of_spelled_eq (consumes_map consumes_braced) (opens_map opens_braced)
      (fun _ _ _ _ => placeholder_eq_or keeps_braced) (fun c a c' found => ?_) same u r
      (placeholder name) c' text (by rw [Option.or_none, map_apply, found]; rfl)
    obtain ⟨name, read, rfl⟩ := map_eq_some.mp found
    obtain ⟨n, rfl⟩ := names_braced _ _ _ read
    exact ⟨n.text ++ ['}'], rfl, by simp [n.notMem (y := '{') (by decide)]⟩
  · intro plain
    refine spelled_eq_self (consumes_map consumes_braced) fun u r a c' text found => ?_
    obtain ⟨name, read, rfl⟩ := map_eq_some.mp found
    rw [Option.or_none] at read
    exact plain u r name c' text read

/-! ### All passes -/

theorem forms_eq : forms =
    [bracketed, Route.dollar, angled anyConverter, braced, colonMarked, catchAllNamed] := rfl

theorem passes_eq_self_or {fs : List (Scanner Text)}
    (h : ∀ f ∈ fs, ∀ t, pass f t = t ∨ weight (pass f t) < weight t) (t : Text) :
    (∀ f ∈ fs, pass f t = t) ∧ fs.foldl (fun t f => pass f t) t = t ∨
      weight (fs.foldl (fun t f => pass f t) t) < weight t := by
  induction fs generalizing t with
  | nil => exact .inl ⟨fun _ h => absurd h List.not_mem_nil, rfl⟩
  | cons f fs ih =>
    have rest := ih (fun g hg => h g (List.mem_cons_of_mem f hg)) (pass f t)
    rw [List.foldl_cons]
    rcases h f List.mem_cons_self t with same | lighter
    · rw [same] at rest ⊢
      exact rest.imp_left fun ⟨all, folded⟩ => ⟨List.forall_mem_cons.mpr ⟨same, all⟩, folded⟩
    · refine .inr ?_
      rcases rest with ⟨_, folded⟩ | lighter'
      · rwa [folded]
      · omega

/-- Either no pass changes the text, or it becomes lighter. -/
theorem unify_eq_self_or (t : Text) :
    (∀ f ∈ forms, pass f t = t) ∧ unify t = t ∨ weight (unify t) < weight t := by
  refine passes_eq_self_or (fun f hf t => ?_) t
  rw [forms_eq] at hf
  simp only [List.mem_cons, List.not_mem_nil, or_false] at hf
  rcases hf with rfl | rfl | rfl | rfl | rfl | rfl
  · exact pass_eq_self_or consumes_bracketed (keeps_of_lightens lightens_bracketed) t
  · exact pass_eq_self_or consumes_dollar (keeps_of_lightens lightens_dollar) t
  · exact pass_eq_self_or consumes_anyConverter (keeps_of_lightens lightens_angled) t
  · exact pass_eq_self_or consumes_braced keeps_braced t
  · exact pass_eq_self_or consumes_colonMarked (keeps_of_lightens lightens_colonMarked) t
  · exact pass_eq_self_or consumes_catchAllNamed (keeps_of_lightens lightens_catchAllNamed) t

theorem unify_eq_self_iff : unify t = t ↔ ∀ f ∈ forms, pass f t = t := by
  constructor
  · intro same
    rcases unify_eq_self_or t with ⟨all, _⟩ | lighter
    · exact all
    · rw [same] at lighter
      exact absurd lighter (Nat.lt_irrefl _)
  · intro all
    have folded (fs : List (Scanner Text)) (h : ∀ f ∈ fs, pass f t = t) :
        fs.foldl (fun t f => pass f t) t = t := by
      induction fs with
      | nil => rfl
      | cons f fs ih =>
        rw [List.foldl_cons, h f List.mem_cons_self]
        exact ih fun g hg => h g (List.mem_cons_of_mem f hg)
    exact folded forms all

/-- A path that is its own template is changed by no step. -/
theorem steps_of_canonical_eq (h : canonical t = t) : strip t = t ∧ unify t = t := by
  have count : weight (unify (strip t)) = weight t :=
    calc weight (unify (strip t)) = weight (canonical t) := (weight_settled _).symm
      _ = weight t := congrArg weight h
  -- Weight that is lost to blanks is not given back by the passes.
  have stripped : strip t = t := by
    refine (strip_eq_self_or t).resolve_right fun lighter => ?_
    rcases unify_eq_self_or (strip t) with ⟨_, same⟩ | lighter'
    · rw [same] at count
      omega
    · omega
  rw [stripped] at count
  refine ⟨stripped, ?_⟩
  rcases unify_eq_self_or t with ⟨_, same⟩ | lighter
  · exact same
  · omega

end RouteAtlas.Route
