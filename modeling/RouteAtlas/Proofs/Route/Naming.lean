import RouteAtlas.Route.Mount
import RouteAtlas.Proofs.Route.Survival
import RouteAtlas.Proofs.Route.Trimmed

/-!
# The names of a path and of its template

For each notation: a name that can be read in a path, where the path is free of the notations whose
passes could take it first, is a name of the template of the path. A path that is mounted below a
base path keeps the names it has (`fitsAt_colon_mounted`).
-/

namespace RouteAtlas.Route

open Scanner Text

variable {path a : Text}

/-! ### One notation -/

theorem notMem_strip {marks : Text} (free : ∀ x ∈ marks, x ∉ path) {x : Char} (h : x ∈ marks) :
    x ∉ strip path := fun inside => free x h (mem_of_mem_strip inside)

theorem unify_of_free {t : Text} (bracket : '[' ∉ t) (dollar : '$' ∉ t) (angle : '<' ∉ t)
    (brace : '{' ∉ t) : unify t = pass catchAllNamed (pass colonMarked t) := by
  rw [unify_eq_passes, pass_of_notMem opens_bracketed bracket, pass_of_notMem opens_dollar dollar,
    pass_of_notMem (opens_angled _) angle, pass_of_notMem opens_braced brace]

theorem mem_parameterNames_of_colon (free : ∀ x ∈ ("[$<\x7b" : Text), x ∉ path)
    (fits : FitsAt colon none path a) : a ∈ parameterNames (canonical path) := by
  have marked := fitsAt_colonMarked_iff.mpr (fitsAt_strip robust_colon fits)
  have found : a ∈ colonMarked.findAll (strip path) := by
    refine mem_finds_of_fitsAt consumes_colonMarked (x := ':') (fun u r a c' _ found => ?_) marked
    obtain ⟨n, mark, _, question, text⟩ := colonMarked_shape found
    refine ⟨n.text ++ mark, ?_, by rw [text]; simp⟩
    rcases question with rfl | rfl <;> simp [n.notMem (y := ':') (by decide)]
  obtain ⟨n, rfl⟩ := gives_findAll names_colonMarked found
  apply mem_parameterNames
  rw [unify_of_free (notMem_strip free (by decide)) (notMem_strip free (by decide))
    (notMem_strip free (by decide)) (notMem_strip free (by decide))]
  exact infix_pass_of_avoids consumes_catchAllNamed opens_catchAllNamed
    (avoids_catchAllNamed (by decide)) (notMem_placeholder (by decide) (by decide))
    (infix_pass_of_mem_findAll consumes_colonMarked found)

theorem mem_parameterNames_of_catchAll (free : ∀ x ∈ ("[$<\x7b" : Text), x ∉ path)
    (fits : FitsAt catchAll none path ()) : pathName.text ∈ parameterNames (canonical path) := by
  obtain ⟨u, r, c', whole, found⟩ := fitsAt_strip robust_catchAll fits
  obtain ⟨w, known, rfl⟩ := catchAll_shape found
  -- The pass of the colons leaves the catch-all alone.
  have kept : w <:+: pass colonMarked (strip path) := by
    have inside : w <:+: strip path := ⟨u, c'.rest, by rw [whole, List.append_assoc]⟩
    rcases known with rfl | rfl <;>
      exact infix_pass_of_avoids consumes_colonMarked opens_colonMarked
        (avoids_colonMarked (by decide) (by decide)) (by decide) inside
  have found : pathName.text ∈ catchAllNamed.findAll (pass colonMarked (strip path)) := by
    refine mem_finds_of_fitsAt consumes_catchAllNamed (x := '(') (fun u r a c' _ found => ?_) ?_
    · obtain ⟨_, w, known, text⟩ := catchAllNamed_shape found
      rcases known with rfl | rfl
      · exact ⟨".*)", by decide, text⟩
      · exact ⟨".+)", by decide, text⟩
    · obtain ⟨u, v, same⟩ := kept
      rw [List.append_assoc] at same
      refine ⟨u, w ++ v, ⟨some ')', v⟩, same.symm, ?_⟩
      rcases known with rfl | rfl
      · exact bind_eq_some.mpr ⟨(), _, catchAll_star, rfl⟩
      · exact bind_eq_some.mpr ⟨(), _, catchAll_plus, rfl⟩
  apply mem_parameterNames
  rw [unify_of_free (notMem_strip free (by decide)) (notMem_strip free (by decide))
    (notMem_strip free (by decide)) (notMem_strip free (by decide))]
  exact infix_pass_of_mem_findAll consumes_catchAllNamed found

theorem mem_parameterNames_of_angled (free : ∀ x ∈ ("[$\x7b" : Text), x ∉ path)
    (fits : FitsAt (angled anyConverter) none (strip path) a) :
    a ∈ parameterNames (canonical path) := by
  have found : a ∈ (angled anyConverter).findAll (strip path) := by
    refine mem_finds_of_fitsAt consumes_anyConverter (x := '<') (fun u r a c' _ found => ?_) fits
    obtain ⟨n, type, _, typed, text⟩ := angled_shape readsName_anyConverter found
    have name : '<' ∉ n.text := n.notMem (by decide)
    refine ⟨type ++ (n.text ++ ['>']), ?_, by rw [text]; simp⟩
    rcases typed with rfl | ⟨t, rfl⟩
    · simp [name]
    · simp [name, t.notMem (y := '<') (by decide)]
  have names := names_angled readsName_anyConverter
  obtain ⟨n, rfl⟩ := gives_findAll names found
  apply mem_parameterNames
  rw [unify_eq_passes, pass_of_notMem opens_bracketed (notMem_strip free (by decide)),
    pass_of_notMem opens_dollar (notMem_strip free (by decide)),
    pass_braced consumes_anyConverter names (notMem_strip free (by decide))]
  exact infix_last_passes (infix_pass_of_mem_findAll consumes_anyConverter found)

theorem mem_parameterNames_of_dollar (free : ∀ x ∈ ("[<\x7b" : Text), x ∉ path)
    (fits : FitsAt Route.dollar none (strip path) a) : a ∈ parameterNames (canonical path) := by
  have angle : '<' ∉ strip path := notMem_strip free (by decide)
  -- A constraint could hold a second `$`, but without `<` there is none.
  have found : a ∈ Route.dollar.findAll (strip path) := by
    refine mem_finds_of_fitsAt consumes_dollar (x := '$') (fun u r a c' whole found => ?_) fits
    obtain ⟨n, bound, _, bounded, text⟩ := dollar_shape found
    rcases bounded with rfl | ⟨w, _, rfl⟩
    · exact ⟨n.text, n.notMem (by decide), text⟩
    · have whole : strip path = u ++ r := whole
      exact absurd (by rw [whole, text]; simp) angle
  obtain ⟨n, rfl⟩ := gives_findAll names_dollar found
  have later : '<' ∉ pass Route.dollar (strip path) :=
    notMem_pass consumes_dollar names_dollar (by decide) (by decide) angle
  apply mem_parameterNames
  rw [unify_eq_passes, pass_of_notMem opens_bracketed (notMem_strip free (by decide)),
    pass_of_notMem (opens_angled _) later,
    pass_braced consumes_dollar names_dollar (notMem_strip free (by decide))]
  exact infix_last_passes (infix_pass_of_mem_findAll consumes_dollar found)

theorem mem_parameterNames_of_braced (free : ∀ x ∈ ("[$<" : Text), x ∉ path)
    (found : a ∈ braced.findAll path) : a ∈ parameterNames (canonical path) := by
  rw [← findAll_braced_strip] at found
  obtain ⟨n, rfl⟩ := gives_findAll names_braced found
  apply mem_parameterNames
  rw [unify_eq_passes, pass_of_notMem opens_bracketed (notMem_strip free (by decide)),
    pass_of_notMem opens_dollar (notMem_strip free (by decide)),
    pass_of_notMem (opens_angled _) (notMem_strip free (by decide))]
  exact infix_last_passes (infix_pass_of_mem_findAll consumes_braced found)

/-! ### Mounted paths -/

theorem stops_squeeze {p : Char → Bool} {t : Text} (stop : Stops p t) : Stops p (squeeze t) := by
  intro x hx
  rw [head?_squeeze] at hx
  exact stop x hx

theorem fitsAt_colon_mounted (base : Text) (fits : FitsAt colon none path a) :
    FitsAt colon none (mounted base path) a := by
  obtain ⟨u, r, c', rfl, found⟩ := fits
  obtain ⟨n, rfl, free, stop, rfl⟩ := colon_shape found
  have long : ¬(u ++ ':' :: (n.text ++ c'.rest) = [] ∨
      u ++ ':' :: (n.text ++ c'.rest) = ("/" : Text)) := by
    rintro (none | slash)
    · simp at none
    · have inside : ':' ∈ ("/" : Text) := slash ▸ List.mem_append_right u List.mem_cons_self
      exact absurd inside (by decide)
  generalize hb : collapsed (if base = "/" then [] else base) = b
  -- Slashes are squeezed on both sides of the name only; before it stands what stood there, or the
  -- slash of the junction.
  have name : '/' ∉ ':' :: n.text := by simp [n.notMem (y := '/') (by decide)]
  have whole : mounted base (u ++ ':' :: (n.text ++ c'.rest)) =
      squeeze (b ++ '/' :: u) ++ ':' :: (n.text ++ squeeze c'.rest) := by
    have cut : b ++ '/' :: (u ++ ':' :: (n.text ++ c'.rest)) =
        (b ++ '/' :: u) ++ ':' :: (n.text ++ c'.rest) := by simp
    have squeezed := squeeze_append name c'.rest
    rw [List.cons_append] at squeezed
    simp only [mounted, hb, if_neg long]
    rw [cut, squeeze_append_cons (by decide), squeezed, if_neg (by simp)]
    rfl
  refine ⟨_, _, _, whole, colon_name (fun x hx => ?_) (stops_squeeze stop)⟩
  rw [Option.mem_def, getLast?_squeeze, Option.or_none, List.getLast?_append,
    List.getLast?_cons] at hx
  cases last : u.getLast? with
  | none =>
    rw [last] at hx
    obtain rfl := Option.some.inj hx
    decide
  | some y =>
    rw [last] at hx
    obtain rfl := Option.some.inj hx
    exact free _ (by rw [last]; rfl)

variable {x : Char}

theorem mem_of_mem_squeeze {t : Text} (h : x ∈ squeeze t) : x ∈ t := by
  induction t with
  | nil => exact h
  | cons c t ih =>
    rw [squeeze] at h
    split at h
    · exact List.mem_cons_of_mem c (ih h)
    · exact List.mem_cons.mpr ((List.mem_cons.mp h).imp_right ih)

theorem mem_of_mem_rooted {t : Text} (h : x ∈ rooted t) : x = '/' ∨ x ∈ t := by
  unfold rooted at h
  split at h
  · exact .inr h
  · exact List.mem_cons.mp h

theorem mem_of_mem_collapsed {t : Text} (h : x ∈ collapsed t) : x = '/' ∨ x ∈ t := by
  unfold collapsed at h
  split at h
  · rename_i last previous more found
    split at h
    · rcases mem_join h with slash | ⟨w, member, inside⟩
      · exact .inl slash
      · have piece : w ∈ split '/' t := by
          rw [← List.mem_reverse, found]
          exact List.mem_cons_of_mem last (List.mem_reverse.mp member)
        have whole : join ['/'] (split '/' t) = t := join_split '/' t
        exact .inr (whole ▸ (infix_join piece).subset inside)
    · exact .inr h
  · exact .inr h

theorem mem_of_mem_mounted {base : Text} (h : x ∈ mounted base path) :
    x = '/' ∨ x ∈ base ∨ x ∈ path := by
  have front : x ∈ collapsed (if base = "/" then [] else base) → x = '/' ∨ x ∈ base := by
    intro h
    refine (mem_of_mem_collapsed h).imp_right fun h => ?_
    split at h
    · cases h
    · exact h
  have shown {t : Text} (h : x ∈ if squeeze t = [] then ("/" : Text) else squeeze t) :
      x = '/' ∨ x ∈ t := by
    split at h
    · exact .inl (List.mem_singleton.mp h)
    · exact .inr (mem_of_mem_squeeze h)
  rcases shown h with slash | h
  · exact .inl slash
  · split at h
    · exact (front h).imp_right .inl
    · rcases List.mem_append.mp h with h | h
      · exact (front h).imp_right .inl
      · exact (List.mem_cons.mp h).imp_right .inr

theorem mem_of_mem_withoutDots {t : Text} (h : x ∈ Tree.withoutDots t) : x ∈ t := by
  induction t using Tree.withoutDots.induct with
  | case1 rest ih =>
    rw [Tree.withoutDots] at h
    exact List.mem_cons_of_mem _ (List.mem_cons_of_mem _ (ih h))
  | case2 t other =>
    rwa [Tree.withoutDots] at h
    exact other

theorem mem_of_mem_plain {t : Text} (h : x ∈ Tree.plain t) : x = '/' ∨ x ∈ t := by
  obtain ⟨c, member, same⟩ := List.mem_map.mp (mem_of_mem_withoutDots h)
  split at same
  · exact .inl same.symm
  · exact .inr (same ▸ member)

theorem mem_of_below? {mount t rest : Text} (found : below? mount t = some rest) (h : x ∈ rest) :
    x ∈ t := by
  unfold below? at found
  split at found
  · cases found
    cases h
  · rename_i r after
    obtain rfl := Option.some.inj found
    rw [after?_eq_some_iff.mp after]
    exact List.mem_append_right mount h
  · cases found

theorem mem_of_mem_dropSuffix {endings : List Text} {t : Text} (h : x ∈ dropSuffix endings t) :
    x ∈ t := by
  have body {t : Text} (h : x ∈ (endings.findSome? (before? · t)).getD t) : x ∈ t := by
    cases found : endings.findSome? (before? · t) with
    | none => rwa [found] at h
    | some r =>
      obtain ⟨ending, _, cut⟩ := List.exists_of_findSome?_eq_some found
      rw [found] at h
      rw [before?_eq_some_iff.mp cut]
      exact List.mem_append_left ending h
  unfold dropSuffix at h
  split at h
  rename_i front last found
  split at found
  · rename_i r cut
    obtain ⟨rfl, rfl⟩ := Prod.mk.inj found
    rw [before?_eq_some_iff.mp cut]
    exact List.mem_append.mpr ((List.mem_append.mp h).imp_left body)
  · obtain ⟨rfl, rfl⟩ := Prod.mk.inj found
    exact body (by simpa using h)

theorem mem_of_mem_locationPath {file : Text} (h : x ∈ locationPath file) : x = '/' ∨ x ∈ file := by
  have dropped (groups : List (List Text)) (t : Text)
      (h : x ∈ groups.foldl (fun path endings => dropSuffix endings path) t) : x ∈ t := by
    induction groups generalizing t with
    | nil => exact h
    | cons endings groups ih => exact mem_of_mem_dropSuffix (ih _ h)
  have stripped (t : Text) (h : x ∈ (mounts.findSome? (below? · t)).getD t) : x ∈ t := by
    cases found : mounts.findSome? (below? · t) with
    | none => rwa [found] at h
    | some r =>
      obtain ⟨mount, _, below⟩ := List.exists_of_findSome?_eq_some found
      rw [found] at h
      exact mem_of_below? below h
  simp only [locationPath] at h
  split at h
  · exact .inl (List.mem_singleton.mp h)
  · rcases mem_of_mem_rooted h with slash | h
    · exact .inl slash
    · exact mem_of_mem_plain (stripped _ (dropped _ _ h))

end RouteAtlas.Route
