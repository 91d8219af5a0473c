import RouteAtlas.Text.Basic

/-!
# Splitting and joining

The pieces of a text hold no separator, and splitting gives back the pieces that were joined
(`split_join`). Heads, ends and occurrences are described by how the text is made up.
-/

namespace RouteAtlas.Text

variable {sep : Char} {t : Text}

/-- What holds of each character of a text can be decided by going through the text, where deciding
the statement as it stands would go through all characters. -/
theorem forall_of_all {p : Char → Prop} [DecidablePred p] (h : t.all fun x => decide (p x)) :
    ∀ x ∈ t, p x := fun x hx => of_decide_eq_true (List.all_eq_true.mp h x hx)

theorem forall_forall_of_all {ts : List Text} {p : Char → Prop} [DecidablePred p]
    (h : ts.all fun t => t.all fun x => decide (p x)) : ∀ t ∈ ts, ∀ x ∈ t, p x :=
  fun t ht => forall_of_all (List.all_eq_true.mp h t ht)

/-! ### Beginnings and ends -/

theorem before?_eq_some_iff {tail body : Text} : before? tail t = some body ↔ t = body ++ tail := by
  unfold before?
  rw [Option.map_eq_some_iff]
  constructor
  · rintro ⟨rest, found, rfl⟩
    rw [after?_eq_some_iff] at found
    rw [← List.reverse_reverse t, found, List.reverse_append, List.reverse_reverse]
  · rintro rfl
    exact ⟨body.reverse, by rw [List.reverse_append, after?_append], List.reverse_reverse body⟩

theorem before?_eq_none_of_notMem {tail : Text} {c : Char} (inside : c ∈ tail) (free : c ∉ t) :
    before? tail t = none := by
  rw [Option.eq_none_iff_forall_ne_some]
  intro body found
  rw [before?_eq_some_iff] at found
  exact free (found ▸ List.mem_append_right body inside)

theorem before?_eq_none_iff {tail : Text} : before? tail t = none ↔ ¬ tail <:+ t := by
  rw [Option.eq_none_iff_forall_ne_some]
  constructor
  · rintro none ⟨body, rfl⟩
    exact none body (before?_eq_some_iff.mpr rfl)
  · rintro other body found
    exact other ⟨body, (before?_eq_some_iff.mp found).symm⟩

theorem startsWith_iff {head : Text} : startsWith head t = true ↔ head <+: t := by
  rw [startsWith, Option.isSome_iff_exists]
  simp only [after?_eq_some_iff]
  exact ⟨fun ⟨rest, h⟩ => ⟨rest, h.symm⟩, fun ⟨rest, h⟩ => ⟨rest, h.symm⟩⟩

theorem endsWith_iff {tail : Text} : endsWith tail t = true ↔ tail <:+ t := by
  rw [endsWith, startsWith_iff, List.reverse_prefix]

theorem startsWith_singleton {c : Char} : startsWith [c] t = true ↔ t.head? = some c := by
  cases t with
  | nil => simp [startsWith, after?]
  | cons x t =>
    by_cases h : c = x
    · simp [startsWith, after?, h]
    · simp [startsWith, after?, h, Ne.symm h]

theorem endsWith_singleton {c : Char} : endsWith [c] t = true ↔ t.getLast? = some c := by
  rw [endsWith, List.reverse_singleton, startsWith_singleton, List.head?_reverse]

/-- A text without characters of the class at its ends is not trimmed. -/
theorem trim_of_edges {p : Char → Bool} (first : ∀ x ∈ t.head?, p x = false)
    (last : ∀ x ∈ t.getLast?, p x = false) : trim p t = t := by
  have keep (u : Text) (h : ∀ x ∈ u.head?, p x = false) : u.dropWhile p = u := by
    cases u with
    | nil => rfl
    | cons x u => exact List.dropWhile_cons_of_neg (by simp [h x rfl])
  rw [trim, keep t first, keep t.reverse (by rwa [List.head?_reverse]), List.reverse_reverse]

/-- Trimming stops at a stretch that neither begins nor ends with a character of the class. -/
theorem trim_append {p : Char → Bool} {w : Text} (nonempty : w ≠ [])
    (first : ∀ x ∈ w.head?, p x = false) (last : ∀ x ∈ w.getLast?, p x = false) (u v : Text) :
    trim p (u ++ (w ++ v)) = u.dropWhile p ++ (w ++ (v.reverse.dropWhile p).reverse) := by
  have keep (a b : Text) (h : ∀ x ∈ b.head?, p x = false) :
      (a ++ b).dropWhile p = a.dropWhile p ++ b := by
    have same : b.dropWhile p = b := by
      cases b with
      | nil => rfl
      | cons x b => exact List.dropWhile_cons_of_neg (by simp [h x rfl])
    rw [List.dropWhile_append, same]
    cases none : (a.dropWhile p).isEmpty with
    | true => rw [if_pos rfl, List.isEmpty_iff.mp none, List.nil_append]
    | false => rfl
  have front : ∀ x ∈ (w ++ v).head?, p x = false := by
    cases w with
    | nil => exact absurd rfl nonempty
    | cons y w => exact first
  have back : ∀ x ∈ (w.reverse ++ (u.dropWhile p).reverse).head?, p x = false := by
    rw [← List.reverse_append, List.head?_reverse]
    intro x hx
    obtain ⟨y, final⟩ := Option.isSome_iff_exists.mp (List.getLast?_isSome.mpr nonempty)
    rw [List.getLast?_append, final] at hx
    exact last x (final.trans hx)
  rw [trim, keep u _ front, List.reverse_append, List.reverse_append, List.append_assoc,
    keep _ _ back]
  simp

/-! ### Splitting -/

theorem split_sep_cons (sep : Char) (t : Text) : split sep (sep :: t) = [] :: split sep t := by
  rw [split]
  cases h : split sep t with
  | nil => exact absurd h (split_ne_nil sep t)
  | cons word words => simp

theorem split_cons_of_ne {c : Char} (h : c ≠ sep) (t : Text) :
    ∃ word words, split sep t = word :: words ∧ split sep (c :: t) = (c :: word) :: words := by
  cases found : split sep t with
  | nil => exact absurd found (split_ne_nil sep t)
  | cons word words => exact ⟨word, words, rfl, by rw [split, found]; simp [h]⟩

theorem sep_notMem_of_mem_split {word : Text} (h : word ∈ split sep t) : sep ∉ word := by
  induction t generalizing word with
  | nil =>
    obtain rfl := List.mem_singleton.mp h
    exact List.not_mem_nil
  | cons c t ih =>
    by_cases hc : c = sep
    · subst hc
      rw [split_sep_cons] at h
      rcases List.mem_cons.mp h with rfl | h
      · exact List.not_mem_nil
      · exact ih h
    · obtain ⟨first, words, found, same⟩ := split_cons_of_ne hc t
      rw [same] at h
      rw [found] at ih
      rcases List.mem_cons.mp h with rfl | h
      · rintro (_ | ⟨_, inside⟩)
        · exact hc rfl
        · exact ih List.mem_cons_self inside
      · exact ih (List.mem_cons_of_mem first h)

theorem split_append_sep {word : Text} (free : sep ∉ word) (t : Text) :
    split sep (word ++ sep :: t) = word :: split sep t := by
  induction word with
  | nil => exact split_sep_cons sep t
  | cons c word ih =>
    have hc : c ≠ sep := fun e => free (e ▸ List.mem_cons_self)
    obtain ⟨first, words, found, same⟩ := split_cons_of_ne hc (word ++ sep :: t)
    rw [ih fun h => free (List.mem_cons_of_mem c h)] at found
    obtain ⟨rfl, rfl⟩ := List.cons.inj found
    exact same

/-- A separator splits a text into two that are split each on its own. -/
theorem split_append_sep_append (sep : Char) (t u : Text) :
    split sep (t ++ sep :: u) = split sep t ++ split sep u := by
  induction t with
  | nil => exact split_sep_cons sep u
  | cons c t ih =>
    by_cases hc : c = sep
    · subst hc
      rw [List.cons_append, split_sep_cons, split_sep_cons, ih, List.cons_append]
    · obtain ⟨first, words, found, same⟩ := split_cons_of_ne hc t
      obtain ⟨first', words', found', same'⟩ := split_cons_of_ne hc (t ++ sep :: u)
      rw [ih, found, List.cons_append] at found'
      obtain ⟨rfl, rfl⟩ := List.cons.inj found'
      rw [List.cons_append, same', same, List.cons_append]

theorem split_of_notMem (free : sep ∉ t) : split sep t = [t] := by
  induction t with
  | nil => rfl
  | cons c t ih =>
    have hc : c ≠ sep := fun e => free (e ▸ List.mem_cons_self)
    obtain ⟨first, words, found, same⟩ := split_cons_of_ne hc t
    rw [ih fun h => free (List.mem_cons_of_mem c h)] at found
    obtain ⟨rfl, rfl⟩ := List.cons.inj found
    exact same

/-! ### Joining -/

theorem join_cons_cons (sep word next : Text) (words : List Text) :
    join sep (word :: next :: words) = word ++ (sep ++ join sep (next :: words)) := by
  rw [join, List.append_assoc]
  exact List.cons_ne_nil next words

theorem join_append (sep : Text) {us vs : List Text} (hu : us ≠ []) (hv : vs ≠ []) :
    join sep (us ++ vs) = join sep us ++ (sep ++ join sep vs) := by
  induction us with
  | nil => exact absurd rfl hu
  | cons u us ih =>
    cases us with
    | nil =>
      obtain ⟨v, vs, rfl⟩ := List.exists_cons_of_ne_nil hv
      exact join_cons_cons sep u v vs
    | cons next us =>
      rw [List.cons_append, List.cons_append, join_cons_cons, join_cons_cons, ← List.cons_append,
        ih (List.cons_ne_nil next us), List.append_assoc, List.append_assoc]

theorem split_join {words : List Text} (nonempty : words ≠ []) (free : ∀ w ∈ words, sep ∉ w) :
    split sep (join [sep] words) = words := by
  induction words with
  | nil => exact absurd rfl nonempty
  | cons word words ih =>
    cases words with
    | nil => exact split_of_notMem (free word List.mem_cons_self)
    | cons next words =>
      rw [join_cons_cons, List.singleton_append, split_append_sep (free word List.mem_cons_self),
        ih (List.cons_ne_nil next words) fun w hw => free w (List.mem_cons_of_mem word hw)]

theorem join_injective {us vs : List Text} (hu : us ≠ []) (hv : vs ≠ [])
    (freeU : ∀ w ∈ us, sep ∉ w) (freeV : ∀ w ∈ vs, sep ∉ w)
    (same : join [sep] us = join [sep] vs) : us = vs := by
  rw [← split_join hu freeU, same, split_join hv freeV]

theorem mem_join {c : Char} {words : List Text} (h : c ∈ join [sep] words) :
    c = sep ∨ ∃ w ∈ words, c ∈ w := by
  induction words with
  | nil => cases h
  | cons word words ih =>
    cases words with
    | nil => exact .inr ⟨word, List.mem_cons_self, h⟩
    | cons next words =>
      rw [join_cons_cons, List.mem_append, List.mem_append, List.mem_singleton] at h
      rcases h with inside | here | h
      · exact .inr ⟨word, List.mem_cons_self, inside⟩
      · exact .inl here
      · rcases ih h with here | ⟨w, member, inside⟩
        · exact .inl here
        · exact .inr ⟨w, List.mem_cons_of_mem word member, inside⟩

theorem head?_join {c : Char} {words : List Text} (h : (join [sep] words).head? = some c) :
    c = sep ∨ ∃ w ∈ words, w.head? = some c := by
  cases words with
  | nil => cases h
  | cons word words =>
    cases words with
    | nil => exact .inr ⟨word, List.mem_cons_self, h⟩
    | cons next words =>
      rw [join_cons_cons, List.head?_append, List.singleton_append, List.head?_cons] at h
      cases found : word.head? with
      | none =>
        rw [found] at h
        exact .inl (Option.some.inj h).symm
      | some x => exact .inr ⟨word, List.mem_cons_self, by rw [found] at h ⊢; exact h⟩

theorem getLast?_join {c : Char} {words : List Text} (h : (join [sep] words).getLast? = some c) :
    c = sep ∨ ∃ w ∈ words, w.getLast? = some c := by
  induction words with
  | nil => cases h
  | cons word words ih =>
    cases words with
    | nil => exact .inr ⟨word, List.mem_cons_self, h⟩
    | cons next words =>
      rw [join_cons_cons, List.getLast?_append, List.getLast?_append] at h
      cases found : (join [sep] (next :: words)).getLast? with
      | none =>
        rw [found] at h
        exact .inl (Option.some.inj h).symm
      | some x =>
        rw [found] at h
        rcases ih (found.trans h) with same | ⟨w, member, last⟩
        · exact .inl same
        · exact .inr ⟨w, List.mem_cons_of_mem word member, last⟩

/-! ### Stretches without separators -/

theorem infix_join {word : Text} {words : List Text} (h : word ∈ words) :
    word <:+: join [sep] words := by
  induction words with
  | nil => cases h
  | cons first words ih =>
    cases words with
    | nil =>
      obtain rfl := List.mem_singleton.mp h
      exact List.infix_rfl
    | cons next words =>
      rw [join_cons_cons]
      rcases List.mem_cons.mp h with rfl | h
      · exact (List.prefix_append _ _).isInfix
      · have inside := (ih h).trans (List.suffix_append [sep] _).isInfix
        exact inside.trans (List.suffix_append _ _).isInfix

theorem prefix_split {w : Text} (free : sep ∉ w) (h : w <+: t) :
    ∃ word words, split sep t = word :: words ∧ w <+: word := by
  induction w generalizing t with
  | nil =>
    cases found : split sep t with
    | nil => exact absurd found (split_ne_nil sep t)
    | cons word words => exact ⟨word, words, rfl, List.nil_prefix⟩
  | cons x w ih =>
    obtain ⟨v, rfl⟩ := h
    obtain ⟨word, words, found, start⟩ :=
      ih (fun inside => free (List.mem_cons_of_mem x inside)) (List.prefix_append w v)
    have hx : x ≠ sep := fun e => free (e ▸ List.mem_cons_self)
    obtain ⟨word', words', found', whole⟩ := split_cons_of_ne hx (w ++ v)
    obtain ⟨rfl, rfl⟩ := List.cons.inj (found'.symm.trans found)
    exact ⟨_, _, whole, List.cons_prefix_cons.mpr ⟨rfl, start⟩⟩

/-- A stretch without separators lies in one of the pieces. -/
theorem infix_iff_split {w : Text} (nonempty : w ≠ []) (free : sep ∉ w) :
    w <:+: t ↔ ∃ v ∈ split sep t, w <:+: v := by
  constructor
  · intro h
    induction t with
    | nil => exact absurd (List.infix_nil.mp h) nonempty
    | cons x t ih =>
      rcases List.infix_cons_iff.mp h with front | behind
      · obtain ⟨word, words, found, start⟩ := prefix_split free front
        exact ⟨word, found ▸ List.mem_cons_self, start.isInfix⟩
      · obtain ⟨v, member, inside⟩ := ih behind
        by_cases hx : x = sep
        · exact ⟨v, by rw [hx, split_sep_cons]; exact List.mem_cons_of_mem _ member, inside⟩
        · obtain ⟨word, words, found, whole⟩ := split_cons_of_ne hx t
          rw [found] at member
          rw [whole]
          rcases List.mem_cons.mp member with rfl | member
          · exact ⟨_, List.mem_cons_self, inside.trans (List.suffix_cons x _).isInfix⟩
          · exact ⟨v, List.mem_cons_of_mem _ member, inside⟩
  · rintro ⟨v, member, inside⟩
    exact inside.trans (join_split sep t ▸ infix_join member)

end RouteAtlas.Text
