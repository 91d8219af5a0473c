import RouteAtlas.Route.Template
import RouteAtlas.Proofs.Text.Splitting

/-!
# The slashes of a template

`settled_eq` says what the last steps of `canonical` do: the non-empty parts between slashes stay,
with one slash in front of each. Every template therefore has the shape `IsTemplate`.
-/

namespace RouteAtlas.Route

open Text

/-- The non-empty parts between the slashes of a path. -/
def parts (path : Text) : List Text := (split '/' path).filter (· ≠ [])

def slashed (vs : List Text) : Text := vs.flatMap ('/' :: ·)

theorem slashed_cons (v : Text) (vs : List Text) : slashed (v :: vs) = '/' :: v ++ slashed vs := rfl

theorem slashed_eq_join {vs : List Text} (h : vs ≠ []) : slashed vs = '/' :: join "/" vs := by
  induction vs with
  | nil => exact absurd rfl h
  | cons v vs ih =>
    cases vs with
    | nil => simp [slashed, join]
    | cons w vs =>
      rw [slashed_cons, ih (List.cons_ne_nil w vs), join_cons_cons]
      simp

theorem getLast?_slashed {v : Text} (h : v ≠ []) (vs : List Text) :
    (slashed (vs ++ [v])).getLast? = v.getLast? := by
  obtain ⟨x, last⟩ := Option.isSome_iff_exists.mp (List.getLast?_isSome.mpr h)
  simp [slashed, List.getLast?_append, List.getLast?_cons_of_ne_nil h, last]

/-! ### Runs of slashes -/

theorem squeeze_append {w : Text} (free : '/' ∉ w) (r : Text) :
    squeeze (w ++ r) = w ++ squeeze r := by
  induction w with
  | nil => rfl
  | cons c w ih =>
    have hc : c ≠ '/' := fun e => free (e ▸ List.mem_cons_self)
    rw [List.cons_append, squeeze, if_neg fun h => hc h.1,
      ih fun h => free (List.mem_cons_of_mem c h), List.cons_append]

theorem squeeze_slash_slash (r : Text) : squeeze ('/' :: '/' :: r) = squeeze ('/' :: r) := by
  rw [squeeze, if_pos ⟨rfl, rfl⟩]

theorem squeeze_slash {r : Text} (h : r.head? ≠ some '/') :
    squeeze ('/' :: r) = '/' :: squeeze r := by
  rw [squeeze, if_neg fun e => h e.2]

theorem head?_squeeze (t : Text) : (squeeze t).head? = t.head? := by
  induction t with
  | nil => rfl
  | cons c t ih =>
    rw [squeeze]
    split
    · rename_i h
      rw [ih, h.2, h.1, List.head?_cons]
    · rfl

theorem getLast?_squeeze (t : Text) : (squeeze t).getLast? = t.getLast? := by
  induction t with
  | nil => rfl
  | cons c t ih =>
    rw [squeeze, List.getLast?_cons, ← ih]
    split
    · rename_i h
      rw [← head?_squeeze] at h
      obtain ⟨u, whole⟩ := List.head?_eq_some_iff.mp h.2
      rw [whole, List.getLast?_cons]
      rfl
    · rw [List.getLast?_cons]

/-- A run of slashes ends before any other character. -/
theorem squeeze_append_cons {c : Char} (other : c ≠ '/') (t u : Text) :
    squeeze (t ++ c :: u) = squeeze t ++ squeeze (c :: u) := by
  induction t with
  | nil => rfl
  | cons d t ih =>
    have same : (d = '/' ∧ (t ++ c :: u).head? = some '/') ↔ (d = '/' ∧ t.head? = some '/') := by
      cases t <;> simp [other]
    rw [List.cons_append, squeeze, squeeze, ih]
    simp only [same]
    split <;> rfl

/-- The slash that is left at the end where the last part is empty. -/
def closing (ws : List Text) : Text := if ws.getLast? = some [] then "/" else []

/-- Shortening runs of slashes takes the empty parts away, except for the last one. -/
theorem squeeze_join {ws : List Text} (nonempty : ws ≠ []) (free : ∀ w ∈ ws, '/' ∉ w) :
    squeeze ('/' :: join "/" ws) = slashed (ws.filter (· ≠ [])) ++ closing ws := by
  induction ws with
  | nil => exact absurd rfl nonempty
  | cons w ws ih =>
    have head : w ≠ [] → ∀ r, (w ++ r).head? ≠ some '/' := by
      intro hw r same
      cases w with
      | nil => exact hw rfl
      | cons c w =>
        obtain rfl := Option.some.inj same
        exact free _ List.mem_cons_self List.mem_cons_self
    cases ws with
    | nil =>
      by_cases hw : w = []
      · subst hw
        decide
      · have shut : closing [w] = [] := by simp [closing, hw]
        have kept : [w].filter (· ≠ []) = [w] := by simp [hw]
        have here := head hw []
        have same := squeeze_append (free w List.mem_cons_self) []
        rw [List.append_nil] at here same
        rw [join, squeeze_slash here, same, shut, kept, squeeze]
        simp [slashed]
    | cons v ws =>
      have rest := ih (List.cons_ne_nil v ws) fun u hu => free u (List.mem_cons_of_mem w hu)
      have shut : closing (w :: v :: ws) = closing (v :: ws) := by
        simp only [closing, List.getLast?_cons_cons]
      rw [join_cons_cons, shut]
      by_cases hw : w = []
      · subst hw
        have kept : ([] :: v :: ws).filter (· ≠ []) = (v :: ws).filter (· ≠ []) := rfl
        rw [kept, ← rest]
        exact squeeze_slash_slash _
      · have kept : (w :: v :: ws).filter (· ≠ []) = w :: (v :: ws).filter (· ≠ []) := by simp [hw]
        rw [squeeze_slash (head hw _), squeeze_append (free w List.mem_cons_self), kept,
          slashed_cons, List.append_assoc, ← rest]
        rfl

theorem unclosed_of_getLast? {t : Text} (h : t.getLast? ≠ some '/') : unclosed t = t := by
  unfold unclosed
  split
  · cases found : before? "/" t with
    | none => rfl
    | some body =>
      rw [before?_eq_some_iff] at found
      exact absurd (by rw [found]; simp) h
  · rfl

theorem unclosed_append_slash {t : Text} (h : t ≠ []) : unclosed (t ++ "/") = t := by
  have long : (t ++ "/").length > 1 := by
    have : 0 < t.length := List.length_pos_iff.mpr h
    simp
    omega
  rw [unclosed, if_pos long, before?_eq_some_iff.mpr rfl, Option.getD_some]

theorem rooted_eq (t : Text) : ∃ u, rooted t = '/' :: u ∧ parts u = parts t := by
  unfold rooted
  split
  · rename_i h
    obtain ⟨u, rfl⟩ := List.head?_eq_some_iff.mp h
    refine ⟨u, rfl, ?_⟩
    rw [parts, parts, split_sep_cons]
    rfl
  · exact ⟨t, rfl, rfl⟩

theorem mem_parts {t v : Text} (h : v ∈ parts t) : v ≠ [] ∧ '/' ∉ v := by
  obtain ⟨member, nonempty⟩ := List.mem_filter.mp h
  exact ⟨by simpa using nonempty, sep_notMem_of_mem_split member⟩

theorem parts_slash (t : Text) : parts ('/' :: t) = parts t := by
  rw [parts, parts, split_sep_cons]
  rfl

theorem parts_append (t u : Text) : parts (t ++ '/' :: u) = parts t ++ parts u := by
  rw [parts, split_append_sep_append, List.filter_append]
  rfl

theorem parts_join {vs : List Text} (h : ∀ v ∈ vs, v ≠ [] ∧ '/' ∉ v) :
    parts (join "/" vs) = vs := by
  by_cases nonempty : vs = []
  · subst nonempty
    rfl
  · have whole : split '/' (join "/" vs) = vs := split_join nonempty fun v hv => (h v hv).2
    rw [parts, whole, List.filter_eq_self]
    intro v hv
    simp [(h v hv).1]

/-- Shortening runs of slashes keeps the first stretch and the parts behind it. -/
theorem split_squeeze (t : Text) : ∃ w ws ws', split '/' t = w :: ws ∧
    split '/' (squeeze t) = w :: ws' ∧ ws.filter (· ≠ []) = ws'.filter (· ≠ []) := by
  induction t with
  | nil => exact ⟨[], [], [], rfl, rfl, rfl⟩
  | cons c t ih =>
    obtain ⟨w, ws, ws', before, after, same⟩ := ih
    by_cases slash : c = '/'
    · subst slash
      by_cases next : t.head? = some '/'
      · obtain ⟨r, rfl⟩ := List.head?_eq_some_iff.mp next
        rw [split_sep_cons] at before
        obtain ⟨rfl, rfl⟩ := List.cons.inj before
        rw [squeeze, if_pos ⟨rfl, next⟩]
        exact ⟨[], _, ws', split_sep_cons '/' _, after, by rw [split_sep_cons]; simpa using same⟩
      · rw [squeeze_slash next, split_sep_cons, split_sep_cons, before, after]
        exact ⟨[], w :: ws, w :: ws', rfl, rfl, by simp only [List.filter_cons, same]⟩
    · rw [squeeze, if_neg fun h => slash h.1]
      obtain ⟨v, vs, found, whole⟩ := split_cons_of_ne slash t
      obtain ⟨v', vs', found', whole'⟩ := split_cons_of_ne slash (squeeze t)
      obtain ⟨rfl, rfl⟩ := List.cons.inj (found.symm.trans before)
      obtain ⟨rfl, rfl⟩ := List.cons.inj (found'.symm.trans after)
      exact ⟨_, _, _, whole, whole', same⟩

theorem parts_squeeze (t : Text) : parts (squeeze t) = parts t := by
  obtain ⟨w, ws, ws', before, after, same⟩ := split_squeeze t
  rw [parts, parts, before, after, List.filter_cons, List.filter_cons, same]

/-- Settling the slashes leaves the non-empty parts, with one slash in front of each. -/
theorem settled_eq (t : Text) : unclosed (squeeze (rooted t)) = '/' :: join "/" (parts t) := by
  obtain ⟨u, same, equal⟩ := rooted_eq t
  rw [same, ← equal]
  have settled := squeeze_join (split_ne_nil '/' u) fun w => sep_notMem_of_mem_split
  have whole : join "/" (split '/' u) = u := join_split '/' u
  rw [whole] at settled
  change squeeze ('/' :: u) = slashed (parts u) ++ closing (split '/' u) at settled
  rw [settled]
  rcases List.eq_nil_or_concat (parts u) with none | ⟨vs, v, found⟩
  · -- Every part is empty, so the last one is too and one slash is left.
    rw [none]
    have last : closing (split '/' u) = "/" := by
      obtain ⟨w, last⟩ := Option.isSome_iff_exists.mp
        (List.getLast?_isSome.mpr (split_ne_nil '/' u))
      have empty : w = [] := by
        have := List.filter_eq_nil_iff.mp none w (List.mem_of_getLast? last)
        simpa using this
      rw [closing, last, empty, if_pos rfl]
    rw [last]
    decide
  · have nonempty : parts u ≠ [] := by rw [found]; simp
    rw [← slashed_eq_join nonempty]
    unfold closing
    split
    · apply unclosed_append_slash
      rw [slashed_eq_join nonempty]
      simp
    · rw [List.append_nil]
      apply unclosed_of_getLast?
      have member : v ∈ parts u := by rw [found]; simp
      obtain ⟨hv, free⟩ := mem_parts member
      rw [found, List.concat_eq_append, getLast?_slashed hv]
      intro last
      exact free (List.mem_of_getLast? last)

/-- A stretch without slashes lies in one of the parts. -/
theorem infix_iff_parts {w t : Text} (nonempty : w ≠ []) (free : '/' ∉ w) :
    w <:+: t ↔ ∃ v ∈ parts t, w <:+: v := by
  rw [infix_iff_split nonempty free]
  constructor
  · rintro ⟨v, member, inside⟩
    have kept : v ≠ [] := fun e => nonempty (List.infix_nil.mp (e ▸ inside))
    exact ⟨v, List.mem_filter.mpr ⟨member, by simpa using kept⟩, inside⟩
  · rintro ⟨v, member, inside⟩
    exact ⟨v, (List.mem_filter.mp member).1, inside⟩

/-- Settling the slashes neither breaks nor makes a stretch without slashes. -/
theorem infix_settled_iff {w t : Text} (nonempty : w ≠ []) (free : '/' ∉ w) :
    w <:+: unclosed (squeeze (rooted t)) ↔ w <:+: t := by
  rw [settled_eq, infix_iff_parts nonempty free, infix_iff_parts nonempty free, parts_slash,
    parts_join fun _ => mem_parts]

theorem canonical_eq (path : Text) :
    canonical path = '/' :: join "/" (parts (unify (strip path))) := settled_eq _

/-! ### The shape of templates -/

/-- The shape of a template: a slash at the front, never two in a row, none at the end unless it is
the whole template. -/
structure IsTemplate (t : Text) : Prop where
  starts : startsWith "/" t = true
  single : holds "//" t = false
  ends : endsWith "/" t = true → t = ("/" : Text)

theorem holds_append_of_free {w : Text} (free : '/' ∉ w) (r : Text) :
    holds "//" (w ++ r) = holds "//" r := by
  induction w with
  | nil => rfl
  | cons c w ih =>
    have hc : '/' ≠ c := fun e => free (e ▸ List.mem_cons_self)
    rw [List.cons_append, holds, ih fun h => free (List.mem_cons_of_mem c h)]
    simp [startsWith, after?, hc]

theorem holds_slashed {vs : List Text} (h : ∀ v ∈ vs, v ≠ [] ∧ '/' ∉ v) :
    holds "//" (slashed vs) = false := by
  induction vs with
  | nil => decide
  | cons v vs ih =>
    obtain ⟨nonempty, free⟩ := h v List.mem_cons_self
    have rest := ih fun u hu => h u (List.mem_cons_of_mem v hu)
    cases v with
    | nil => exact absurd rfl nonempty
    | cons c v =>
      have hc : '/' ≠ c := fun e => free (e ▸ List.mem_cons_self)
      rw [slashed_cons, List.cons_append, holds, holds_append_of_free free, rest]
      simp [startsWith, after?, hc]

theorem isTemplate_join {vs : List Text} (h : ∀ v ∈ vs, v ≠ [] ∧ '/' ∉ v) :
    IsTemplate ('/' :: join "/" vs) := by
  rcases List.eq_nil_or_concat vs with rfl | ⟨us, v, rfl⟩
  · exact ⟨by decide, by decide, fun _ => rfl⟩
  · rw [List.concat_eq_append] at h ⊢
    have nonempty : us ++ [v] ≠ [] := by simp
    refine ⟨startsWith_singleton.mpr rfl, ?_, ?_⟩
    · rw [← slashed_eq_join nonempty]
      exact holds_slashed h
    · intro ends
      obtain ⟨hv, free⟩ := h v (by simp)
      have last := endsWith_singleton.mp ends
      rw [← slashed_eq_join nonempty, getLast?_slashed hv] at last
      exact absurd (List.mem_of_getLast? last) free

theorem isTemplate_canonical (path : Text) : IsTemplate (canonical path) := by
  rw [canonical_eq]
  exact isTemplate_join fun _ => mem_parts

end RouteAtlas.Route
