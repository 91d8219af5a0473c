import Mathlib.Algebra.GroupWithZero.Nat
import RouteAtlas.OrderedMap

/-!
# Combining maps

Two maps are equal when their keys stand in the same order and every key has the same value
(`ext_get?`). `combine` writes one map over another: keys that are present keep their place and the
new ones follow. `combine_assoc` says that it is associative when the operation on values is.
-/

namespace RouteAtlas.OrderedMap

universe u v

variable {κ : Type u} {ν : Type v} [DecidableEq κ]

/-! ### Keys and values -/

theorem mem_keys_iff {m : OrderedMap κ ν} {k : κ} : k ∈ m.keys ↔ (m.get? k).isSome := by
  simp [keys, get?, List.lookup_isSome_iff]

theorem lookup_eq_none {l : List (κ × ν)} {k : κ} (h : k ∉ l.map Prod.fst) :
    l.lookup k = none := by
  rw [List.lookup_eq_none_iff]
  intro p hp
  rw [bne_iff_ne]
  rintro rfl
  exact h (List.mem_map_of_mem hp)

theorem eq_of_lookup {l r : List (κ × ν)} (nodup : (l.map Prod.fst).Nodup)
    (same : l.map Prod.fst = r.map Prod.fst) (values : ∀ k, l.lookup k = r.lookup k) : l = r := by
  induction l generalizing r with
  | nil =>
    cases r with
    | nil => rfl
    | cons p r => simp at same
  | cons p l ih =>
    cases r with
    | nil => simp at same
    | cons q r =>
      obtain ⟨k, v⟩ := p
      obtain ⟨k', w⟩ := q
      simp only [List.map_cons, List.cons.injEq, List.nodup_cons] at same nodup
      obtain ⟨rfl, same⟩ := same
      have head := values k
      simp only [List.lookup_cons_self, Option.some.injEq] at head
      subst head
      congr 1
      apply ih nodup.2 same
      intro j
      by_cases hj : j = k
      · subst hj
        rw [lookup_eq_none nodup.1, lookup_eq_none (same ▸ nodup.1)]
      · have step := values j
        simpa [List.lookup_cons, beq_eq_false_iff_ne.mpr hj] using step

theorem ext_get? {m n : OrderedMap κ ν} (order : m.keys = n.keys)
    (values : ∀ k, m.get? k = n.get? k) : m = n :=
  ext (eq_of_lookup m.nodup_keys order values)

omit [DecidableEq κ] in
theorem size_eq_length_keys (m : OrderedMap κ ν) : m.size = m.keys.length := by
  simp [size, keys]

theorem size_insert (m : OrderedMap κ ν) (k : κ) (v : ν) :
    (m.insert k v).size = if (m.get? k).isSome then m.size else m.size + 1 := by
  simp only [size_eq_length_keys, keys_insert, ← mem_keys_iff]
  split <;> simp

theorem mem_of_get? {m : OrderedMap κ ν} {k : κ} {v : ν} (h : m.get? k = some v) :
    (k, v) ∈ m.toList := by
  obtain ⟨before, after, same, _⟩ := List.lookup_eq_some_iff.mp h
  rw [same]
  exact List.mem_append_right before List.mem_cons_self

theorem mem_insert {m : OrderedMap κ ν} {k : κ} {v : ν} {p : κ × ν}
    (h : p ∈ (m.insert k v).toList) : p = (k, v) ∨ p ∈ m.toList := by
  have pairs (l : List (κ × ν)) (h : p ∈ insertPair k v l) : p = (k, v) ∨ p ∈ l := by
    induction l with
    | nil => exact .inl (List.mem_singleton.mp h)
    | cons q l ih =>
      obtain ⟨k', v'⟩ := q
      rw [insertPair] at h
      split at h
      · rename_i same
        subst same
        exact (List.mem_cons.mp h).imp_right (List.mem_cons_of_mem _)
      · rcases List.mem_cons.mp h with rfl | h
        · exact .inr List.mem_cons_self
        · exact (ih h).imp_right (List.mem_cons_of_mem _)
  exact pairs m.toList h

theorem insert_ne_nil (m : OrderedMap κ ν) (k : κ) (v : ν) : (m.insert k v).toList ≠ [] := by
  have written : (m.insert k v).get? k = some v := by rw [get?_insert, if_pos rfl]
  exact List.ne_nil_of_mem (mem_of_get? written)

/-- A write adds the weight of the new value and takes away that of the old one. -/
theorem insertPair_of_notMem {k : κ} {l : List (κ × ν)} (fresh : k ∉ l.map Prod.fst) (v : ν) :
    insertPair k v l = l ++ [(k, v)] := by
  induction l with
  | nil => rfl
  | cons p l ih =>
    obtain ⟨k', v'⟩ := p
    rw [List.map_cons, List.mem_cons, not_or] at fresh
    rw [insertPair, if_neg fresh.1, ih fresh.2, List.cons_append]

/-- Pairs with distinct keys make a map that lists them. -/
theorem toList_ofList {l : List (κ × ν)} (nodup : (l.map Prod.fst).Nodup) :
    (ofList l).toList = l := by
  suffices whole : ∀ m : OrderedMap κ ν, ((m.toList ++ l).map Prod.fst).Nodup →
      (l.foldl (fun m p => m.insert p.1 p.2) m).toList = m.toList ++ l from whole empty nodup
  clear nodup
  induction l with
  | nil => simp
  | cons p l ih =>
    intro m nodup
    obtain ⟨k, v⟩ := p
    have fresh : k ∉ m.toList.map Prod.fst := by
      rw [List.map_append, List.nodup_append] at nodup
      exact fun h => nodup.2.2 k h k List.mem_cons_self rfl
    have next : (m.insert k v).toList = m.toList ++ [(k, v)] := insertPair_of_notMem fresh v
    have whole : (m.insert k v).toList ++ l = m.toList ++ (k, v) :: l := by
      rw [next, List.append_assoc, List.singleton_append]
    rw [List.foldl_cons, ih (m.insert k v) (whole ▸ nodup), whole]

theorem ofList_toList (m : OrderedMap κ ν) : ofList m.toList = m := ext (toList_ofList m.nodup_keys)

theorem sum_insert (f : ν → Nat) (m : OrderedMap κ ν) (k : κ) (v : ν) :
    ((m.insert k v).toList.map (f ·.2)).sum + ((m.get? k).map f).getD 0 =
      (m.toList.map (f ·.2)).sum + f v := by
  have pairs (l : List (κ × ν)) :
      ((insertPair k v l).map (f ·.2)).sum + ((l.lookup k).map f).getD 0 =
        (l.map (f ·.2)).sum + f v := by
    induction l with
    | nil => simp [insertPair]
    | cons p l ih =>
      obtain ⟨q, w⟩ := p
      rw [insertPair]
      by_cases h : k = q
      · subst h
        simp only [↓reduceIte, List.map_cons, List.sum_cons, List.lookup_cons_self, Option.map_some,
          Option.getD_some]
        omega
      · simp only [h, ↓reduceIte, List.map_cons, List.sum_cons, List.lookup_cons,
          beq_eq_false_iff_ne.mpr h]
        omega
  exact pairs m.toList

theorem insert_insert (m : OrderedMap κ ν) (k : κ) (v w : ν) :
    (m.insert k v).insert k w = m.insert k w := by
  apply ext_get?
  · simp only [keys_insert]
    split <;> simp_all
  · intro j
    simp only [get?_insert]
    split <;> rfl

theorem insert_of_get? {m : OrderedMap κ ν} {k : κ} {v : ν} (h : m.get? k = some v) :
    m.insert k v = m := by
  apply ext_get?
  · rw [keys_insert, if_pos (mem_keys_iff.mpr (by simp [h]))]
  · intro j
    rw [get?_insert]
    split
    · rename_i hj
      rw [hj, h]
    · rfl

/-! ### One map over another -/

/-- A pair written over a map: `g` combines the value that is there with the new one. -/
def accept (g : ν → ν → ν) (m : OrderedMap κ ν) (k : κ) (v : ν) : OrderedMap κ ν :=
  m.insert k (((m.get? k).map (g · v)).getD v)

/-- The pairs of `n` written over `m` one after another. -/
def combine (g : ν → ν → ν) (m n : OrderedMap κ ν) : OrderedMap κ ν :=
  n.toList.foldl (fun m (k, v) => m.accept g k v) m

def single (k : κ) (v : ν) : OrderedMap κ ν := empty.insert k v

variable (g : ν → ν → ν)

theorem get?_foldl_accept {l : List (κ × ν)} (nodup : (l.map Prod.fst).Nodup)
    (m : OrderedMap κ ν) (k : κ) :
    (l.foldl (fun m (k, v) => m.accept g k v) m).get? k =
      Option.merge g (m.get? k) (l.lookup k) := by
  induction l generalizing m with
  | nil => simp
  | cons p l ih =>
    obtain ⟨q, w⟩ := p
    simp only [List.map_cons, List.nodup_cons] at nodup
    rw [List.foldl_cons, ih nodup.2]
    simp only [accept, get?_insert]
    by_cases h : k = q
    · subst h
      rw [lookup_eq_none nodup.1, if_pos rfl, List.lookup_cons_self]
      cases m.get? k <;> simp
    · rw [if_neg h, List.lookup_cons, beq_eq_false_iff_ne.mpr h]

theorem keys_foldl_accept {l : List (κ × ν)} (nodup : (l.map Prod.fst).Nodup)
    (m : OrderedMap κ ν) :
    (l.foldl (fun m (k, v) => m.accept g k v) m).keys =
      m.keys ++ (l.map Prod.fst).filter (· ∉ m.keys) := by
  induction l generalizing m with
  | nil => simp
  | cons p l ih =>
    obtain ⟨q, w⟩ := p
    simp only [List.map_cons, List.nodup_cons] at nodup
    rw [List.foldl_cons, ih nodup.2]
    simp only [accept, keys_insert]
    by_cases h : q ∈ m.keys
    · simp [h]
    · have same : (l.map Prod.fst).filter (· ∉ m.keys ++ [q]) =
          (l.map Prod.fst).filter (· ∉ m.keys) := by
        apply List.filter_congr
        intro k hk
        have different : k ≠ q := fun e => nodup.1 (e ▸ hk)
        simp [different]
      rw [if_neg h, same]
      simp [h]

theorem get?_combine (m n : OrderedMap κ ν) (k : κ) :
    (m.combine g n).get? k = Option.merge g (m.get? k) (n.get? k) :=
  get?_foldl_accept g n.nodup_keys m k

/-- The keys of the first map stay in front. -/
theorem keys_combine (m n : OrderedMap κ ν) :
    (m.combine g n).keys = m.keys ++ n.keys.filter (· ∉ m.keys) :=
  keys_foldl_accept g n.nodup_keys m

theorem combine_empty (m : OrderedMap κ ν) : m.combine g empty = m := rfl

theorem empty_combine (m : OrderedMap κ ν) : empty.combine g m = m := by
  apply ext_get?
  · simp [keys_combine]
  · intro k
    simp [get?_combine]

theorem combine_single (m : OrderedMap κ ν) (k : κ) (v : ν) :
    m.combine g (single k v) = m.accept g k v := rfl

theorem combine_assoc [Std.Associative g] (m n p : OrderedMap κ ν) :
    (m.combine g n).combine g p = m.combine g (n.combine g p) := by
  apply ext_get?
  · simp only [keys_combine, List.filter_append, List.filter_filter, List.append_assoc]
    congr 2
    apply List.filter_congr
    intro k _
    by_cases hm : k ∈ m.keys <;> simp [hm]
  · intro k
    simp only [get?_combine]
    exact (Option.associative_merge g).assoc _ _ _

instance [Std.Associative g] : Std.Associative (combine (κ := κ) g) := ⟨combine_assoc g⟩

end RouteAtlas.OrderedMap
