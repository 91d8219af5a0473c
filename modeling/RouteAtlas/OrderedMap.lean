/-!
# Maps in insertion order

A map that remembers the order in which its keys first came. Writing to a key that is present keeps
its position. `get?_insert` and `keys_insert` say what a write does to the contents and to the order.
-/

namespace RouteAtlas

universe u v w

/-- Pairs with distinct keys, in the order in which the keys first came. -/
structure OrderedMap (κ : Type u) (ν : Type v) where
  toList : List (κ × ν)
  nodup_keys : (toList.map Prod.fst).Nodup

namespace OrderedMap

variable {κ : Type u} {ν : Type v} {μ : Type w}

@[ext] theorem ext {m n : OrderedMap κ ν} (h : m.toList = n.toList) : m = n := by
  cases m; cases n; cases h; rfl

def keys (m : OrderedMap κ ν) : List κ := m.toList.map Prod.fst

def empty : OrderedMap κ ν := ⟨[], List.nodup_nil⟩

@[simp] theorem keys_empty : (empty : OrderedMap κ ν).keys = [] := rfl

def size (m : OrderedMap κ ν) : Nat := m.toList.length

def mapValues (f : ν → μ) (m : OrderedMap κ ν) : OrderedMap κ μ :=
  ⟨m.toList.map fun (k, v) => (k, f v), by
    have : (m.toList.map fun (k, v) => (k, f v)).map Prod.fst = m.toList.map Prod.fst := by
      simp [Function.comp_def]
    rw [this]; exact m.nodup_keys⟩

variable [DecidableEq κ]

def get? (m : OrderedMap κ ν) (k : κ) : Option ν := m.toList.lookup k

def contains (m : OrderedMap κ ν) (k : κ) : Bool := (m.get? k).isSome

def insertPair (k : κ) (v : ν) : List (κ × ν) → List (κ × ν)
  | [] => [(k, v)]
  | (k', v') :: rest => if k = k' then (k', v) :: rest else (k', v') :: insertPair k v rest

theorem keys_insertPair (k : κ) (v : ν) (l : List (κ × ν)) :
    (insertPair k v l).map Prod.fst =
      if k ∈ l.map Prod.fst then l.map Prod.fst else l.map Prod.fst ++ [k] := by
  induction l with
  | nil => simp [insertPair]
  | cons p rest ih =>
    obtain ⟨k', v'⟩ := p
    rw [insertPair]
    split
    · rename_i h
      simp [h]
    · rename_i h
      simp only [List.map_cons, ih, List.mem_cons, h, false_or]
      split <;> simp

theorem nodup_insertPair (k : κ) (v : ν) {l : List (κ × ν)} (h : (l.map Prod.fst).Nodup) :
    ((insertPair k v l).map Prod.fst).Nodup := by
  rw [keys_insertPair]
  split
  · exact h
  · rename_i hk
    exact List.nodup_append.2 ⟨h, by simp, fun a ha b hb => by
      rw [List.mem_singleton.1 hb]; rintro rfl; exact hk ha⟩

theorem lookup_insertPair (k k' : κ) (v : ν) (l : List (κ × ν)) :
    (insertPair k v l).lookup k' = if k' = k then some v else l.lookup k' := by
  induction l with
  | nil =>
    by_cases h : k' = k
    · simp [insertPair, h]
    · simp [insertPair, List.lookup_cons, h, beq_eq_false_iff_ne.2 h]
  | cons p rest ih =>
    obtain ⟨q, w⟩ := p
    by_cases hk : k = q
    · subst hk
      by_cases h : k' = k <;> simp [insertPair, List.lookup_cons, h, beq_eq_false_iff_ne.2]
    · by_cases h : k' = q
      · subst h
        simp [insertPair, hk, Ne.symm hk]
      · simp [insertPair, hk, List.lookup_cons, beq_eq_false_iff_ne.2 h, ih]

/-- Writes a value: in place where the key is present, else at the end. -/
def insert (m : OrderedMap κ ν) (k : κ) (v : ν) : OrderedMap κ ν :=
  ⟨insertPair k v m.toList, nodup_insertPair k v m.nodup_keys⟩

/-- All pairs written one after another. -/
def ofList (l : List (κ × ν)) : OrderedMap κ ν := l.foldl (fun m (k, v) => m.insert k v) empty

/-! ### Writes and views -/

theorem get?_insert (m : OrderedMap κ ν) (k k' : κ) (v : ν) :
    (m.insert k v).get? k' = if k' = k then some v else m.get? k' :=
  lookup_insertPair k k' v m.toList

theorem keys_insert (m : OrderedMap κ ν) (k : κ) (v : ν) :
    (m.insert k v).keys = if k ∈ m.keys then m.keys else m.keys ++ [k] :=
  keys_insertPair k v m.toList

@[simp] theorem get?_empty (k : κ) : (empty : OrderedMap κ ν).get? k = none := rfl

end OrderedMap
end RouteAtlas
