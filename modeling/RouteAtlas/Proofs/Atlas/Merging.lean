import RouteAtlas.Proofs.Atlas.Overlay

/-!
# Merging one atlas after another

`entries` lists what an atlas holds, template by template. A merge leaves alone every entry that the
contribution does not have (`kept_merge`), step by step. `merge_assoc` says that two contributions may
be merged with each other first: the atlas, its order and the number of replaced entries are the same.
-/

namespace RouteAtlas

namespace OrderedMap

variable {κ ν : Type} [DecidableEq κ]

theorem filter_insertPair {p : κ × ν → Bool} {k : κ} (left : ∀ v, p (k, v) = false) (v : ν)
    (l : List (κ × ν)) : (insertPair k v l).filter p = l.filter p := by
  induction l with
  | nil => simp [insertPair, left]
  | cons q l ih =>
    obtain ⟨k', w⟩ := q
    rw [insertPair]
    split
    · rename_i same
      subst same
      rw [List.filter_cons_of_neg (by simp [left]), List.filter_cons_of_neg (by simp [left])]
    · rw [List.filter_cons, List.filter_cons, ih]

/-- What is made of the pairs does not change with a value that makes the same as the old one, or
nothing where there was none. -/
theorem flatMap_insertPair {α : Type} {f : κ × ν → List α} {k : κ} {v : ν} {l : List (κ × ν)}
    (same : f (k, v) = ((l.lookup k).map fun w => f (k, w)).getD []) :
    (insertPair k v l).flatMap f = l.flatMap f := by
  induction l with
  | nil => simpa [insertPair] using same
  | cons q l ih =>
    obtain ⟨k', w⟩ := q
    rw [insertPair]
    by_cases here : k = k'
    · subst here
      rw [List.lookup_cons_self] at same
      rw [if_pos rfl, List.flatMap_cons, List.flatMap_cons, same]
      rfl
    · rw [List.lookup_cons, beq_eq_false_iff_ne.mpr here] at same
      rw [if_neg here, List.flatMap_cons, List.flatMap_cons, ih same]

end OrderedMap

namespace Atlas

open Route OrderedMap

variable {p : Text × Text → Bool} {a b : Atlas} {state : Atlas × List Override}

/-! ### Entries -/

def methodEntries (template : Text) (methods : OrderedMap Text Operation) :
    List ((Text × Text) × Operation) :=
  methods.toList.map fun (method, operation) => ((template, method), operation)

/-- The entries of an atlas in their order, each with its template and its method. -/
def entries (a : Atlas) : List ((Text × Text) × Operation) :=
  a.toList.flatMap fun (template, methods) => methodEntries template methods

/-- The template and the method of each entry. -/
def pairs (a : Atlas) : List (Text × Text) := a.entries.map Prod.fst

/-- The entries whose template and method have a property. -/
def kept (p : Text × Text → Bool) (a : Atlas) : List ((Text × Text) × Operation) :=
  a.entries.filter fun e => p e.1

theorem kept_eq (p : Text × Text → Bool) (a : Atlas) : a.kept p =
    a.toList.flatMap fun (template, methods) =>
      (methodEntries template methods).filter fun e => p e.1 := List.filter_flatMap

/-! ### What a step keeps -/

theorem methodEntries_insert {template method : Text} (left : p (template, method) = false)
    (methods : OrderedMap Text Operation) (operation : Operation) :
    (methodEntries template (methods.insert method operation)).filter (fun e => p e.1) =
      (methodEntries template methods).filter fun e => p e.1 := by
  unfold methodEntries
  rw [List.filter_map, List.filter_map]
  exact congrArg (List.map _) (filter_insertPair (fun _ => left) operation methods.toList)

theorem kept_put {template method : Text} (left : p (template, method) = false)
    (operation : Operation) : (a.put template method operation).kept p = a.kept p := by
  rw [kept_eq, kept_eq]
  apply flatMap_insertPair
  dsimp only
  rw [methodEntries_insert left]
  change _ = ((a.get? template).map _).getD []
  cases a.get? template <;> rfl

theorem kept_withTemplate (template : Text) : (a.withTemplate template).kept p = a.kept p := by
  unfold withTemplate OrderedMap.contains
  split
  · rfl
  · rename_i absent
    rw [Bool.not_eq_true, Option.isSome_eq_false_iff, Option.isNone_iff_eq_none] at absent
    rw [kept_eq, kept_eq]
    apply flatMap_insertPair
    change _ = ((a.get? template).map _).getD []
    rw [absent]
    rfl

theorem kept_mergeMethods {origin : Text} {entry : Text × OrderedMap Text Operation}
    (left : ∀ answer ∈ entry.2.toList, p (entry.1, answer.1) = false) :
    (mergeMethods origin state entry).1.kept p = state.1.kept p := by
  unfold mergeMethods
  refine List.foldlRecOn (motive := fun s : Atlas × List Override => s.1.kept p = state.1.kept p) _ _
    (kept_withTemplate entry.1) ?_
  intro s same answer member
  exact (kept_put (left answer member) answer.2).trans same

/-- A merge keeps the entries that the contribution does not have, in their order. -/
theorem kept_merge (left : ∀ k ∈ b.pairs, p k = false) (source : Option Text) :
    (a.merge b source).1.kept p = a.kept p := by
  unfold merge
  refine List.foldlRecOn (motive := fun s : Atlas × List Override => s.1.kept p = a.kept p) _ _ rfl ?_
  intro s same entry member
  refine (kept_mergeMethods fun answer inside => left _ ?_).trans same
  refine List.mem_map.mpr ⟨((entry.1, answer.1), answer.2), ?_, rfl⟩
  exact List.mem_flatMap.mpr ⟨entry, member, List.mem_map.mpr ⟨answer, inside, rfl⟩⟩

/-! ### Three atlases -/

/-- Two contributions merged one after the other give the same atlas as the second merged into the
first and the outcome into the atlas, and as many entries are replaced in all. The entries that
neither contribution has are kept, in their order. -/
theorem merge_assoc (a b c : Atlas) (ofB ofC ofC' ofBC : Option Text) :
    let ab := a.merge b ofB
    let bc := b.merge c ofC'
    (ab.1.merge c ofC).1 = (a.merge bc.1 ofBC).1 ∧
      ab.2.length + (ab.1.merge c ofC).2.length = bc.2.length + (a.merge bc.1 ofBC).2.length ∧
      (ab.1.merge c ofC).1.entries.filter (fun e => e.1 ∉ b.pairs ∧ e.1 ∉ c.pairs) =
        a.entries.filter fun e => e.1 ∉ b.pairs ∧ e.1 ∉ c.pairs := by
  intro ab bc
  have same : (ab.1.merge c ofC).1 = (a.merge bc.1 ofBC).1 := by
    rw [merge_fst, merge_fst, merge_fst, merge_fst, overlay_assoc]
  refine ⟨same, ?_, ?_⟩
  · have first : ab.1.endpoints + ab.2.length = _ := tally_merge a b ofB
    have second : (ab.1.merge c ofC).1.endpoints + _ = _ := tally_merge ab.1 c ofC
    have inner : bc.1.endpoints + bc.2.length = _ := tally_merge b c ofC'
    have outer : (a.merge bc.1 ofBC).1.endpoints + _ = _ := tally_merge a bc.1 ofBC
    rw [same] at second
    omega
  · let p (k : Text × Text) : Bool := decide (k ∉ b.pairs ∧ k ∉ c.pairs)
    calc (ab.1.merge c ofC).1.kept p
        = ab.1.kept p := kept_merge (fun k member => by simp [p, member]) ofC
      _ = a.kept p := kept_merge (fun k member => by simp [p, member]) ofB

end Atlas
end RouteAtlas
