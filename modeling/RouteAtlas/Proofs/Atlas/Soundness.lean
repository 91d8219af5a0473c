import RouteAtlas.Proofs.Atlas.Collecting
import RouteAtlas.Proofs.Extract.Soundness

/-!
# Sound atlases

In a sound atlas every template has the shape of a template and some method, every method is a
request method, and every operation describes the placeholders of its template. A write of a sound
declaration keeps an atlas sound (`sound_putPlaced`), so the atlas of any sequence of files is sound.
-/

namespace RouteAtlas

open Route

/-! ### Operations -/

namespace Route

/-- The operation has a summary and describes each placeholder of its template, and its path
parameters are required strings. -/
structure Operation.Sound (template : Text) (o : Operation) : Prop where
  summary : o.summary ≠ []
  described : ∀ name ∈ parameterNames template,
    ∃ p ∈ o.parameters, p.location = ("path" : Text) ∧ p.name = name
  parameters : ∀ p ∈ o.parameters, p.Sound

namespace Operation

theorem mem_distinctNames {name : Text} {seen names : List Text} :
    name ∈ distinctNames seen names ↔ name ∈ names ∧ name ∉ seen := by
  induction names generalizing seen with
  | nil => simp [distinctNames]
  | cons n names ih =>
    rw [distinctNames]
    by_cases known : n ∈ seen
    · rw [if_pos (List.contains_iff_mem.mpr known), ih, List.mem_cons]
      constructor
      · rintro ⟨member, fresh⟩
        exact ⟨.inr member, fresh⟩
      · rintro ⟨rfl | member, fresh⟩
        · exact absurd known fresh
        · exact ⟨member, fresh⟩
    · rw [if_neg fun h => known (List.contains_iff_mem.mp h), List.mem_cons, ih, List.mem_cons]
      by_cases same : name = n
      · subst same
        simp [known]
      · simp [same]

theorem exists_described (described : List Parameter) {template name : Text}
    (h : name ∈ parameterNames template) : ∃ p ∈ missing described template ++ described,
      p.location = ("path" : Text) ∧ p.name = name := by
  by_cases known : ∃ p ∈ described, p.location = ("path" : Text) ∧ p.name = name
  · obtain ⟨p, member, facts⟩ := known
    exact ⟨p, List.mem_append_right _ member, facts⟩
  · refine ⟨.inPath name, List.mem_append_left _ (List.mem_map.mpr ⟨name, ?_, rfl⟩), rfl, rfl⟩
    refine List.mem_filter.mpr ⟨mem_distinctNames.mpr ⟨h, List.not_mem_nil⟩, ?_⟩
    simpa [and_comm] using known

theorem sound_ofDeclaration {d : Declaration} (h : d.Sound) (template : Text) :
    (ofDeclaration d template).Sound template := by
  refine ⟨?_, fun name member => exists_described d.parameters member, ?_⟩
  · unfold ofDeclaration
    dsimp only
    split
    · exact List.cons_ne_nil _ _
    · simp
  · refine List.forall_mem_append.mpr ⟨?_, h.parameters⟩
    exact List.forall_mem_map.mpr fun name _ => Parameter.sound_inPath name

end Operation
end Route

/-! ### Atlases -/

namespace Atlas

/-- Every template of the atlas has its shape and some method, every method is a request method and
every operation is sound. -/
def Sound (a : Atlas) : Prop :=
  ∀ entry ∈ a.toList, IsTemplate entry.1 ∧ entry.2.toList ≠ [] ∧
    ∀ answer ∈ entry.2.toList, answer.1 ∈ requestMethods ∧ answer.2.Sound entry.1

theorem sound_empty : Sound .empty := fun _ h => absurd h List.not_mem_nil

theorem sound_putPlaced {a : Atlas} {p : Placed} (sound : a.Sound) (shape : IsTemplate p.1)
    (declared : p.2.Sound) : (a.putPlaced p).Sound := by
  intro entry member
  rcases OrderedMap.mem_insert member with rfl | old
  · refine ⟨shape, OrderedMap.insert_ne_nil _ _ _, fun answer member => ?_⟩
    rcases OrderedMap.mem_insert member with rfl | old
    · exact ⟨declared.method, Operation.sound_ofDeclaration declared p.1⟩
    · cases found : a.get? p.1 with
      | none =>
        rw [found] at old
        cases old
      | some ms =>
        rw [found] at old
        exact (sound (p.1, ms) (OrderedMap.mem_of_get? found)).2.2 answer old
  · exact sound entry old

theorem sound_foldl_putPlaced {a : Atlas} {placed : List Placed} (sound : a.Sound)
    (h : ∀ p ∈ placed, IsTemplate p.1 ∧ p.2.Sound) : (placed.foldl putPlaced a).Sound := by
  induction placed generalizing a with
  | nil => exact sound
  | cons p placed ih =>
    obtain ⟨shape, declared⟩ := h p List.mem_cons_self
    exact ih (sound_putPlaced sound shape declared) fun q member =>
      h q (List.mem_cons_of_mem p member)

end Atlas
end RouteAtlas
