import RouteAtlas.Atlas.Basic
import RouteAtlas.Proofs.OrderedMap

/-!
# Atlases over atlases

`overlay` lays one atlas over another, template by template and method by method. It is associative,
a single write is the overlay of an atlas with one entry (`put_eq_accept`), and merging a contribution
is the overlay (`merge_fst`). `tally` counts the entries and the replaced entries together: every
write adds one to it.
-/

namespace RouteAtlas.Atlas

open Route OrderedMap

/-! ### The overlay -/

/-- Of two operations of one method the later one counts. -/
def latest (_ later : Operation) : Operation := later

instance : Std.Associative latest := ⟨fun _ _ _ => rfl⟩

/-- The entries of `b` written over those of `a`. -/
def overlay (a b : Atlas) : Atlas := a.combine (combine latest) b

theorem overlay_assoc (a b c : Atlas) : (a.overlay b).overlay c = a.overlay (b.overlay c) :=
  combine_assoc _ a b c

theorem overlay_empty (a : Atlas) : a.overlay .empty = a := combine_empty _ a

theorem accept_latest (ms : OrderedMap Text Operation) (method : Text) (operation : Operation) :
    ms.accept latest method operation = ms.insert method operation := by
  unfold accept
  cases ms.get? method <;> rfl

/-- A write is the overlay of an atlas with one entry. -/
theorem put_eq_accept (a : Atlas) (template method : Text) (operation : Operation) :
    a.put template method operation =
      a.overlay (single template (single method operation)) := by
  unfold put overlay
  rw [combine_single, accept]
  cases h : a.get? template with
  | none => rfl
  | some ms =>
    simp only [Option.getD_some, Option.map_some]
    rw [combine_single, accept_latest]

theorem overlay_put (a b : Atlas) (template method : Text) (operation : Operation) :
    a.overlay (b.put template method operation) = (a.overlay b).put template method operation := by
  rw [put_eq_accept, put_eq_accept, overlay_assoc]

theorem find?_put (a : Atlas) (template method t m : Text) (operation : Operation) :
    (a.put template method operation).find? t m =
      if t = template ∧ m = method then some operation else a.find? t m := by
  simp only [find?, put, get?_insert]
  by_cases ht : t = template
  · subst ht
    simp only [↓reduceIte, Option.bind_some, get?_insert, true_and]
    by_cases hm : m = method
    · simp [hm]
    · rw [if_neg hm, if_neg hm]
      cases a.get? t <;> simp
  · simp [ht]

/-! ### Routes in order -/

def putPlaced (a : Atlas) (p : Placed) : Atlas :=
  a.put p.1 p.2.method (.ofDeclaration p.2 p.1)

theorem addAll_fst (state : Atlas × List Override) (placed : List Placed) :
    (addAll state placed).1 = placed.foldl putPlaced state.1 :=
  (List.foldl_hom Prod.fst fun _ _ => rfl).symm

theorem ofPlaced_fst (placed : List Placed) :
    (ofPlaced placed).1 = placed.foldl putPlaced .empty := addAll_fst _ placed

/-- Writing routes to the upper atlas writes them to the overlay. -/
theorem overlay_foldl_putPlaced (a b : Atlas) (placed : List Placed) :
    a.overlay (placed.foldl putPlaced b) = placed.foldl putPlaced (a.overlay b) := by
  induction placed generalizing b with
  | nil => rfl
  | cons p placed ih => rw [List.foldl_cons, List.foldl_cons, ih, putPlaced, overlay_put]; rfl

/-- The last of the routes that belong at a template and answer a method. -/
def lastAt (template method : Text) (placed : List Placed) : Option Declaration :=
  ((placed.filter fun p => p.1 = template ∧ p.2.method = method).getLast?).map Prod.snd

theorem lastAt_isSome_iff {template method : Text} {placed : List Placed} :
    (lastAt template method placed).isSome ↔
      ∃ p ∈ placed, p.1 = template ∧ p.2.method = method := by
  simp [lastAt]

/-- An entry is that of the last route written there, or the old one where none was. -/
theorem find?_foldl_putPlaced (a : Atlas) (placed : List Placed) (template method : Text) :
    (placed.foldl putPlaced a).find? template method =
      ((lastAt template method placed).map fun d => .ofDeclaration d template).or
        (a.find? template method) := by
  induction placed generalizing a with
  | nil => rfl
  | cons p placed ih =>
    rw [List.foldl_cons, ih, putPlaced, find?_put, lastAt, lastAt, List.filter_cons]
    by_cases h : p.1 = template ∧ p.2.method = method
    · obtain ⟨rfl, rfl⟩ := h
      simp only [and_self, ↓reduceIte, decide_true, List.getLast?_cons]
      cases (placed.filter fun q => q.1 = p.1 ∧ q.2.method = p.2.method).getLast? <;> rfl
    · have apart : ¬(template = p.1 ∧ method = p.2.method) := fun e => h ⟨e.1.symm, e.2.symm⟩
      rw [if_neg apart]
      simp [h]

/-! ### Merging is the overlay -/

theorem foldl_put_of_get? {a : Atlas} {template : Text} {ms : OrderedMap Text Operation}
    (present : a.get? template = some ms) (l : List (Text × Operation)) :
    l.foldl (fun a (method, operation) => a.put template method operation) a =
      a.insert template
        (l.foldl (fun ms (method, operation) => ms.accept latest method operation) ms) := by
  induction l generalizing a ms with
  | nil => exact (insert_of_get? present).symm
  | cons p l ih =>
    have next : (a.put template p.1 p.2).get? template = some (ms.accept latest p.1 p.2) := by
      rw [put, get?_insert, if_pos rfl, present, Option.getD_some, accept_latest]
    rw [List.foldl_cons, List.foldl_cons, ih next, put, insert_insert]

theorem withTemplate_get? (a : Atlas) (template : Text) :
    (a.withTemplate template).get? template = some ((a.get? template).getD .empty) := by
  unfold withTemplate OrderedMap.contains
  cases h : a.get? template with
  | none => simp [get?_insert]
  | some ms => simp [h]

theorem withTemplate_insert (a : Atlas) (template : Text) (ms : OrderedMap Text Operation) :
    (a.withTemplate template).insert template ms = a.insert template ms := by
  unfold withTemplate
  split
  · rfl
  · exact insert_insert a template .empty ms

theorem mergeMethods_fst (origin : Text) (state : Atlas × List Override)
    (entry : Text × OrderedMap Text Operation) :
    (mergeMethods origin state entry).1 = state.1.accept (combine latest) entry.1 entry.2 := by
  have written : (mergeMethods origin state entry).1 = entry.2.toList.foldl
      (fun a (method, operation) => a.put entry.1 method operation)
      (state.1.withTemplate entry.1) :=
    (List.foldl_hom Prod.fst fun _ _ => rfl).symm
  rw [written, foldl_put_of_get? (withTemplate_get? state.1 entry.1), withTemplate_insert, accept]
  cases state.1.get? entry.1 with
  | none => exact congrArg (state.1.insert entry.1) (empty_combine latest entry.2)
  | some ms => rfl

/-- Merging a contribution lays it over the atlas. -/
theorem merge_fst (into contribution : Atlas) (source : Option Text) :
    (into.merge contribution source).1 = into.overlay contribution := by
  unfold merge overlay combine
  exact (List.foldl_hom Prod.fst fun state entry => (mergeMethods_fst _ state entry).symm).symm

/-! ### Entries and replaced entries -/

theorem endpoints_eq_sum (a : Atlas) : a.endpoints = (a.toList.map (·.2.size)).sum := by
  unfold endpoints
  induction a.toList with
  | nil => rfl
  | cons p l ih => rw [List.foldr_cons, List.map_cons, List.sum_cons, ih]

theorem endpoints_put (a : Atlas) (template method : Text) (operation : Operation) :
    (a.put template method operation).endpoints =
      if (a.find? template method).isSome then a.endpoints else a.endpoints + 1 := by
  have total := sum_insert OrderedMap.size a template
    (((a.get? template).getD .empty).insert method operation)
  rw [← endpoints_eq_sum, ← endpoints_eq_sum, size_insert] at total
  change (a.put template method operation).endpoints + _ = _ at total
  unfold find?
  cases h : a.get? template with
  | none =>
    simp only [h, Option.map_none, Option.getD_none, get?_empty, Option.isSome_none,
      Bool.false_eq_true, ↓reduceIte, Option.bind_none] at total ⊢
    exact total
  | some ms =>
    simp only [h, Option.map_some, Option.getD_some, Option.bind_some] at total ⊢
    by_cases known : (ms.get? method).isSome
    · rw [if_pos known] at total ⊢
      omega
    · rw [if_neg known] at total ⊢
      omega

theorem endpoints_withTemplate (a : Atlas) (template : Text) :
    (a.withTemplate template).endpoints = a.endpoints := by
  unfold withTemplate OrderedMap.contains
  split
  · rfl
  · rename_i absent
    have total := sum_insert OrderedMap.size a template .empty
    rw [← endpoints_eq_sum, ← endpoints_eq_sum] at total
    rw [Bool.not_eq_true, Option.isSome_eq_false_iff, Option.isNone_iff_eq_none] at absent
    rw [absent] at total
    exact total

def tally (state : Atlas × List Override) : Nat := state.1.endpoints + state.2.length

/-- A write makes a new entry or replaces one. -/
theorem tally_record (origin : Text) (state : Atlas × List Override) (template method : Text)
    (operation : Operation) :
    tally (record origin state template method operation) = tally state + 1 := by
  simp only [tally, record, endpoints_put]
  split
  · rw [List.length_append, List.length_singleton]; omega
  · omega

theorem tally_foldl {α : Type} {step : Atlas × List Override → α → Atlas × List Override}
    (weight : α → Nat) (adds : ∀ state a, tally (step state a) = tally state + weight a)
    (state : Atlas × List Override) (l : List α) :
    tally (l.foldl step state) = tally state + (l.map weight).sum := by
  induction l generalizing state with
  | nil => rfl
  | cons a l ih => rw [List.foldl_cons, ih, adds, List.map_cons, List.sum_cons]; omega

theorem tally_addAll (state : Atlas × List Override) (placed : List Placed) :
    tally (addAll state placed) = tally state + placed.length := by
  rw [addAll, tally_foldl (fun _ => 1) fun state p => tally_record _ state _ _ _,
    List.map_const', List.sum_replicate_nat, Nat.mul_one]

theorem tally_mergeMethods (origin : Text) (state : Atlas × List Override)
    (entry : Text × OrderedMap Text Operation) :
    tally (mergeMethods origin state entry) = tally state + entry.2.size := by
  rw [mergeMethods, tally_foldl (fun _ => 1) fun state p => tally_record _ state _ _ _,
    tally, endpoints_withTemplate, List.map_const', List.sum_replicate_nat, Nat.mul_one]
  rfl

/-- Merging keeps count: the entries of both atlases are the entries and the replaced entries. -/
theorem tally_merge (into contribution : Atlas) (source : Option Text) :
    tally (into.merge contribution source) = into.endpoints + contribution.endpoints := by
  unfold merge
  dsimp only
  rw [tally_foldl (·.2.size) (tally_mergeMethods _), ← endpoints_eq_sum]
  rfl

end RouteAtlas.Atlas
