import RouteAtlas.Proofs.Tree.Walking

/-!
# Looking without links

Below a folder without links, what a test, a listing or a reading gives is what stands at the
segments of the path; and no path fails there for another reason than that nothing stands at it.
-/

namespace RouteAtlas

theorem bind_ok {α β ε : Type} {step : Except ε α} {next : α → Except ε β} {b : β}
    (ended : step >>= next = .ok b) : ∃ a, step = .ok a ∧ next a = .ok b := by
  cases step with
  | error f => cases ended
  | ok a => exact ⟨a, rfl, ended⟩

theorem bind_error {α β ε : Type} {step : Except ε α} {next : α → Except ε β} {f : ε}
    (failed : step >>= next = .error f) :
    step = .error f ∨ ∃ a, step = .ok a ∧ next a = .error f := by
  cases step with
  | error g =>
    cases failed
    exact .inl rfl
  | ok a => exact .inr ⟨a, rfl, failed⟩

theorem mapM_error {α β ε : Type} {step : α → Except ε β} {l : List α} {f : ε}
    (failed : l.mapM step = .error f) : ∃ a ∈ l, step a = .error f := by
  induction l with
  | nil => cases failed
  | cons a l ih =>
    rw [List.mapM_cons] at failed
    rcases bind_error failed with here | ⟨b, _, failed⟩
    · exact ⟨a, List.mem_cons_self, here⟩
    · rcases bind_error failed with failed | ⟨bs, _, ended⟩
      · obtain ⟨a', member, there⟩ := ih failed
        exact ⟨a', List.mem_cons_of_mem a member, there⟩
      · cases ended

namespace Tree

open Entry

variable {t : Tree} {root : Path} {place : Place} {e c : Entry} {s : List Text} {n : Text}
  {f : Fault}

/-- Below a folder without links, a path leads to what stands at its segments, or it leads nowhere. -/
theorem find_cases (found : t.find root = .ok (place, e)) (free : e.Each Linkless)
    (names : ∀ n ∈ s, IsName n) :
    (∃ c, e.get? s = some c ∧ t.find (root.below ⟨[], s⟩) = .ok (place ++ s, c)) ∨
      e.get? s = none ∧ (t.find (root.below ⟨[], s⟩) = .error .missing ∨
        t.find (root.below ⟨[], s⟩) = .error .notFolder) := by
  obtain ⟨links, arrived⟩ := arrive_of_find found
  obtain ⟨here, goes⟩ := arrive_below arrived fun n hn => (names n hn).noNull
  unfold find
  rw [goes]
  cases inside : e.get? s with
  | some c =>
    refine .inl ⟨c, rfl, ?_⟩
    rw [follow_get? here free names inside]
  | none =>
    refine .inr ⟨rfl, ?_⟩
    rcases follow_get?_none here free names inside with ⟨_, h⟩ | h | h
    · rw [h]
      exact .inl rfl
    · rw [h]
      exact .inl rfl
    · rw [h]
      exact .inr rfl

theorem find_of_get? (found : t.find root = .ok (place, e)) (free : e.Each Linkless)
    (names : ∀ n ∈ s, IsName n) (inside : e.get? s = some c) :
    t.find (root.below ⟨[], s⟩) = .ok (place ++ s, c) := by
  rcases find_cases found free names with ⟨c', inside', h⟩ | ⟨absent, _⟩
  · obtain rfl := Option.some.inj (inside.symm.trans inside')
    exact h
  · rw [inside] at absent
    cases absent

theorem fault_of_find (found : t.find root = .ok (place, e)) (free : e.Each Linkless)
    (names : ∀ n ∈ s, IsName n) (failed : t.find (root.below ⟨[], s⟩) = .error f) :
    e.get? s = none ∧ (f = .missing ∨ f = .notFolder) := by
  rcases find_cases found free names with ⟨c, _, h⟩ | ⟨absent, h | h⟩
  · rw [h] at failed
    cases failed
  · rw [h] at failed
    cases failed
    exact ⟨absent, .inl rfl⟩
  · rw [h] at failed
    cases failed
    exact ⟨absent, .inr rfl⟩

theorem test_below (found : t.find root = .ok (place, e)) (free : e.Each Linkless)
    (names : ∀ n ∈ s, IsName n) (property : Entry → Bool) :
    t.test (root.below ⟨[], s⟩) property = .ok ((e.get? s).any property) := by
  unfold test
  rcases find_cases found free names with ⟨c, inside, h⟩ | ⟨absent, h | h⟩
  · rw [h, inside]
    rfl
  · rw [h, absent]
    rfl
  · rw [h, absent]
    rfl

theorem names_below (found : t.find root = .ok (place, e)) (free : e.Each Linkless)
    (names : ∀ n ∈ s, IsName n) :
    t.names (root.below ⟨[], s⟩) = ((e.get? s).map Entry.entries |>.getD []).map Prod.fst := by
  unfold Tree.names
  rcases find_cases found free names with ⟨c, inside, h⟩ | ⟨absent, h | h⟩
  · rw [h, inside]
    rfl
  · rw [h, absent]
    rfl
  · rw [h, absent]
    rfl

theorem testEntry_below (found : t.find root = .ok (place, e)) (free : e.Each Linkless)
    (names : ∀ n ∈ s, IsName n) (inside : e.get? s = some c) (property : Entry → Bool) :
    t.testEntry (root.below ⟨[], s⟩) property = .ok (property c) := by
  unfold testEntry
  rw [find_of_get? found free names inside]

theorem read_below (found : t.find root = .ok (place, e)) (free : e.Each Linkless)
    (names : ∀ n ∈ s, IsName n) {content : Bytes} :
    t.read (root.below ⟨[], s⟩) = .ok content ↔ e.get? s = some (.file content) := by
  unfold read
  rcases find_cases found free names with ⟨c, inside, h⟩ | ⟨absent, h | h⟩
  · rw [h, inside]
    cases c <;> simp
  · rw [h, absent]
    simp
  · rw [h, absent]
    simp

theorem rootOf_join (nonempty : s ≠ []) (names : ∀ n ∈ s, IsName n) :
    Path.rootOf (Text.join ['/'] s) = [] := by
  cases s with
  | nil => exact absurd rfl nonempty
  | cons name s =>
    have named := names name List.mem_cons_self
    cases name with
    | nil => exact absurd rfl named.nonempty
    | cons x name =>
      have other : x ≠ '/' := fun same => named.noSlash (same ▸ List.mem_cons_self)
      cases s <;> simp [Text.join, Path.rootOf, other]

theorem segmentsOf_join (nonempty : s ≠ []) (names : ∀ n ∈ s, IsName n) :
    Path.segmentsOf (Text.join ['/'] s) = s := by
  rw [Path.segmentsOf, Text.split_join nonempty fun n member => (names n member).noSlash,
    List.filter_eq_self]
  intro n member
  simpa using ⟨(names n member).nonempty, (names n member).noDots.1⟩

theorem sub_join (root : Path) (nonempty : s ≠ []) (names : ∀ n ∈ s, IsName n) :
    root.sub (Text.join "/" s) = root.below ⟨[], s⟩ :=
  (sub_relative root (rootOf_join nonempty names)).trans (by rw [segmentsOf_join nonempty names])

end Tree
end RouteAtlas
