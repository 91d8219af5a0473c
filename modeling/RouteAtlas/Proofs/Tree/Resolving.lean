import RouteAtlas.Workspace
import RouteAtlas.Proofs.Tree.Lookup

/-!
# Resolving without links

Where no link stands on the way, a path resolves to the place that it spells (`resolve_eq`), whatever
else the tree holds.
-/

namespace RouteAtlas

namespace Tree

open Entry

variable {t : Tree} {top : Entry} {place : Place} {e c : Entry} {s : List Text} {n : Text} {p : Path}
  {enter : List Place → Place → List Text → Place × Bool} {active : List Place}

/-- The place that segments spell from another. -/
def walked (place : Place) (s : List Text) : Place :=
  s.foldl (fun done n => if n = ['.', '.'] then done.dropLast else done ++ [n]) place

theorem normalize_eq (s : List Text) : Path.normalize s = walked [] s := rfl

theorem walked_straight (noUp : ∀ n ∈ s, n ≠ ['.', '.']) : walked place s = place ++ s := by
  induction s generalizing place with
  | nil => exact (List.append_nil place).symm
  | cons n s ih =>
    obtain ⟨here, noUp⟩ := List.forall_mem_cons.mp noUp
    rw [walked, List.foldl_cons, if_neg here]
    exact (ih noUp).trans (by simp)

theorem resolveSegments_eq
    (free : ∀ u, u <+: s → ∀ target, top.get? (walked place u) ≠ some (.link target)) :
    resolveSegments top enter active place s = (walked place s, true) := by
  induction s generalizing place with
  | nil => rfl
  | cons n s ih =>
    have rest : resolveSegments top enter active (walked place [n]) s =
        (walked place (n :: s), true) :=
      ih fun u start => free (n :: u) (List.cons_prefix_cons.mpr ⟨rfl, start⟩)
    rw [resolveSegments]
    by_cases up : n = ['.', '.']
    · rw [if_pos up]
      rwa [walked, List.foldl_cons, if_pos up] at rest
    · rw [if_neg up]
      have here : walked place [n] = place ++ [n] := by
        rw [walked, List.foldl_cons, if_neg up]
        rfl
      have linkless := free [n] (List.cons_prefix_cons.mpr ⟨rfl, List.nil_prefix⟩)
      rw [here] at rest linkless
      dsimp only
      split
      · rename_i target found
        exact absurd found (linkless target)
      · exact rest

/-- A path with no link on the way resolves to what it spells. -/
theorem resolve_eq (free : ∀ u, u <+: p.segments → ∀ target,
    t.top.get? (walked (t.origin p) u) ≠ some (.link target)) :
    t.resolve p = Path.normalize (walked (t.origin p) p.segments) := by
  rw [resolve]
  cases t.top.linkCount with
  | zero => rw [resolveWithin, resolveSegments_eq free]
  | succ depth => rw [resolveWithin, resolveSegments_eq free]

/-! ### Below a folder without links -/

theorem isLink_of_get? (free : e.Each Linkless) (linkless : e.isLink = false)
    (found : e.get? s = some c) : c.isLink = false := by
  induction s generalizing e with
  | nil =>
    obtain rfl := Option.some.inj found
    exact linkless
  | cons n s ih =>
    obtain ⟨d, child, found⟩ := Option.bind_eq_some_iff.mp found
    exact ih (free.child child) (isLink_of_child? free child) found

theorem not_link_of_prefix (here : top.get? place = some e) (linkless : e.isLink = false)
    {u : Place} (start : u <+: place) (target : Text) : top.get? u ≠ some (.link target) := by
  intro link
  obtain ⟨v, rfl⟩ := start
  rw [get?_append, link] at here
  cases v with
  | nil =>
    obtain rfl := Option.some.inj here
    cases linkless
  | cons n v => cases here

/-- Below a folder without links every path without `..` is resolved already. -/
theorem resolve_below (here : t.top.get? place = some e) (free : e.Each Linkless)
    (linkless : e.isLink = false) (noUp : ∀ n ∈ place ++ s, n ≠ ['.', '.']) :
    t.resolve (Path.absolute (place ++ s)) = place ++ s := by
  have straight : walked [] (place ++ s) = place ++ s := walked_straight noUp
  have origin : t.origin (Path.absolute (place ++ s)) = [] := rfl
  rw [resolve_eq, origin]
  · show Path.normalize (walked [] (place ++ s)) = _
    rw [straight, normalize_eq, straight]
  · intro u start target
    rw [origin, walked_straight fun n member => noUp n (start.subset member)]
    -- A prefix ends on the way to the folder, which is no link, or in the folder, which holds none.
    obtain ⟨v, whole⟩ := start
    rcases List.append_eq_append_iff.mp whole with ⟨w, before, _⟩ | ⟨w, rfl, _⟩
    · exact not_link_of_prefix here linkless ⟨w, before.symm⟩ target
    · rw [List.nil_append, get?_append, here]
      intro link
      cases isLink_of_get? free linkless link

/-! ### In a tree without links -/

theorem resolve_linkless (free : t.top.Each Linkless) (linkless : t.top.isLink = false) (p : Path) :
    t.resolve p = Path.normalize (walked (t.origin p) p.segments) := by
  refine resolve_eq fun u _ target link => ?_
  cases isLink_of_get? free linkless link

theorem mem_walked (member : n ∈ walked place s) : n ∈ place ∨ n ∈ s ∧ n ≠ ['.', '.'] := by
  induction s generalizing place with
  | nil => exact .inl member
  | cons m s ih =>
    rw [walked, List.foldl_cons] at member
    rcases ih member with inside | ⟨inside, other⟩
    · split at inside
      · exact .inl ((List.dropLast_sublist place).subset inside)
      · rename_i other
        rcases List.mem_append.mp inside with inside | inside
        · exact .inl inside
        · rw [List.mem_singleton.mp inside]
          exact .inr ⟨List.mem_cons_self, other⟩
    · exact .inr ⟨List.mem_cons_of_mem m inside, other⟩

section Followed

variable {links left : Nat} {stop : Place} {onLink : Place → List Text → Except Fault Arrival}

/-- In a tree without links a segment that is followed stays, goes up, or is the name of an entry. -/
theorem cons_of_followSegments (free : top.Each Linkless)
    (arrived : top.followSegments false links onLink place (n :: s) = .ok (.entry stop c left)) :
    (n = [] ∨ n = ['.']) ∧
        top.followSegments false links onLink place s = .ok (.entry stop c left) ∨
      n = ['.', '.'] ∧
        top.followSegments false links onLink place.dropLast s = .ok (.entry stop c left) ∨
      (∃ d, top.get? (place ++ [n]) = some d) ∧
        top.followSegments false links onLink (place ++ [n]) s = .ok (.entry stop c left) := by
  rw [followSegments_cons] at arrived
  cases stands : top.get? place with
  | none => simp [stands] at arrived
  | some e =>
    simp only [stands] at arrived
    split at arrived
    · cases arrived
    · split at arrived
      · exact .inl ⟨‹_›, arrived⟩
      · split at arrived
        · exact .inr (.inl ⟨‹_›, arrived⟩)
        · split at arrived
          · cases arrived
          · split at arrived
            · split at arrived <;> cases arrived
            · rename_i target child
              cases isLink_of_child? (free.get stands) child
            · rename_i d _ child
              exact .inr (.inr ⟨⟨d, get?_concat stands child⟩, arrived⟩)

theorem place_of_followSegments (free : top.Each Linkless)
    (plain : ∀ n ∈ s, n ≠ [] ∧ n ≠ ['.'] ∧ n ≠ ['.', '.'])
    (arrived : top.followSegments false links onLink place s = .ok (.entry stop c left)) :
    stop = place ++ s := by
  induction s generalizing place with
  | nil =>
    rw [followSegments] at arrived
    split at arrived
    · cases arrived
      exact (List.append_nil _).symm
    · cases arrived
  | cons n s ih =>
    obtain ⟨⟨nonempty, noDot, noUp⟩, plain⟩ := List.forall_mem_cons.mp plain
    rcases cons_of_followSegments free arrived with ⟨stay, _⟩ | ⟨up, _⟩ | ⟨_, rest⟩
    · exact absurd stay (not_or.mpr ⟨nonempty, noDot⟩)
    · exact absurd up noUp
    · exact (ih plain rest).trans (by simp)

theorem slash_notMem_of_followSegments (tidy : top.Each Tidy) (free : top.Each Linkless)
    (arrived : top.followSegments false links onLink place s = .ok (.entry stop c left)) :
    ∀ n ∈ s, '/' ∉ n := by
  induction s generalizing place with
  | nil => simp
  | cons n s ih =>
    rw [List.forall_mem_cons]
    rcases cons_of_followSegments free arrived with ⟨stay, rest⟩ | ⟨up, rest⟩ | ⟨⟨d, there⟩, rest⟩
    · refine ⟨?_, ih rest⟩
      rcases stay with rfl | rfl <;> decide
    · refine ⟨?_, ih rest⟩
      rw [up]
      decide
    · exact ⟨(isName_of_get? tidy there n (by simp)).noSlash, ih rest⟩

theorem followSegments_of_find (found : t.find p = .ok (place, e)) : ∃ links,
    t.top.followSegments false mostLinks (t.top.follow false 39) (t.origin p) p.segments =
      .ok (.entry place e links) := by
  obtain ⟨links, arrived⟩ := arrive_of_find found
  unfold arrive at arrived
  split at arrived
  · cases arrived
  · exact ⟨links, arrived⟩

end Followed

/-- A path of plain segments leads to the place that it spells. -/
theorem place_of_find (free : t.top.Each Linkless)
    (plain : ∀ n ∈ s, n ≠ [] ∧ n ≠ ['.'] ∧ n ≠ ['.', '.'])
    (found : t.find (.absolute s) = .ok (place, e)) : place = s := by
  obtain ⟨links, followed⟩ := followSegments_of_find found
  exact place_of_followSegments free plain followed

theorem slash_notMem_name (tidy : t.top.Each Tidy) (free : t.top.Each Linkless)
    (found : t.find p = .ok (place, e)) : '/' ∉ p.name := by
  obtain ⟨links, followed⟩ := followSegments_of_find found
  rw [Path.name]
  cases last : p.segments.getLast? with
  | none => simp
  | some n => exact slash_notMem_of_followSegments tidy free followed n (List.mem_of_getLast? last)

end Tree

namespace Workspace

open Entry RouteAtlas.Tree

variable {w : Workspace} {place : Place} {e : Entry} {s : List Text}

theorem get?_of_find {t : Tree} {root : Path} (found : t.find root = .ok (place, e)) :
    t.top.get? place = some e := by
  obtain ⟨links, arrived⟩ := arrive_of_find found
  exact (arrive_below (s := []) arrived (by simp)).1

theorem resolve_absolute (found : w.tree.find (.absolute place) = .ok (place, e))
    (tidy : w.tree.top.Each Tidy) (free : e.Each Linkless) (linkless : e.isLink = false)
    (names : ∀ n ∈ s, IsName n) :
    w.resolve (.absolute (place ++ s)) = .ok (.absolute (place ++ s)) := by
  have here := get?_of_find found
  have names : ∀ n ∈ place ++ s, IsName n :=
    List.forall_mem_append.mpr ⟨isName_of_get? tidy here, names⟩
  have noNull : hasNull (.absolute (place ++ s)) = false := by
    rw [hasNull, List.any_eq_false]
    intro n member
    simpa using (names n member).noNull
  have resolved := Tree.resolve_below here free linkless fun n member => (names n member).noDots.2
  have below : Path.absolute (place ++ s) = (Path.absolute place).below ⟨[], s⟩ := rfl
  have straight := find_cases found free fun n member =>
    names n (List.mem_append_right place member)
  rcases straight with ⟨c, _, h⟩ | ⟨_, h | h⟩ <;>
  · rw [← below] at h
    simp only [Workspace.resolve, noNull, resolved, h]
    rfl

/-- The root of a project is what its path resolves to, and it is a folder. -/
theorem projectRoot_iff {path : Text} {root : Path} : w.projectRoot path = .ok root ↔
    ∃ p place e, w.expand (.ofText path) = .ok p ∧ w.resolve p = .ok root ∧
      w.tree.find root = .ok (place, e) ∧ e.isFolder = true := by
  unfold projectRoot
  constructor
  · intro ended
    obtain ⟨p, expanded, ended⟩ := bind_ok ended
    obtain ⟨root', resolved, ended⟩ := bind_ok ended
    obtain ⟨has, _, ended⟩ := bind_ok ended
    cases has with
    | false => cases ended
    | true =>
      obtain ⟨isFolder, tested, ended⟩ := bind_ok ended
      cases isFolder with
      | false => cases ended
      | true =>
        cases ended
        unfold Tree.isFolder test at tested
        split at tested
        · rename_i place e found
          exact ⟨p, place, e, expanded, resolved, found, Except.ok.inj tested⟩
        · cases tested
        · cases tested
  · rintro ⟨p, place, e, expanded, resolved, found, folder⟩
    have has : w.tree.has root = .ok true := by
      rw [Tree.has, Tree.test, found]
    have isFolder : w.tree.isFolder root = .ok true := by
      rw [Tree.isFolder, Tree.test, found]
      exact congrArg Except.ok folder
    simp only [expanded, resolved, bind, Except.bind, has, isFolder]
    rfl

theorem plain_of_expand {path : Text} {p : Path} (expanded : w.expand (.ofText path) = .ok p) :
    ∀ n ∈ p.segments, n ≠ [] ∧ n ≠ ['.'] := by
  have plain (text : Text) : ∀ n ∈ (Path.ofText text).segments, n ≠ [] ∧ n ≠ ['.'] := by
    intro n member
    simpa using (List.mem_filter.mp member).2
  unfold expand at expanded
  split at expanded
  · rename_i user rest _ segments
    split at expanded
    · rename_i home known
      obtain rfl := Except.ok.inj expanded
      have kept := plain path
      rw [segments] at kept
      split at known
      · obtain ⟨text, _, chosen⟩ := Option.bind_eq_some_iff.mp known
        dsimp only at chosen
        split at chosen
        · cases chosen
        · obtain rfl := Option.some.inj chosen
          refine List.forall_mem_append.mpr ⟨plain _, fun n member => ?_⟩
          exact kept n (List.mem_cons_of_mem _ member)
      · cases known
    · cases expanded
  · obtain rfl := Except.ok.inj expanded
    exact plain path

theorem resolve_ok {p root : Path} (resolved : w.resolve p = .ok root) :
    Tree.hasNull p = false ∧ root = .absolute (w.tree.resolve p) := by
  unfold Workspace.resolve at resolved
  split at resolved
  · cases resolved
  · rename_i noNull
    dsimp only at resolved
    split at resolved
    · cases resolved
    · exact ⟨by simpa using noNull, (Except.ok.inj resolved).symm⟩

theorem linkless_of_get? {top : Entry} {es : List (Text × Entry)}
    (stands : top.get? place = some (.folder es)) : top.isLink = false := by
  obtain ⟨es', rfl⟩ := isFolder_of_get? stands
  rfl

variable {w' : Workspace} {es es' : List (Text × Entry)} {path : Text}

/-- In a tree without links the root of a project stands at the place that it spells. -/
theorem root_of_projectRoot {root : Path} (tidy : w.tree.top.Each Tidy)
    (free : w.tree.top.Each Linkless) (stands : w.tree.top.get? w.tree.here = some (.folder es))
    (resolved : w.projectRoot path = .ok root) : ∃ place e, root = .absolute place ∧
      w.tree.find (.absolute place) = .ok (place, e) ∧ e.isFolder = true := by
  obtain ⟨p, place, e, expanded, resolved, found, folder⟩ := projectRoot_iff.mp resolved
  obtain ⟨_, rfl⟩ := resolve_ok resolved
  have names := isName_of_get? tidy stands
  have plain : ∀ n ∈ w.tree.resolve p, n ≠ [] ∧ n ≠ ['.'] ∧ n ≠ ['.', '.'] := by
    intro n member
    rw [resolve_linkless free (linkless_of_get? stands), normalize_eq] at member
    rcases mem_walked member with absurd | ⟨inside, noUp⟩
    · cases absurd
    · rcases mem_walked inside with inside | ⟨inside, _⟩
      · unfold origin at inside
        split at inside
        · exact ⟨(names n inside).nonempty, (names n inside).noDots.1, noUp⟩
        · cases inside
      · obtain ⟨nonempty, noDot⟩ := plain_of_expand expanded n inside
        exact ⟨nonempty, noDot, noUp⟩
  obtain rfl := place_of_find free plain found
  exact ⟨_, e, rfl, found, folder⟩

/-- Where nothing else than a tree without links has changed, a project has the same root. -/
theorem projectRoot_of_find {root : Path} {e : Entry} (environment : w'.environment = w.environment)
    (here : w'.tree.here = w.tree.here) (free : w.tree.top.Each Linkless)
    (free' : w'.tree.top.Each Linkless)
    (stands : w.tree.top.get? w.tree.here = some (.folder es))
    (stands' : w'.tree.top.get? w'.tree.here = some (.folder es'))
    (resolved : w.projectRoot path = .ok root) (found : w'.tree.find root = .ok (place, e))
    (folder : e.isFolder = true) : w'.projectRoot path = .ok root := by
  obtain ⟨p, _, _, expanded, resolved, _, _⟩ := projectRoot_iff.mp resolved
  obtain ⟨noNull, whole⟩ := resolve_ok resolved
  have expanded' : w'.expand (.ofText path) = .ok p := by
    rw [← expanded]
    simp only [expand, home?, valueOf?, environment]
  have same : w'.tree.resolve p = w.tree.resolve p := by
    rw [resolve_linkless free (linkless_of_get? stands),
      resolve_linkless free' (linkless_of_get? stands'), origin, origin, here]
  have resolved' : w'.resolve p = .ok root := by
    rw [whole] at found ⊢
    simp only [Workspace.resolve, noNull, same, found]
    rfl
  exact projectRoot_iff.mpr ⟨p, place, e, expanded', resolved', found, folder⟩

end Workspace
end RouteAtlas
