import Mathlib.Data.List.Find
import RouteAtlas.Project.Gathering
import RouteAtlas.Proofs.Project.RouteTables
import RouteAtlas.Proofs.Tree.Lookup

/-!
# What gathering gives

`Gathered` says fact by fact where the traits of a project come from, and `gather_iff` that these are the
traits that are gathered. In a folder without links the single facts are read off its entries.
-/

namespace RouteAtlas

theorem filterM_congr {α ε : Type} {l : List α} {test test' : α → Except ε Bool}
    (same : ∀ a ∈ l, test a = test' a) : l.filterM test = l.filterM test' := by
  have step (done : List α) : List.filterAuxM test l done = List.filterAuxM test' l done := by
    induction l generalizing done with
    | nil => rfl
    | cons a l ih =>
      rw [List.filterAuxM, List.filterAuxM, same a List.mem_cons_self]
      simp only [ih fun b hb => same b (List.mem_cons_of_mem a hb)]
  rw [List.filterM, List.filterM, step]

theorem mapM_congr {α β ε : Type} {l : List α} {step step' : α → Except ε β}
    (same : ∀ a ∈ l, step a = step' a) : l.mapM step = l.mapM step' := by
  induction l with
  | nil => rfl
  | cons a l ih =>
    rw [List.mapM_cons, List.mapM_cons, same a List.mem_cons_self,
      ih fun b hb => same b (List.mem_cons_of_mem a hb)]

namespace Traits

variable {t : Tree} {root : Path} {s : Traits}

structure Gathered (t : Tree) (root : Path) (s : Traits) : Prop where
  markers : landmarks.filterM (present t root) = .ok s.markers
  files : ∃ files, walk t root [] {} = .ok files ∧
    s.foreignFiles = (files.filter (Text.endsWith ".php")).length ∧
    s.hasPlayRouters = files.any (Text.endsWith "Router.scala")
  program : ∃ program, programText t root = .ok program ∧
    s.dotnetEntry = program.map (fun _ => ("Program.cs" : Text)) ∧
    s.dotnetMinimalApi = program.any mapsEndpoints
  dependencies : readDependencies t root = .ok s.dependencies
  reason : findReason t root s.foreignFiles = .ok s.unsupportedReason
  django : findDjangoRoot t root = .ok s.djangoRoot
  modules : moduleFolders.filterM (fun folder => holdsRouters t (root.sub folder)) =
    .ok s.modulesWithRouters
  targets : findAutoTargets t root = .ok s.autoTargets
  controllers : walk t root [] controllerWalk = .ok s.controllers
  projects : s.projectFiles = (t.names root).filter (Text.endsWith ".csproj")

theorem gather_iff : gather t root = .ok s ↔ Gathered t root s := by
  constructor
  · intro gathered
    unfold gather at gathered
    obtain ⟨markers, marked, gathered⟩ := bind_ok gathered
    obtain ⟨files, walked, gathered⟩ := bind_ok gathered
    obtain ⟨program, read, gathered⟩ := bind_ok gathered
    obtain ⟨dependencies, depends, gathered⟩ := bind_ok gathered
    obtain ⟨reason, reasoned, gathered⟩ := bind_ok gathered
    obtain ⟨djangoRoot, django, gathered⟩ := bind_ok gathered
    obtain ⟨modules, routed, gathered⟩ := bind_ok gathered
    obtain ⟨targets, registered, gathered⟩ := bind_ok gathered
    obtain ⟨controllers, controlled, gathered⟩ := bind_ok gathered
    cases gathered
    exact ⟨marked, ⟨files, walked, rfl, rfl⟩, ⟨program, read, rfl, rfl⟩, depends, reasoned, django,
      routed, registered, controlled, rfl⟩
  · rintro ⟨marked, ⟨files, walked, foreign, play⟩, ⟨program, read, entry, minimal⟩, depends, reasoned,
      django, routed, registered, controlled, projects⟩
    unfold gather
    simp only [bind, Except.bind, pure, Except.pure, marked, walked, read, depends, ← foreign, reasoned,
      django, routed, registered, controlled, ← play, ← entry, ← minimal, ← projects]

theorem findFirst_ok {α : Type} {l : List α} {property : α → Except Failure Bool} {p : α → Bool}
    (each : ∀ a ∈ l, property a = .ok (p a)) : findFirst property l = .ok (l.find? p) := by
  induction l with
  | nil => rfl
  | cons a l ih =>
    rw [findFirst, each a List.mem_cons_self, List.find?_cons]
    show (if p a then _ else _) = _
    cases p a with
    | true => rfl
    | false => exact ih fun b hb => each b (List.mem_cons_of_mem a hb)

theorem findFirst_congr {α : Type} {l : List α} {property property' : α → Except Failure Bool}
    (same : ∀ a ∈ l, property a = property' a) : findFirst property l = findFirst property' l := by
  induction l with
  | nil => rfl
  | cons a l ih =>
    rw [findFirst, findFirst, same a List.mem_cons_self,
      ih fun b hb => same b (List.mem_cons_of_mem a hb)]

/-! ### Without links -/

section Linkless

open Entry

variable {place : Place} {e : Entry}

/-- The files of a walk below a folder of a project without links, relative to the root. -/
def listing (e : Entry) (folder : Text) (w : Tree.Walk) : List Text :=
  (((e.get? (Path.segmentsOf folder)).map w.listed).getD []).map fun s =>
    (Path.mk [] (Path.segmentsOf folder ++ s)).text

theorem walk_listing (found : t.find root = .ok (place, e)) (free : e.Each Linkless) {folder : Text}
    (relative : Path.rootOf folder = []) (names : ∀ n ∈ Path.segmentsOf folder, IsName n)
    (w : Tree.Walk) : walk t root folder w = .ok (listing e folder w) := by
  rw [walk, Tree.relativeFiles_eq found free relative names]
  rfl

/-- The path is that of a file. -/
def IsFileOf (e : Entry) (path : Text) : Prop :=
  ∃ s content, s ≠ [] ∧ path = Text.join "/" s ∧ e.get? s = some (.file content)

theorem isFileOf_of_mem_listing (tidy : e.Each Tidy) (free : e.Each Linkless) {folder path : Text}
    {w : Tree.Walk} (listed : path ∈ listing e folder w) : IsFileOf e path := by
  obtain ⟨s, member, rfl⟩ := List.mem_map.mp listed
  cases inside : e.get? (Path.segmentsOf folder) with
  | none => simp [inside] at member
  | some c =>
    simp only [inside, Option.map_some, Option.getD_some] at member
    obtain ⟨folders, name, rfl, lists⟩ :=
      (Tree.Walk.mem_listed (tidy.get inside) (free.get inside)).mp member
    obtain ⟨content, file⟩ := lists.file
    refine ⟨Path.segmentsOf folder ++ (folders ++ [name]), content, by simp, ?_, ?_⟩
    · exact Tree.text_relative (by simp)
    · rw [get?_append, inside]
      exact file

theorem names_root (found : t.find root = .ok (place, e)) :
    t.names root = e.entries.map Prod.fst := by
  rw [Tree.names, found]

theorem get?_of_mem_entries (tidy : e.Each Tidy) {q : Text × Entry} (member : q ∈ e.entries) :
    e.get? [q.1] = some q.2 := by
  cases tidy with
  | folder here _ =>
    rw [get?_singleton]
    exact (child?_eq_some_iff here.ascending).mpr member
  | _ => cases member

/-- The folder of a Django project: the root, or the first folder in it with a management script. -/
def djangoRootOf (e : Entry) : Option Text :=
  if (e.child? "manage.py").isSome then some "."
  else (e.entries.find? fun q => (q.2.child? "manage.py").isSome).map Prod.fst

theorem present_below (found : t.find root = .ok (place, e)) (free : e.Each Linkless)
    {s : List Text} (names : ∀ n ∈ s, IsName n) {path : Text} (relative : Path.rootOf path = [])
    (known : ∀ n ∈ Path.segmentsOf path, IsName n) :
    present t (root.below ⟨[], s⟩) path = .ok (e.get? (s ++ Path.segmentsOf path)).isSome := by
  rw [present, Tree.sub_relative _ relative, Path.below_below, Tree.has,
    Tree.test_below found free (List.forall_mem_append.mpr ⟨names, known⟩)]
  cases e.get? (s ++ Path.segmentsOf path) <;> rfl

theorem findDjangoRoot_eq (found : t.find root = .ok (place, e)) (tidy : e.Each Tidy)
    (free : e.Each Linkless) : findDjangoRoot t root = .ok (djangoRootOf e) := by
  have segments : Path.segmentsOf "manage.py" = [("manage.py" : Text)] := by decide
  have known : ∀ n ∈ Path.segmentsOf "manage.py", IsName n := by decide
  have relative : Path.rootOf "manage.py" = [] := by decide
  have here : present t root "manage.py" = .ok (e.child? "manage.py").isSome := by
    have below := present_below found free (s := []) (by simp) relative known
    rwa [segments, List.nil_append, get?_singleton, show root.below ⟨[], []⟩ = root by
      simp [Path.below]] at below
  have there : ∀ name ∈ t.names root, (do
      let folder := root.below ⟨[], [name]⟩
      if ← Failure.on folder (t.testEntry folder Entry.isFolder) then present t folder "manage.py"
      else return false) = .ok ((e.child? name).any fun c => (c.child? "manage.py").isSome) := by
    intro name listed
    rw [names_root found] at listed
    obtain ⟨⟨name, c⟩, member, rfl⟩ := List.mem_map.mp listed
    have inside := get?_of_mem_entries tidy member
    have named := isName_of_get? tidy inside
    have child : e.child? name = some c := (get?_singleton e name).symm.trans inside
    simp only [present_below found free named relative known, get?_append, inside, segments,
      Option.bind_some, get?_singleton, Tree.testEntry_below found free named inside, child,
      Option.any_some]
    cases c <;> rfl
  rw [findDjangoRoot, here, findFirst_ok there, names_root found, List.find?_map]
  show (if _ then _ else _) = _
  rw [djangoRootOf]
  split
  · rfl
  · refine congrArg (Except.ok ∘ Option.map Prod.fst) (List.find?_congr fun q member => ?_)
    have child := get?_of_mem_entries tidy member
    rw [get?_singleton] at child
    rw [Function.comp_apply, child]
    rfl

/-- Some folder in the folder has a file that is named like a router. -/
def holdsRouter (e : Entry) : Bool :=
  e.entries.any fun q => q.2.entries.any fun r => namesRouter r.1

theorem holdsRouters_eq (found : t.find root = .ok (place, e)) (tidy : e.Each Tidy)
    (free : e.Each Linkless) {s : List Text} (names : ∀ n ∈ s, IsName n) :
    holdsRouters t (root.below ⟨[], s⟩) = .ok ((e.get? s).any holdsRouter) := by
  have each : ∀ name ∈ t.names (root.below ⟨[], s⟩), (do
      let inner := (root.below ⟨[], s⟩).below ⟨[], [name]⟩
      if ← Failure.on inner (t.testEntry inner Entry.isFolder) then
        return (t.names inner).any namesRouter
      else return false) =
        .ok ((e.get? (s ++ [name])).any fun c => c.entries.any fun r => namesRouter r.1) := by
    intro name listed
    rw [Tree.names_below found free names] at listed
    cases inside : e.get? s with
    | none => simp [inside] at listed
    | some d =>
      simp only [inside, Option.map_some, Option.getD_some] at listed
      obtain ⟨⟨name, c⟩, member, rfl⟩ := List.mem_map.mp listed
      have inner : e.get? (s ++ [name]) = some c := by
        rw [get?_append, inside]
        exact get?_of_mem_entries (tidy.get inside) member
      have named := isName_of_get? tidy inner
      simp only [Path.below_below, Tree.testEntry_below found free named inner,
        Tree.names_below found free named, inner, Option.map_some, Option.getD_some, Option.any_some,
        List.any_map]
      cases c <;> rfl
  rw [holdsRouters, findFirst_ok each, Tree.names_below found free names]
  refine congrArg Except.ok ?_
  rw [List.isSome_find?]
  cases inside : e.get? s with
  | none => rfl
  | some d =>
    have child {q : Text × Entry} (member : q ∈ d.entries) : e.get? (s ++ [q.1]) = some q.2 := by
      rw [get?_append, inside]
      exact get?_of_mem_entries (tidy.get inside) member
    rw [Bool.eq_iff_iff]
    simp only [Option.map_some, Option.getD_some, Option.any_some, List.any_map, holdsRouter,
      List.any_eq_true, Function.comp_apply]
    refine exists_congr fun q => and_congr_right fun member => ?_
    rw [child member]
    simp

end Linkless

end Traits
end RouteAtlas
