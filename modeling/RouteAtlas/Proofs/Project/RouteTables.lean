import Mathlib.Data.List.Infix
import Mathlib.Data.List.Sort
import RouteAtlas.Proofs.Atlas.Soundness
import RouteAtlas.Proofs.Extract.Described
import RouteAtlas.Proofs.Project.Candidates

/-!
# The route tables that are found

A search gives route tables as segments from the folder in which it starts: `Gives` says of a step of
the search which these are; it gives them in order. `gives_below` follows the search through a tree without links, and
`find_tables` says what all searches together find.
-/

namespace RouteAtlas

namespace RouteTables

open Entry

/-- The folder in which route tables lie, and the one around it. -/
def serverRoutes : List Text := ["server", "routes"]

/-- A route table below a folder at the segments `base`: a script in a folder `routes` of a folder
`server`, reached through folders that are searched and lie in no other such folder. -/
structure Holds (base : List Text) (e : Entry) (folders : List Text) (name : Text) : Prop where
  file : ∃ content, e.get? (folders ++ [name]) = some (.file content)
  script : Traits.isScript name = true
  entered : ∀ f ∈ folders, isSearched f = true
  below : folders ≠ []
  table : serverRoutes <:+ base ++ folders
  outermost : ∀ inner, inner ≠ [] → inner <+: folders → serverRoutes <:+ base ++ inner →
    inner = folders

/-- A step of a search ends well, and what it gives lies at segments with a property, in order. -/
def Gives (folder : Path) (found : Except Failure (List Path)) (P : List Text → Prop) : Prop :=
  ∃ tables : List (List Text), found = .ok (tables.map fun s => folder.below ⟨[], s⟩) ∧
    tables.Pairwise (· < ·) ∧ ∀ s, s ∈ tables ↔ P s

section Steps

variable {t : Tree} {folder root : Path} {place : Place} {e : Entry} {es : List (Text × Entry)}
  {onLink : Path → Place → Text → Except Failure (List Path)} {base : List Text} {n : Text}

theorem gives_nothing {P : List Text → Prop} (none : ∀ s, ¬P s) : Gives folder (.ok []) P :=
  ⟨[], rfl, .nil, fun s => by simp [none s]⟩

theorem Gives.of_iff {found : Except Failure (List Path)} {P Q : List Text → Prop}
    (gives : Gives folder found P) (same : ∀ s, P s ↔ Q s) : Gives folder found Q := by
  obtain ⟨tables, ended, ascending, member⟩ := gives
  exact ⟨tables, ended, ascending, fun s => (member s).trans (same s)⟩

/-- The property tells everything about what a step gives. -/
theorem Gives.unique {found found' : Except Failure (List Path)} {P : List Text → Prop}
    (gives : Gives folder found P) (gives' : Gives folder found' P) : found = found' := by
  obtain ⟨tables, rfl, ascending, member⟩ := gives
  obtain ⟨tables', rfl, ascending', member'⟩ := gives'
  rw [ascending.eq_of_mem_iff ascending' fun s => (member s).trans (member' s).symm]

theorem Gives.inner {found : Except Failure (List Path)} {P : List Text → Prop}
    (gives : Gives (folder.below ⟨[], [n]⟩) found P) :
    Gives folder found fun s => ∃ u, s = n :: u ∧ P u := by
  obtain ⟨tables, rfl, ascending, member⟩ := gives
  refine ⟨tables.map (n :: ·), ?_, ?_, fun s => ?_⟩
  · simp [Path.below]
  · exact ascending.map _ fun a b less => List.cons_lt_cons_iff.mpr (.inr ⟨rfl, less⟩)
  · simp only [List.mem_map, member]
    constructor
    · rintro ⟨u, h, rfl⟩
      exact ⟨u, rfl, h⟩
    · rintro ⟨u, rfl, h⟩
      exact ⟨u, h, rfl⟩

/-! ### One folder -/

theorem filterAuxM_ok {ε : Type} {l : List Text} {test : Text → Except ε Bool} {p : Text → Bool}
    (each : ∀ a ∈ l, test a = .ok (p a)) (done : List Text) :
    List.filterAuxM test l done = .ok ((l.filter p).reverse ++ done) := by
  induction l generalizing done with
  | nil => rfl
  | cons a l ih =>
    have rest := ih fun b hb => each b (List.mem_cons_of_mem a hb)
    rw [List.filterAuxM, each a List.mem_cons_self]
    cases chosen : p a <;> simp [bind, Except.bind, rest, chosen]

theorem filterM_ok {ε : Type} {l : List Text} {test : Text → Except ε Bool} {p : Text → Bool}
    (each : ∀ a ∈ l, test a = .ok (p a)) : l.filterM test = .ok (l.filter p) := by
  rw [List.filterM, filterAuxM_ok each]
  simp [bind, Except.bind, pure, Except.pure]

/-- In a folder of tables every script is one. -/
theorem gives_tablesIn (found : t.find folder = .ok (place, .folder es))
    (tidy : (Entry.folder es).Each Tidy) (free : (Entry.folder es).Each Linkless) :
    Gives folder (tablesIn t folder) fun s => ∃ name, s = [name] ∧
      Traits.isScript name = true ∧
        ∃ content, (Entry.folder es).child? name = some (.file content) := by
  let isFile (name : Text) : Bool := ((Entry.folder es).child? name).any Entry.isFile
  have names : t.names folder = es.map Prod.fst := by
    rw [Tree.names, found]
    rfl
  have tested : ∀ name ∈ es.map Prod.fst,
      Failure.on (folder.below ⟨[], [name]⟩) (t.testEntry (folder.below ⟨[], [name]⟩) Entry.isFile) =
        .ok (isFile name) := by
    intro name member
    obtain ⟨⟨name, c⟩, inside, rfl⟩ := List.mem_map.mp member
    have child : (Entry.folder es).child? name = some c :=
      (child?_eq_some_iff (each_folder.mp tidy).1.ascending).mpr inside
    have item := Tree.find_below found tidy free ((get?_singleton _ name).trans child)
    simp only [Tree.testEntry, item, isFile, child]
    rfl
  refine ⟨((es.map Prod.fst).filter isFile |>.filter Traits.isScript).map ([·]), ?_, ?_,
    fun s => ?_⟩
  · simp only [tablesIn, names, filterM_ok tested, List.map_map]
    rfl
  · have ascending := (each_folder.mp tidy).1.ascending
    exact ((ascending.filter _).filter _).map _ fun a b less =>
      List.cons_lt_cons_iff.mpr (.inl less)
  · have isFile_iff (name : Text) : isFile name = true ↔
        ∃ content, (Entry.folder es).child? name = some (.file content) := by
      simp only [isFile]
      cases (Entry.folder es).child? name with
      | none => simp
      | some c => cases c <;> simp [Entry.isFile]
    simp only [List.mem_map (f := ([·])), List.mem_filter, isFile_iff]
    constructor
    · rintro ⟨name, ⟨⟨_, file⟩, script⟩, rfl⟩
      exact ⟨name, rfl, script, file⟩
    · rintro ⟨name, rfl, script, content, file⟩
      exact ⟨name, ⟨⟨List.mem_map_of_mem (mem_of_child? file), content, file⟩, script⟩, rfl⟩

/-! ### All folders -/

theorem holdsTables_iff (root : Path) (nonempty : base ≠ []) :
    holdsTables (root.below ⟨[], base⟩) n = true ↔ serverRoutes <:+ base ++ [n] := by
  obtain none | ⟨before, last, rfl⟩ := List.eq_nil_or_concat' base
  · exact absurd none nonempty
  let server : Text := "server"
  let routes : Text := "routes"
  have outer : [server] ++ [routes] <:+ (before ++ [last]) ++ [n] ↔
      [server] <:+ before ++ [last] ∧ [routes] = [n] :=
    List.suffix_append_inj_of_length_eq rfl
  have inner : [] ++ [server] <:+ before ++ [last] ↔ [] <:+ before ∧ [server] = [last] :=
    List.suffix_append_inj_of_length_eq rfl
  have name : (root.below ⟨[], before ++ [last]⟩).name = last := by
    simp [Path.below, Path.name]
  calc holdsTables (root.below ⟨[], before ++ [last]⟩) n = true
      ↔ n = routes ∧ last = server := by
        rw [holdsTables, name, Bool.and_eq_true, beq_iff_eq, beq_iff_eq]
    _ ↔ [server] <:+ before ++ [last] ∧ [routes] = [n] := by
        rw [← List.nil_append [server], inner]
        simp [and_comm, eq_comm]
    _ ↔ serverRoutes <:+ (before ++ [last]) ++ [n] := outer.symm

theorem isSearched_of_table (table : serverRoutes <:+ base ++ [n]) : isSearched n = true := by
  have last : serverRoutes.getLast (by decide) = n := by
    rw [table.getLast (by decide)]
    simp
  rw [← last]
  decide

theorem not_holds (childless : ∀ n, e.child? n = none) (s : List Text) :
    ¬∃ folders name, s = folders ++ [name] ∧ Holds base e folders name := by
  rintro ⟨folders, name, _, ⟨content, file⟩, _⟩
  cases folders <;> simp [get?_cons, childless] at file

theorem holds_table {folders : List Text} {name : Text} (table : serverRoutes <:+ base ++ [n]) :
    Holds base e (n :: folders) name ↔ folders = [] ∧ Traits.isScript name = true ∧
      ∃ c, e.child? n = some c ∧ ∃ content, c.child? name = some (.file content) := by
  constructor
  · rintro ⟨⟨content, file⟩, script, _, _, _, outermost⟩
    have whole := outermost [n] (List.cons_ne_nil n []) (by simp) table
    obtain rfl := List.cons.inj whole |>.2
    obtain ⟨c, child, inner⟩ := Option.bind_eq_some_iff.mp file
    exact ⟨rfl, script, c, child, content, (get?_singleton c name).symm.trans inner⟩
  · rintro ⟨rfl, script, c, child, content, file⟩
    refine ⟨⟨content, ?_⟩, script, ?_, List.cons_ne_nil n [], table, ?_⟩
    · rw [List.cons_append, get?_cons, child]
      exact (get?_singleton c name).trans file
    · exact List.forall_mem_singleton.mpr (isSearched_of_table table)
    · intro inner nonempty start _
      exact start.eq_of_length_le (List.length_pos_iff.mpr nonempty)

theorem holds_deeper {folders : List Text} {name : Text} (noTable : ¬serverRoutes <:+ base ++ [n]) :
    Holds base e (n :: folders) name ↔
      isSearched n = true ∧ ∃ c, e.child? n = some c ∧ Holds (base ++ [n]) c folders name := by
  have shift (inner : List Text) : base ++ n :: inner = base ++ [n] ++ inner := by simp
  constructor
  · rintro ⟨⟨content, file⟩, script, entered, _, table, outermost⟩
    obtain ⟨c, child, inner⟩ := Option.bind_eq_some_iff.mp file
    obtain ⟨here, entered⟩ := List.forall_mem_cons.mp entered
    refine ⟨here, c, child, ⟨content, inner⟩, script, entered, ?_, shift folders ▸ table, ?_⟩
    · rintro rfl
      exact noTable table
    · intro inner nonempty start held
      rw [← shift] at held
      have longer : n :: inner <+: n :: folders := List.cons_prefix_cons.mpr ⟨rfl, start⟩
      exact (List.cons.inj (outermost (n :: inner) (List.cons_ne_nil n inner) longer held)).2
  · rintro ⟨here, c, child, ⟨content, file⟩, script, entered, below, table, outermost⟩
    refine ⟨⟨content, ?_⟩, script, List.forall_mem_cons.mpr ⟨here, entered⟩,
      List.cons_ne_nil n folders, shift folders ▸ table, ?_⟩
    · rw [List.cons_append, get?_cons, child]
      exact file
    · intro inner nonempty start held
      cases inner with
      | nil => exact absurd rfl nonempty
      | cons m inner =>
        obtain ⟨rfl, shorter⟩ := List.cons_prefix_cons.mp start
        have deeper : inner ≠ [] := by
          rintro rfl
          exact noTable held
        rw [shift] at held
        rw [outermost inner deeper shorter held]

/-- The tables at a name in a folder. -/
def tablesAt (t : Tree) (onLink : Path → Place → Text → Except Failure (List Path)) (folder : Path)
    (place : Place) (name : Text) : Entry → Except Failure (List Path)
  | .folder es =>
    if holdsTables folder name then tablesIn t (folder.below ⟨[], [name]⟩)
    else if isSearched name then
      below t onLink (folder.below ⟨[], [name]⟩) (place ++ [name]) (.folder es)
    else .ok []
  | .link _ => onLink folder place name
  | .file _ => .ok []

theorem belowAll_cons (q : Text × Entry) :
    belowAll t onLink folder place (q :: es) = do
      return (← tablesAt t onLink folder place q.1 q.2) ++ (← belowAll t onLink folder place es) := by
  obtain ⟨name, e⟩ := q
  cases e with
  | folder es =>
    simp only [belowAll, tablesAt]
    split
    · rfl
    · split <;> rfl
  | _ => rfl

theorem gives_belowAll {P : Text × Entry → List Text → Prop}
    (ascending : (es.map Prod.fst).Pairwise (· < ·)) (start : ∀ q s, P q s → ∃ u, s = q.1 :: u)
    (each : ∀ q ∈ es, Gives folder (tablesAt t onLink folder place q.1 q.2) (P q)) :
    Gives folder (belowAll t onLink folder place es) fun s => ∃ q ∈ es, P q s := by
  induction es with
  | nil => exact gives_nothing fun s => by simp
  | cons q es ih =>
    obtain ⟨first, ascending⟩ := List.pairwise_cons.mp ascending
    obtain ⟨here, ended, ordered, member⟩ := each q List.mem_cons_self
    obtain ⟨rest, ended', ordered', member'⟩ :=
      ih ascending fun q' hq => each q' (List.mem_cons_of_mem q hq)
    refine ⟨here ++ rest, ?_, ?_, fun s => ?_⟩
    · rw [belowAll_cons, ended, ended', List.map_append]
      rfl
    · refine List.pairwise_append.mpr ⟨ordered, ordered', fun x hx y hy => ?_⟩
      obtain ⟨q', inside, holds⟩ := (member' y).mp hy
      obtain ⟨u, rfl⟩ := start q x ((member x).mp hx)
      obtain ⟨v, rfl⟩ := start q' y holds
      exact List.cons_lt_cons_iff.mpr (.inl (first q'.1 (List.mem_map_of_mem inside)))
    · simp only [List.mem_append, member, member', List.mem_cons, exists_eq_or_imp]

/-- The search at a name in a folder gives the tables there, if it does so below the folder that the
name may stand for. -/
theorem gives_tablesAt {c : Entry} (nonempty : base ≠ [])
    (found : t.find (root.below ⟨[], base⟩) = .ok (place, .folder es))
    (tidy : (Entry.folder es).Each Tidy) (free : (Entry.folder es).Each Linkless)
    (child : (Entry.folder es).child? n = some c) (seen : Place)
    (deeper : t.find (root.below ⟨[], base ++ [n]⟩) = .ok (place ++ [n], c) →
      Gives (root.below ⟨[], base ++ [n]⟩)
        (below t onLink (root.below ⟨[], base ++ [n]⟩) (seen ++ [n]) c) fun s =>
          ∃ folders name, s = folders ++ [name] ∧ Holds (base ++ [n]) c folders name) :
    Gives (root.below ⟨[], base⟩) (tablesAt t onLink (root.below ⟨[], base⟩) seen n c) fun s =>
      ∃ folders name, s = n :: (folders ++ [name]) ∧ Holds base (.folder es) (n :: folders) name := by
  have inner := Path.below_below root base [n]
  have found' : t.find (root.below ⟨[], base ++ [n]⟩) = .ok (place ++ [n], c) :=
    inner ▸ Tree.find_below found tidy free ((get?_singleton _ n).trans child)
  cases c with
  | link target => cases isLink_of_child? free child
  | file content =>
    refine gives_nothing fun s => ?_
    rintro ⟨folders, name, _, ⟨_, file⟩, _⟩
    rw [List.cons_append, get?_cons, child] at file
    cases folders <;> cases file
  | folder es' =>
    simp only [tablesAt, inner, holdsTables_iff root nonempty]
    by_cases table : serverRoutes <:+ base ++ [n]
    · rw [if_pos table]
      have tables := gives_tablesIn found' (tidy.child child) (free.child child)
      rw [← inner] at tables ⊢
      refine tables.inner.of_iff fun s => ?_
      simp only [holds_table table, child, Option.some.injEq, exists_eq_left']
      constructor
      · rintro ⟨u, rfl, name, rfl, script, file⟩
        exact ⟨[], name, rfl, rfl, script, file⟩
      · rintro ⟨folders, name, rfl, rfl, script, file⟩
        exact ⟨[name], rfl, name, rfl, script, file⟩
    · rw [if_neg table]
      simp only [holds_deeper table, child, Option.some.injEq, exists_eq_left']
      by_cases searched : isSearched n = true
      · rw [if_pos searched]
        have tables := deeper found'
        rw [← inner] at tables ⊢
        refine tables.inner.of_iff fun s => ?_
        constructor
        · rintro ⟨u, rfl, folders, name, rfl, holds⟩
          exact ⟨folders, name, rfl, searched, holds⟩
        · rintro ⟨folders, name, rfl, _, holds⟩
          exact ⟨folders ++ [name], rfl, folders, name, rfl, holds⟩
      · rw [if_neg searched]
        refine gives_nothing fun s => ?_
        rintro ⟨_, _, _, here, _⟩
        exact searched here

/-- Below a folder the search gives the tables that lie there. -/
theorem gives_below (nonempty : base ≠ []) (found : t.find (root.below ⟨[], base⟩) = .ok (place, e))
    (tidy : e.Each Tidy) (free : e.Each Linkless) (seen : Place) :
    Gives (root.below ⟨[], base⟩) (below t onLink (root.below ⟨[], base⟩) seen e) fun s =>
      ∃ folders name, s = folders ++ [name] ∧ Holds base e folders name := by
  induction tidy generalizing base place seen with
  | file => exact gives_nothing (not_holds fun _ => rfl)
  | link => exact gives_nothing (not_holds fun _ => rfl)
  | @folder es here below ih =>
    -- A step down makes the name part of `base`, so that the parent's name is at hand there.
    have each : ∀ q ∈ es, Gives (root.below ⟨[], base⟩)
        (tablesAt t onLink (root.below ⟨[], base⟩) seen q.1 q.2) fun s =>
          ∃ folders name, s = q.1 :: (folders ++ [name]) ∧
            Holds base (.folder es) (q.1 :: folders) name := by
      rintro ⟨n, c⟩ member
      refine gives_tablesAt nonempty found (.folder here below) free
        ((child?_eq_some_iff here.ascending).mpr member) seen fun found' => ?_
      exact ih _ member (by simp) found' ((each_folder.mp free).2 _ member) _
    have start (q : Text × Entry) (s : List Text) : (∃ folders name,
        s = q.1 :: (folders ++ [name]) ∧ Holds base (.folder es) (q.1 :: folders) name) →
          ∃ u, s = q.1 :: u := by
      rintro ⟨folders, name, rfl, _⟩
      exact ⟨_, rfl⟩
    refine (gives_belowAll here.ascending start each).of_iff fun s => ?_
    constructor
    · rintro ⟨⟨n, c⟩, _, folders, name, rfl, holds⟩
      exact ⟨n :: folders, name, rfl, holds⟩
    · rintro ⟨folders, name, rfl, holds⟩
      cases folders with
      | nil => exact absurd rfl holds.below
      | cons n folders =>
        obtain ⟨content, file⟩ := holds.file
        obtain ⟨c, child, _⟩ := Option.bind_eq_some_iff.mp file
        exact ⟨(n, c), mem_of_child? child, folders, name, rfl, holds⟩

end Steps

/-! ### All searches -/

variable {t : Tree} {root : Path} {place : Place} {e : Entry}

/-- A script in a route table below one of the folders that are searched, and its path. -/
def IsTable (e : Entry) (name path : Text) : Prop :=
  ∃ c, e.get? (Path.segmentsOf name) = some c ∧ ∃ folders file,
    Holds (Path.segmentsOf name) c folders file ∧
      path = Text.join "/" (Path.segmentsOf name ++ (folders ++ [file]))

theorem searchRoots_facts : ∀ name ∈ searchRoots, Path.rootOf name = [] ∧
    Path.segmentsOf name ≠ [] ∧ ∀ n ∈ Path.segmentsOf name, IsName n := by
  decide

theorem gives_search (found : t.find root = .ok (place, e)) (tidy : e.Each Tidy)
    (free : e.Each Linkless) {base : List Text} (nonempty : base ≠ [])
    (names : ∀ n ∈ base, IsName n) :
    Gives (root.below ⟨[], base⟩) (search t (root.below ⟨[], base⟩)) fun s =>
      ∃ c, e.get? base = some c ∧
        ∃ folders name, s = folders ++ [name] ∧ Holds base c folders name := by
  obtain ⟨links, arrived⟩ := Tree.arrive_of_find found
  obtain ⟨here, goes⟩ := Tree.arrive_below arrived fun n hn => (names n hn).noNull
  -- Whichever way the folder is missing, the search gives nothing.
  rw [search, goes]
  cases inside : e.get? base with
  | some c =>
    rw [follow_get? here free names inside]
    have found' := Tree.find_below found tidy free inside
    simp only [Option.some.injEq, exists_eq_left']
    cases links <;>
    · exact gives_below nonempty found' (tidy.get inside) (free.get inside) _
  | none =>
    have nothing : Gives (root.below ⟨[], base⟩) (.ok []) fun s =>
        ∃ c, none = some c ∧ ∃ folders name, s = folders ++ [name] ∧ Holds base c folders name :=
      gives_nothing fun s => by simp
    rcases follow_get?_none here free names inside with ⟨_, h⟩ | h | h <;>
    · rw [h]
      exact nothing

theorem mapM_search (found : t.find root = .ok (place, e)) (tidy : e.Each Tidy)
    (free : e.Each Linkless) {names : List Text} (known : ∀ name ∈ names, name ∈ searchRoots) :
    ∃ tables, names.mapM (fun name => search t (root.sub name)) = .ok tables ∧
      ∀ path, path ∈ tables.flatten.map (·.relativeText root) ↔
        ∃ name ∈ names, IsTable e name path := by
  induction names with
  | nil => exact ⟨[], rfl, by simp⟩
  | cons name names ih =>
    obtain ⟨rest, ended', member'⟩ := ih fun n hn => known n (List.mem_cons_of_mem name hn)
    obtain ⟨relative, nonempty, isName⟩ := searchRoots_facts name (known name List.mem_cons_self)
    obtain ⟨here, ended, _, member⟩ := gives_search found tidy free nonempty isName
    let first := here.map fun s => (root.below ⟨[], Path.segmentsOf name⟩).below ⟨[], s⟩
    refine ⟨first :: rest, ?_, fun path => ?_⟩
    · rw [List.mapM_cons, Tree.sub_relative root relative, ended, ended']
      rfl
    · rw [List.flatten_cons, List.map_append, List.mem_append, member', List.map_map]
      have here : path ∈ here.map ((·.relativeText root) ∘
          fun s => (root.below ⟨[], Path.segmentsOf name⟩).below ⟨[], s⟩) ↔ IsTable e name path := by
        simp only [List.mem_map, Function.comp_apply, Tree.relativeText_below, member]
        constructor
        · rintro ⟨_, ⟨c, inside, folders, file, rfl, holds⟩, rfl⟩
          exact ⟨c, inside, folders, file, holds, Tree.text_relative (by simp)⟩
        · rintro ⟨c, inside, folders, file, holds, rfl⟩
          exact ⟨_, ⟨c, inside, folders, file, rfl, holds⟩, Tree.text_relative (by simp)⟩
      simp only [here, List.mem_cons, exists_eq_or_imp]

end RouteTables

namespace Candidates

open Entry RouteTables

/-- The scripts of the route tables of a tree without links are found, each once, and nothing else. A
folder where a search starts is no table itself. -/
theorem find_tables {t : Tree} {root : Path} {place : Place} {e : Entry}
    (found : t.find root = .ok (place, e)) (tidy : e.Each Tidy) (free : e.Each Linkless) (s : Traits)
    (excluded : List Text) :
    ∃ (paths : List Text) (records : List Log.Record),
      find t root s .strapi excluded = .ok (paths, records) ∧ paths.Nodup ∧
      ∀ path, path ∈ paths ↔ (∃ name ∈ searchRoots, IsTable e name path) ∧
        ∀ pattern ∈ excluded, (Glob.Matcher.ofPattern pattern).accepts path = false := by
  obtain ⟨tables, ended, member⟩ := mapM_search found tidy free fun name (h : name ∈ searchRoots) => h
  have given : Rule.tables.files t root = .ok (tables.flatten.map (·.relativeText root)) := by
    simp only [Rule.files, RouteTables.find, ended]
    rfl
  obtain ⟨records, whole⟩ := find_of_files (s := s) (d := .strapi) rfl given excluded
  refine ⟨_, records, whole, (Route.Operation.nodup_distinctNames _ _).filter _, fun path => ?_⟩
  rw [List.mem_filter, Bool.not_eq_true', anyMatches_eq_false, distinct,
    Route.Operation.mem_distinctNames, member]
  simp

/-- A plugin in a package, and one that is the project itself. -/
def plugins : Entry :=
  .folder [
    ("packages", .folder [("upload", .folder [("server", .folder [
      ("routes", .folder [("admin.js", .file []), ("nested", .folder [("deep.js", .file [])])])])])]),
    ("server", .folder [("routes", .folder [("users.js", .file [])])])]

theorem find_tables_plugins :
    (Tree.mk plugins []).find ⟨"/", []⟩ = .ok ([], plugins) ∧ plugins.Each Tidy ∧
      plugins.Each Linkless ∧ ∃ (paths : List Text) (records : List Log.Record),
        find ⟨plugins, []⟩ ⟨"/", []⟩ {} .strapi [] = .ok (paths, records) ∧
        ("packages/upload/server/routes/admin.js" : Text) ∈ paths := by
  have found : (Tree.mk plugins []).find ⟨"/", []⟩ = .ok ([], plugins) := rfl
  have tidy : plugins.Each Tidy := by decide
  have free : plugins.Each Linkless := by decide
  obtain ⟨paths, records, ended, _, exact⟩ := find_tables found tidy free {} []
  refine ⟨found, tidy, free, paths, records, ended, ?_⟩
  refine (exact _).mpr ⟨⟨"packages", by decide, ?_⟩, by simp⟩
  have outermost : ∀ inner ∈ (["upload", "server", "routes"] : List Text).inits, inner ≠ [] →
      serverRoutes <:+ Path.segmentsOf "packages" ++ inner →
        inner = ["upload", "server", "routes"] := by
    decide
  exact ⟨_, rfl, ["upload", "server", "routes"], "admin.js", ⟨⟨[], rfl⟩, by decide, by decide,
    by decide, by decide, fun inner some start =>
      outermost inner ((List.mem_inits _ _).mpr start) some⟩, by decide⟩

/-- The scripts of the project that lie directly where a search starts are passed over, although they
lie in a folder of tables. -/
theorem find_tables_searchRoot :
    ("server/routes" : Text) ∈ searchRoots ∧
      plugins.get? ["server", "routes", "users.js"] = some (.file []) ∧
      find ⟨plugins, []⟩ ⟨"/", []⟩ {} .strapi [] =
        .ok (["packages/upload/server/routes/admin.js"], []) :=
  ⟨by decide, rfl, by decide +kernel⟩

end Candidates
end RouteAtlas
