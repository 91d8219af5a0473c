import RouteAtlas.Document.Basic
import RouteAtlas.Proofs.Project.Faults
import RouteAtlas.Proofs.Project.Gathering
import RouteAtlas.Proofs.Tree.Pruning

/-!
# What gathering overlooks

Two projects are alike if they are the same once entries are taken away that walks pass over and that no
probe looks for. `Alike.gather_eq` says that the same traits are gathered from them, project files apart.
-/

namespace RouteAtlas

/-- Documents are written under names of this form unless another is given. -/
def Document.isDefaultName (n : Text) : Bool :=
  Text.startsWith "swagger-output-" n && Text.endsWith ".json" n

namespace Traits

open Entry

variable {drop : Text → Entry → Bool} {t t' : Tree} {root : Path} {place place' : Place}
  {e e' c : Entry} {s : List Text} {n path : Text}

/-! ### What may be overlooked -/

/-- What is dropped counts for nothing in a walk: a folder that is not entered, or a file with the name
of a document. -/
structure Overlooks (drop : Text → Entry → Bool) : Prop where
  folders : ∀ n es, drop n (.folder es) = true → ({} : Tree.Walk).enters n = false
  files : ∀ n content, drop n (.file content) = true → Document.isDefaultName n = true
  links : ∀ n target, drop n (.link target) = false

/-- Nothing that is dropped is found by the probes that look past the rules of walks. -/
structure Unprobed (drop : Text → Entry → Bool) (e : Entry) : Prop where
  script : ∀ q ∈ e.entries, drop q.1 q.2 = true → q.2.child? "manage.py" = none
  router : ∀ folder ∈ moduleFolders, ∀ c, e.get? (Path.segmentsOf folder) = some c →
    ∀ q ∈ c.entries, ∀ r ∈ q.2.entries, namesRouter r.1 = true →
      drop q.1 q.2 = false ∧ drop r.1 r.2 = false
  table : ∀ name ∈ RouteTables.searchRoots, ∀ c, e.get? (Path.segmentsOf name) = some c →
    ∀ folders file, RouteTables.Holds (Path.segmentsOf name) c folders file →
      c.Keeps drop (folders ++ [file])
  settings : ∀ c, e.child? configName = some c → drop configName c = false

/-- A project with none of the folders and files that the probes look for. -/
theorem unprobed_of_isNone (scripts : ∀ q ∈ e.entries, (q.2.child? "manage.py").isNone = true)
    (folders : ∀ path ∈ moduleFolders ++ RouteTables.searchRoots,
      (e.get? (Path.segmentsOf path)).isNone = true)
    (settings : (e.child? configName).isNone = true) : Unprobed drop e where
  script q member _ := Option.isNone_iff_eq_none.mp (scripts q member)
  router path known c inside := by
    have absent := folders path (List.mem_append_left _ known)
    rw [inside] at absent
    cases absent
  table path known c inside := by
    have absent := folders path (List.mem_append_right _ known)
    rw [inside] at absent
    cases absent
  settings c child := by
    rw [child] at settings
    cases settings

/-- A folder without links stands at a path, and nothing that is dropped from it is probed. -/
structure Shows (drop : Text → Entry → Bool) (t : Tree) (root : Path) (place : Place) (e : Entry) :
    Prop where
  found : t.find root = .ok (place, e)
  tidy : e.Each Tidy
  free : e.Each Linkless
  unprobed : Unprobed drop e

/-- Two trees show the same project at a path, but for what is dropped. -/
structure Alike (drop : Text → Entry → Bool) (root : Path) (t t' : Tree) (place place' : Place)
    (e e' : Entry) : Prop where
  first : Shows drop t root place e
  second : Shows drop t' root place' e'
  same : e.prune drop = e'.prune drop

theorem Alike.symm (alike : Alike drop root t t' place place' e e') :
    Alike drop root t' t place' place e' e :=
  ⟨alike.second, alike.first, alike.same.symm⟩

theorem Alike.isFolder (alike : Alike drop root t t' place place' e e') (folder : e.isFolder = true) :
    e'.isFolder = true := by
  have same := congrArg Entry.isFolder alike.same
  rw [isFolder_prune, isFolder_prune] at same
  exact same ▸ folder

/-! ### Paths that are looked at -/

theorem safe_of_enters (overlooks : Overlooks drop) (enters : ({} : Tree.Walk).enters n = true)
    (other : Document.isDefaultName n = false) : Safe drop n := by
  intro c linkless
  rw [← Bool.not_eq_true]
  intro dropped
  cases c with
  | link target => cases linkless
  | file content =>
    rw [overlooks.files n content dropped] at other
    cases other
  | folder es =>
    rw [overlooks.folders n es dropped] at enters
    cases enters

/-- The paths that are looked at in every project, those of route tables included. -/
def lookedAt : List Text := knownPaths ++ RouteTables.searchRoots

theorem lookedAt_facts : ∀ path ∈ lookedAt, Path.rootOf path = [] ∧
    ∀ n ∈ Path.segmentsOf path,
      IsName n ∧ ({} : Tree.Walk).enters n = true ∧ Document.isDefaultName n = false := by
  decide

theorem isName_of_lookedAt (known : path ∈ lookedAt) : ∀ n ∈ Path.segmentsOf path, IsName n :=
  fun n member => ((lookedAt_facts path known).2 n member).1

theorem Shows.keeps (shows : Shows drop t root place e) (overlooks : Overlooks drop)
    (known : path ∈ lookedAt) : e.Keeps drop (Path.segmentsOf path) := by
  apply keeps_of_safe shows.free
  intro n member
  obtain ⟨_, enters, other⟩ := (lookedAt_facts path known).2 n member
  exact safe_of_enters overlooks enters other

/-! ### Single entries -/

theorem Alike.get?_eq (alike : Alike drop root t t' place place' e e') (keeps : e.Keeps drop s)
    (keeps' : e'.Keeps drop s) :
    (e.get? s).map (prune drop) = (e'.get? s).map (prune drop) := by
  rw [← get?_prune alike.first.tidy keeps, alike.same, get?_prune alike.second.tidy keeps']

theorem Alike.test_eq (alike : Alike drop root t t' place place' e e')
    (names : ∀ n ∈ s, IsName n) (keeps : e.Keeps drop s) (keeps' : e'.Keeps drop s)
    {property : Entry → Bool} (stable : ∀ c, property (c.prune drop) = property c) :
    t.test (root.below ⟨[], s⟩) property = t'.test (root.below ⟨[], s⟩) property := by
  have prunes (o : Option Entry) : o.any property = (o.map (prune drop)).any property := by
    rw [Option.any_map, funext stable]
  rw [Tree.test_below alike.first.found alike.first.free names,
    Tree.test_below alike.second.found alike.second.free names, prunes, alike.get?_eq keeps keeps',
    ← prunes]

theorem Alike.read_eq (alike : Alike drop root t t' place place' e e')
    (names : ∀ n ∈ s, IsName n) (keeps : e.Keeps drop s) (keeps' : e'.Keeps drop s) :
    (t.read (root.below ⟨[], s⟩)).toOption = (t'.read (root.below ⟨[], s⟩)).toOption := by
  have toOption (step : Except Fault Bytes) (content : Bytes) :
      step.toOption = some content ↔ step = .ok content := by
    cases step <;> simp [Except.toOption]
  have file (o : Option Entry) (content : Bytes) : o = some (.file content) ↔
      o.map (prune drop) = some (.file content) := by
    simp [prune_eq_file]
  ext content
  rw [toOption, toOption, Tree.read_below alike.first.found alike.first.free names,
    Tree.read_below alike.second.found alike.second.free names, file, file (e'.get? s),
    alike.get?_eq keeps keeps']

theorem Alike.present_eq (alike : Alike drop root t t' place place' e e')
    (overlooks : Overlooks drop) (known : path ∈ lookedAt) :
    present t root path = present t' root path := by
  rw [present, present, Tree.sub_relative root (lookedAt_facts path known).1, Tree.has, Tree.has,
    alike.test_eq (isName_of_lookedAt known) (alike.first.keeps overlooks known)
      (alike.second.keeps overlooks known) fun _ => rfl]

theorem Alike.isFile_eq (alike : Alike drop root t t' place place' e e')
    (overlooks : Overlooks drop) (known : path ∈ lookedAt) :
    t.isFile (root.sub path) = t'.isFile (root.sub path) := by
  rw [Tree.sub_relative root (lookedAt_facts path known).1, Tree.isFile, Tree.isFile,
    alike.test_eq (isName_of_lookedAt known) (alike.first.keeps overlooks known)
      (alike.second.keeps overlooks known) fun _ => isFile_prune]

theorem Alike.read_known (alike : Alike drop root t t' place place' e e')
    (overlooks : Overlooks drop) (known : path ∈ lookedAt) :
    (t.read (root.sub path)).toOption = (t'.read (root.sub path)).toOption := by
  rw [Tree.sub_relative root (lookedAt_facts path known).1]
  exact alike.read_eq (isName_of_lookedAt known) (alike.first.keeps overlooks known)
    (alike.second.keeps overlooks known)

theorem Alike.readObject_eq (alike : Alike drop root t t' place place' e e')
    (overlooks : Overlooks drop) (known : path ∈ lookedAt) :
    t.readObject (root.sub path) = t'.readObject (root.sub path) := by
  unfold Tree.readObject
  rw [alike.isFile_eq overlooks known, alike.read_known overlooks known]

theorem toOption_readLossy (t : Tree) (p : Path) : (t.readLossy p).toOption =
    (t.read p).toOption.map fun content => Text.plainLines (Text.ofUtf8Lossy content) := by
  unfold Tree.readLossy
  cases t.read p <;> rfl

/-! ### Lists of files -/

/-- No text that passes ends like the name of a document. -/
def Avoids (q : Text → Bool) : Prop := ∀ text, q text = true → text.getLast? ≠ some 'n'

theorem avoids_endsWith {tail : Text} (nonempty : tail ≠ []) (other : tail.getLast? ≠ some 'n') :
    Avoids (Text.endsWith tail) := by
  intro text ends
  obtain ⟨front, rfl⟩ := Text.endsWith_iff.mp ends
  rw [List.getLast?_append_of_ne_nil front nonempty]
  exact other

theorem avoids_or {q r : Text → Bool} (first : Avoids q) (second : Avoids r) :
    Avoids fun text => q text || r text := by
  intro text passes
  rcases (Bool.or_eq_true _ _).mp passes with passes | passes
  · exact first text passes
  · exact second text passes

theorem avoids_isScript : Avoids isScript :=
  avoids_or (avoids_endsWith (by decide) (by decide)) (avoids_endsWith (by decide) (by decide))

theorem avoids_namesRouter : Avoids namesRouter := by
  intro text router
  exact avoids_isScript text ((Bool.and_eq_true _ _).mp router).2

theorem getLast?_of_isDefaultName (document : Document.isDefaultName n = true) :
    n.getLast? = some 'n' := by
  obtain ⟨front, rfl⟩ := Text.endsWith_iff.mp ((Bool.and_eq_true _ _).mp document).2
  exact List.getLast?_append_of_ne_nil front (by decide)

theorem getLast?_join_concat (s : List Text) (nonempty : n ≠ []) :
    (Text.join "/" (s ++ [n])).getLast? = n.getLast? := by
  by_cases none : s = []
  · subst none
    rfl
  · rw [Text.join_append "/" none (List.cons_ne_nil n []), ← List.append_assoc]
    exact List.getLast?_append_of_ne_nil _ nonempty

/-- Nothing that is dropped is listed by a walk, if names of documents are not wanted or not chosen
from the list. -/
theorem listing_prune (overlooks : Overlooks drop) (tidy : e.Each Tidy) {folder : Text}
    (keeps : e.Keeps drop (Path.segmentsOf folder)) {w : Tree.Walk}
    (skips : ∀ n, w.enters n = true → ({} : Tree.Walk).enters n = true) {q : Text → Bool}
    (avoids : Avoids w.wanted ∨ Avoids q) :
    (listing (e.prune drop) folder w).filter q = (listing e folder w).filter q := by
  rw [listing, listing, get?_prune tidy keeps]
  cases inside : e.get? (Path.segmentsOf folder) with
  | none => rfl
  | some c =>
    simp only [Option.map_some, Option.getD_some]
    rw [List.filter_map, List.filter_map]
    refine congrArg (List.map _) (Tree.Walk.filter_filesOf_prune ?_ overlooks.links [] w.depth c _ ?_)
    · intro n es dropped
      rw [← Bool.not_eq_true]
      intro enters
      have passed := overlooks.folders n es dropped
      rw [skips n enters] at passed
      cases passed
    · intro before n content dropped wanted
      have document := overlooks.files n content dropped
      have last := getLast?_of_isDefaultName document
      -- The walk does not want the document, or its path does not come through the filter.
      rcases avoids with avoids | avoids
      · exact absurd last (avoids n wanted)
      · rw [← Bool.not_eq_true, Function.comp_apply]
        intro chosen
        refine avoids _ chosen ?_
        rw [Tree.text_relative (by simp), ← List.append_assoc, getLast?_join_concat, last]
        rintro rfl
        cases last

theorem Shows.walk_filter (shows : Shows drop t root place e) (overlooks : Overlooks drop)
    {folder : Text} (relative : Path.rootOf folder = [])
    (names : ∀ n ∈ Path.segmentsOf folder, IsName n) (keeps : e.Keeps drop (Path.segmentsOf folder))
    {w : Tree.Walk} (skips : ∀ n, w.enters n = true → ({} : Tree.Walk).enters n = true)
    {q : Text → Bool} (avoids : Avoids w.wanted ∨ Avoids q) :
    ∃ files, walk t root folder w = .ok files ∧
      files.filter q = (listing (e.prune drop) folder w).filter q :=
  ⟨listing e folder w, walk_listing shows.found shows.free relative names w,
    (listing_prune overlooks shows.tidy keeps skips avoids).symm⟩

theorem Shows.walk_eq (shows : Shows drop t root place e) (overlooks : Overlooks drop)
    {folder : Text} (relative : Path.rootOf folder = [])
    (names : ∀ n ∈ Path.segmentsOf folder, IsName n) (keeps : e.Keeps drop (Path.segmentsOf folder))
    {w : Tree.Walk} (skips : ∀ n, w.enters n = true → ({} : Tree.Walk).enters n = true)
    (avoids : Avoids w.wanted) : walk t root folder w = .ok (listing (e.prune drop) folder w) := by
  obtain ⟨files, walked, same⟩ :=
    shows.walk_filter overlooks relative names keeps skips (q := fun _ => true) (.inl avoids)
  rw [List.filter_true, List.filter_true] at same
  rw [walked, same]

/-! ### Files that are read -/

theorem Shows.read_file (shows : Shows drop t root place e) (nonempty : s ≠ []) {content : Bytes}
    (inside : (e.prune drop).get? s = some (.file content)) :
    t.read (root.sub (Text.join "/" s)) = .ok content := by
  obtain ⟨_, d, there, same⟩ := get?_of_prune shows.tidy inside
  rw [prune_eq_file.mp same] at there
  have names := isName_of_get? shows.tidy there
  rw [Tree.sub_join root nonempty names]
  exact (Tree.read_below shows.found shows.free names).mpr there

theorem Alike.read_file (alike : Alike drop root t t' place place' e e')
    (file : IsFileOf (e.prune drop) path) :
    ∃ content, t.read (root.sub path) = .ok content ∧ t'.read (root.sub path) = .ok content := by
  obtain ⟨s, content, nonempty, rfl, inside⟩ := file
  exact ⟨content, alike.first.read_file nonempty inside,
    alike.second.read_file nonempty (alike.same ▸ inside)⟩

/-! ### The traits -/

theorem Alike.markers_eq (alike : Alike drop root t t' place place' e e')
    (overlooks : Overlooks drop) :
    landmarks.filterM (present t root) = landmarks.filterM (present t' root) := by
  have known : ∀ path ∈ landmarks, path ∈ lookedAt := by decide
  exact filterM_congr fun path member => alike.present_eq overlooks (known path member)

theorem Alike.findReason_eq (alike : Alike drop root t t' place place' e e')
    (overlooks : Overlooks drop) (foreign : Nat) :
    findReason t root foreign = findReason t' root foreign := by
  have known : ∀ kind ∈ foreignKinds, kind.1 ∈ lookedAt := by decide
  rw [findReason, findReason,
    findFirst_congr fun kind member => alike.present_eq overlooks (known kind member)]

theorem Alike.programText_eq (alike : Alike drop root t t' place place' e e')
    (overlooks : Overlooks drop) : programText t root = programText t' root := by
  have known : ("Program.cs" : Text) ∈ lookedAt := by decide
  unfold programText Traits.isFile
  rw [alike.isFile_eq overlooks known, toOption_readLossy, toOption_readLossy,
    alike.read_known overlooks known]

theorem Alike.readDependencies_eq (alike : Alike drop root t t' place place' e e')
    (overlooks : Overlooks drop) : readDependencies t root = readDependencies t' root := by
  have known : ("package.json" : Text) ∈ lookedAt := by decide
  simp only [readDependencies]
  rw [alike.readObject_eq overlooks known]

theorem child?_isSome_prune (tidy : e.Each Tidy) (free : e.Each Linkless) (safe : Safe drop n) :
    ((e.prune drop).child? n).isSome = (e.child? n).isSome := by
  rw [child?_prune tidy]
  cases child : e.child? n with
  | none => rfl
  | some c =>
    rw [Option.filter_some, safe c (isLink_of_child? free child)]
    rfl

theorem Shows.djangoRootOf_prune (shows : Shows drop t root place e) (overlooks : Overlooks drop) :
    djangoRootOf (e.prune drop) = djangoRootOf e := by
  have safe : Safe drop "manage.py" := safe_of_enters overlooks (by decide) (by decide)
  rw [djangoRootOf, djangoRootOf, child?_isSome_prune shows.tidy shows.free safe, entries_prune,
    pruneIn_eq, List.find?_map, List.find?_filter, Option.map_map]
  congr 1
  refine congrArg (Option.map Prod.fst) (List.find?_congr fun q member => ?_)
  have inside := get?_of_mem_entries shows.tidy member
  cases dropped : drop q.1 q.2 with
  | true =>
    rw [shows.unprobed.script q member dropped]
    simp
  | false =>
    rw [Function.comp_apply, child?_isSome_prune (shows.tidy.get inside) (shows.free.get inside) safe]
    simp

/-- A router that speaks for a folder of modules is not dropped, and neither is its module. -/
theorem Shows.holdsRouter_prune (shows : Shows drop t root place e) {folder : Text}
    (modules : folder ∈ moduleFolders) (inside : e.get? (Path.segmentsOf folder) = some c) :
    holdsRouter (c.prune drop) = holdsRouter c := by
  rw [Bool.eq_iff_iff]
  simp only [holdsRouter, List.any_eq_true, entries_prune]
  constructor
  · rintro ⟨q, member, r, within, router⟩
    obtain ⟨d, there, _, same⟩ := mem_pruneIn.mp member
    rw [← same, entries_prune] at within
    obtain ⟨f, there', _, _⟩ := mem_pruneIn.mp within
    exact ⟨_, there, _, there', router⟩
  · rintro ⟨q, member, r, within, router⟩
    obtain ⟨kept, kept'⟩ := shows.unprobed.router folder modules c inside q member r within router
    refine ⟨(q.1, q.2.prune drop), mem_pruneIn.mpr ⟨q.2, member, kept, rfl⟩,
      (r.1, r.2.prune drop), ?_, router⟩
    rw [entries_prune]
    exact mem_pruneIn.mpr ⟨r.2, within, kept', rfl⟩

theorem Alike.holdsRouters_eq (alike : Alike drop root t t' place place' e e')
    (overlooks : Overlooks drop) {folder : Text} (modules : folder ∈ moduleFolders) :
    holdsRouters t (root.sub folder) = holdsRouters t' (root.sub folder) := by
  have known : folder ∈ lookedAt := (by decide : ∀ folder ∈ moduleFolders, folder ∈ lookedAt) folder modules
  have names := isName_of_lookedAt known
  have pruned {t : Tree} {place : Place} {e : Entry} (shows : Shows drop t root place e) :
      (e.get? (Path.segmentsOf folder)).any holdsRouter =
        ((e.prune drop).get? (Path.segmentsOf folder)).any holdsRouter := by
    rw [get?_prune shows.tidy (shows.keeps overlooks known), Option.any_map]
    cases inside : e.get? (Path.segmentsOf folder) with
    | none => rfl
    | some c => exact (shows.holdsRouter_prune modules inside).symm
  rw [Tree.sub_relative root (lookedAt_facts folder known).1,
    Traits.holdsRouters_eq alike.first.found alike.first.tidy alike.first.free names,
    Traits.holdsRouters_eq alike.second.found alike.second.tidy alike.second.free names,
    pruned alike.first, pruned alike.second, alike.same]

theorem Alike.findDjangoRoot_eq (alike : Alike drop root t t' place place' e e')
    (overlooks : Overlooks drop) : findDjangoRoot t root = findDjangoRoot t' root := by
  rw [Traits.findDjangoRoot_eq alike.first.found alike.first.tidy alike.first.free,
    Traits.findDjangoRoot_eq alike.second.found alike.second.tidy alike.second.free,
    ← alike.first.djangoRootOf_prune overlooks, ← alike.second.djangoRootOf_prune overlooks,
    alike.same]

/-! ### Files that traits name -/

theorem Shows.isFile_known (shows : Shows drop t root place e) (overlooks : Overlooks drop)
    (known : path ∈ lookedAt) : isFile t root path =
      .ok (((e.prune drop).get? (Path.segmentsOf path)).any Entry.isFile) := by
  rw [isFile, Tree.sub_relative root (lookedAt_facts path known).1, Tree.isFile,
    Tree.test_below shows.found shows.free (isName_of_lookedAt known),
    get?_prune shows.tidy (shows.keeps overlooks known), Option.any_map,
    funext fun _ => isFile_prune]
  rfl

theorem isFileOf_of_isFile {p : Entry} (whole : Text.join "/" (Path.segmentsOf path) = path)
    (nonempty : Path.segmentsOf path ≠ [])
    (file : (p.get? (Path.segmentsOf path)).any Entry.isFile = true) : IsFileOf p path := by
  cases inside : p.get? (Path.segmentsOf path) with
  | none => simp [inside] at file
  | some c =>
    cases c with
    | file content => exact ⟨_, content, nonempty, whole.symm, inside⟩
    | _ => simp [inside, Entry.isFile] at file

theorem Alike.registers_eq (alike : Alike drop root t t' place place' e e')
    (file : IsFileOf (e.prune drop) path) : registers t root path = registers t' root path := by
  obtain ⟨content, read, read'⟩ := alike.read_file file
  rw [registers, registers, Tree.readLossy, Tree.readLossy, read, read']

/-- The conventional files that may register routes. -/
def autoCandidates (p : Entry) : List Text :=
  (autoFiles.filter fun name => (p.get? (Path.segmentsOf name)).any Entry.isFile) ++
    (autoFolders.map fun folder => listing p folder { wanted := isScript }).flatten

theorem isFileOf_autoCandidates {p : Entry} (tidy : p.Each Tidy) (free : p.Each Linkless)
    (member : path ∈ autoCandidates p) : IsFileOf p path := by
  have plain : ∀ name ∈ autoFiles,
      Text.join "/" (Path.segmentsOf name) = name ∧ Path.segmentsOf name ≠ [] := by
    decide
  rcases List.mem_append.mp member with member | member
  · obtain ⟨known, file⟩ := List.mem_filter.mp member
    exact isFileOf_of_isFile (plain path known).1 (plain path known).2 file
  · obtain ⟨files, inside, listed⟩ := List.mem_flatten.mp member
    obtain ⟨folder, _, rfl⟩ := List.mem_map.mp inside
    exact isFileOf_of_mem_listing tidy free listed

theorem Shows.findAutoTargets_eq (shows : Shows drop t root place e) (overlooks : Overlooks drop) :
    findAutoTargets t root =
      .ok ((autoCandidates (e.prune drop)).filter (registers t root)) := by
  have files : ∀ name ∈ autoFiles, name ∈ lookedAt := by decide
  have folders : ∀ folder ∈ autoFolders, folder ∈ lookedAt := by decide
  have walked : ∀ folder ∈ autoFolders, walk t root folder { wanted := isScript } =
      .ok (listing (e.prune drop) folder { wanted := isScript }) := by
    intro folder member
    have known := folders folder member
    exact shows.walk_eq overlooks (lookedAt_facts folder known).1 (isName_of_lookedAt known)
      (shows.keeps overlooks known) (fun _ enters => enters) avoids_isScript
  have listed : autoFolders.mapM (fun folder => walk t root folder { wanted := isScript }) =
      .ok (autoFolders.map fun folder => listing (e.prune drop) folder { wanted := isScript }) :=
    (mapM_congr walked).trans List.mapM_pure
  rw [findAutoTargets, listed, RouteTables.filterM_ok fun name member =>
    shows.isFile_known overlooks (files name member)]
  rfl

/-- The traits name only files of the project, and a folder in it. -/
structure Names (p : Entry) (s : Traits) : Prop where
  targets : ∀ path ∈ s.autoTargets, IsFileOf p path
  controllers : ∀ path ∈ s.controllers, IsFileOf p path
  program : ∀ path ∈ s.dotnetEntry, IsFileOf p path
  django : ∀ folder ∈ s.djangoRoot, folder = "." ∨ ∃ c, p.get? [folder] = some c

theorem djangoRootOf_cases {p : Entry} (tidy : p.Each Tidy) {folder : Text}
    (found : djangoRootOf p = some folder) : folder = "." ∨ ∃ c, p.get? [folder] = some c := by
  unfold djangoRootOf at found
  split at found
  · exact .inl (Option.some.inj found).symm
  · obtain ⟨q, first, rfl⟩ := Option.map_eq_some_iff.mp found
    exact .inr ⟨q.2, get?_of_mem_entries tidy (List.mem_of_find?_eq_some first)⟩

theorem enters_of_controllerWalk (enters : controllerWalk.enters n = true) :
    ({} : Tree.Walk).enters n = true := by
  simp_all [Tree.Walk.enters, controllerWalk]

theorem Shows.controllers_eq (shows : Shows drop t root place e) (overlooks : Overlooks drop) :
    walk t root [] controllerWalk = .ok (listing (e.prune drop) [] controllerWalk) :=
  have top : ([] : Text) ∈ lookedAt := by decide
  shows.walk_eq overlooks rfl (isName_of_lookedAt top) (shows.keeps overlooks top)
    (fun _ => enters_of_controllerWalk) (avoids_endsWith (by decide) (by decide))

theorem Shows.program_of_programText (shows : Shows drop t root place e)
    (overlooks : Overlooks drop) {text : Text} (read : programText t root = .ok (some text)) :
    IsFileOf (e.prune drop) "Program.cs" := by
  have known : ("Program.cs" : Text) ∈ lookedAt := by decide
  rw [programText, shows.isFile_known overlooks known] at read
  refine isFileOf_of_isFile (by decide) (by decide) ?_
  by_contra none
  rw [Bool.not_eq_true] at none
  rw [none] at read
  cases read

theorem Shows.names_of_gather (shows : Shows drop t root place e) (overlooks : Overlooks drop)
    {s : Traits} (gathered : gather t root = .ok s) : Names (e.prune drop) s := by
  have tidy : (e.prune drop).Each Tidy := tidy_prune shows.tidy
  have free : (e.prune drop).Each Linkless := linkless_prune shows.free
  have facts := gather_iff.mp gathered
  refine ⟨?_, ?_, ?_, ?_⟩
  · have targets := facts.targets
    rw [shows.findAutoTargets_eq overlooks] at targets
    obtain targets := Except.ok.inj targets
    intro path member
    rw [← targets] at member
    exact isFileOf_autoCandidates tidy free (List.mem_of_mem_filter member)
  · have controllers := facts.controllers
    rw [shows.controllers_eq overlooks] at controllers
    obtain controllers := Except.ok.inj controllers
    intro path member
    rw [← controllers] at member
    exact isFileOf_of_mem_listing tidy free member
  · obtain ⟨program, read, entry, _⟩ := facts.program
    intro path member
    rw [entry] at member
    obtain ⟨text, rfl, rfl⟩ := Option.map_eq_some_iff.mp member
    exact shows.program_of_programText overlooks read
  · have django := facts.django
    rw [Traits.findDjangoRoot_eq shows.found shows.tidy shows.free,
      ← shows.djangoRootOf_prune overlooks] at django
    intro folder member
    exact djangoRootOf_cases tidy ((Except.ok.inj django).trans member)

/-- From projects that are alike the same traits are gathered, project files apart. -/
theorem Alike.gather_eq (alike : Alike drop root t t' place place' e e')
    (overlooks : Overlooks drop) {s : Traits} (gathered : gather t root = .ok s) :
    gather t' root =
      .ok { s with projectFiles := (t'.names root).filter (Text.endsWith ".csproj") } := by
  have facts := gather_iff.mp gathered
  obtain ⟨files, walked, foreign, play⟩ := facts.files
  have top : ([] : Text) ∈ lookedAt := by decide
  have listed {t : Tree} {place : Place} {e : Entry} (shows : Shows drop t root place e)
      (q : Text → Bool) (avoids : Avoids q) : ∃ files, walk t root [] {} = .ok files ∧
        files.filter q = (listing (e.prune drop) [] {}).filter q :=
    shows.walk_filter overlooks rfl (isName_of_lookedAt top) (shows.keeps overlooks top)
      (fun _ enters => enters) (.inr avoids)
  have same (q : Text → Bool) (avoids : Avoids q) {files' : List Text}
      (walked' : walk t' root [] {} = .ok files') : files'.filter q = files.filter q := by
    obtain ⟨_, again, filtered⟩ := listed alike.first q avoids
    obtain ⟨_, again', filtered'⟩ := listed alike.second q avoids
    obtain rfl := Except.ok.inj (walked.symm.trans again)
    obtain rfl := Except.ok.inj (walked'.symm.trans again')
    rw [filtered, filtered', alike.same]
  obtain ⟨files', walked', _⟩ := listed alike.second _ avoids_isScript
  -- Project files are listed without any rule, and so they are those of the second project.
  refine gather_iff.mpr ⟨?_, ⟨files', walked', ?_, ?_⟩, ?_, ?_, ?_, ?_, ?_, ?_, ?_, rfl⟩
  · exact (alike.markers_eq overlooks).symm.trans facts.markers
  · rw [same _ (avoids_endsWith (by decide) (by decide)) walked']
    exact foreign
  · have any (l : List Text) : l.any (Text.endsWith "Router.scala") =
        (l.filter (Text.endsWith "Router.scala")).any (Text.endsWith "Router.scala") := by
      simp only [List.any_filter, Bool.and_self]
    rw [any, same _ (avoids_endsWith (by decide) (by decide)) walked', ← any]
    exact play
  · exact alike.programText_eq overlooks ▸ facts.program
  · exact (alike.readDependencies_eq overlooks).symm.trans facts.dependencies
  · exact (alike.findReason_eq overlooks _).symm.trans facts.reason
  · exact (alike.findDjangoRoot_eq overlooks).symm.trans facts.django
  · refine (filterM_congr fun folder modules => ?_).trans facts.modules
    exact (alike.holdsRouters_eq overlooks modules).symm
  · have targets := facts.targets
    rw [alike.first.findAutoTargets_eq overlooks] at targets
    rw [alike.second.findAutoTargets_eq overlooks, ← alike.same, ← targets]
    refine congrArg Except.ok (List.filter_congr fun path member => ?_)
    exact (alike.registers_eq (isFileOf_autoCandidates (tidy_prune alike.first.tidy)
      (linkless_prune alike.first.free) member)).symm
  · rw [alike.second.controllers_eq overlooks, ← alike.same, ← alike.first.controllers_eq overlooks]
    exact facts.controllers

end Traits
end RouteAtlas
