import RouteAtlas.Project.Candidates
import RouteAtlas.Proofs.Extract.Described
import RouteAtlas.Proofs.Glob.Names
import RouteAtlas.Proofs.Route.Mounting
import RouteAtlas.Proofs.Tree.Walking

/-!
# Candidates below a folder

Four dialects look for files by a pattern below a folder of their own. `find_ground` says which files
of a tree without links they find, and in which order.
-/

namespace RouteAtlas

namespace Route

theorem distinctNames_of_nodup {seen names : List Text} (nodup : names.Nodup)
    (fresh : ∀ n ∈ names, n ∉ seen) : distinctNames seen names = names := by
  induction names generalizing seen with
  | nil => rfl
  | cons n names ih =>
    obtain ⟨new, nodup⟩ := List.nodup_cons.mp nodup
    have unseen : seen.contains n = false := by simpa using fresh n List.mem_cons_self
    rw [distinctNames, unseen]
    refine congrArg (n :: ·) (ih nodup fun m hm => ?_)
    rw [List.mem_cons, not_or]
    exact ⟨fun same => new (same ▸ hm), fresh m (List.mem_cons_of_mem n hm)⟩

end Route

namespace Candidates

open Entry Text

/-- The folder of a dialect that looks for files by a pattern, as segments. -/
def ground? : Dialect → Option (List Text)
  | .nextjsApp => some ["app", "api"]
  | .nextjsPages => some ["pages", "api"]
  | .express => some ["routes"]
  | .expressSrc => some ["src", "routes"]
  | _ => none

/-- The names of the files that such a dialect looks for: those of route files, or of any script. -/
def isSought : Dialect → Text → Bool
  | .nextjsApp, name => (["route.ts", "route.js"] : List Text).contains name
  | _, name => Traits.isScript name

theorem baseName_below (folder t : Text) :
    Tree.baseName (folder ++ '/' :: t) = Tree.baseName t := by
  obtain ⟨free, whole | ⟨u, whole⟩⟩ := Tree.baseName_cases t
  · rw [← whole] at free
    rw [Tree.baseName_slash free, Tree.baseName_of_notMem free]
  · calc Tree.baseName (folder ++ '/' :: t)
        = Tree.baseName ((folder ++ '/' :: u) ++ '/' :: Tree.baseName t) := by
          rw [List.append_assoc, List.cons_append, ← whole]
      _ = Tree.baseName t := Tree.baseName_slash free

section Patterns

variable {folder t : Text}

theorem accepts_glob_below {last : Text} (mount : folder ∈ Route.mounts) (back : '\\' ∉ t)
    (line : '\n' ∉ t) (free : ∀ v, (Glob.read last).Language v → '/' ∉ v) :
    (Glob.Matcher.glob (Glob.read (Glob.belowFolder folder last))).accepts (folder ++ '/' :: t) ↔
      (Glob.read last).Language (Tree.baseName t) := by
  have literal : Route.mounts.all fun m => m.all fun c =>
      decide (c ≠ '*' ∧ c ≠ '?' ∧ c ≠ '{') := by
    decide
  have plain : Tree.plain (folder ++ '/' :: t) = folder ++ '/' :: t :=
    Route.plain_mount mount (by simp [back])
  rw [← Glob.language_below_iff
    (forall_of_all (List.all_eq_true.mp literal folder mount)) free line, ← Glob.accepts_iff]
  simp only [Glob.Matcher.accepts, plain]

theorem accepts_scripts (folder : Text) (mount : folder ∈ Route.mounts) (back : '\\' ∉ t)
    (line : '\n' ∉ t) :
    (Glob.Matcher.glob (Glob.read (Glob.belowFolder folder "*.\x7bts,js\x7d"))).accepts
      (folder ++ '/' :: t) = Traits.isScript (Tree.baseName t) := by
  rw [Bool.eq_iff_iff, accepts_glob_below mount back line fun v h => (Glob.language_script.mp h).1,
    Glob.language_script]
  exact and_iff_right (Tree.baseName_cases t).1

theorem accepts_routes (back : '\\' ∉ t) (line : '\n' ∉ t) :
    (Glob.Matcher.glob (Glob.read "app/api/**/route.\x7bts,js\x7d")).accepts ("app/api" ++ '/' :: t) =
      isSought .nextjsApp (Tree.baseName t) := by
  have mount : ("app/api" : Text) ∈ Route.mounts := by decide
  have free : ∀ v, (Glob.read "route.\x7bts,js\x7d").Language v → '/' ∉ v := by
    intro v h
    rcases Glob.language_route.mp h with rfl | rfl <;> decide
  have whole : ("app/api/**/route.\x7bts,js\x7d" : Text) =
      Glob.belowFolder "app/api" "route.\x7bts,js\x7d" := by decide
  rw [Bool.eq_iff_iff, whole, accepts_glob_below mount back line free, Glob.language_route]
  simp [isSought]

theorem accepts_appRoute (back : '\\' ∉ t) :
    Glob.Matcher.appRoute.accepts ("app/api" ++ '/' :: t) =
      isSought .nextjsApp (Tree.baseName t) := by
  have mount : ("app/api" : Text) ∈ Route.mounts := by decide
  have plain : Tree.plain ("app/api" ++ '/' :: t) = "app/api" ++ '/' :: t :=
    Route.plain_mount mount (by simp [back])
  have starts : startsWith "app/api" ("app/api" ++ '/' :: t) = true :=
    startsWith_iff.mpr (List.prefix_append _ _)
  have holds : Text.holds "app/api" ("app/api" ++ '/' :: t) = true :=
    (Bool.or_eq_true _ _).mpr (.inl starts)
  simp only [Glob.Matcher.accepts, plain, holds, Bool.true_and, baseName_below]
  rfl

end Patterns

/-- The rule of a dialect that looks below a folder: everything that its pattern matches lies in the
folder, and there it goes by the name. -/
theorem rule?_of_ground {d : Dialect} {base : List Text} (ground : ground? d = some base)
    (s : Traits) : ∃ pattern, rule? s d = some (.glob pattern) ∧ Glob.base pattern = join "/" base ∧
      ∀ t, '\\' ∉ t → '\n' ∉ t →
        (Glob.Matcher.ofPattern pattern).accepts (join "/" base ++ '/' :: t) =
          isSought d (Tree.baseName t) := by
  cases d with
  | nextjsApp =>
    cases ground
    exact ⟨_, rfl, by decide, fun t back _ => accepts_appRoute back⟩
  | nextjsPages =>
    cases ground
    exact ⟨_, rfl, by decide, fun t => accepts_scripts "pages/api" (by decide)⟩
  | express =>
    cases ground
    exact ⟨_, rfl, by decide, fun t => accepts_scripts "routes" (by decide)⟩
  | expressSrc =>
    cases ground
    exact ⟨_, rfl, by decide, fun t => accepts_scripts "src/routes" (by decide)⟩
  | _ => cases ground

/-- A file that a dialect is to find: below the folder of the dialect through no hidden folder and no
folder of packages or caches, of a name that is looked for, and matched by no pattern in
`excluded`. -/
structure Sought (d : Dialect) (base : List Text) (e : Entry) (excluded folders : List Text)
    (name : Text) : Prop where
  file : ∃ content, e.get? (base ++ (folders ++ [name])) = some (.file content)
  entered : ∀ f ∈ folders,
    f.head? ≠ some '.' ∧ f ≠ ("node_modules" : Text) ∧ f ≠ ("__pycache__" : Text)
  named : isSought d name = true
  kept : ∀ pattern ∈ excluded,
    (Glob.Matcher.ofPattern pattern).accepts (join "/" (base ++ (folders ++ [name]))) = false

/-- Neither line feeds nor backslashes stand in the names of a folder. -/
def Clean (es : List (Text × Entry)) : Prop := ∀ n ∈ es.map Prod.fst, '\n' ∉ n ∧ '\\' ∉ n

instance (es : List (Text × Entry)) : Decidable (Clean es) :=
  inferInstanceAs (Decidable (∀ n ∈ es.map Prod.fst, _))

theorem clean_of_get? {e c : Entry} {s : List Text} (clean : e.Each Clean)
    (found : e.get? s = some c) : ∀ n ∈ s, '\n' ∉ n ∧ '\\' ∉ n :=
  names_of_get? clean found

theorem baseName_join {folders : List Text} {name : Text} (free : '/' ∉ name) :
    Tree.baseName (join "/" (folders ++ [name])) = name := by
  by_cases none : folders = []
  · subst none
    exact Tree.baseName_of_notMem free
  · rw [join_append "/" none (List.cons_ne_nil name [])]
    exact Tree.baseName_slash free

/-- What a rule gives is made distinct, and what an excluding pattern matches is taken away. -/
theorem find_of_files {t : Tree} {root : Path} {s : Traits} {d : Dialect} {rule : Rule}
    {files : List Text} (known : rule? s d = some rule) (given : rule.files t root = .ok files)
    (excluded : List Text) : ∃ records, find t root s d excluded =
      .ok ((distinct files).filter fun path => !Glob.anyMatches path excluded, records) := by
  simp only [find, known, given, bind, Except.bind]
  exact ⟨_, rfl⟩

theorem anyMatches_eq_false {path : Text} {patterns : List Text} :
    Glob.anyMatches path patterns = false ↔
      ∀ pattern ∈ patterns, (Glob.Matcher.ofPattern pattern).accepts path = false := by
  simp [Glob.anyMatches]

section Find

variable {t : Tree} {root : Path} {place : Place} {e : Entry} {d : Dialect} {base : List Text}

theorem ground_facts (ground : ground? d = some base) :
    base ≠ [] ∧ (∀ n ∈ base, IsName n) ∧ Path.rootOf (join "/" base) = [] ∧
      Path.segmentsOf (join "/" base) = base := by
  cases d with
  | nextjsApp | nextjsPages | express | expressSrc =>
    cases ground
    decide
  | _ => cases ground

/-- All files below the folder of a dialect, as segments from the root. -/
def filesBelow (base : List Text) (e : Entry) : List (List Text) :=
  (((e.get? base).map ({} : Tree.Walk).listed).getD []).map (base ++ ·)

theorem enters_iff {f : Text} : ({} : Tree.Walk).enters f = true ↔
    f.head? ≠ some '.' ∧ f ≠ ("node_modules" : Text) ∧ f ≠ ("__pycache__" : Text) := by
  simp [Tree.Walk.enters]

theorem mem_filesBelow (tidy : e.Each Tidy) (free : e.Each Linkless) {path : List Text} :
    path ∈ filesBelow base e ↔ ∃ folders name, path = base ++ (folders ++ [name]) ∧
      (∃ content, e.get? path = some (.file content)) ∧ ∀ f ∈ folders,
        f.head? ≠ some '.' ∧ f ≠ ("node_modules" : Text) ∧ f ≠ ("__pycache__" : Text) := by
  rw [filesBelow, List.mem_map]
  cases inside : e.get? base with
  | none =>
    refine iff_of_false (by simp) ?_
    rintro ⟨folders, name, rfl, ⟨content, found⟩, _⟩
    rw [get?_append, inside] at found
    cases found
  | some c =>
    have found (s : List Text) : e.get? (base ++ s) = c.get? s := by
      rw [get?_append, inside, Option.bind_some]
    have listed {s : List Text} := ({} : Tree.Walk).mem_listed (s := s) (tidy.get inside)
      (free.get inside)
    constructor
    · rintro ⟨s, member, rfl⟩
      obtain ⟨folders, name, rfl, file, entered, _⟩ := listed.mp member
      rw [← found] at file
      exact ⟨folders, name, rfl, file, fun f hf => enters_iff.mp (entered f hf)⟩
    · rintro ⟨folders, name, rfl, file, entered⟩
      rw [found] at file
      exact ⟨folders ++ [name], listed.mpr ⟨folders, name, rfl, file,
        fun f hf => enters_iff.mpr (entered f hf), rfl, fun _ none => by cases none⟩, rfl⟩

theorem pairwise_filesBelow (tidy : e.Each Tidy) (free : e.Each Linkless) :
    (filesBelow base e).Pairwise (· < ·) := by
  rw [filesBelow, List.pairwise_map]
  cases inside : e.get? base with
  | none => exact .nil
  | some c =>
    exact (Tree.Walk.pairwise_filesOf (tidy.get inside) (free.get inside)).imp
      List.append_left_lt

/-- Different files have different paths. -/
theorem nodup_join_filesBelow (tidy : e.Each Tidy) (free : e.Each Linkless) :
    ((filesBelow base e).map (join "/")).Nodup := by
  have shape {path : List Text} (h : path ∈ filesBelow base e) :
      path ≠ [] ∧ ∀ n ∈ path, '/' ∉ n := by
    obtain ⟨folders, name, rfl, ⟨content, found⟩, _⟩ := (mem_filesBelow tidy free).mp h
    exact ⟨by simp, fun n hn => (isName_of_get? tidy found n hn).noSlash⟩
  refine List.pairwise_map.mpr ((pairwise_filesBelow tidy free).imp_of_mem ?_)
  intro path path' member member' less same
  obtain ⟨nonempty, slash⟩ := shape member
  obtain ⟨nonempty', slash'⟩ := shape member'
  rw [join_injective nonempty nonempty' slash slash' same] at less
  exact List.lt_irrefl _ less

theorem walk_eq (found : t.find root = .ok (place, e)) (free : e.Each Linkless)
    (ground : ground? d = some base) :
    Traits.walk t root (join "/" base) {} = .ok ((filesBelow base e).map (join "/")) := by
  obtain ⟨nonempty, names, relative, segments⟩ := ground_facts ground
  have files := Tree.relativeFiles_eq found free relative (by rwa [segments]) {}
  rw [segments] at files
  rw [Traits.walk, files, filesBelow, List.map_map]
  refine congrArg Except.ok (List.map_congr_left fun s _ => Tree.text_relative ?_)
  simp [nonempty]

theorem accepts_filesBelow (tidy : e.Each Tidy) (free : e.Each Linkless) (clean : e.Each Clean)
    (accepts : Text → Bool) (nonempty : base ≠ []) (named : ∀ t, '\\' ∉ t → '\n' ∉ t →
      accepts (join "/" base ++ '/' :: t) = isSought d (Tree.baseName t))
    {folders : List Text} {name : Text} (member : base ++ (folders ++ [name]) ∈ filesBelow base e) :
    accepts (join "/" (base ++ (folders ++ [name]))) = isSought d name := by
  obtain ⟨_, _, _, ⟨content, found⟩, _⟩ := (mem_filesBelow tidy free).mp member
  have names := isName_of_get? tidy found
  have cleans := clean_of_get? clean found
  have slash : '/' ∉ name := (names name (by simp)).noSlash
  have free {x : Char} (other : x ≠ '/') (none : ∀ n ∈ folders ++ [name], x ∉ n) :
      x ∉ join "/" (folders ++ [name]) := by
    intro h
    rcases mem_join h with same | ⟨n, hn, inside⟩
    · exact other same
    · exact none n hn inside
  rw [join_append "/" nonempty (by simp)]
  refine (named (join "/" (folders ++ [name])) ?_ ?_).trans (by rw [baseName_join slash])
  · exact free (by decide) fun n hn => (cleans n (List.mem_append_right base hn)).2
  · exact free (by decide) fun n hn => (cleans n (List.mem_append_right base hn)).1

/-- A dialect with a folder of its own finds exactly the files that it is to find, each once and in
the order of a search in depth, where the entries of a folder go by their names. Going by the name of
the file alone, as is done for route files, gives what their pattern gives. -/
theorem find_ground (found : t.find root = .ok (place, e)) (tidy : e.Each Tidy)
    (free : e.Each Linkless) (clean : e.Each Clean) (ground : ground? d = some base) (s : Traits)
    (excluded : List Text) :
    (∃ (paths : List (List Text)) (records : List Log.Record),
      find t root s d excluded = .ok (paths.map (join "/"), records) ∧
      (paths.map (join "/")).Nodup ∧ paths.Pairwise (· < ·) ∧
      ∀ path, path ∈ paths ↔ ∃ folders name, path = base ++ (folders ++ [name]) ∧
        Sought d base e excluded folders name) ∧
    ∃ files, Traits.walk t root "app/api" {} = .ok files ∧
      files.filter (Glob.Matcher.ofPattern "app/api/**/route.\x7bts,js\x7d").accepts =
        files.filter (Glob.Matcher.glob (Glob.read "app/api/**/route.\x7bts,js\x7d")).accepts := by
  constructor
  · obtain ⟨nonempty, _⟩ := ground_facts ground
    obtain ⟨pattern, rule, folder, named⟩ := rule?_of_ground ground s
    have nodup : ((filesBelow base e).map (join "/")).Nodup := nodup_join_filesBelow tidy free
    let accepts := (Glob.Matcher.ofPattern pattern).accepts
    let kept (path : List Text) : Bool := !Glob.anyMatches (join "/" path) excluded
    let matched := (filesBelow base e).filter (accepts ∘ join "/")
    have given : (Rule.glob pattern).files t root = .ok (matched.map (join "/")) := by
      rw [Rule.files, matching, folder, walk_eq found free ground, ← List.filter_map]
      rfl
    have distinct : distinct (matched.map (join "/")) = matched.map (join "/") :=
      Route.distinctNames_of_nodup (nodup.sublist (List.filter_sublist.map _)) (by simp)
    have chosen : (matched.map (join "/")).filter (fun path => !Glob.anyMatches path excluded) =
        (matched.filter kept).map (join "/") := List.filter_map
    obtain ⟨records, ended⟩ := find_of_files rule given excluded
    rw [distinct, chosen] at ended
    have sublist : (matched.filter kept).Sublist (filesBelow base e) :=
      List.filter_sublist.trans List.filter_sublist
    refine ⟨matched.filter kept, records, ended, nodup.sublist (sublist.map _),
      (pairwise_filesBelow tidy free).sublist sublist, fun path => ?_⟩
    rw [List.mem_filter, List.mem_filter, Bool.not_eq_true', anyMatches_eq_false]
    constructor
    · rintro ⟨⟨member, accepted⟩, kept⟩
      obtain ⟨folders, name, rfl, file, entered⟩ := (mem_filesBelow tidy free).mp member
      refine ⟨folders, name, rfl, file, entered, ?_, kept⟩
      rwa [← accepts_filesBelow tidy free clean _ nonempty named member]
    · rintro ⟨folders, name, rfl, file, entered, sought, kept⟩
      have member : base ++ (folders ++ [name]) ∈ filesBelow base e :=
        (mem_filesBelow tidy free).mpr ⟨folders, name, rfl, file, entered⟩
      refine ⟨⟨member, ?_⟩, kept⟩
      exact (accepts_filesBelow tidy free clean _ nonempty named member).trans sought
  · have api : ground? .nextjsApp = some (["app", "api"] : List Text) := rfl
    have folder : join "/" (["app", "api"] : List Text) = "app/api" := by decide
    have walked := walk_eq found free api
    rw [folder] at walked
    refine ⟨_, walked, ?_⟩
    refine List.filter_congr fun text member => ?_
    obtain ⟨path, below, rfl⟩ := List.mem_map.mp member
    obtain ⟨folders, name, rfl, _⟩ := (mem_filesBelow tidy free).mp below
    obtain ⟨nonempty, _⟩ := ground_facts api
    have fast := accepts_filesBelow tidy free clean Glob.Matcher.appRoute.accepts nonempty
      (fun t back _ => accepts_appRoute back) below
    have slow := accepts_filesBelow (d := .nextjsApp) tidy free clean _ nonempty
      (fun t => accepts_routes) below
    exact fast.trans slow.symm

end Find

/-- A shop with four route files. One belongs to a package, and one is out of use. -/
def shop : Entry :=
  .folder [("app", .folder [("api", .folder [
    ("node_modules", .folder [("route.ts", .file [])]),
    ("old", .folder [("route.ts", .file [])]),
    ("route.ts", .file []),
    ("users", .folder [("[id]", .folder [("route.js", .file [])])])])])]

theorem find_ground_shop :
    (Tree.mk shop []).find ⟨"/", []⟩ = .ok ([], shop) ∧ shop.Each Tidy ∧ shop.Each Linkless ∧
      shop.Each Clean ∧ ground? .nextjsApp = some (["app", "api"] : List Text) ∧
      ∃ (paths : List (List Text)) (records : List Log.Record),
        find ⟨shop, []⟩ ⟨"/", []⟩ {} .nextjsApp ["app/api/old/**"] =
          .ok (paths.map (join "/"), records) ∧
        (["app", "api", "users", "[id]", "route.js"] : List Text) ∈ paths ∧
        (["app", "api", "old", "route.ts"] : List Text) ∉ paths := by
  have found : (Tree.mk shop []).find ⟨"/", []⟩ = .ok ([], shop) := rfl
  have tidy : shop.Each Tidy := by decide
  have free : shop.Each Linkless := by decide
  have clean : shop.Each Clean := by decide
  obtain ⟨⟨paths, records, ended, _, _, exact⟩, _⟩ :=
    find_ground (d := .nextjsApp) found tidy free clean rfl {} ["app/api/old/**"]
  refine ⟨found, tidy, free, clean, rfl, paths, records, ended, ?_, fun member => ?_⟩
  · refine (exact _).mpr ⟨["users", "[id]"], "route.js", rfl, ⟨[], rfl⟩, by decide, by decide, ?_⟩
    exact List.forall_mem_singleton.mpr (by decide +kernel)
  · obtain ⟨folders, name, whole, sought⟩ := (exact _).mp member
    have kept := sought.kept "app/api/old/**" List.mem_cons_self
    rw [← whole] at kept
    exact absurd kept (by decide +kernel)

end Candidates
end RouteAtlas
