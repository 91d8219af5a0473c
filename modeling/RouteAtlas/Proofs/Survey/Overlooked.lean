import RouteAtlas.Proofs.Project.Overlooked
import RouteAtlas.Proofs.Survey.Steps
import RouteAtlas.Proofs.Tree.Resolving

/-!
# What a survey overlooks

A survey finds the same files in projects that are alike, reads the same routes from them and makes the
same reports (`take_alike`).
-/

namespace RouteAtlas

open Entry Traits

variable {drop : Text → Entry → Bool} {t t' : Tree} {root : Path} {place place' : Place}
  {e e' : Entry}

/-! ### Candidate files -/

namespace Candidates

/-- A rule that leads only to files that walks list, to tables, or to files that are known. -/
def Rule.Fits (p : Entry) : Rule → Prop
  | .glob pattern => Glob.base pattern ∈ lookedAt ∧ (Glob.Matcher.ofPattern pattern).endsIn 's' = true
  | .below start wanted =>
    Avoids wanted ∧ (start ∈ lookedAt ∨ start = "." ∨ ∃ c, p.get? [start] = some c)
  | .tables => True
  | .known files => ∀ path ∈ files, IsFileOf p path

theorem fits_rule? {p : Entry} {s : Traits} {d : Dialect} {rule : Rule} (names : Names p s)
    (known : rule? s d = some rule) : rule.Fits p := by
  cases d with
  | nextjsApp | nextjsPages | express | expressSrc =>
    cases known
    exact ⟨by decide, by decide +kernel⟩
  | expressModules | expressBackendModules =>
    cases known
    exact ⟨avoids_namesRouter, .inl (by decide)⟩
  | django =>
    cases known
    refine ⟨fun text same => ?_, ?_⟩
    · rw [eq_of_beq same]
      decide
    · cases found : s.djangoRoot with
      | none => exact .inl (by decide)
      | some folder => exact .inr (names.django folder found)
  | play =>
    cases known
    exact ⟨avoids_endsWith (by decide) (by decide), .inl (by decide)⟩
  | strapi =>
    cases known
    trivial
  | autoDetected =>
    cases known
    exact names.targets
  | dotnetMinimalApi =>
    cases known
    exact fun path member => names.program path (Option.mem_toList.mp member)
  | dotnetWebApi =>
    cases known
    exact names.controllers
  | dotnetProject =>
    cases known
    intro path member
    rcases List.mem_append.mp member with member | member
    · exact names.program path (Option.mem_toList.mp member)
    · exact names.controllers path member
  | _ => cases known

theorem folder_facts (shows : Shows drop t root place e) (overlooks : Overlooks drop) {folder : Text}
    (known : folder ∈ lookedAt ∨ folder = "." ∨ ∃ c, (e.prune drop).get? [folder] = some c) :
    Path.rootOf folder = [] ∧ (∀ n ∈ Path.segmentsOf folder, IsName n) ∧
      e.Keeps drop (Path.segmentsOf folder) := by
  rcases known with known | rfl | ⟨c, inside⟩
  · exact ⟨(lookedAt_facts folder known).1, isName_of_lookedAt known, shows.keeps overlooks known⟩
  · have segments : Path.segmentsOf "." = [] := by decide
    rw [segments]
    exact ⟨by decide, by simp, trivial⟩
  · obtain ⟨keeps, d, there, _⟩ := get?_of_prune shows.tidy inside
    have names := isName_of_get? shows.tidy there
    have segments : Path.segmentsOf folder = [folder] := Tree.segmentsOf_join (by simp) names
    rw [segments]
    exact ⟨Tree.rootOf_join (s := [folder]) (by simp) names, names, keeps⟩

/-- Tables are found in a project where they are found once it is pruned. -/
theorem tables_prune (shows : Shows drop t root place e) (overlooks : Overlooks drop) {name : Text}
    (start : name ∈ RouteTables.searchRoots) (s : List Text) :
    (∃ c, e.get? (Path.segmentsOf name) = some c ∧ ∃ folders file, s = folders ++ [file] ∧
      RouteTables.Holds (Path.segmentsOf name) c folders file) ↔
    ∃ c, (e.prune drop).get? (Path.segmentsOf name) = some c ∧ ∃ folders file,
      s = folders ++ [file] ∧ RouteTables.Holds (Path.segmentsOf name) c folders file := by
  have known : name ∈ lookedAt := List.mem_append_right _ start
  have keeps := shows.keeps overlooks known
  rw [get?_prune shows.tidy keeps]
  constructor
  · rintro ⟨c, inside, folders, file, rfl, holds⟩
    refine ⟨c.prune drop, by rw [inside]; rfl, folders, file, rfl, { holds with file := ?_ }⟩
    obtain ⟨content, found⟩ := holds.file
    have inner := shows.unprobed.table name start c inside folders file holds
    exact ⟨content, by rw [get?_prune (shows.tidy.get inside) inner, found]; rfl⟩
  · rintro ⟨c, inside, folders, file, rfl, holds⟩
    obtain ⟨d, there, rfl⟩ := Option.map_eq_some_iff.mp inside
    refine ⟨d, there, folders, file, rfl, { holds with file := ?_ }⟩
    obtain ⟨content, found⟩ := holds.file
    obtain ⟨_, f, found', same⟩ := get?_of_prune (shows.tidy.get there) found
    exact ⟨content, by rw [found', prune_eq_file.mp same]⟩

theorem search_eq (alike : Alike drop root t t' place place' e e') (overlooks : Overlooks drop)
    {name : Text} (start : name ∈ RouteTables.searchRoots) :
    RouteTables.search t (root.sub name) = RouteTables.search t' (root.sub name) := by
  obtain ⟨relative, nonempty, names⟩ := RouteTables.searchRoots_facts name start
  have gives {t : Tree} {place : Place} {e : Entry} (shows : Shows drop t root place e) :=
    (RouteTables.gives_search shows.found shows.tidy shows.free nonempty names).of_iff
      (tables_prune shows overlooks start)
  have first := gives alike.first
  have second := gives alike.second
  rw [← alike.same] at second
  rw [Tree.sub_relative root relative]
  exact first.unique second

theorem isFileOf_table (shows : Shows drop t root place e) (overlooks : Overlooks drop)
    {name path : Text} (start : name ∈ RouteTables.searchRoots)
    (table : RouteTables.IsTable e name path) : IsFileOf (e.prune drop) path := by
  obtain ⟨c, inside, folders, file, holds, rfl⟩ := table
  obtain ⟨d, inside', _, _, same, holds'⟩ :=
    (tables_prune shows overlooks start _).mp ⟨c, inside, folders, file, rfl, holds⟩
  obtain ⟨content, found⟩ := holds'.file
  refine ⟨_, content, by simp, rfl, ?_⟩
  rw [get?_append, inside', same]
  exact found

/-- A rule leads to the same files in projects that are alike. -/
theorem files_eq (alike : Alike drop root t t' place place' e e') (overlooks : Overlooks drop)
    {rule : Rule} (fits : rule.Fits (e.prune drop)) : ∃ files, rule.files t root = .ok files ∧
      rule.files t' root = .ok files ∧ ∀ path ∈ files, IsFileOf (e.prune drop) path := by
  have tidy : (e.prune drop).Each Tidy := tidy_prune alike.first.tidy
  have free : (e.prune drop).Each Linkless := linkless_prune alike.first.free
  cases rule with
  | glob pattern =>
    obtain ⟨known, ends⟩ := fits
    have avoids : Avoids (Glob.Matcher.ofPattern pattern).accepts := by
      intro text accepted
      rw [Glob.Matcher.getLast?_of_accepts (by decide) ends accepted]
      decide
    have matched {t : Tree} {place : Place} {e : Entry} (shows : Shows drop t root place e) :
        matching t root pattern = .ok ((listing (e.prune drop) (Glob.base pattern) {}).filter
          (Glob.Matcher.ofPattern pattern).accepts) := by
      obtain ⟨files, walked, same⟩ := shows.walk_filter overlooks (lookedAt_facts _ known).1
        (isName_of_lookedAt known) (shows.keeps overlooks known) (fun _ enters => enters)
        (.inr avoids)
      rw [matching, walked, ← same]
      rfl
    refine ⟨_, matched alike.first, alike.same ▸ matched alike.second, fun path member => ?_⟩
    exact isFileOf_of_mem_listing tidy free (List.mem_of_mem_filter member)
  | below start wanted =>
    obtain ⟨avoids, known⟩ := fits
    have listed {t : Tree} {place : Place} {e : Entry} (shows : Shows drop t root place e)
        (known : start ∈ lookedAt ∨ start = "." ∨ ∃ c, (e.prune drop).get? [start] = some c) :
        walk t root start { wanted } = .ok (listing (e.prune drop) start { wanted }) := by
      obtain ⟨relative, names, keeps⟩ := folder_facts shows overlooks known
      exact shows.walk_eq overlooks relative names keeps (fun _ enters => enters) avoids
    refine ⟨_, listed alike.first known, ?_, fun path => isFileOf_of_mem_listing tidy free⟩
    rw [alike.same] at known ⊢
    exact listed alike.second known
  | tables =>
    obtain ⟨tables, ended, member⟩ := RouteTables.mapM_search alike.first.found alike.first.tidy
      alike.first.free fun name (start : name ∈ RouteTables.searchRoots) => start
    have ended' := (mapM_congr fun name start => search_eq alike.symm overlooks start).trans ended
    refine ⟨tables.flatten.map (·.relativeText root), ?_, ?_, fun path inside => ?_⟩
    · rw [Rule.files, RouteTables.find, ended]
      rfl
    · rw [Rule.files, RouteTables.find, ended']
      rfl
    · obtain ⟨name, start, table⟩ := (member path).mp inside
      exact isFileOf_table alike.first overlooks start table
  | known files => exact ⟨files, rfl, rfl, fits⟩

/-- The same candidate files are found in projects that are alike, and all of them are files. -/
theorem find_eq (alike : Alike drop root t t' place place' e e') (overlooks : Overlooks drop)
    {s : Traits} (names : Names (e.prune drop) s) {d : Dialect} {excluded files : List Text}
    {records : List Log.Record} (found : find t root s d excluded = .ok (files, records)) :
    find t' root s d excluded = .ok (files, records) ∧
      ∀ path ∈ files, IsFileOf (e.prune drop) path := by
  unfold find at found ⊢
  cases known : rule? s d with
  | none =>
    simp only [known] at found ⊢
    cases found
    exact ⟨rfl, by simp⟩
  | some rule =>
    obtain ⟨all, given, given', inside⟩ := files_eq alike overlooks (fits_rule? names known)
    simp only [known, given] at found
    simp only [given']
    refine ⟨found, ?_⟩
    cases found
    intro path member
    have among := List.mem_of_mem_filter member
    rw [distinct, Route.Operation.mem_distinctNames] at among
    exact inside path among.1

end Candidates

/-! ### Surveys of files -/

namespace Survey

theorem surveyFiles_alike (alike : Alike drop root t t' place place' e e') (d : Dialect)
    (workers : Nat) {files : List Text} (inside : ∀ path ∈ files, IsFileOf (e.prune drop) path) :
    surveyFiles t root d workers files = surveyFiles t' root d workers files := by
  rw [surveyFiles_eq, surveyFiles_eq]
  refine mapM_congr fun path member => ?_
  obtain ⟨content, read, read'⟩ := alike.read_file (inside path member)
  simp only [surveyFile, Tree.readLossy, read, read']

end Survey

/-! ### Settings -/

namespace Config

/-- The settings of a project, given what stands under the name of the configuration file. -/
def ofEntry (root : Path) : Option Entry → Except Failure Config
  | none => .ok { root }
  | some (.file content) => ofBytes root configName content
  | some _ => .error (.file .isFolder (root.sub configName).text)

theorem ofEntry_prune (drop : Text → Entry → Bool) (root : Path) (entry : Option Entry) :
    ofEntry root (entry.map (prune drop)) = ofEntry root entry := by
  cases entry with
  | none => rfl
  | some c => cases c <;> rfl

theorem load_eq {w : Workspace} (found : w.tree.find (.absolute place) = .ok (place, e))
    (tidy : w.tree.top.Each Tidy) (free : e.Each Linkless) (folder : e.isFolder = true) :
    load w (.absolute place) = ofEntry (.absolute place) (e.get? [configName]) := by
  have linkless : e.isLink = false := by
    cases e with
    | folder es => rfl
    | _ => cases folder
  have names : ∀ n ∈ [configName], IsName n := by decide
  have file : (Path.absolute place).sub configName = .absolute (place ++ [configName]) := by
    have segments : Path.ofText configName = ⟨[], [configName]⟩ := by decide
    rw [Path.sub, segments]
    rfl
  have chosen : fileFor w (.absolute place) = .ok (.absolute (place ++ [configName])) := by
    have expanded : w.expand (.absolute place) = .ok (.absolute place) := rfl
    have isFolder : w.tree.isFolder (.absolute place) = .ok true := by
      rw [Tree.isFolder, Tree.test, found]
      exact congrArg Except.ok folder
    simp only [fileFor, expanded, bind, Except.bind, isFolder, file]
    exact Workspace.resolve_absolute found tidy free linkless names
  have parent : (Path.absolute (place ++ [configName])).parent = .absolute place := by
    simp [Path.parent, Path.absolute]
  have root : w.resolve (.absolute place) = .ok (.absolute place) := by
    have resolved := Workspace.resolve_absolute (s := []) found tidy free linkless (by simp)
    rwa [List.append_nil] at resolved
  have below : Path.absolute (place ++ [configName]) =
      (Path.absolute place).below ⟨[], [configName]⟩ := rfl
  have name : (Path.absolute (place ++ [configName])).name = configName := by
    simp [Path.name, Path.absolute]
  have has := Tree.test_below found free names fun _ => true
  rw [← below] at has
  simp only [load, chosen, bind, Except.bind, parent, root, Tree.has, has, name]
  cases inside : e.get? [configName] with
  | none => rfl
  | some c =>
    have there := Tree.find_of_get? found free names inside
    rw [← below] at there
    cases c with
    | file content =>
      have read : w.tree.read (.absolute (place ++ [configName])) = .ok content := by
        rw [Tree.read, there]
      rw [read]
      rfl
    | _ =>
      have failed : w.tree.read (.absolute (place ++ [configName])) = .error .isFolder := by
        rw [Tree.read, there]
      show _ = Except.error (Failure.file .isFolder ((Path.absolute place).sub configName).text)
      rw [failed, file]
      rfl

theorem load_alike {w w' : Workspace}
    (alike : Alike drop (.absolute place) w.tree w'.tree place place e e')
    (tidy : w.tree.top.Each Tidy) (tidy' : w'.tree.top.Each Tidy) (folder : e.isFolder = true) :
    load w' (.absolute place) = load w (.absolute place) := by
  have keeps {t : Tree} {e : Entry} (shows : Shows drop t (.absolute place) place e) :
      e.Keeps drop [configName] := fun c child => ⟨shows.unprobed.settings c child, trivial⟩
  rw [load_eq alike.first.found tidy alike.first.free folder,
    load_eq alike.second.found tidy' alike.second.free (alike.isFolder folder),
    ← ofEntry_prune drop _ (e.get? _), ← ofEntry_prune drop _ (e'.get? _),
    alike.get?_eq (keeps alike.first) (keeps alike.second)]

end Config

/-! ### The whole survey -/

namespace Survey

open Run

variable {s s₂ mid : Session} {surface : Surface} {workers : Option Int} {c : Config} {v : Survey}

theorem configFor_alike (same : Config.load s₂.space root = Config.load s.space root) :
    EndsAlike (configFor root) (configFor root) s s₂ := by
  intro c mid configured
  unfold configFor at configured ⊢
  simp only [ends_bind, ends_get] at configured ⊢
  obtain ⟨_, _, ⟨rfl, rfl⟩, configured⟩ := configured
  split at configured
  · rename_i loaded
    obtain ⟨rfl, rfl⟩ := ends_pure.mp configured
    refine ⟨[], rfl, s₂, s₂, ⟨rfl, rfl⟩, ?_⟩
    rw [same, loaded]
    exact ends_pure.mpr ⟨rfl, rfl⟩
  · rename_i f loaded
    obtain ⟨_, _, told, configured⟩ := ends_bind.mp configured
    obtain rfl := ends_tell.mp told
    obtain ⟨rfl, rfl⟩ := ends_pure.mp configured
    refine ⟨[_], rfl, s₂, s₂, ⟨rfl, rfl⟩, ?_⟩
    rw [same, loaded]
    exact ends_bind.mpr ⟨(), _, ends_tell.mpr rfl, ends_pure.mpr ⟨rfl, rfl⟩⟩
  · exact absurd configured ends_throw

theorem find_withProjectFiles (t : Tree) (root : Path) (traits : Traits) (files : List Text)
    (d : Dialect) (excluded : List Text) :
    Candidates.find t root { traits with projectFiles := files } d excluded =
      Candidates.find t root traits d excluded := by
  cases d <;> rfl

def projectFilesIn (t : Tree) (root : Path) : List Text :=
  (t.names root).filter (Text.endsWith ".csproj")

def withProjectFiles (v : Survey) (files : List Text) : Survey :=
  { v with traits := { v.traits with projectFiles := files } }

theorem readRoutes_alike (quiet : s.logFile = none) (quiet₂ : s₂.logFile = none)
    (alike : Alike drop root s.space.tree s₂.space.tree place place' e e')
    (overlooks : Overlooks drop) {traits : Traits} (names : Names (e.prune drop) traits)
    {d : Dialect} (files : List Text)
    (ended : Ends (readRoutes root workers c traits d) s v mid) :
    ∃ rs, mid = s.reportAll rs ∧
      Ends (readRoutes root workers c { traits with projectFiles := files } d) s₂
        (v.withProjectFiles files) (s₂.reportAll rs) := by
  obtain ⟨paths, records, read, found, surveyed, rfl, rfl⟩ := ends_readRoutes.mp ended
  rw [Session.reportAll_space_of_no_logFile quiet] at surveyed
  obtain ⟨found₂, inside⟩ := Candidates.find_eq alike overlooks names found
  rw [surveyFiles_alike alike d _ inside] at surveyed
  refine ⟨_, rfl, ends_readRoutes.mpr ⟨paths, records, read, ?_, ?_, rfl, rfl⟩⟩
  · rw [find_withProjectFiles]
    exact found₂
  · rw [Session.reportAll_space_of_no_logFile quiet₂]
    exact surveyed

/-- On the web the choice of a dialect does not depend on project files. -/
theorem dialect_withProjectFiles (root : Path) {traits : Traits} {files : List Text}
    (same : surface = .dotnet → traits.projectFiles = files) :
    let traits₂ := { traits with projectFiles := files }
    chooseDialect traits₂ surface = chooseDialect traits surface ∧
      dialectRecords root traits₂ surface = dialectRecords root traits surface := by
  cases surface with
  | web => exact ⟨rfl, rfl⟩
  | dotnet =>
    rw [← same rfl]
    exact ⟨rfl, rfl⟩

/-- Projects that are alike are surveyed alike, and the same reports are made. -/
theorem take_alike (quiet : s.logFile = none) (quiet₂ : s₂.logFile = none)
    (alike : Alike drop root s.space.tree s₂.space.tree place place' e e')
    (overlooks : Overlooks drop) {config config₂ : Run Config}
    (configured : ∀ r, EndsAlike config config₂ (s.report r) (s₂.report r))
    (projects : surface = .dotnet →
      projectFilesIn s.space.tree root = projectFilesIn s₂.space.tree root)
    (taken : Ends (take root surface workers config) s v mid) :
    ∃ rs, mid = s.reportAll rs ∧ Ends (take root surface workers config₂) s₂
      (v.withProjectFiles (projectFilesIn s₂.space.tree root)) (s₂.reportAll rs) := by
  obtain ⟨c, mid₁, traits, settled, gathered, rest⟩ := ends_take.mp taken
  obtain ⟨rs, rfl, settled₂⟩ := configured _ c mid₁ settled
  have space (rs : List Log.Record) : (s.reportAll rs).space = s.space :=
    Session.reportAll_space_of_no_logFile quiet rs
  have space₂ (rs : List Log.Record) : (s₂.reportAll rs).space = s₂.space :=
    Session.reportAll_space_of_no_logFile quiet₂ rs
  let before := analyzingRecord root :: rs
  have start : (s.report (analyzingRecord root)).reportAll rs = s.reportAll before := rfl
  have start₂ : (s₂.report (analyzingRecord root)).reportAll rs = s₂.reportAll before := rfl
  rw [start] at gathered rest
  rw [start₂] at settled₂
  rw [space] at gathered
  let traits₂ := { traits with projectFiles := projectFilesIn s₂.space.tree root }
  have gathered₂ : gather (s₂.reportAll before).space.tree root = .ok traits₂ := by
    rw [space₂]
    exact alike.gather_eq overlooks gathered
  have chosen := dialect_withProjectFiles root fun dotnet =>
    (gather_iff.mp gathered).projects.trans (projects dotnet)
  dsimp only at rest
  rw [← chosen.1, ← chosen.2, ← Session.reportAll_append] at rest
  split at rest
  · rename_i supported
    have later : Alike drop root (s.reportAll (before ++ dialectRecords root traits₂ surface)).space.tree
        (s₂.reportAll (before ++ dialectRecords root traits₂ surface)).space.tree place place' e e' := by
      rw [space, space₂]
      exact alike
    obtain ⟨rs', rfl, read⟩ := readRoutes_alike ((Session.reportAll_logFile _ _).trans quiet)
      ((Session.reportAll_logFile _ _).trans quiet₂) later overlooks
      (alike.first.names_of_gather overlooks gathered) (projectFilesIn s₂.space.tree root) rest
    refine ⟨before ++ dialectRecords root traits₂ surface ++ rs', ?_, ?_⟩
    · simp only [Session.reportAll_append]
    · refine ends_take.mpr ⟨c, _, traits₂, settled₂, gathered₂, ?_⟩
      dsimp only
      rw [if_pos supported, ← Session.reportAll_append, Session.reportAll_append _ _ rs']
      exact read
  · rename_i unsupported
    obtain ⟨rfl, rfl⟩ := rest
    refine ⟨before ++ dialectRecords root traits₂ surface, rfl, ?_⟩
    refine ends_take.mpr ⟨c, _, traits₂, settled₂, gathered₂, ?_⟩
    dsimp only
    rw [if_neg unsupported]
    exact ⟨rfl, Session.reportAll_append ..⟩

end Survey

end RouteAtlas
