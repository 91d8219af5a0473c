import RouteAtlas.Proofs.Project.Candidates
import RouteAtlas.Proofs.Project.Gathering
import RouteAtlas.Proofs.Tree.Links
import RouteAtlas.Survey.Basic

/-!
# Projects known by their route files

Some dialects are chosen because files of routes are there. `find_ne_nil` says that such files are then
found, where the files that speak for modules are files that a walk lists; `find_routerFolder` is a
project where they are not.
-/

namespace RouteAtlas

namespace Tree

open Entry

variable {t : Tree} {folder : Path} {place : Place} {e : Entry} {n : Text}

theorem arrive_of_mem_names (tidy : t.top.Each Tidy) (listed : n ∈ t.names folder) :
    ∃ place es links c, t.arrive false folder = .ok (.entry place (.folder es) links) ∧
      t.top.get? place = some (.folder es) ∧ Tidy es ∧ (n, c) ∈ es := by
  unfold Tree.names at listed
  cases found : t.find folder with
  | error f => simp [found] at listed
  | ok result =>
    obtain ⟨place, e⟩ := result
    simp only [found, List.mem_map] at listed
    obtain ⟨⟨n, c⟩, inside, rfl⟩ := listed
    obtain ⟨links, arrived⟩ := arrive_of_find found
    obtain ⟨here, _⟩ := arrive_below (s := []) arrived (by simp)
    cases e with
    | folder es => exact ⟨place, es, links, c, arrived, here, (each_folder.mp (tidy.get here)).1, inside⟩
    | _ => cases inside

end Tree

namespace Candidates

open Entry RouteAtlas.Tree

variable {t : Tree} {root : Path} {s : Traits} {d : Dialect}

/-- The folder in which the modules of a dialect lie. -/
def moduleFolder? : Dialect → Option Text
  | .expressModules => some "src/modules"
  | .expressBackendModules => some "backend/src/modules"
  | _ => none

/-- The dialects that are chosen because their route files are there. -/
def isKnownByFiles : Dialect → Bool
  | .expressModules | .expressBackendModules | .play | .autoDetected | .dotnetMinimalApi
  | .dotnetWebApi => true
  | _ => false

/-- A folder holds a module that walks enter, and this a router that is no folder. -/
def ShowsRouter (t : Tree) (folder : Path) : Prop :=
  ∃ module name, module ∈ t.names folder ∧ ({} : Walk).enters module = true ∧
    name ∈ t.names (folder.below ⟨[], [module]⟩) ∧ Traits.namesRouter name = true ∧
    t.testEntry (folder.below ⟨[], [module, name]⟩) Entry.isFolder = .ok false

/-! ### Routers of modules -/

theorem plain_of_testEntry {p : Path} {name : Text} {links : Nat} {place : Place}
    (tested : t.testEntry p Entry.isFolder = .ok false)
    (leads : t.arrive false p = t.top.follow false links place [name]) :
    Walk.Plain t.top links place name := by
  unfold testEntry Tree.find at tested
  unfold Walk.Plain
  rw [leads] at tested
  cases followed : t.top.follow false links place [name] with
  | ok arrival =>
    rw [followed] at tested
    cases arrival with
    | entry place' e links' => exact Except.ok.inj tested
    | vacant place' => trivial
  | error f =>
    rw [followed] at tested
    cases f with
    | missing => rfl
    | _ => cases tested

theorem files_of_showsRouter (tidy : t.top.Each Tidy) {folder : Path} (shown : ShowsRouter t folder) :
    ∃ files, t.files folder { wanted := Traits.namesRouter } = .ok files ∧ files ≠ [] := by
  obtain ⟨module, name, listed, enters, listed', router, tested⟩ := shown
  obtain ⟨place, es, links, c, arrived, here, tidyHere, inside⟩ := arrive_of_mem_names tidy listed
  obtain ⟨place', es', links', c', arrived', here', tidyHere', inside'⟩ :=
    arrive_of_mem_names tidy listed'
  have named : IsName module := tidyHere.named module (List.mem_map_of_mem inside)
  have named' : IsName name := tidyHere'.named name (List.mem_map_of_mem inside')
  obtain ⟨_, goes⟩ := arrive_below (s := [module]) arrived (by simpa using named.noNull)
  obtain ⟨_, goes'⟩ := arrive_below (s := [name]) arrived' (by simpa using named'.noNull)
  rw [Path.below_below] at goes'
  let w : Walk := { wanted := Traits.namesRouter }
  have plain : Walk.Plain t.top links' place' name := plain_of_testEntry tested goes'
  have inner (depth : Nat) :
      [name] ∈ w.filesFrom t.top depth links' place' (Walk.below w.depth) (.folder es') :=
    Walk.mem_filesFrom_plain here' tidyHere' inside' plain rfl router
  have member : [module, name] ∈ w.filesFrom t.top links links place w.depth (.folder es) :=
    Walk.mem_filesFrom_inner here tidyHere inside enters rfl (goes.symm.trans arrived') inner
  refine ⟨w.filesFrom t.top links links place w.depth (.folder es), ?_, List.ne_nil_of_mem member⟩
  unfold files
  rw [arrived]

/-! ### Routers of Play -/

theorem suffix_of_suffix_join {tail : Text} {names : List Text} {last : Text} (free : '/' ∉ tail)
    (final : names.getLast? = some last) (ends : tail <:+ Text.join "/" names) : tail <:+ last := by
  obtain ⟨before, rfl⟩ := List.getLast?_eq_some_iff.mp final
  by_cases alone : before = []
  · subst alone
    exact ends
  · rw [Text.join_append "/" alone (List.cons_ne_nil last [])] at ends
    have behind : '/' :: last <:+ Text.join "/" before ++ '/' :: last := List.suffix_append ..
    rcases List.suffix_or_suffix_of_suffix ends behind with short | long
    · rcases List.suffix_cons_iff.mp short with rfl | short
      · exact absurd List.mem_cons_self free
      · exact short
    · exact absurd (long.subset List.mem_cons_self) free

theorem relativeFiles_ok {folder : Text} {w : Walk} {texts : List Text}
    (walked : Traits.walk t root folder w = .ok texts) :
    ∃ files, t.files (root.sub folder) w = .ok files ∧
      texts = files.map fun s => ((root.sub folder).below ⟨[], s⟩).relativeText root := by
  simp only [Traits.walk, relativeFiles] at walked
  cases ended : t.files (root.sub folder) w with
  | error f =>
    rw [ended] at walked
    cases walked
  | ok files =>
    rw [ended] at walked
    exact ⟨files, rfl, (Except.ok.inj walked).symm⟩

theorem walk_of_files {folder : Text} {w : Walk} {files : List (List Text)}
    (listed : t.files (root.sub folder) w = .ok files) :
    Traits.walk t root folder w =
      .ok (files.map fun s => ((root.sub folder).below ⟨[], s⟩).relativeText root) := by
  simp only [Traits.walk, relativeFiles, listed]
  rfl

theorem walk_of_hasPlayRouters (gathered : Traits.gather t root = .ok s)
    (play : s.hasPlayRouters = true) : ∃ files,
      Traits.walk t root [] { wanted := Text.endsWith "Router.scala" } = .ok files ∧ files ≠ [] := by
  obtain ⟨texts, walked, _, any⟩ := (Traits.gather_iff.mp gathered).files
  obtain ⟨files, listed, rfl⟩ := relativeFiles_ok walked
  rw [play] at any
  obtain ⟨text, member, ends⟩ := List.any_eq_true.mp any.symm
  obtain ⟨u, inside, rfl⟩ := List.mem_map.mp member
  unfold Tree.files at listed
  split at listed
  · rename_i place e links arrived
    obtain rfl := Except.ok.inj listed
    let routers : Walk := { wanted := Text.endsWith "Router.scala" }
    have keeps : Walk.Keeps (Text.endsWith "Router.scala")
        (({} : Walk).filesFrom t.top links links place none e)
        (routers.filesFrom t.top links links place none e) :=
      Walk.keeps_filesFrom rfl links links place none e
    obtain ⟨last, final, kept⟩ := keeps u inside
    have nonempty : u ≠ [] := by
      rintro rfl
      cases final
    have whole : root.sub [] = root.below ⟨[], []⟩ := rfl
    rw [whole, relativeText_below, List.nil_append, text_relative nonempty] at ends
    have router : Text.endsWith "Router.scala" last = true :=
      Text.endsWith_iff.mpr (suffix_of_suffix_join (by decide) final (Text.endsWith_iff.mp ends))
    have listed' : t.files (root.sub []) routers =
        .ok (routers.filesFrom t.top links links place none e) := by
      unfold Tree.files
      rw [arrived]
    exact ⟨_, walk_of_files listed', List.ne_nil_of_mem (List.mem_map_of_mem (kept router))⟩
  · cases listed
  · cases listed
    cases inside

/-! ### What is found -/

theorem distinct_ne_nil {paths : List Text} (nonempty : paths ≠ []) : distinct paths ≠ [] := by
  cases paths with
  | nil => exact absurd rfl nonempty
  | cons path paths => simp [distinct, Route.distinctNames]

theorem find_of_nonempty {rule : Rule} {files : List Text} (known : rule? s d = some rule)
    (given : rule.files t root = .ok files) (nonempty : files ≠ []) :
    ∃ paths records, find t root s d [] = .ok (paths, records) ∧ paths ≠ [] := by
  obtain ⟨records, ended⟩ := find_of_files known given []
  refine ⟨_, records, ended, ?_⟩
  simpa [Glob.anyMatches] using distinct_ne_nil nonempty

theorem holds_of_webDialect {condition : Bool} (chosen : s.webDialect = d) (named : d ≠ .unknown)
    (only : ∀ rule ∈ s.webRules, rule.1 = d → rule.2 = condition) : condition = true := by
  unfold Traits.webDialect at chosen
  split at chosen
  · rename_i d' holds found
    have held := List.find?_some found
    subst chosen
    rw [← only _ (List.mem_of_find?_eq_some found) rfl]
    exact held
  · exact absurd chosen.symm named

theorem hasPlayRouters_of_webDialect (chosen : s.webDialect = .play) : s.hasPlayRouters = true := by
  have both : (s.has "build.sbt" && s.hasPlayRouters) = true :=
    holds_of_webDialect chosen (by decide) (by simp [Traits.webRules])
  exact ((Bool.and_eq_true _ _).mp both).2

theorem autoTargets_of_webDialect (chosen : s.webDialect = .autoDetected) : s.autoTargets ≠ [] := by
  have nonempty : (!s.autoTargets.isEmpty) = true :=
    holds_of_webDialect chosen (by decide) (by simp [Traits.webRules])
  simpa using nonempty

theorem dotnetDialect_cases (s : Traits) :
    (s.dotnetDialect = .dotnetMinimalApi ∧ s.dotnetEntry.toList ≠ []) ∨
      (s.dotnetDialect = .dotnetWebApi ∧ s.controllers ≠ []) ∨
      s.dotnetDialect = .dotnetProject ∨ s.dotnetDialect = .unknown := by
  unfold Traits.dotnetDialect
  split
  · rename_i minimal
    refine .inl ⟨rfl, ?_⟩
    cases entry : s.dotnetEntry with
    | none => simp [entry] at minimal
    | some name => simp
  · split
    · rename_i controllers
      exact .inr (.inl ⟨rfl, by simpa using controllers⟩)
    · split
      · exact .inr (.inr (.inl rfl))
      · exact .inr (.inr (.inr rfl))

theorem find_of_showsRouter (tidy : t.top.Each Tidy) {folder : Text}
    (modules : moduleFolder? d = some folder) (shown : ShowsRouter t (root.sub folder)) :
    ∃ paths records, find t root s d [] = .ok (paths, records) ∧ paths ≠ [] := by
  obtain ⟨files, listed, nonempty⟩ := files_of_showsRouter tidy shown
  have known : rule? s d = some (.below folder Traits.namesRouter) := by
    cases d <;> cases modules <;> rfl
  exact find_of_nonempty known (walk_of_files listed) (by simpa using nonempty)

/-- A project whose dialect is chosen because its route files are there has candidate files. Where the
dialect keeps routes in modules, a module that walks enter has to show a router that is no folder. -/
theorem find_ne_nil (tidy : t.top.Each Tidy) (gathered : Traits.gather t root = .ok s)
    {surface : Surface} (chosen : (Survey.chooseDialect s surface).1 = d)
    (byFiles : isKnownByFiles d = true)
    (shown : ∀ folder, moduleFolder? d = some folder → ShowsRouter t (root.sub folder)) :
    ∃ paths records, find t root s d [] = .ok (paths, records) ∧ paths ≠ [] := by
  cases modules : moduleFolder? d with
  | some folder => exact find_of_showsRouter tidy modules (shown folder modules)
  | none =>
    cases surface with
    | web =>
      replace chosen : s.webDialect = d := chosen
      cases d with
      | play =>
        obtain ⟨files, walked, nonempty⟩ :=
          walk_of_hasPlayRouters gathered (hasPlayRouters_of_webDialect chosen)
        exact find_of_nonempty rfl walked nonempty
      | autoDetected => exact find_of_nonempty rfl rfl (autoTargets_of_webDialect chosen)
      | dotnetMinimalApi | dotnetWebApi =>
        have never : false = true :=
          holds_of_webDialect chosen (by decide) (by simp [Traits.webRules])
        cases never
      | expressModules | expressBackendModules => cases modules
      | _ => cases byFiles
    | dotnet =>
      replace chosen : s.dotnetDialect = d := chosen
      rw [← chosen] at byFiles ⊢
      rcases dotnetDialect_cases s with ⟨minimal, entry⟩ | ⟨web, controllers⟩ | other | other
      · rw [minimal]
        exact find_of_nonempty rfl rfl entry
      · rw [web]
        exact find_of_nonempty rfl rfl controllers
      · rw [other] at byFiles
        cases byFiles
      · rw [other] at byFiles
        cases byFiles

/-- The traits of a project that has nothing but a folder of modules. -/
def modulesOnly : Traits := { markers := ["src/modules"], modulesWithRouters := ["src/modules"] }

/-- A project whose one module lies behind a link. -/
def linkedModule : Entry :=
  .folder [("lib", .folder [("users.router.js", .file [])]),
    ("src", .folder [("modules", .folder [("users", .link "../../lib")])])]

theorem find_ne_nil_linkedModule : linkedModule.Each Tidy ∧
    ∃ s, Traits.gather ⟨linkedModule, []⟩ ⟨"/", []⟩ = .ok s ∧
      (Survey.chooseDialect s .web).1 = .expressModules ∧ isKnownByFiles .expressModules = true ∧
      (∀ folder, moduleFolder? .expressModules = some folder →
        ShowsRouter ⟨linkedModule, []⟩ (Path.sub ⟨"/", []⟩ folder)) ∧
      ∃ paths records,
        find ⟨linkedModule, []⟩ ⟨"/", []⟩ s .expressModules [] = .ok (paths, records) ∧ paths ≠ [] := by
  have tidy : linkedModule.Each Tidy := by decide
  have gathered : Traits.gather ⟨linkedModule, []⟩ ⟨"/", []⟩ = .ok modulesOnly := by decide +kernel
  have chosen : (Survey.chooseDialect modulesOnly .web).1 = .expressModules := by decide +kernel
  have shown : ∀ folder, moduleFolder? .expressModules = some folder →
      ShowsRouter ⟨linkedModule, []⟩ (Path.sub ⟨"/", []⟩ folder) := by
    intro folder modules
    cases modules
    exact ⟨"users", "users.router.js", by decide +kernel, by decide, by decide +kernel,
      by decide, by decide +kernel⟩
  exact ⟨tidy, _, gathered, chosen, rfl, shown, find_ne_nil tidy gathered chosen rfl shown⟩

def routerFolder : Entry :=
  .folder [("src", .folder [("modules", .folder [("users", .folder [
    ("users.router.ts", .folder [("index.ts", .file [])])])])])]

/-- A folder that is named like a router speaks for the dialect of modules, but it is no candidate. -/
theorem find_routerFolder : ∃ s, Traits.gather ⟨routerFolder, []⟩ ⟨"/", []⟩ = .ok s ∧
    s.webDialect = .expressModules ∧
      find ⟨routerFolder, []⟩ ⟨"/", []⟩ s .expressModules [] = .ok ([], []) := by
  have gathered : Traits.gather ⟨routerFolder, []⟩ ⟨"/", []⟩ = .ok modulesOnly := by decide +kernel
  exact ⟨_, gathered, by decide +kernel, by decide +kernel⟩

end Candidates
end RouteAtlas
