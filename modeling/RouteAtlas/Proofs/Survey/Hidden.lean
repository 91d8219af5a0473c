import RouteAtlas.Proofs.Survey.Overlooked

/-!
# Hidden folders

What lies in hidden folders, in installed packages and in caches does not count. `conduct_hidden` says so for
projects in which none of these is probed, and `conduct_cachedTable` is a project where one is.
-/

namespace RouteAtlas

open Entry Traits Run

/-- The entry is a folder that walks do not enter: a hidden one, or one of packages or caches. -/
def isHidden (name : Text) (e : Entry) : Bool := e.isFolder && !({} : Tree.Walk).enters name

theorem overlooks_isHidden : Overlooks isHidden where
  folders n es dropped := by simpa [isHidden, Entry.isFolder] using dropped
  files n content dropped := by simp [isHidden, Entry.isFolder] at dropped
  links n target := rfl

namespace Survey

variable {s s₂ : Session} {path : Text} {place : Place} {e e₂ : Entry} {workers : Option Int}

/-- Two projects that differ only in hidden folders and in folders of packages or caches have the same
traits, project files apart, and are surveyed alike with the same reports. -/
theorem conduct_hidden (quiet : s.logFile = none) (quiet₂ : s₂.logFile = none)
    (root : s.space.projectRoot path = .ok (.absolute place))
    (root₂ : s₂.space.projectRoot path = .ok (.absolute place))
    (tidy : s.space.tree.top.Each Tidy) (tidy₂ : s₂.space.tree.top.Each Tidy)
    (alike : Alike isHidden (.absolute place) s.space.tree s₂.space.tree place place e e₂) :
    (∃ traits, gather s.space.tree (.absolute place) = .ok traits ∧
      gather s₂.space.tree (.absolute place) = .ok { traits with
        projectFiles := projectFilesIn s₂.space.tree (.absolute place) }) ∧
    ∀ v mid, Ends (conduct path .web workers) s v mid → ∃ rs, mid = s.reportAll rs ∧
      Ends (conduct path .web workers) s₂
        (v.withProjectFiles (projectFilesIn s₂.space.tree (.absolute place))) (s₂.reportAll rs) := by
  constructor
  · obtain ⟨traits, gathered⟩ := exists_gather alike.first.found alike.first.tidy alike.first.free
    exact ⟨traits, gathered, alike.gather_eq overlooks_isHidden gathered⟩
  · intro v mid conducted
    have opened : conduct path .web workers = Run.look (·.projectRoot path) >>=
        fun root => take root .web workers (configFor root) := rfl
    rw [opened, ends_bind] at conducted
    obtain ⟨found, _, looked, taken⟩ := conducted
    obtain ⟨resolved, same⟩ := ends_look.mp looked
    rw [same] at taken
    obtain rfl := Except.ok.inj (root.symm.trans resolved)
    obtain ⟨_, _, e', _, _, there, folder⟩ := Workspace.projectRoot_iff.mp root
    obtain rfl : e = e' := by
      have same := alike.first.found.symm.trans there
      cases same
      rfl
    have settings := Config.load_alike alike tidy tidy₂ folder
    have configured (r : Log.Record) : EndsAlike (configFor (.absolute place))
        (configFor (.absolute place)) (s.report r) (s₂.report r) := by
      apply configFor_alike
      rw [Session.report_of_no_logFile quiet, Session.report_of_no_logFile quiet₂]
      exact settings
    obtain ⟨rs, whole, taken₂⟩ :=
      take_alike quiet quiet₂ alike overlooks_isHidden configured (by rintro ⟨⟩) taken
    refine ⟨rs, whole, ?_⟩
    rw [opened, ends_bind]
    exact ⟨_, s₂, ends_look.mpr ⟨root₂, rfl⟩, taken₂⟩

/-- A session in a tree, which is looked at from its top. -/
def sessionIn (top : Entry) : Session :=
  { space := { tree := ⟨top, []⟩, today := "2024-03-09" } }

def shopRoutes : Entry := .file (Text.utf8 "router.get('/users', list)")

def plainShop : Entry := .folder [("routes", .folder [("users.js", shopRoutes)])]

/-- The shop with a repository, a package and a cache. -/
def usedShop : Entry :=
  .folder [(".git", .folder [("app.js", shopRoutes)]),
    ("node_modules", .folder [("pkg", .folder [("package.json", .file [])])]),
    ("routes", .folder [("__pycache__", .folder [("old.js", shopRoutes)]), ("users.js", shopRoutes)])]

theorem alike_shop : Alike isHidden (.absolute []) (sessionIn usedShop).space.tree
    (sessionIn plainShop).space.tree [] [] usedShop plainShop where
  first := ⟨rfl, by decide, by decide, unprobed_of_isNone (by decide) (by decide) (by decide)⟩
  second := ⟨rfl, by decide, by decide, unprobed_of_isNone (by decide) (by decide) (by decide)⟩
  same := by rfl

theorem conduct_hidden_shop : (sessionIn usedShop).logFile = none ∧
    (sessionIn plainShop).logFile = none ∧
    (sessionIn usedShop).space.projectRoot "/" = .ok (.absolute []) ∧
    (sessionIn plainShop).space.projectRoot "/" = .ok (.absolute []) ∧
    (sessionIn usedShop).space.tree.top.Each Tidy ∧
    (sessionIn plainShop).space.tree.top.Each Tidy ∧
    Alike isHidden (.absolute []) (sessionIn usedShop).space.tree (sessionIn plainShop).space.tree
      [] [] usedShop plainShop ∧
    ∃ v rs, v.files = (["routes/users.js"] : List Text) ∧
      Ends (conduct "/" .web none) (sessionIn usedShop) v ((sessionIn usedShop).reportAll rs) ∧
      Ends (conduct "/" .web none) (sessionIn plainShop) (v.withProjectFiles [])
        ((sessionIn plainShop).reportAll rs) := by
  have root : (sessionIn usedShop).space.projectRoot "/" = .ok (.absolute []) := by decide +kernel
  have root₂ : (sessionIn plainShop).space.projectRoot "/" = .ok (.absolute []) := by decide +kernel
  have tidy : usedShop.Each Tidy := by decide
  have tidy₂ : plainShop.Each Tidy := by decide
  have surveyed : endsWith (conduct "/" .web none) (sessionIn usedShop)
      (fun v => v.files == (["routes/users.js"] : List Text)) = true := by
    decide +kernel
  obtain ⟨v, mid, ended, files⟩ := exists_of_endsWith surveyed
  obtain ⟨rs, rfl, ended₂⟩ :=
    (conduct_hidden rfl rfl root root₂ tidy tidy₂ alike_shop).2 v mid ended
  exact ⟨rfl, rfl, root, root₂, tidy, tidy₂, alike_shop, v, rs, eq_of_beq files, ended, ended₂⟩

/-- A project of Strapi, and what lies in its packages. -/
def strapiWith (packages : List (Text × Entry)) : Entry :=
  .folder [("config", .folder [("server.js", .file [])]), ("packages", .folder packages)]

def cachedTable : Entry := strapiWith [("__pycache__",
  .folder [("server", .folder [("routes", .folder [("a.js", .file [])])])])]

/-- The search for route tables enters caches. -/
theorem conduct_cachedTable :
    cachedTable.prune isHidden = (strapiWith []).prune isHidden ∧ cachedTable.Each Linkless ∧
      endsWith (conduct "/" .web none) (sessionIn cachedTable)
        (fun v => v.files == (["packages/__pycache__/server/routes/a.js"] : List Text)) = true ∧
      endsWith (conduct "/" .web none) (sessionIn (strapiWith [])) (fun v => v.files == []) = true :=
  ⟨by rfl, by decide, by decide +kernel, by decide +kernel⟩

end Survey
end RouteAtlas
