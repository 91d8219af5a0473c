import RouteAtlas.Proofs.Config.Loading
import RouteAtlas.Proofs.Survey.Hidden

/-!
# Surveys and their configuration

What a survey does about the configuration file of its project. `conduct_configured` says that it goes on
with the settings of the file, or with the defaults if the file is invalid, unless the content is one
of those that escape; `conduct_undecodable` is a project with such a file.
-/

namespace RouteAtlas

open Run

/-- A file with this content is the configuration of a project. -/
structure Config.Stands (w : Workspace) (root file : Path) (content : Bytes) : Prop where
  located : fileFor w root = .ok file
  inFolder : ∃ folder, w.resolve file.parent = .ok folder
  present : w.tree.has file = .ok true
  readable : w.tree.read file = .ok content

theorem Config.load_of_stands {w : Workspace} {root file : Path} {content : Bytes}
    (stands : Stands w root file content) :
    ∃ folder, load w root = ofBytes folder file.name content := by
  obtain ⟨folder, resolved⟩ := stands.inFolder
  refine ⟨folder, ?_⟩
  simp only [load, stands.located, bind, Except.bind, resolved, stands.present, stands.readable]
  rfl

namespace Survey

variable {root : Path} {surface : Surface} {workers : Option Int} {config config' : Run Config}
  {s mid : Session} {f : Failure}

/-! ### The step that settles the configuration -/

/-- The part of a survey that follows the settling of its configuration. -/
def takeWith (root : Path) (surface : Surface) (workers : Option Int) (c : Config) :
    Run Survey := do
  let traits ← Run.look fun w => Traits.gather w.tree root
  Run.report (Traits.gatherRecord root traits)
  let (dialect, records) := chooseDialect traits surface
  Run.reportAll records
  Run.tell .info ("Detected: " ++ dialect.name)
  if !dialect.isSupported then return { root, dialect, traits }
  readRoutes root workers c traits dialect

theorem outcome_take (root : Path) (surface : Surface) (workers : Option Int)
    (config : Run Config) (s : Session) : outcome (take root surface workers config) s =
      outcome (config >>= takeWith root surface workers) (s.report (analyzingRecord root)) := by
  have opened : take root surface workers config = Run.report (analyzingRecord root) >>=
      fun _ => config >>= takeWith root surface workers := rfl
  have reported : outcome (Run.report (analyzingRecord root)) s =
      (.ok (), s.report (analyzingRecord root)) := rfl
  rw [opened, outcome_bind, reported]

theorem take_congr (same : outcome config (s.report (analyzingRecord root)) =
      outcome config' (s.report (analyzingRecord root))) :
    outcome (take root surface workers config) s = outcome (take root surface workers config') s := by
  rw [outcome_take, outcome_take, outcome_bind, outcome_bind, same]

theorem take_of_fails
    (failed : outcome config (s.report (analyzingRecord root)) = (.error f, mid)) :
    outcome (take root surface workers config) s = (.error f, mid) := by
  rw [outcome_take, outcome_bind, failed]

/-- The settings when the configuration file is invalid: a warning and the defaults. -/
def ignoring (root : Path) (f : ConfigFault) : Run Config := do
  Run.tell .warning ("Ignoring invalid configuration: " ++ f.message)
  return { root }

theorem outcome_configFor (root : Path) (s : Session) :
    outcome (configFor root) s = match Config.load s.space root with
      | .ok c => (.ok c, s)
      | .error (.config f) => outcome (ignoring root f) s
      | .error f => (.error f, s) := by
  have opened : configFor root = get >>= fun s => match Config.load s.space root with
      | .ok c => pure c
      | .error (.config f) => ignoring root f
      | .error f => throw f := rfl
  have got : outcome get s = (.ok s, s) := rfl
  rw [opened, outcome_bind, got]
  dsimp only
  split <;> rfl

/-! ### The survey -/

/-- Whatever the configuration file of a project contains, the survey goes on with its settings, which
allow at least one worker, or, if it is invalid, with the defaults after a warning; only contents that
escape end it. -/
theorem conduct_configured {path : Text} {file : Path} {content : Bytes}
    (found : s.space.projectRoot path = .ok root)
    (stands : Config.Stands (s.report (analyzingRecord root)).space root file content) :
    let loaded := Config.load (s.report (analyzingRecord root)).space root
    (∃ c, loaded = .ok c ∧ 1 ≤ c.workers ∧ outcome (conduct path surface workers) s =
      outcome (conductWith path surface workers (some c)) s) ∨
    (∃ f, loaded = .error (.config f) ∧ outcome (conduct path surface workers) s =
      outcome (take root surface workers (ignoring root f)) s) ∨
    ∃ f, loaded = .error f ∧ Config.Escapes content f ∧
      outcome (conduct path surface workers) s = (.error f, s.report (analyzingRecord root)) := by
  have opened (given : Option Config) : outcome (conductWith path surface workers given) s =
      outcome (take root surface workers (settingsFor given root)) s := by
    refine (outcome_bind (Run.look (·.projectRoot path)) _ s).trans ?_
    have looked : outcome (Run.look (·.projectRoot path)) s = (.ok root, s) := by
      rw [← found]
      rfl
    rw [looked]
  have configured := outcome_configFor root (s.report (analyzingRecord root))
  obtain ⟨folder, loaded⟩ := Config.load_of_stands stands
  dsimp only
  rw [conduct, opened, loaded]
  rw [loaded] at configured
  rcases Config.ofBytes_cases folder file.name content with
    ⟨c, given, enough⟩ | ⟨f, invalid⟩ | ⟨f, failed, escapes⟩
  · rw [given] at configured ⊢
    refine .inl ⟨c, rfl, enough, ?_⟩
    rw [opened]
    exact take_congr configured
  · rw [invalid] at configured ⊢
    exact .inr (.inl ⟨f, rfl, take_congr configured⟩)
  · rw [failed] at configured ⊢
    refine .inr (.inr ⟨f, rfl, escapes, take_of_fails ?_⟩)
    cases escapes <;> exact configured

/-- The shop with a configuration file. -/
def shopWith (content : Bytes) : Entry :=
  .folder [(configName, .file content), ("routes", .folder [("users.js", shopRoutes)])]

theorem conduct_configured_shop :
    let s := sessionIn (shopWith (Text.utf8 "workers: 0"))
    s.space.projectRoot "/" = .ok (.absolute []) ∧
      Config.Stands (s.report (analyzingRecord (.absolute []))).space (.absolute [])
        (.absolute [configName]) (Text.utf8 "workers: 0") ∧
      outcome (conduct "/" .web none) s =
        outcome (take (.absolute []) .web none (ignoring (.absolute []) .workers)) s := by
  have root : (sessionIn (shopWith (Text.utf8 "workers: 0"))).space.projectRoot "/" =
      .ok (.absolute []) := by decide +kernel
  have stands : Config.Stands (sessionIn (shopWith (Text.utf8 "workers: 0"))).space (.absolute [])
      (.absolute [configName]) (Text.utf8 "workers: 0") :=
    ⟨by decide +kernel, ⟨.absolute [], by decide +kernel⟩, by decide +kernel, by decide +kernel⟩
  have invalid : Config.load (sessionIn (shopWith (Text.utf8 "workers: 0"))).space (.absolute []) =
      .error (.config .workers) := by decide +kernel
  refine ⟨root, stands, ?_⟩
  rcases @conduct_configured _ .web none _ _ _ _ root stands with
    ⟨c, loaded, _⟩ | ⟨f, loaded, same⟩ | ⟨f, loaded, escapes, _⟩
  · cases invalid.symm.trans loaded
  · cases invalid.symm.trans loaded
    exact same
  · cases invalid.symm.trans loaded
    cases escapes

/-- A byte that belongs to no character ends the survey. -/
theorem conduct_undecodable :
    (match outcome (conduct "/" .web none) (sessionIn (shopWith [0xff])) with
      | (.error (.encoding _), _) => true
      | _ => false) = true := by
  decide +kernel

end Survey
end RouteAtlas
