import RouteAtlas.Atlas.Basic
import RouteAtlas.Config.Basic
import RouteAtlas.Project.Candidates
import RouteAtlas.Session
import RouteAtlas.Surface

/-!
# Surveys

A survey gathers the traits of a project, chooses its dialect, finds the files that may declare
routes, reads their routes and collects them in an atlas. A file that cannot be read gives a warning
and no routes.
-/

namespace RouteAtlas

structure Survey where
  root : Path
  dialect : Dialect
  traits : Traits
  /-- The files that were read for routes, relative to the root. -/
  files : List Text := []
  warnings : List Text := []
  /-- The routes of all files; nothing if the project is of no supported kind. -/
  collection : Option Collection := none

structure FileSurvey where
  file : Text
  placed : List Placed := []
  warnings : List Text := []

namespace Survey

def atlas? (s : Survey) : Option Atlas := s.collection.map Collection.atlas

def endpoints (s : Survey) : Nat := (s.atlas?.map Atlas.endpoints).getD 0

def collisions (s : Survey) : Nat := (s.collection.map Collection.collisions).getD 0

/-! ### Files -/

def unreadable (file : Text) (f : Fault) (path : Path) : Text :=
  "Could not read " ++ file ++ ": " ++ f.message path.text

def surveyFile (t : Tree) (root : Path) (d : Dialect) (file : Text) : Except Failure FileSurvey :=
  let path := root.sub file
  match t.readLossy path with
  | .ok text => .ok { file, placed := d.placed file text }
  | .error .nullCharacter => .error (.file .nullCharacter path.text)
  | .error f => .ok { file, warnings := [unreadable file f path] }

/-- A list cut into rounds of at most `size + 1` items. -/
def rounds {α : Type} (size : Nat) : List α → List (List α)
  | [] => []
  | a :: as => (a :: as.take size) :: rounds size (as.drop size)
termination_by l => l.length
decreasing_by rw [List.length_drop, List.length_cons]; omega

/-- Every item is in one round, and the order is kept. -/
theorem flatten_rounds {α : Type} (size : Nat) (l : List α) : (rounds size l).flatten = l := by
  induction l using rounds.induct size with
  | case1 => simp [rounds]
  | case2 a as ih => rw [rounds, List.flatten_cons, ih]; simp

def surveyFiles (t : Tree) (root : Path) (d : Dialect) (workers : Nat) (files : List Text) :
    Except Failure (List FileSurvey) := do
  let read ← (rounds (workers - 1) files).mapM fun round => round.mapM (surveyFile t root d)
  return read.flatten

/-! ### The whole project -/

/-- The dialect of a project on a surface, and what the choice reports. -/
def chooseDialect (s : Traits) : Surface → Dialect × List Log.Record
  | .web => (s.webDialect, s.dialectLog)
  | .dotnet => (s.dotnetDialect, [])

/-- The number of files that may be read at a time: the number asked for, or that of the
configuration. -/
def workersFor (asked : Option Int) (c : Config) : Nat :=
  match asked with
  | some n => if n = 0 then c.workers else n.toNat
  | none => c.workers

def collect (c : Collection) (f : FileSurvey) : Run Collection := do
  f.warnings.forM (Run.tell .warning)
  let (_, c') := c.add f.file f.placed
  Run.reportAll ((c'.overrides.drop c.overrides.length).map Override.record)
  return c'

/-- The settings of the project in a folder. Settings that do not count are left aside with a
warning. -/
def configFor (root : Path) : Run Config := do
  let s ← get
  match Config.load s.space root with
  | .ok c => return c
  | .error (.config f) =>
    Run.tell .warning ("Ignoring invalid configuration: " ++ f.message)
    return { root }
  | .error f => throw f

def settingsFor (given : Option Config) (root : Path) : Run Config :=
  match given with
  | some c => return c
  | none => configFor root

/-- Surveys the project in a folder with settings that are known. -/
def take (root : Path) (surface : Surface) (workers : Option Int) (config : Run Config) :
    Run Survey := do
  Run.tell .info ("Analyzing project: " ++ root.text)
  let c ← config
  let traits ← Run.look fun w => Traits.gather w.tree root
  Run.report (Traits.gatherRecord root traits)
  let (dialect, records) := chooseDialect traits surface
  Run.reportAll records
  Run.tell .info ("Detected: " ++ dialect.name)
  if !dialect.isSupported then return { root, dialect, traits }
  let (files, records) ← Run.look fun w =>
    Candidates.find w.tree root traits dialect c.excluded
  Run.reportAll records
  Run.tell .info ("Found " ++ Decimal.natText files.length ++ " route files")
  let read ← Run.look fun w => surveyFiles w.tree root dialect (workersFor workers c) files
  let collection ← read.foldlM collect {}
  Run.tell .debug ("Merged " ++ Decimal.natText collection.atlas.endpoints ++ " endpoints with "
    ++ Decimal.natText collection.collisions ++ " overrides")
  return {
    root, dialect, traits, files
    warnings := read.flatMap FileSurvey.warnings
    collection := some collection }

def conductWith (path : Text) (surface : Surface) (workers : Option Int) (given : Option Config) :
    Run Survey := do
  let root ← Run.look (·.projectRoot path)
  take root surface workers (settingsFor given root)

def conduct (path : Text) (surface : Surface) (workers : Option Int) : Run Survey :=
  conductWith path surface workers none

end Survey
end RouteAtlas
