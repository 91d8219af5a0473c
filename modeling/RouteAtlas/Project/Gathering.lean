import RouteAtlas.Failure
import RouteAtlas.Project.Traits
import RouteAtlas.Tree.Content
import RouteAtlas.Tree.Walk

/-!
# Gathering

The traits of a project are gathered from its files: which marker paths exist, what its manifest
depends on, how many files of a foreign language it has, and where files of its own kinds lie.
-/

namespace RouteAtlas.Traits

/-! ### What is looked for -/

/-- The paths whose existence tells something about a project. -/
def landmarks : List Text := ["lerna.json", "packages/core", "config/server.js", "config/server.ts",
  "build.sbt", "manage.py", "app/api", "pages/api", "routes", "src/routes", "src/modules",
  "backend/src/modules", "package.json", "Program.cs", "appsettings.json"]

/-- The manifests of kinds of projects that are not supported, and what the kinds are called. -/
def foreignKinds : List (Text × Text) := [("composer.json", "PHP/Composer"),
  ("Gemfile", "Ruby/Rails"), ("pom.xml", "Java/Spring"), ("build.gradle", "Java/Spring"),
  ("Cargo.toml", "Rust"), ("go.mod", "Go")]

/-- The most files of a foreign language that a supported project may have. -/
def foreignLimit : Nat := 5

/-- The folders whose subfolders may be modules with routers. -/
def moduleFolders : List Text := ["src/modules", "backend/src/modules"]

/-- The names of files that conventionally register routes. -/
def autoFiles : List Text := ["server.js", "app.js", "index.js", "main.js"]

/-- The folders that conventionally hold files that register routes. -/
def autoFolders : List Text := ["src/api", "api", "lib/api", "lib/routes", "server/routes",
  "server/routers", "src/handlers", "handlers", "controllers", "src/controllers", "app/controllers",
  "src/endpoints", "endpoints"]

def isScript (name : Text) : Bool := Text.endsWith ".ts" name || Text.endsWith ".js" name

/-- The walk on which controllers are looked for. It enters no folders of build products. -/
def controllerWalk : Tree.Walk where
  skip := ["node_modules", "__pycache__", "bin", "obj"]
  depth := some 4
  wanted := Text.endsWith "Controller.cs"

/-! ### Single facts -/

def present (t : Tree) (root : Path) (path : Text) : Except Failure Bool :=
  Failure.on (root.sub path) (t.has (root.sub path))

def isFile (t : Tree) (root : Path) (path : Text) : Except Failure Bool :=
  Failure.on (root.sub path) (t.isFile (root.sub path))

/-- The files of a walk below a folder of the project, relative to the root. -/
def walk (t : Tree) (root : Path) (folder : Text) (w : Tree.Walk) : Except Failure (List Text) :=
  Failure.on (root.sub folder) (t.relativeFiles root folder w)

def readDependencies (t : Tree) (root : Path) : Except Failure (List Text) := do
  let file := root.sub "package.json"
  let manifest ← Failure.on file (t.readObject file)
  match manifest.member? "dependencies" with
  | some (.object members) => return members.map Prod.fst
  | _ => return []

def findFirst {α : Type} (property : α → Except Failure Bool) : List α → Except Failure (Option α)
  | [] => .ok none
  | a :: as => do if ← property a then return some a else findFirst property as

/-- Why the project is of no supported kind, given its number of files of a foreign language. -/
def findReason (t : Tree) (root : Path) (foreign : Nat) : Except Failure (Option Text) := do
  if foreign > foreignLimit then return some "PHP"
  return (← findFirst (fun (path, _) => present t root path) foreignKinds).map Prod.snd

/-- The folder of a Django project: the root, or the first folder in it with a management script. -/
def findDjangoRoot (t : Tree) (root : Path) : Except Failure (Option Text) := do
  if ← present t root "manage.py" then return some "."
  findFirst (fun name => do
    let folder := root.below ⟨[], [name]⟩
    if ← Failure.on folder (t.testEntry folder Entry.isFolder) then
      present t folder "manage.py"
    else return false) (t.names root)

def holdsRouters (t : Tree) (folder : Path) : Except Failure Bool := do
  let found ← findFirst (fun name => do
    let inner := folder.below ⟨[], [name]⟩
    if ← Failure.on inner (t.testEntry inner Entry.isFolder) then
      return (t.names inner).any namesRouter
    else return false) (t.names folder)
  return found.isSome

/-- The text of a file holds a registering call. A file that cannot be read holds none. -/
def registers (t : Tree) (root : Path) (path : Text) : Bool :=
  match t.readLossy (root.sub path) with
  | .ok text => callsRouter text
  | .error _ => false

def findAutoTargets (t : Tree) (root : Path) : Except Failure (List Text) := do
  let files ← autoFiles.filterM fun name => isFile t root name
  let below ← autoFolders.mapM fun folder => walk t root folder { wanted := isScript }
  return (files ++ below.flatten).filter (registers t root)

/-- The text of the program file, if there is one that can be read. -/
def programText (t : Tree) (root : Path) : Except Failure (Option Text) := do
  if ← isFile t root "Program.cs" then return (t.readLossy (root.sub "Program.cs")).toOption
  else return none

/-! ### All facts -/

def gather (t : Tree) (root : Path) : Except Failure Traits := do
  let markers ← landmarks.filterM (present t root)
  let files ← walk t root [] {}
  let foreignFiles := (files.filter (Text.endsWith ".php")).length
  let program ← programText t root
  let dependencies ← readDependencies t root
  let unsupportedReason ← findReason t root foreignFiles
  let djangoRoot ← findDjangoRoot t root
  let modulesWithRouters ← moduleFolders.filterM fun folder => holdsRouters t (root.sub folder)
  let autoTargets ← findAutoTargets t root
  let controllers ← walk t root [] controllerWalk
  return {
    markers, dependencies, foreignFiles, unsupportedReason, djangoRoot
    hasPlayRouters := files.any (Text.endsWith "Router.scala")
    modulesWithRouters, autoTargets
    dotnetEntry := program.map fun _ => "Program.cs"
    dotnetMinimalApi := program.any mapsEndpoints
    controllers
    projectFiles := (t.names root).filter (Text.endsWith ".csproj") }

def gatherRecord (root : Path) (s : Traits) : Log.Record :=
  let count (n : Nat) (what : Text) : Text := Decimal.natText n ++ ' ' :: what
  ⟨.debug, .signature, "Signature for " ++ root.text ++ ": " ++ Text.join ", " [
    count s.markers.length "markers", count s.foreignFiles "foreign files",
    count s.autoTargets.length "auto targets", count s.controllers.length "controllers"]⟩

end RouteAtlas.Traits
