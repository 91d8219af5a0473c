import RouteAtlas.Log
import RouteAtlas.Workspace
import RouteAtlas.Tree.Write

/-!
# Sessions

A run works in a session: the workspace, the reports so far, and the file that keeps the reports, if
there is one. What a run has done before a failure stays done.
-/

namespace RouteAtlas

/-- What a run works in. -/
structure Session where
  space : Workspace
  log : List Log.Record := []
  logFile : Option Place := none
  /-- What stands in front of each line of that file. -/
  stamp : Text := []

/-- The tree with more lines at the end of the file at a place. -/
def Tree.appendAt (t : Tree) (place : Place) (content : Bytes) : Tree :=
  match t.top.get? place with
  | some (.file old) => t.set place (some (.file (old ++ content)))
  | _ => t

namespace Session

def withTree (s : Session) (t : Tree) : Session := { s with space := { s.space with tree := t } }

def fileLine (s : Session) (r : Log.Record) : Text := s.stamp ++ r.line ++ ['\n']

def report (s : Session) (r : Log.Record) : Session :=
  let s' :=
    match s.logFile with
    | some place => s.withTree (s.space.tree.appendAt place (Text.utf8 (s.fileLine r)))
    | none => s
  { s' with log := s.log ++ [r] }

end Session

abbrev Run := ExceptT Failure (StateM Session)

namespace Run

variable {α : Type}

def look (f : Workspace → Except Failure α) : Run α := do
  let s ← get
  ExceptT.mk (pure (f s.space))

/-- The result of a step, or the failure that ended it. -/
def attempt (step : Run α) : Run (Except Failure α) := ExceptT.mk do return .ok (← step.run)

def report (r : Log.Record) : Run Unit := modify (·.report r)

def reportAll (rs : List Log.Record) : Run Unit := rs.forM report

def tell (level : Log.Level) (message : Text) : Run Unit := report ⟨level, .orchestrator, message⟩

def makeFolders (p : Path) : Run Unit := do
  let s ← get
  let (t, failure) := s.space.tree.makeFolders p
  set (s.withTree t)
  match failure with
  | some (f, path) => throw (.file f path.text)
  | none => return

def change (p : Path) (operation : Tree → Except Fault Tree) : Run Unit := do
  let s ← get
  match operation s.space.tree with
  | .ok t => set (s.withTree t)
  | .error f => throw (.file f p.text)

end Run
end RouteAtlas
