import RouteAtlas.CommandLine.Arguments
import RouteAtlas.Survey.Publication

/-!
# Outcomes

A call of the program with words: what it prints, and how it exits. Reports go to the error output and,
if a file is named for them, to that file.
-/

namespace RouteAtlas.CommandLine

structure Outcome where
  exit : Nat := 0
  output : Text := []
  errors : Text := []
deriving DecidableEq, Repr

/-- The reports as lines on the console. -/
def console (verbose : Bool) (log : List Log.Record) : Text :=
  (log.filter (·.shown verbose)).flatMap fun r => r.consoleLine ++ ['\n']

def refusal (name : Text) (f : Fault) : Outcome :=
  { exit := 2, errors := name ++ ": error: " ++ f.message ++ ['\n'] }

/-- What is said of a failure. Where the project or a folder is not found, its message is enough. -/
def failureText (surface : Surface) (f : Failure) : Text :=
  if f.isPathFailure then f.message ++ ['\n']
  else
    programName ++ ' ' :: surface.name ++ " failed: " ++ f.message
      ++ "\nRun with --verbose for more details.\n"

/-- What is said of a document that has been written. Its path is given from the current folder if it
lies below. -/
def success (t : Tree) (s : Survey) (path : Path) : Text :=
  let found := Path.absolute (t.resolve path)
  let shown := (found.relativeTo? (.absolute t.here)).getD path
  "OpenAPI spec written to " ++ shown.text ++ " (" ++ Decimal.natText s.endpoints ++ " operations)\n"

def keepReports (file : Text) : Run Unit := do
  let path ← Run.look fun w => w.expand (.ofText file)
  Run.makeFolders path.parent
  let path ← Run.look fun w => .ok (w.spelled path)
  Run.change path fun t => t.append path []
  let (place, _) ← Run.look fun w => Failure.on path (w.tree.find path)
  modify fun s => { s with logFile := some place }

def Order.request (o : Order) : Survey.Request where
  path := o.path
  output := o.output
  surface := o.surface
  workers := o.given.workers
  host := o.given.host
  scheme := o.given.scheme

def fulfil (o : Order) : Run Outcome := do
  o.given.logFile.forM keepReports
  if o.given.workers.any (· < 1) then
    return { exit := 2, errors := "--workers must be a positive integer\n" }
  let result ← Run.attempt (Survey.publish o.request)
  let s ← get
  let shown := console o.given.verbose s.log
  match result with
  | .error f => return { exit := 1, errors := shown ++ failureText o.surface f }
  | .ok (survey, none) =>
    let kind := "No OpenAPI document written (detected: " ++ survey.dialect.name ++ ")\n"
    return { exit := 1, errors := shown ++ kind }
  | .ok (survey, some path) =>
    return { output := success s.space.tree survey path, errors := shown }

/-- A call of the program with words. Nothing is printed for a call that asks for help. -/
def call (words : List Text) : Run Outcome :=
  match read words with
  | .error .help => return {}
  | .error (.refused name f) => return refusal name f
  | .ok o => fulfil o

end RouteAtlas.CommandLine
