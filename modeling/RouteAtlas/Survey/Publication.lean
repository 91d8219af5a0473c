import RouteAtlas.Config.Settings
import RouteAtlas.Survey.Basic

/-!
# Publications

The document of a survey written to a file: the one asked for, or one in the current folder whose name
tells the project, its kind and the day.
-/

namespace RouteAtlas.Survey

structure Request where
  path : Text := "."
  /-- The path of the document. An empty one counts as none. -/
  output : Option Text := none
  surface : Surface := .web
  workers : Option Int := none
  host : Option Text := none
  scheme : Option Text := none

def target (r : Request) (s : Survey) (today : Text) : Path :=
  match r.output with
  | some (c :: cs) => .ofText (c :: cs)
  | _ => .ofText (Document.defaultName s.root.name s.dialect.folder today)

def write (p : Path) (text : Text) : Run Unit := do
  Run.makeFolders p.parent
  Run.change p fun t => t.write p (Text.utf8 text)

/-- Surveys a project and writes its document. Gives the survey, and the path of the document if there
is one. -/
def publish (r : Request) : Run (Survey × Option Path) := do
  let root ← Run.look (·.projectRoot r.path)
  let c ← configFor root
  let s ← take root r.surface r.workers (pure c)
  match s.atlas? with
  | none =>
    if s.dialect = .unsupported then
      Run.tell .error ("Unsupported project type: " ++ s.traits.unsupportedReason.getD [])
    else Run.tell .error ("No supported API routes found in " ++ root.text)
    return (s, none)
  | some atlas =>
    let settings ← Run.look fun w => Document.Settings.resolve w root r.surface c r.host r.scheme
    let path ← Run.look fun w => w.expand (target r s w.today)
    write path (Document.text atlas settings)
    Run.tell .info ("OpenAPI spec generated: " ++ path.text)
    Run.tell .info ("Found " ++ Decimal.natText atlas.size ++ " endpoints")
    return (s, some path)

end RouteAtlas.Survey
