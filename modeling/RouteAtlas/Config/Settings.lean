import RouteAtlas.Config.Basic
import RouteAtlas.Document.Basic
import RouteAtlas.Surface
import RouteAtlas.Tree.Content

/-!
# Settings of a document

Where the title, the description, the version and the address of a document come from: the command
line, the environment, the configuration, the manifest of the project, and the defaults, in this order.
-/

namespace RouteAtlas

structure Manifest where
  title : Option Text := none
  description : Option Text := none
  version : Option Text := none

namespace Manifest

def asText : Option Json → Option Text
  | some (.string t) => some t
  | some (.integer n) => some (Decimal.integerText n)
  | some (.float x) => some (Decimal.floatText x)
  | _ => none

def ofObject (object : Json) (title description version : Text) : Manifest where
  title := asText (object.member? title)
  description := asText (object.member? description)
  version := asText (object.member? version)

/-- Reads the manifest of a project: the package file on the web, the application settings of
ASP.NET Core. -/
def load (t : Tree) (root : Path) : Surface → Except Failure Manifest
  | .web => do
    let file := root.sub "package.json"
    let object ← Failure.on file (t.readObject file)
    return ofObject object "name" "description" "version"
  | .dotnet => do
    let file := root.sub "appsettings.json"
    let object ← Failure.on file (t.readObject file)
    return ofObject ((object.member? "Swagger").getD .null) "Title" "Description" "Version"

end Manifest

namespace Document.Settings

def firstOf (candidates : List (Option Text)) (default : Text) : Text :=
  (candidates.findSome? fun t => t.filter (!·.isEmpty)).getD default

/-- The settings of the document of a project, given the host and the scheme asked for. -/
def resolve (w : Workspace) (root : Path) (surface : Surface) (c : Config)
    (host scheme : Option Text) : Except Failure Settings := do
  let m ← Manifest.load w.tree root surface
  let d := surface.defaults
  let host := firstOf [host, w.valueOf? "API_HOST", c.host] d.host
  let scheme := firstOf [scheme, c.scheme] d.scheme
  return {
    title := firstOf [w.valueOf? "API_TITLE", c.title, m.title] d.title
    description := firstOf [w.valueOf? "API_DESCRIPTION", c.description, m.description] d.description
    version := firstOf [w.valueOf? "API_VERSION", c.version, m.version] d.version
    serverUrl := scheme ++ "://" ++ host ++ c.basePath.getD d.basePath }

end Document.Settings
end RouteAtlas
