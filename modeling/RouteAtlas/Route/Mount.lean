import RouteAtlas.Route.Template
import RouteAtlas.Tree.Name

/-!
# Mounting

Where a file lies decides the base path of what it declares. `locationPath` strips a mount directory
from the front of the file's path and the route suffixes from its end; `mounted` puts a router's own
path below a base path.
-/

namespace RouteAtlas.Route

/-- How a declared path combines with the base path of its file: the base path alone, the path below
the base path, or the path alone. -/
inductive Anchor where
  | file
  | router
  | absolute
deriving DecidableEq, Repr

/-- The directories that contribute nothing to a route. The first that fits is stripped. -/
def mounts : List Text :=
  ["backend/src/modules", "src/modules", "src/routes", "app/api", "pages/api", "routes"]

/-- The endings stripped from a route file, group after group; at most one of each group fits. -/
def suffixes : List (List Text) :=
  [["/route.ts", "/route.js"], [".router.ts", ".router.js"], [".ts", ".js"]]

/-- The path below a mount directory, with the slash that follows it, or empty for the directory
itself. -/
def below? (mount path : Text) : Option Text :=
  match Text.after? mount path with
  | some [] => some []
  | some ('/' :: rest) => some ('/' :: rest)
  | _ => none

/-- The path without the first of the endings that it has. A line feed at the very end stays. -/
def dropSuffix (endings : List Text) (path : Text) : Text :=
  let (body, last) : Text × Text :=
    match Text.before? "\n" path with
    | some body => (body, "\n")
    | none => (path, [])
  (endings.findSome? (Text.before? · body)).getD body ++ last

/-- The path that a file's location contributes to its routes. -/
def locationPath (file : Text) : Text :=
  let path := Tree.plain file
  let path := (mounts.findSome? (below? · path)).getD path
  let path := suffixes.foldl (fun path endings => dropSuffix endings path) path
  if path = [] then "/" else rooted path

/-- A base path without its last segment where that repeats the one before: a directory that mounts
a router of its own name. -/
def collapsed (base : Text) : Text :=
  match (Text.split '/' base).reverse with
  | last :: previous :: more =>
    if last = previous then Text.join "/" (previous :: more).reverse else base
  | _ => base

def mounted (base endpoint : Text) : Text :=
  let base := collapsed (if base = "/" then [] else base)
  let combined := if endpoint = [] ∨ endpoint = "/" then base else base ++ '/' :: endpoint
  let path := squeeze combined
  if path = [] then "/" else path

/-- The template of a path declared in `file` with the given anchor. -/
def place (anchor : Anchor) (file path : Text) : Text :=
  match anchor with
  | .file => canonical (locationPath file)
  | .router => canonical (mounted (locationPath file) path)
  | .absolute => canonical path

end RouteAtlas.Route
