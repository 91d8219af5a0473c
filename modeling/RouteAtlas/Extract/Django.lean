import RouteAtlas.Extract.Basic

/-!
# URL patterns

Entries `path('route', view)` of a list of URL patterns. The list does not bind methods, so each
entry stands for all five.
-/

namespace RouteAtlas.Extract

open Scanner Route

/-- The methods of an entry, in the order in which they are registered. -/
def patternMethods : List Text := ["get", "post", "put", "patch", "delete"]

/-- Blanks and then a run that holds no character of a class that excludes blanks. Where the run
would be empty, the last of the blanks becomes the run. -/
def lastBlankOr (p : Char → Bool) : Scanner Text := do
  let skipped ← blanks
  let body ← run p
  match body, (skipped.filter p).getLast? with
  | [], some c => return [c]
  | [], none => failure
  | body, _ => return body

/-- `path('route', view`, where the view ends before a comma or a closing parenthesis. -/
def patternEntry : Scanner (Text × Text) := do
  boundary
  literal "path"
  let _ ← blanks
  literal "("
  let route ← argument
  let _ ← blanks
  literal ","
  let view ← lastBlankOr fun c => c != ',' && c != ')'
  return (route, view)

/-- `<name>` or `<converter:name>` with one of the built-in converters. -/
def converter : Scanner Text :=
  angled do
    let _ ← oneOf ["str", "int", "slug", "uuid", "path"]

def ofPatternEntry (file : Text) : Text × Text → List Declaration
  | (route, view) =>
    let path := '/' :: (Text.before? "/" route).getD route
    let view := Text.strip view
    patternMethods.map fun method => {
      method
      path
      source := file
      parameters := Parameter.allInPath (converter.findAll path)
      description := if view = [] then none else some ("View: " ++ view)
      responses := Responses.ofTables }

def urlPatterns : Extractor where
  name := "django-urls"
  extract file text := (patternEntry.findAll text).flatMap (ofPatternEntry file)

end RouteAtlas.Extract
