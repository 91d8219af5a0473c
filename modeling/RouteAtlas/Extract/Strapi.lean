import RouteAtlas.Extract.Basic
import RouteAtlas.Text.Case

/-!
# Route objects

Objects with the keys `method`, `path` and `handler`, as Strapi keeps them in its route files.
-/

namespace RouteAtlas.Extract

open Scanner Route

/-- `key: 'text'`. -/
def entry (key : Text) : Scanner Text := do
  literal (key ++ ":")
  argument

def comma : Scanner Unit := do
  let _ ← blanks
  literal ","
  let _ ← blanks

def routeObject : Scanner (Text × Text × Text) := do
  literal "\x7b"
  let _ ← blanks
  let method ← entry "method"
  comma
  let path ← entry "path"
  comma
  let handler ← entry "handler"
  let _ ← run fun c => c != '}'
  literal "\x7d"
  return (method, path, handler)

def objectMethods : List Text := methods ++ (["head", "options"] : List Text)

/-- The route of an object, unless its method is not a known one. -/
def ofObject (file : Text) : Text × Text × Text → Option Declaration
  | (method, path, handler) =>
    let method := Text.lower method
    let path := rooted path
    if objectMethods.contains method then some {
      method
      path
      source := file
      parameters := Parameter.allInPath
        (colon.findAll path ++ if catchAll.occursIn path then [("path" : Text)] else [])
      description := some ("Handler: " ++ handler)
      responses := Responses.ofTables }
    else none

def routeObjects : Extractor where
  name := "strapi-routes"
  extract file text := (routeObject.findAll text).filterMap (ofObject file)

end RouteAtlas.Extract
