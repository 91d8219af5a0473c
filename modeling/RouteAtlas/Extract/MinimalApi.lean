import RouteAtlas.Extract.Basic
import RouteAtlas.Text.Case

/-!
# Minimal endpoint registrations

Calls `app.MapGet("/path", …)` of an ASP.NET Core program.
-/

namespace RouteAtlas.Extract

open Scanner Route

def pascalMethods : List Text := ["Get", "Post", "Put", "Delete", "Patch"]

/-- `app.MapMethod("path",`: the method and the path. -/
def registration : Scanner (Text × Text) := do
  boundary
  literal "app.Map"
  let method ← oneOf pascalMethods
  let _ ← blanks
  literal "("
  let path ← argument
  let _ ← blanks
  literal ","
  return (method, path)

def ofRegistration (file : Text) : Text × Text → Declaration
  | (method, path) =>
    let path := rooted path
    { method := Text.lower method
      path
      source := file
      parameters := Parameter.allInPath (braced.findAll path)
      responses := Responses.ofMinimal }

def minimalEndpoints : Extractor where
  name := "minimal-api"
  extract file text := (registration.findAll text).map (ofRegistration file)

end RouteAtlas.Extract
