import RouteAtlas.Route.Mount

/-!
# Declared routes

What an extractor finds in a file: parameters, and routes whose path is not yet a template.
-/

namespace RouteAtlas.Route

/-- A parameter of a route: its name, where it is passed (in the path, the query or the body),
whether it must be given, and the type of its value. -/
structure Parameter where
  name : Text
  location : Text
  required : Bool := false
  schema : Text := "string"
deriving DecidableEq, Repr

namespace Parameter

def inPath (name : Text) : Parameter := { name, location := "path", required := true }

def inQuery (name : Text) (required : Bool := false) : Parameter :=
  { name, location := "query", required }

def body : Parameter :=
  { name := "body", location := "body", required := true, schema := "object" }

/-- The parameters without those whose name is among `seen` or has come before. -/
def distinctFrom (seen : List Text) : List Parameter → List Parameter
  | [] => []
  | p :: ps =>
    if seen.contains p.name then distinctFrom seen ps
    else p :: distinctFrom (p.name :: seen) ps

def distinct (ps : List Parameter) : List Parameter := distinctFrom [] ps

/-- One required path parameter for each distinct name. -/
def allInPath (names : List Text) : List Parameter := distinct (names.map inPath)

end Parameter

abbrev Responses := List (Text × Text)

structure Declaration where
  method : Text
  path : Text
  source : Text
  parameters : List Parameter := []
  anchor : Anchor := .absolute
  summary : Option Text := none
  description : Option Text := none
  responses : Responses := []
deriving DecidableEq, Repr

def Declaration.template (d : Declaration) (file : Text) : Text := place d.anchor file d.path

/-! ### Response profiles -/

/-- The text of a status code that profiles may use. -/
def statusText? (code : Text) : Option Text :=
  List.lookup code ([
    ("200", "Success"),
    ("400", "Bad Request"),
    ("401", "Unauthorized"),
    ("403", "Forbidden"),
    ("404", "Not Found"),
    ("500", "Internal Server Error")] : List (Text × Text))

/-- The profile of the given codes, or the first code without a text. -/
def responses? : List Text → Except Text Responses
  | [] => .ok []
  | code :: codes =>
    match statusText? code with
    | none => .error code
    | some text => (responses? codes).map ((code, text) :: ·)

/-- The profile of codes that all have a text. -/
def profile (codes : List Text) : Responses :=
  codes.filterMap fun code => (statusText? code).map (code, ·)

def Responses.ofHandlers : Responses := profile ["200", "400", "500"]

def Responses.ofRouters : Responses := profile ["200", "400", "401", "404", "500"]

def Responses.ofTables : Responses := profile ["200", "400", "401", "403", "404", "500"]

def Responses.ofMinimal : Responses := profile ["200", "400", "404", "500"]

end RouteAtlas.Route
