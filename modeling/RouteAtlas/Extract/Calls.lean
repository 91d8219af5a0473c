import RouteAtlas.Extract.Basic
import RouteAtlas.Text.Case

/-!
# Registering calls

Routes registered by calls such as `router.get('/path', …)` and `app.get('/path', …)`. A router's
paths lie below the base path of its file, those of an application are taken as they are.
-/

namespace RouteAtlas.Extract

open Scanner Route

/-- The path argument of a registering call: empty, or starting with a slash or a star. -/
def pathArgument : Scanner Text := do
  let path ← argument
  match path with
  | [] => return path
  | c :: _ => if c = '/' ∨ c = '*' then return path else failure

/-- `.method(` and a path argument. -/
def methodCall (method : Text) : Scanner Text := do
  literal ('.' :: method)
  let _ ← blanks
  literal "("
  pathArgument

/-- `app.method(` and a path argument. -/
def appCall (method : Text) : Scanner Text := do
  boundary
  literal "app"
  methodCall method

/-- `req.query.name`. -/
def queryRead : Scanner Text := do
  literal "req.query."
  identifier

/-- The parameters of a registered route: the `:name` parts of its path, then the names read from
the query that are not among them, then the body for the methods that carry one. -/
def callParameters (method path : Text) (queryNames : List Text) (hasBody : Bool) :
    List Parameter :=
  let inPath := Parameter.allInPath (colon.findAll path)
  inPath ++ Parameter.distinctFrom (inPath.map Parameter.name) (queryNames.map (Parameter.inQuery ·))
    ++ if hasBody && methodsWithBody.contains method then [.body] else []

/-- The routes of all calls that `call` reads, method by method. -/
def callsWith (call : Text → Scanner Text) (anchor : Anchor) (file text : Text) :
    List Declaration :=
  methods.flatMap fun method => ((call method).findAll text).map fun path => {
    method
    path
    source := file
    parameters :=
      callParameters method path (queryRead.findAll text) (Text.holds "req.body" text)
    anchor
    summary := some (Text.upper method ++ ' ' :: if path = [] then "/" else path)
    responses := Responses.ofRouters }

/-- Calls on any object, mounted below the base path of their file. -/
def routerCalls : Extractor where
  name := "router-calls"
  extract := callsWith methodCall .router

/-- Calls on an object named `app`, whose paths are taken as they are. -/
def appCalls : Extractor where
  name := "app-calls"
  extract := callsWith appCall .absolute

end RouteAtlas.Extract
