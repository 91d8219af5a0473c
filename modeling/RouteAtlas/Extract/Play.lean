import RouteAtlas.Extract.Django
import RouteAtlas.Text.Case

/-!
# Router cases

Cases `case GET(p"/path/$id" ? q"page=$page") => call` of a Play router.
-/

namespace RouteAtlas.Extract

open Scanner Route

/-- The opening of a query binding: a question mark or an ampersand, then `q"` or `q_o"`. -/
def bindingMark : Scanner Text := do
  let _ ← blanks
  let _ ← one fun c => c == '?' || c == '&'
  let _ ← blanks
  let kind ← oneOf ["q_o", "q"]
  literal "\""
  return kind

def bindingText : Scanner Text := do
  let kind ← bindingMark
  let body ← run fun c => c != '"'
  literal "\""
  return kind ++ '"' :: body ++ ['"']

/-- A case: its method, its path, the text of its query bindings and what it calls. -/
def routerCase : Scanner (Text × Text × Text × Text) := do
  literal "case"
  let _ ← blanks1
  let method ← oneOf ["GET", "POST", "PUT", "DELETE", "PATCH"]
  let _ ← blanks
  literal "("
  let _ ← blanks
  literal "p\""
  let path ← run1 fun c => c != '"'
  literal "\""
  let bindings ← repeated bindingText
  let _ ← blanks
  literal ")"
  let _ ← blanks
  literal "=>"
  let call ← lastBlankOr fun c => c != '\n'
  return (method, path, bindings.flatten, call)

/-- `q"name=$var"` or `q_o"name=$var"`: the kind and the name. -/
def queryBinding : Scanner (Text × Text) := do
  let kind ← oneOf ["q_o", "q"]
  literal "\""
  let name ← run1 fun c => c != '"' && c != '='
  literal "=$"
  let _ ← run fun c => c != '"'
  literal "\""
  return (kind, name)

def pathBinding : Scanner Text := do
  literal "$"
  identifier

/-- The route of a case. Bindings of the kind `q` must be given. -/
def ofCase (file : Text) : Text × Text × Text × Text → Declaration
  | (method, path, bindings, call) =>
    let path := rooted path
    { method := Text.lower method
      path
      source := file
      parameters := Parameter.allInPath (pathBinding.findAll path) ++
        (queryBinding.findAll bindings).map fun (kind, name) =>
          Parameter.inQuery name (kind = ("q" : Text))
      description := some ("Controller: " ++ Text.strip call)
      responses := Responses.ofTables }

def playRouter : Extractor where
  name := "play-router"
  extract file text := (routerCase.findAll text).map (ofCase file)

end RouteAtlas.Extract
