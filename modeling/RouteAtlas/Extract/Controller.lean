import RouteAtlas.Extract.MinimalApi

/-!
# Controllers

Actions of an ASP.NET Core controller. An action with a verb attribute takes its route from it; the
other public actions are routed by their name. `balanced` is the parameter list of an action.
-/

namespace RouteAtlas.Extract

open Scanner Route

/-! ### Reading a controller -/

/-- The text up to the parenthesis that closes the `depth` ones open, or all of it. -/
def balancedGo : Nat → Text → Text
  | _, [] => []
  | depth, c :: cs =>
    if c = '(' then c :: balancedGo (depth + 1) cs
    else if c = ')' then if depth ≤ 1 then [c] else c :: balancedGo (depth - 1) cs
    else c :: balancedGo depth cs

/-- The shortest beginning of a text, which starts with a parenthesis, that closes as many
parentheses as it opens, or the whole text if there is none. -/
def balanced (t : Text) : Text := balancedGo 0 t

/-- `[Route("prefix")]`. -/
def routeAttribute : Scanner Text := do
  literal "[Route"
  let _ ← blanks
  literal "("
  let path ← argument
  let _ ← blanks
  literal ")]"
  return path

/-- Reads with `s` at this place, or at the first later one that `s` fits before a character of the
class `stop` has been passed. -/
def fromPlace {α : Type} (s : Scanner α) (stop : Char → Bool) : Option Char → Text →
    Option (α × Cursor)
  | b, [] => s ⟨b, []⟩
  | b, x :: xs => (s ⟨b, x :: xs⟩).or (if stop x then none else fromPlace s stop (some x) xs)

/-- Reads with `s` at this place or at the start of the first of the next `lines` lines that it
fits. -/
def fromLine {α : Type} (s : Scanner α) : Nat → Scanner α
  | 0 => s
  | lines + 1 => fun c => (s c).or <|
    match c.rest.dropWhile (· ≠ '\n') with
    | _ :: rest => fromLine s lines ⟨some '\n', rest⟩
    | [] => none

/-- A blank, a name, and the place of the parenthesis that opens the parameter list. -/
def memberName : Scanner (Text × Text) := do
  let _ ← one Text.isBlank
  let name ← run1 Text.isWord
  let _ ← blanks
  let place ← get
  literal "("
  return (name, place.rest)

/-- A public member: its name and the text from its parameter list on. The name is the last word
before the first parenthesis of the line; a type must stand before it, except that two blanks after
`public` may take its place. -/
def publicMember : Scanner (Text × Text) := do
  let _ ← run fun c => c == ' ' || c == '\t'
  literal "public"
  let gap ← blanks1
  fun c =>
    (fromPlace memberName (fun x => x == '\n' || x == '(') c.before c.rest).or <|
      match gap.reverse with
      | last :: _ :: _ => memberName ⟨none, last :: c.rest⟩
      | _ => none

def attributeTemplate : Scanner Text := do
  let _ ← blanks
  literal "("
  let template ← argument
  let _ ← blanks
  literal ")"
  return template

/-- An action of a controller: its method, its own template, its name and its parameter list. -/
structure Action where
  method : Text
  template : Text
  name : Text
  signature : Text
deriving DecidableEq, Repr

/-- `[HttpMethod]` or `[HttpMethod("template")]`, and the next public member, which may stand any
number of lines further down. -/
def attributed : Scanner Action := do
  literal "[Http"
  let method ← oneOf pascalMethods
  let template ← option attributeTemplate
  literal "]"
  let (name, rest) ← fun c => fromLine publicMember (c.rest.count '\n') c
  return ⟨Text.lower method, template.getD [], name, balanced rest⟩

/-- A public member whose type is that of an action: its name and its parameter list up to the first
closing parenthesis. -/
def conventional : Scanner (Text × Text) := do
  literal "public"
  let _ ← blanks1
  let _ ← option do
    literal "async"
    let _ ← blanks1
    literal "Task<"
  let _ ← oneOf ["IActionResult", "ActionResult", "ViewResult", "JsonResult", "string"]
  let _ ← option (literal ">")
  let _ ← blanks1
  let name ← run1 Text.isWord
  let _ ← blanks
  literal "("
  let parameters ← run fun c => c != ')'
  literal ")"
  return (name, '(' :: parameters ++ [')'])

def queryAttribute : Scanner Text := do
  literal "[FromQuery"
  let _ ← run fun c => c != ']'
  literal "]"
  let _ ← blanks
  let _ ← run1 fun c => Text.isWord c || (("<>[],?." : Text).contains c)
  let _ ← blanks1
  run1 Text.isWord

def bodyAttribute : Scanner Unit := do
  literal "[FromBody"
  let _ ← run fun c => c != ']'
  literal "]"

/-! ### The routes of its actions -/

def withoutSlashes (t : Text) : Text := Text.trim (· == '/') t

def joined (controllerRoute actionRoute : Text) : Text :=
  match controllerRoute, actionRoute with
  | [], [] => "/"
  | [], action => action
  | controller, [] => controller
  | controller, action => '/' :: withoutSlashes controller ++ '/' :: withoutSlashes action

/-- The name of a controller: that of its file, without the word `Controller`, in lower case. -/
def controllerName (file : Text) : Text :=
  let name := Tree.baseName (Text.swap '\\' '/' file)
  let name := (Text.before? ".cs" name).getD name
  Text.lower (Text.replaceFirst "Controller" [] name)

def actionPath (controller controllerRoute : Text) (a : Action) : Text :=
  let path := Text.replace "[action]" (Text.lower a.name)
    (Text.replace "[controller]" controller (joined controllerRoute a.template))
  rooted <|
    if path = [] ∨ path = "/" then
      '/' :: controller ++ '/' :: if a.template = [] then Text.lower a.name else a.template
    else path

def ofAction (file controllerRoute : Text) (a : Action) : Declaration :=
  let path := actionPath (controllerName file) controllerRoute a
  { method := a.method
    path
    source := file
    parameters := Parameter.allInPath (braced.findAll path)
      ++ (queryAttribute.findAll a.signature).map (Parameter.inQuery ·)
      ++ if methodsWithBody.contains a.method && bodyAttribute.occursIn a.signature then [.body]
        else []
    description := some ("Action: " ++ a.name)
    responses := Responses.ofRouters }

/-- The members among `found` that are actions by convention, the first of each name that is not in
`seen`. -/
def conventionalActions (seen : List Text) : List (Text × Text) → List Action
  | [] => []
  | (name, signature) :: more =>
    if seen.contains name || name.head? = some '_' || name = "Dispose" then
      conventionalActions seen more
    else ⟨"get", Text.lower name, name, signature⟩ :: conventionalActions (name :: seen) more

/-- The actions of a controller: those with a verb attribute, then those routed by their name. -/
def actions (text : Text) : List Action :=
  let routed := attributed.findAll text
  routed ++ conventionalActions (routed.map Action.name) (conventional.findAll text)

def controller : Extractor where
  name := "controller"
  extract file text := (actions text).map (ofAction file ((routeAttribute.find? text).getD []))

end RouteAtlas.Extract
