import RouteAtlas.Text.Scanner

/-!
# Path templates

A template is a route path in which every placeholder is written `{name}`. Each dialect has its own
placeholders; `unify` settles them one form after another, and `canonical` also settles the
slashes: one at the front, none at the end, never two in a row.
-/

namespace RouteAtlas.Route

open Scanner

def placeholder (name : Text) : Text := '{' :: name ++ ['}']

/-! ### One placeholder -/

/-- The name in a bracketed directory. A leading ellipsis is not part of it unless nothing else is
there. -/
def bracketName (body : Text) : Text :=
  match Text.after? "..." body with
  | some (c :: cs) => c :: cs
  | _ => body

/-- `[name]`, `[...name]` or `[[...name]]`, where one bracket may also meet two. -/
def bracketed : Scanner Text := do
  literal "["
  let _ ← option (literal "[")
  let body ← run1 fun c => c != '[' && c != ']' && c != '/'
  literal "]"
  let _ ← option (literal "]")
  return bracketName body

/-- `$name`, with a constraint in angle brackets if one follows. -/
def dollar : Scanner Text := do
  literal "$"
  let name ← identifier
  let _ ← option do
    literal "<"
    let _ ← run fun c => c != '>'
    literal ">"
  return name

/-- `<name>` or `<converter:name>`, for the converters that `convertible` admits. -/
def angled (convertible : Scanner Unit) : Scanner Text := do
  literal "<"
  let _ ← option do
    convertible
    literal ":"
  let name ← identifier
  literal ">"
  return name

/-- `{name}`, `{*name}` or `{**name}`, optional with `?`, constrained by what follows a colon. -/
def braced : Scanner Text := do
  literal "\x7b"
  let _ ← option (literal "*")
  let _ ← option (literal "*")
  let name ← identifier
  let _ ← option (literal "?")
  let _ ← option do
    literal ":"
    run fun c => c != '}'
  literal "\x7d"
  return name

/-- `:name`, not directly after a word character or an opening brace. -/
def colon : Scanner Text := do
  check fun c => !c.before.any fun x => Text.isWord x || x == '{'
  literal ":"
  identifier

/-- `(.*)` or `(.+)`. -/
def catchAll : Scanner Unit := do
  let _ ← oneOf ["(.*)", "(.+)"]

/-! ### Whole paths -/

def forms : List (Scanner Text) := [
  bracketed,
  dollar,
  angled (do let _ ← identifier),
  braced,
  (do
    let name ← colon
    let _ ← option (literal "?")
    return name),
  (do
    catchAll
    return "path")]

/-- The path with every placeholder written `{name}`. -/
def unify (path : Text) : Text :=
  forms.foldl (fun path form => (placeholder <$> form).substitute path) path

def squeeze : Text → Text
  | [] => []
  | c :: cs => if c = '/' ∧ cs.head? = some '/' then squeeze cs else c :: squeeze cs

def rooted (path : Text) : Text := if path.head? = some '/' then path else '/' :: path

/-- The path without one slash at the end, unless it is nothing but that slash. -/
def unclosed (path : Text) : Text :=
  if path.length > 1 then (Text.before? "/" path).getD path else path

/-- The template of a path: unified placeholders, one leading slash, no trailing slash. -/
def canonical (path : Text) : Text :=
  unclosed (squeeze (rooted (unify (Text.strip path))))

/-- A placeholder of a template: braces around a run without braces. -/
def bracedName : Scanner Text := do
  literal "\x7b"
  let name ← run1 fun c => c != '{' && c != '}'
  literal "\x7d"
  return name

/-- The names of a template's placeholders in order of occurrence, repetitions included. -/
def parameterNames (template : Text) : List Text := bracedName.findAll template

end RouteAtlas.Route
