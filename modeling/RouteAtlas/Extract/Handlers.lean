import RouteAtlas.Extract.Basic
import RouteAtlas.Text.Case

/-!
# Exported handlers

A file exports one function for each request method that it answers; its location is the route.
-/

namespace RouteAtlas.Extract

open Scanner Route

/-- The characters that count as the lower-case letter `letter` when case is ignored. -/
def sameLetter (letter c : Char) : Bool :=
  c == letter || Text.lowerChar c == [letter]
    || (letter == 's' && c == 'ſ') || (letter == 'i' && (c == 'ı' || c == 'İ'))

/-- A word written in letters of any case; `word` is in lower case. -/
def anyCase : Text → Scanner Unit
  | [] => pure ()
  | letter :: word => do
    let _ ← one (sameLetter letter)
    anyCase word

/-- `export async function METHOD`, the method a whole word. -/
def exported (method : Text) : Scanner Unit := do
  anyCase "export"
  let _ ← blanks1
  anyCase "async"
  let _ ← blanks1
  anyCase "function"
  let _ ← blanks1
  anyCase method
  boundary

/-- `searchParams.get('name')`, in quotation marks of any kind. -/
def searchQuery : Scanner Text := do
  literal "searchParams.get("
  let _ ← blanks
  let name ← quoted fun c => isQuote c || c == '\x60'
  let _ ← blanks
  literal ")"
  if name = [] then failure else return name

/-- The parameters that the handlers of a file read: the search parameters, required where the text
tests their absence, and the body. -/
def handlerParameters (text : Text) : List Parameter :=
  Parameter.distinct (searchQuery.findAll text |>.map fun name =>
    Parameter.inQuery name (Text.holds ('!' :: name) text))
  ++ if Text.holds "request.json()" text || Text.holds "req.body" text then [.body] else []

def handlers : Extractor where
  name := "file-handler"
  extract file text :=
    (methods.filter fun method => (exported method).occursIn text).map fun method => {
      method
      path := []
      source := file
      parameters := handlerParameters text
      anchor := .file
      summary := some (Text.upper method ++ " operation")
      responses := Responses.ofHandlers }

end RouteAtlas.Extract
