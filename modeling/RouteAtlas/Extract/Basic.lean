import RouteAtlas.Route.Declaration

/-!
# Extractors

An extractor reads the routes that a file declares in one notation.
-/

namespace RouteAtlas

/-- A notation for routes: its name and what it reads from the text of the file at a path. -/
structure Extractor where
  name : Text
  extract : (file text : Text) → List Route.Declaration

namespace Extract

def methods : List Text := ["get", "post", "put", "delete", "patch"]

def methodsWithBody : List Text := ["post", "put", "patch"]

def isQuote (c : Char) : Bool := c == '\'' || c == '"'

/-- A text between quotation marks that holds none, with blanks around allowed before it. -/
def argument : Scanner Text := do
  let _ ← Scanner.blanks
  Scanner.quoted isQuote

end Extract
end RouteAtlas
