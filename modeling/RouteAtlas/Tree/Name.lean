import RouteAtlas.Text.Basic

/-!
# Names and relative paths

Small operations on relative paths as patterns and routes see them: texts with segments between
slashes.
-/

namespace RouteAtlas.Tree

def withoutDots : Text → Text
  | '.' :: '/' :: rest => withoutDots rest
  | path => path

/-- Slashes for backslashes, and no `./` at the front. -/
def plain (path : Text) : Text := withoutDots (Text.swap '\\' '/' path)

def baseName (path : Text) : Text := (path.reverse.takeWhile (· ≠ '/')).reverse

end RouteAtlas.Tree
