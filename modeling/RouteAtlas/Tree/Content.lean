import RouteAtlas.Tree.Basic
import RouteAtlas.Text.Utf8
import RouteAtlas.Json.Reading

/-!
# Content of files

The content of a file as text or as the members of a JSON object.
-/

namespace RouteAtlas.Tree

/-- The text of a file. Ill-formed bytes are left out. -/
def readLossy (t : Tree) (p : Path) : Except Fault Text :=
  (t.read p).map fun content => Text.plainLines (Text.ofUtf8Lossy content)

def jsonOf? (content : Bytes) : Option Json :=
  match Text.ofUtf8 (Text.withoutMark content) with
  | .ok text => Json.parse? (Text.plainLines text)
  | .error _ => none

/-- The JSON object in a file. Anything else, a missing file included, counts as an empty object. -/
def readObject (t : Tree) (p : Path) : Except Fault Json := do
  if ← t.isFile p then
    match (t.read p).toOption.bind jsonOf? with
    | some (.object members) => return .object members
    | _ => return .object []
  else return .object []

end RouteAtlas.Tree
