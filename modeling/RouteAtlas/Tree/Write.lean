import RouteAtlas.Tree.Basic

/-!
# Writing to a tree

Making folders and writing files. What has been done before a failure stays done, so every
operation gives the tree after it also where it fails.
-/

namespace RouteAtlas.Tree

/-- The tree with an entry put at a place, or taken away. -/
def set (t : Tree) (place : Place) (e : Option Entry) : Tree :=
  { t with top := t.top.alter (fun _ => e) place }

def makeFolder (t : Tree) (p : Path) : Except Fault Tree :=
  if hasNull p then .error .nullCharacter
  else
    match t.find p.parent with
    | .error f => .error f
    | .ok (place, e) =>
      if !e.isFolder then .error .notFolder
      else if p.segments = [] ∨ p.name = ['.', '.'] then .error .present
      else if isTooLong p.name then .error .nameTooLong
      else if (e.child? p.name).isSome then .error .present
      else .ok (t.set (place ++ [p.name]) (some (.folder [])))

/-- A folder that is there already is as good as one just made. -/
def acceptPresent (t : Tree) (p : Path) (f : Fault) : Tree × Option (Fault × Path) :=
  if f = .nullCharacter then (t, some (f, p))
  else
    match t.isFolder p with
    | .ok true => (t, none)
    | .ok false => (t, some (f, p))
    | .error f => (t, some (f, p))

/-- Makes a folder and the folders above it that are missing; `fuel` bounds their number. Gives the
failure and the path that it concerns. -/
def makeFoldersGo : Nat → Tree → Path → Tree × Option (Fault × Path)
  | fuel, t, p =>
    match t.makeFolder p with
    | .ok t => (t, none)
    | .error .missing =>
      match fuel with
      | 0 => (t, some (.missing, p))
      | fuel + 1 =>
        match makeFoldersGo fuel t p.parent with
        | (t, some failure) => (t, some failure)
        | (t, none) =>
          match t.makeFolder p with
          | .ok t => (t, none)
          | .error .missing => (t, some (.missing, p))
          | .error f => t.acceptPresent p f
    | .error f => t.acceptPresent p f

def makeFolders (t : Tree) (p : Path) : Tree × Option (Fault × Path) :=
  makeFoldersGo p.segments.length t p

/-- Changes the content of the file that a path leads to, which is made if it is missing. -/
def modify (t : Tree) (p : Path) (change : Bytes → Bytes) : Except Fault Tree :=
  match t.arrive true p with
  | .ok (.entry place (.file content) _) => .ok (t.set place (some (.file (change content))))
  | .ok (.entry ..) => .error .isFolder
  | .ok (.vacant place) => .ok (t.set place (some (.file (change []))))
  | .error f => .error f

def write (t : Tree) (p : Path) (content : Bytes) : Except Fault Tree :=
  t.modify p fun _ => content

def append (t : Tree) (p : Path) (content : Bytes) : Except Fault Tree :=
  t.modify p (· ++ content)

end RouteAtlas.Tree
