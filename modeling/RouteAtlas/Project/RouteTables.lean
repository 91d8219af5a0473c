import RouteAtlas.Failure
import RouteAtlas.Project.Gathering

/-!
# Route tables of Strapi

The scripts that lie directly in a folder `routes` of a folder `server`, found below a few search
roots. Hidden folders and installed packages are not searched, and neither is a folder of tables itself.
-/

namespace RouteAtlas.RouteTables

def searchRoots : List Text := ["packages", "src/api", "api", "server/routes", "src/routes"]

/-- A folder of this name inside `parent` holds tables. -/
def holdsTables (parent : Path) (name : Text) : Bool :=
  name == ("routes" : Text) && parent.name == ("server" : Text)

def isSearched (name : Text) : Bool := name.head? != some '.' && name != ("node_modules" : Text)

def tablesIn (t : Tree) (folder : Path) : Except Failure (List Path) := do
  let names ← ((t.names folder).filterM fun name =>
    let item := folder.below ⟨[], [name]⟩
    Failure.on item (t.testEntry item Entry.isFile))
  return (names.filter Traits.isScript).map fun name => folder.below ⟨[], [name]⟩

mutual

/-- The tables below a folder at a path. `onLink` gives those behind a link. -/
def below (t : Tree) (onLink : Path → Place → Text → Except Failure (List Path)) (folder : Path)
    (place : Place) : Entry → Except Failure (List Path)
  | .folder es => belowAll t onLink folder place es
  | _ => .ok []

def belowAll (t : Tree) (onLink : Path → Place → Text → Except Failure (List Path))
    (folder : Path) (place : Place) : List (Text × Entry) → Except Failure (List Path)
  | [] => .ok []
  | (name, e) :: rest => do
    let inner := folder.below ⟨[], [name]⟩
    let here ← match e with
      | .folder _ =>
        if holdsTables folder name then tablesIn t inner
        else if isSearched name then below t onLink inner (place ++ [name]) e
        else .ok []
      | .link _ => onLink folder place name
      | .file _ => .ok []
    return here ++ (← belowAll t onLink folder place rest)

end

/-- The tables behind the link of a name in a folder; `enter` gives those below a folder that it leads to.
A link to nothing has none, one that leads astray is a failure. -/
def behindLink (t : Tree) (links : Nat)
    (enter : Nat → Path → Place → Entry → Except Failure (List Path)) (folder : Path) (place : Place)
    (name : Text) : Except Failure (List Path) :=
  let inner := folder.below ⟨[], [name]⟩
  match t.top.follow false links place [name] with
  | .ok (.entry place' e links') =>
    if !e.isFolder then .ok []
    else if holdsTables folder name then tablesIn t inner
    else if isSearched name then enter links' inner place' e
    else .ok []
  | .ok (.vacant _) | .error .missing => .ok []
  | .error f => .error (.file f inner.text)

/-- The tables below a folder that was reached with `links` links left; `depth` bounds how many links to
folders lie inside one another. -/
def belowFrom (t : Tree) : Nat → Nat → Path → Place → Entry → Except Failure (List Path)
  | 0, links => below t (behindLink t links fun _ _ _ _ => .ok [])
  | depth + 1, links => below t (behindLink t links (belowFrom t depth))

def search (t : Tree) (folder : Path) : Except Failure (List Path) :=
  match t.arrive false folder with
  | .ok (.entry place e links) => belowFrom t links links folder place e
  | .error .nameTooLong => .error (.file .nameTooLong folder.text)
  | _ => .ok []

def find (t : Tree) (root : Path) : Except Failure (List Text) := do
  let found ← searchRoots.mapM fun name => search t (root.sub name)
  return found.flatten.map (·.relativeText root)

end RouteAtlas.RouteTables
