import RouteAtlas.Failure

/-!
# Workspaces

What a run finds around it: a tree of files seen from a folder, the variables of its environment, and
the day. Paths are expanded from the home folder and resolved to paths without links.
-/

namespace RouteAtlas

/-- What a run finds around it. -/
structure Workspace where
  tree : Tree
  environment : List (Text × Text) := []
  today : Text

namespace Workspace

def valueOf? (w : Workspace) (name : Text) : Option Text := w.environment.lookup name

def home? (w : Workspace) : Option Path :=
  (w.valueOf? "HOME").bind fun home =>
    let home := (home.reverse.dropWhile (· == '/')).reverse
    if home.head? = some '~' then none else some (.ofText (if home = [] then "/" else home))

/-- A path with the home folder for a tilde that is its first segment. -/
def expand (w : Workspace) (p : Path) : Except Failure Path :=
  match p.root, p.segments with
  | [], ('~' :: user) :: rest =>
    match if user = [] then w.home? else none with
    | some home => .ok ⟨home.root, home.segments ++ rest⟩
    | none => .error .noHome
  | _, _ => .ok p

/-- The path from the top without links. The last part of it need not exist. -/
def resolve (w : Workspace) (p : Path) : Except Failure Path :=
  if Tree.hasNull p then .error (.file .nullCharacter p.text)
  else
    let found := Path.absolute (w.tree.resolve p)
    match w.tree.find found with
    | .error .tooManyLinks => .error (.linkLoop found.text)
    | _ => .ok found

/-- The path from the top that a path spells, in which links do not count. -/
def spelled (w : Workspace) (p : Path) : Path :=
  if p.root = [] then .absolute (Path.normalize (w.tree.here ++ p.segments))
  else ⟨p.root, Path.normalize p.segments⟩

/-- The folder of a project: the path from the top of an existing folder. -/
def projectRoot (w : Workspace) (path : Text) : Except Failure Path := do
  let root ← w.resolve (← w.expand (.ofText path))
  if !(← Failure.on root (w.tree.has root)) then throw (.projectMissing path)
  if !(← Failure.on root (w.tree.isFolder root)) then throw (.projectNotFolder path)
  return root

end Workspace
end RouteAtlas
