import RouteAtlas.Tree.Basic

/-!
# Walks

A walk lists the files below a folder, depth first and in order of the names. Hidden folders and
those of a skip list are not entered; links are followed.
-/

namespace RouteAtlas.Tree

structure Walk where
  skip : List Text := ["node_modules", "__pycache__"]
  depth : Option Int := none
  wanted : Text → Bool := fun _ => true

namespace Walk

def enters (w : Walk) (name : Text) : Bool := name.head? != some '.' && !w.skip.contains name

/-- The folders that may still lie between a folder one level down and a file. -/
def below (left : Option Int) : Option Int := left.map (· - 1)

def exhausted (left : Option Int) : Bool := left.any (· < 0)

mutual

/-- The files below an entry as segments from it; `onLink` lists those behind a link. -/
def filesOf (w : Walk) (onLink : Place → Text → Option Int → List (List Text)) (place : Place)
    (left : Option Int) : Entry → List (List Text)
  | .folder es => if exhausted left then [] else filesIn w onLink place left es
  | _ => []

def filesIn (w : Walk) (onLink : Place → Text → Option Int → List (List Text)) (place : Place)
    (left : Option Int) : List (Text × Entry) → List (List Text)
  | [] => []
  | (name, e) :: rest =>
    (match e with
      | .folder _ =>
        if w.enters name then
          (filesOf w onLink (place ++ [name]) (below left) e).map (name :: ·)
        else []
      | .link _ => onLink place name left
      | .file _ => if w.wanted name then [[name]] else [])
    ++ filesIn w onLink place left rest

end

/-- The files behind the link of a name in a folder; `enter` lists those below a folder that it leads
to. A link to nothing is listed like a file, one that leads astray is passed over. -/
def behindLink (w : Walk) (top : Entry) (links : Nat)
    (enter : Nat → Place → Option Int → Entry → List (List Text))
    (place : Place) (name : Text) (left : Option Int) : List (List Text) :=
  match top.follow false links place [name] with
  | .ok (.entry place' e links') =>
    if e.isFolder then
      if w.enters name then (enter links' place' (below left) e).map (name :: ·) else []
    else if w.wanted name then [[name]] else []
  | .ok (.vacant _) | .error .missing => if w.wanted name then [[name]] else []
  | .error _ => []

/-- The files below a folder that was reached with `links` links left; `depth` bounds how many links
to folders lie inside one another. -/
def filesFrom (w : Walk) (top : Entry) : Nat → Nat → Place → Option Int → Entry → List (List Text)
  | 0, links => w.filesOf (w.behindLink top links fun _ _ _ _ => [])
  | depth + 1, links => w.filesOf (w.behindLink top links (filesFrom w top depth))

end Walk

/-- The files below the folder that a path leads to, as segments from it. A path that leads nowhere has
none; only a name that is too long is a failure. -/
def files (t : Tree) (start : Path) (w : Walk) : Except Fault (List (List Text)) :=
  match t.arrive false start with
  | .ok (.entry place e links) => .ok (w.filesFrom t.top links links place w.depth e)
  | .error .nameTooLong => .error .nameTooLong
  | _ => .ok []

def relativeFiles (t : Tree) (base : Path) (folder : Text) (w : Walk) : Except Fault (List Text) :=
  let start := base.sub folder
  (t.files start w).map (List.map fun segments => (start.below ⟨[], segments⟩).relativeText base)

end RouteAtlas.Tree
