import RouteAtlas.Tree.Path

/-!
# Trees of files

A tree holds files, folders and symbolic links. A folder keeps its entries in order of their names.
`follow` leads from a folder along segments, through at most as many links as are left;
`lookup_setEntry_self` and `lookup_setEntry_of_ne` say which entries a folder has after a change.
-/

namespace RouteAtlas

abbrev Bytes := List UInt8

/-- What a name in a folder stands for. -/
inductive Entry where
  | file (content : Bytes)
  | link (target : Text)
  | folder (entries : List (Text × Entry))

/-- A place in a tree: the segments from the top, none of which is a link. -/
abbrev Place := List Text

inductive Fault where
  | missing
  | present
  | notFolder
  | isFolder
  | nameTooLong
  | tooManyLinks
  /-- The path holds a null character, which no name may hold. -/
  | nullCharacter
deriving DecidableEq, Repr

namespace Entry

def isFolder : Entry → Bool
  | folder _ => true
  | _ => false

def isFile : Entry → Bool
  | file _ => true
  | _ => false

def isLink : Entry → Bool
  | link _ => true
  | _ => false

/-- The entries of a folder, none for others. -/
def entries : Entry → List (Text × Entry)
  | folder es => es
  | _ => []

def child? (e : Entry) (name : Text) : Option Entry := e.entries.lookup name

def get? : Entry → Place → Option Entry
  | e, [] => some e
  | e, name :: rest => (e.child? name).bind (·.get? rest)

/-- A list of entries in order of names with the entry of one name set or removed. -/
def setEntry (name : Text) (new : Option Entry) : List (Text × Entry) → List (Text × Entry)
  | [] => (new.map (name, ·)).toList
  | (n, e) :: rest =>
    if name = n then (new.map (name, ·)).toList ++ rest
    else if name < n then (new.map (name, ·)).toList ++ (n, e) :: rest
    else (n, e) :: setEntry name new rest

theorem lookup_setEntry_self (name : Text) (e : Entry) (es : List (Text × Entry)) :
    (setEntry name (some e) es).lookup name = some e := by
  induction es with
  | nil => simp [setEntry]
  | cons p rest ih =>
    obtain ⟨n, old⟩ := p
    by_cases h : name = n
    · simp [setEntry, h]
    · by_cases hlt : name < n
      · simp [setEntry, h, hlt]
      · have hb : (name == n) = false := by simpa using h
        simp [setEntry, h, hlt, List.lookup_cons, hb, ih]

theorem lookup_setEntry_of_ne {name other : Text} (h : other ≠ name) (new : Option Entry)
    (es : List (Text × Entry)) : (setEntry name new es).lookup other = es.lookup other := by
  have hb : (other == name) = false := by simpa using h
  induction es with
  | nil => cases new <;> simp [setEntry, List.lookup_cons, hb]
  | cons p rest ih =>
    obtain ⟨n, old⟩ := p
    rw [setEntry]
    split
    · rename_i hn
      subst hn
      cases new <;> simp [List.lookup_cons, hb]
    · split
      · cases new <;> simp [List.lookup_cons, hb]
      · simp [List.lookup_cons, ih]
/-- The tree with the entry at a place changed. Nothing happens where the folder of the place does
not exist. -/
def alter (change : Option Entry → Option Entry) : Place → Entry → Entry
  | [], e => (change (some e)).getD e
  | [name], e =>
    match e with
    | folder es => folder (setEntry name (change (es.lookup name)) es)
    | e => e
  | name :: rest, e =>
    match e with
    | folder es =>
      match es.lookup name with
      | some inner => folder (setEntry name (some (alter change rest inner)) es)
      | none => folder es
    | e => e

end Entry

/-! ### Following paths -/

/-- Where a path leads. -/
inductive Arrival where
  /-- To an entry that is no link, with the number of links that could still be followed. -/
  | entry (place : Place) (e : Entry) (links : Nat)
  /-- To a free name in a folder. -/
  | vacant (place : Place)

def longestName : Nat := 255

def isTooLong (name : Text) : Bool :=
  decide (longestName < name.foldr (fun c bytes => c.utf8Size + bytes) 0)

/-- The segments of the target of a link. A slash at the end counts as an empty segment, which asks
for a folder. -/
def targetSegments (target : Text) : List Text :=
  (Text.split '/' target).filter (· ≠ []) ++ if Text.endsWith "/" target then [[]] else []

namespace Entry

/-- Follows segments from a place; `onLink` goes on behind a link. Where a file is to be made
(`making`), a last name that asks for a folder is refused unseen. -/
def followSegments (top : Entry) (making : Bool) (links : Nat)
    (onLink : Place → List Text → Except Fault Arrival) :
    Place → List Text → Except Fault Arrival
  | place, [] =>
    match top.get? place with
    | some e => .ok (.entry place e links)
    | none => .error .missing
  | place, name :: rest =>
    match top.get? place with
    | none => .error .missing
    | some here =>
      if !here.isFolder then .error .notFolder
      else if name = [] ∨ name = ['.'] then followSegments top making links onLink place rest
      else if name = ['.', '.'] then followSegments top making links onLink place.dropLast rest
      else if making ∧ rest = [[]] then .error .isFolder
      else if isTooLong name then .error .nameTooLong
      else
        match here.child? name with
        | none => if rest = [] then .ok (.vacant (place ++ [name])) else .error .missing
        | some (link target) =>
          onLink (if Path.rootOf target = [] then place else [])
            (targetSegments target ++ rest)
        | some _ => followSegments top making links onLink (place ++ [name]) rest

/-- Follows segments from a place through at most `links` links. -/
def follow (top : Entry) (making : Bool) : Nat → Place → List Text → Except Fault Arrival
  | 0 => followSegments top making 0 fun _ _ => .error .tooManyLinks
  | links + 1 => followSegments top making (links + 1) (follow top making links)

mutual

/-- The number of links at or below an entry. -/
def linkCount : Entry → Nat
  | file _ => 0
  | link _ => 1
  | folder es => linkCountIn es

def linkCountIn : List (Text × Entry) → Nat
  | [] => 0
  | (_, e) :: rest => e.linkCount + linkCountIn rest

end

end Entry

/-- A tree seen from one of its folders. -/
structure Tree where
  top : Entry
  here : Place

namespace Tree

def mostLinks : Nat := 40

def origin (t : Tree) (p : Path) : Place := if p.root = [] then t.here else []

def hasNull (p : Path) : Bool := p.segments.any (·.contains '\x00')

/-- Where a path leads, for looking there or for making a file. -/
def arrive (t : Tree) (making : Bool) (p : Path) : Except Fault Arrival :=
  if hasNull p then .error .nullCharacter
  else t.top.follow making mostLinks (t.origin p) p.segments

/-- The entry that a path leads to, and its place. -/
def find (t : Tree) (p : Path) : Except Fault (Place × Entry) :=
  match t.arrive false p with
  | .ok (.entry place e _) => .ok (place, e)
  | .ok (.vacant _) => .error .missing
  | .error f => .error f

/-- The entry that a path leads to has a property. A path that leads nowhere does not; only a name
that is too long is a failure. -/
def test (t : Tree) (p : Path) (property : Entry → Bool) : Except Fault Bool :=
  match t.find p with
  | .ok (_, e) => .ok (property e)
  | .error .nameTooLong => .error .nameTooLong
  | .error _ => .ok false

def has (t : Tree) (p : Path) : Except Fault Bool := t.test p fun _ => true

def isFolder (t : Tree) (p : Path) : Except Fault Bool := t.test p Entry.isFolder

def isFile (t : Tree) (p : Path) : Except Fault Bool := t.test p Entry.isFile

/-- The names in a folder, in order; none where the folder cannot be listed. -/
def names (t : Tree) (p : Path) : List Text :=
  match t.find p with
  | .ok (_, e) => e.entries.map Prod.fst
  | .error _ => []

/-- The entry of a listed name has a property, seen through links. A link to nothing has none; one
that leads astray is a failure. -/
def testEntry (t : Tree) (p : Path) (property : Entry → Bool) : Except Fault Bool :=
  match t.find p with
  | .ok (_, e) => .ok (property e)
  | .error .missing => .ok false
  | .error f => .error f

def read (t : Tree) (p : Path) : Except Fault Bytes :=
  match t.find p with
  | .ok (_, .file content) => .ok content
  | .ok _ => .error .isFolder
  | .error f => .error f

/-! ### Paths without links -/

/-- Resolves segments from a place that need not exist. `active` holds the links that are being
resolved, and `enter` resolves the target of one more. Gives the segments of the result, and whether
no link led back to itself. -/
def resolveSegments (top : Entry) (enter : List Place → Place → List Text → Place × Bool)
    (active : List Place) : Place → List Text → Place × Bool
  | place, [] => (place, true)
  | place, name :: rest =>
    if name = ['.', '.'] then resolveSegments top enter active place.dropLast rest
    else
      let inner := place ++ [name]
      match top.get? inner with
      | some (.link target) =>
        if active.contains inner then (inner ++ rest, false)
        else
          let (found, ok) := enter (inner :: active)
            (if Path.rootOf target = [] then place else []) (Path.segmentsOf target)
          if ok then resolveSegments top enter active found rest else (found ++ rest, false)
      | _ => resolveSegments top enter active inner rest

/-- Resolves segments through at most `depth` links inside one another. -/
def resolveWithin (top : Entry) : Nat → List Place → Place → List Text → Place × Bool
  | 0 => resolveSegments top fun _ place rest => (place ++ rest, false)
  | depth + 1 => resolveSegments top (resolveWithin top depth)

/-- The path from the top without links and without `..`. A link that leads back to itself ends the
resolution, and so does every path through it. -/
def resolve (t : Tree) (p : Path) : Place :=
  Path.normalize (resolveWithin t.top t.top.linkCount [] (t.origin p) p.segments).1

end Tree
end RouteAtlas
