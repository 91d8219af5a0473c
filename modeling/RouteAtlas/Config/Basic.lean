import RouteAtlas.Workspace
import RouteAtlas.Decimal.Reading
import RouteAtlas.Decimal.Shortest
import RouteAtlas.Yaml.Value

/-!
# Configurations

What a project may say about its document and its survey in a configuration file. `ofYaml` reads a
configuration from a value of YAML, `load` from the file that belongs to a path.
-/

namespace RouteAtlas

structure Config where
  root : Path
  title : Option Text := none
  description : Option Text := none
  version : Option Text := none
  host : Option Text := none
  scheme : Option Text := none
  basePath : Option Text := none
  excluded : List Text := []
  workers : Nat := 1
deriving DecidableEq, Repr

namespace Config

open Yaml

/-! ### Values as settings -/

def integerText (n : Int) : Except Failure Text :=
  match Decimal.integerText? n with
  | some t => .ok t
  | none => .error .longInteger

/-- A string or number as a text. Other values give none. -/
def asText : Option Value → Except Failure (Option Text)
  | some (.scalar (.string t)) => .ok (some t)
  | some (.scalar (.integer n)) => (integerText n).map some
  | some (.scalar (.float x)) => .ok (some (Decimal.floatText x))
  | _ => .ok none

/-- An integer, also one that is written in a string. -/
def asInteger : Option Value → Option Int
  | some (.scalar (.integer n)) => some n
  | some (.scalar (.string t)) => (Decimal.readInteger 10 t).toOption
  | _ => none

/-- An item of a list of texts: a string, a number or a truth value. -/
def asItem : Value → Except Failure (Option Text)
  | .scalar (.bool b) => .ok (some (if b then "True" else "False"))
  | v => asText (some v)

/-- A list of texts: a single string, the items of a list, or the bytes of binary data as numbers. -/
def asTexts (l : Loaded) : Option Value → Except Failure (List Text)
  | some (.scalar (.string t)) => .ok [t]
  | some (.scalar (.bytes b)) => .ok (b.map fun x => Decimal.natText x.toNat)
  | some (.list items) => do
    let texts ← items.mapM fun item => asItem (l.value item)
    return texts.filterMap id
  | _ => .ok []

/-! ### Reading -/

/-- The value of a key in a section of a mapping, if there is such a section. -/
def inSection (l : Loaded) (whole : Value) (name key : Text) : Option Value :=
  (l.member? whole name).bind fun v => l.member? v key

/-- The settings of a mapping `whole` in the values of a text. -/
def ofMapping (root : Path) (l : Loaded) (whole : Value) : Except Failure Config := do
  let title ← asText (inSection l whole "info" "title")
  let description ← asText (inSection l whole "info" "description")
  let version ← asText (inSection l whole "info" "version")
  let host ← asText (inSection l whole "server" "host")
  let scheme ← asText (inSection l whole "server" "scheme")
  let basePath ← asText (inSection l whole "server" "base_path")
  let workers := asInteger (l.member? whole "workers")
  if workers.any (· < 1) then throw (.config .workers)
  let excluded ← asTexts l (l.member? whole "exclude_paths")
  let workers := (workers.getD 1).toNat
  return { root, title, description, version, host, scheme, basePath, excluded, workers }

/-- The settings in the values of a text. A value that counts as nothing gives the defaults. -/
def ofYaml (root : Path) (l : Loaded) : Except Failure Config :=
  if l.whole.isBlank then ofMapping root l (.mapping [])
  else
    match l.whole with
    | .mapping pairs => ofMapping root l (.mapping pairs)
    | _ => .error (.config .notMapping)

def ofText (root : Path) (name text : Text) : Except Failure Config :=
  if Text.strip text = [] then .ok { root }
  else
    match Yaml.load text with
    | .ok l => ofYaml root l
    | .error .malformed => .error (.config (.unreadable name))
    | .error f => .error (.yaml f)

def ofBytes (root : Path) (name : Text) (content : Bytes) : Except Failure Config :=
  match Text.ofUtf8 content with
  | .ok text => ofText root name (Text.plainLines text)
  | .error f => .error (.encoding f)

/-- The configuration file that belongs to a path: inside a folder, beside any other file. -/
def fileFor (w : Workspace) (p : Path) : Except Failure Path := do
  let p ← w.expand p
  if ← Failure.on p (w.tree.isFolder p) then w.resolve (p.sub configName)
  else if p.name ≠ configName then w.resolve (p.parent.sub configName)
  else w.resolve p

/-- The settings that belong to a path. A missing file gives the defaults. -/
def load (w : Workspace) (p : Path) : Except Failure Config := do
  let file ← fileFor w p
  let root ← w.resolve file.parent
  if !(← Failure.on file (w.tree.has file)) then return { root }
  ofBytes root file.name (← Failure.on file (w.tree.read file))

end Config
end RouteAtlas
