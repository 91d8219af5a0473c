import RouteAtlas.CommandLine.Outcome
import Std.Time.Zoned

/-!
# The program

Reads the part of the file system that a call is about, runs the call on it, and then makes the changes
that the call has made to its tree.
-/

namespace RouteAtlas.Program

def entryAt (place : Place) : IO.FS.DirEntry :=
  ⟨String.ofList (Path.absolute place.dropLast).text, String.ofList (place.getLast?.getD [])⟩

/-- The target of links that lead nowhere. -/
def nowhere : Text := "/\x01"

def targetOf (e : IO.FS.DirEntry) : IO Text := do
  if ← e.path.pathExists then return (← IO.FS.realPath e.path).toString.toList else return nowhere

/-- Nothing in folders of this name is ever read but names. -/
def isBare (name : Text) : Bool := name = "node_modules" || name = ".git"

/-- Reads an entry with all that lies below it, and gives the targets of links found. In a bare folder
only names are read. -/
partial def readEntry (bare : Bool) (e : IO.FS.DirEntry) : IO (Entry × List Text) := do
  match (← e.path.symlinkMetadata).type with
  | .dir =>
    let below ← (← e.path.readDir).toList.mapM fun inner => do
      let name := inner.fileName.toList
      return (name, ← readEntry (bare || isBare name) inner)
    let sorted := below.mergeSort fun a b => !decide (b.1 < a.1)
    return (.folder (sorted.map fun (name, inner, _) => (name, inner)),
      sorted.flatMap fun (_, _, targets) => targets)
  | .symlink =>
    let target ← targetOf e
    return (.link target, [target])
  | .file =>
    if bare then return (.file [], [])
    else return (.file (← IO.FS.readBinFile e.path).toList, [])
  | .other => return (.file [], [])

/-- Adds to a tree what lies along a path from a place on; with `whole`, also all that lies below its
end. Gives the targets of links that are still to be added. -/
partial def chart (whole : Bool) (t : Tree) (place : Place) : List Text → IO (Tree × List Text)
  | [] => do
    if !whole || place = [] then return (t, [])
    let (e, targets) ← readEntry false (entryAt place)
    return (t.set place (some e), targets)
  | name :: rest => do
    if name = ['.', '.'] then chart whole t place.dropLast rest
    else
      let inner := place ++ [name]
      let e := entryAt inner
      let kind ← (some <$> e.path.symlinkMetadata) <|> pure none
      match kind.map IO.FS.Metadata.type with
      | none => return (t, [])
      | some .dir =>
        let t := if (t.top.get? inner).isSome then t else t.set inner (some (.folder []))
        chart whole t inner rest
      | some .symlink =>
        let target ← targetOf e
        chart whole (t.set inner (some (.link target))) [] (Path.segmentsOf target ++ rest)
      | some _ =>
        if rest ≠ [] then return (t, [])
        let (e, _) ← readEntry false e
        return (t.set inner (some e), [])

/-- Adds what lies along paths, and what the links found lead to. -/
partial def chartAll (t : Tree) : List (Bool × Path) → IO Tree
  | [] => return t
  | (whole, p) :: rest => do
    let (t, targets) ← chart whole t (t.origin p) p.segments
    let further := (targets.map Path.ofText).filter fun q => !((t.has q).toOption.getD false)
    chartAll t (further.map (true, ·) ++ rest)

/-- Makes the changes that lead from one tree to another. Nothing is ever taken away. -/
partial def apply (place : Place) (old : Option Entry) (new : Entry) : IO Unit := do
  match new with
  | .folder entries =>
    if old.isNone then IO.FS.createDir (entryAt place).path
    entries.forM fun (name, e) => apply (place ++ [name]) (old.bind (·.child? name)) e
  | .file content =>
    let same :=
      match old with
      | some (.file before) => before == content
      | _ => false
    if !same then IO.FS.writeBinFile (entryAt place).path ⟨content.toArray⟩
  | .link _ => return

def readEnvironment : IO (List (Text × Text)) := do
  let names := ["HOME", "API_TITLE", "API_DESCRIPTION", "API_VERSION", "API_HOST"]
  let found ← names.mapM fun name => do
    return (← IO.getEnv name).map fun value => (name.toList, value.toList)
  return found.filterMap id

def padded (width n : Nat) : Text :=
  let digits := Decimal.natText n
  List.replicate (width - digits.length) '0' ++ digits

def readClock : IO (Text × Text) := do
  let now ← Std.Time.PlainDateTime.now
  let day := Text.join "-" [padded 4 now.date.year.toNat, padded 2 now.date.month.val.toNat,
    padded 2 now.date.day.val.toNat]
  let time := Text.join ":" [padded 2 now.time.hour.val.toNat, padded 2 now.time.minute.val.toNat,
    padded 2 now.time.second.val.toNat]
  let milliseconds := padded 3 (now.time.nanosecond.val.toNat / 1000000)
  return (day, day ++ ' ' :: time ++ ',' :: milliseconds ++ [' '])

/-- The paths that a call is about; all that lies below the project counts. -/
def pathsOf (w : Workspace) (words : List Text) : List (Bool × Path) :=
  match CommandLine.read words with
  | .error _ => []
  | .ok o =>
    let named := (true, o.path) :: (o.output.toList ++ o.given.logFile.toList).map (false, ·)
    named.map fun (whole, text) =>
      let p := Path.ofText text
      (whole, (w.expand p).toOption.getD p)

def run (words : List Text) : IO UInt32 := do
  let environment ← readEnvironment
  let (today, stamp) ← readClock
  let here := Path.segmentsOf (← IO.FS.realPath (← IO.currentDir)).toString.toList
  let bare : Workspace := { tree := { top := .folder [], here }, environment, today }
  let tree ← chartAll bare.tree ((false, Path.absolute here) :: pathsOf bare words)
  let (result, s) := (CommandLine.call words).run { space := { bare with tree }, stamp }
  apply [] (some tree.top) s.space.tree.top
  match result with
  | .ok outcome =>
    IO.print (String.ofList outcome.output)
    IO.eprint (String.ofList outcome.errors)
    return outcome.exit.toUInt32
  | .error f =>
    IO.eprintln (String.ofList f.message)
    return 1

end RouteAtlas.Program

def main (words : List String) : IO UInt32 := RouteAtlas.Program.run (words.map String.toList)
