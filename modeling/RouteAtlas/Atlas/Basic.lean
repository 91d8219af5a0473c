import RouteAtlas.Route.Operation
import RouteAtlas.Log

/-!
# Atlases

An atlas maps templates to methods to operations. Contributions of single files are merged into it
method by method: the last write wins, an entry that is replaced keeps its place, and every
replacement is reported.
-/

namespace RouteAtlas

open Route

/-- Templates, their methods and the operations of these, in insertion order. -/
abbrev Atlas := OrderedMap Text (OrderedMap Text Operation)

/-- A template with a declared route that belongs there. -/
abbrev Placed := Text × Declaration

/-- An entry replaced by a later one, and where the later one comes from. -/
structure Override where
  method : Text
  template : Text
  origin : Text
deriving DecidableEq, Repr

def Override.record (o : Override) : Log.Record :=
  ⟨.debug, .aggregator, "Overriding " ++ Text.upper o.method ++ ' ' :: o.template ++ o.origin⟩

namespace Atlas

def endpoints (a : Atlas) : Nat := a.toList.foldr (fun (_, methods) n => methods.size + n) 0

def find? (a : Atlas) (template method : Text) : Option Operation :=
  (a.get? template).bind (·.get? method)

/-- Makes room for a template without writing an entry. -/
def withTemplate (a : Atlas) (template : Text) : Atlas :=
  if a.contains template then a else a.insert template .empty

def put (a : Atlas) (template method : Text) (operation : Operation) : Atlas :=
  a.insert template (((a.get? template).getD .empty).insert method operation)

/-- Writes an entry and reports whether it replaced one. -/
def record (origin : Text) (state : Atlas × List Override) (template method : Text)
    (operation : Operation) : Atlas × List Override :=
  (state.1.put template method operation,
    if (state.1.find? template method).isSome then state.2 ++ [⟨method, template, origin⟩]
    else state.2)

def addAll (state : Atlas × List Override) (placed : List Placed) : Atlas × List Override :=
  placed.foldl (fun state (template, d) =>
    record (" within " ++ d.source) state template d.method (.ofDeclaration d template)) state

/-- The contribution of the routes of one file, and the entries that a later route of the file
replaced. -/
def ofPlaced (placed : List Placed) : Atlas × List Override := addAll (.empty, []) placed

def mergeMethods (origin : Text) (state : Atlas × List Override)
    (entry : Text × OrderedMap Text Operation) : Atlas × List Override :=
  entry.2.toList.foldl (fun state (method, operation) =>
    record origin state entry.1 method operation) (state.1.withTemplate entry.1, state.2)

/-- A contribution merged into an atlas, and the entries that it replaced. -/
def merge (into contribution : Atlas) (source : Option Text) : Atlas × List Override :=
  let origin : Text :=
    match source with
    | some (c :: cs) => " from " ++ c :: cs
    | _ => []
  contribution.toList.foldl (mergeMethods origin) (into, [])

end Atlas

/-- What has been collected so far: the atlas, the replaced entries and the files that
contributed. -/
structure Collection where
  atlas : Atlas := .empty
  overrides : List Override := []
  sources : List Text := []

namespace Collection

def collisions (c : Collection) : Nat := c.overrides.length

/-- Adds the placed routes of a file, and gives the file's own contribution. -/
def add (c : Collection) (source : Text) (placed : List Placed) : Atlas × Collection :=
  let (contribution, within) := Atlas.ofPlaced placed
  let (atlas, across) := c.atlas.merge contribution (some source)
  (contribution, ⟨atlas, c.overrides ++ within ++ across, c.sources ++ [source]⟩)

end Collection
end RouteAtlas
