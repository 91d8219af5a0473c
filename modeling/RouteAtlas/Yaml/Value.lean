import RouteAtlas.Yaml.Node
import RouteAtlas.Yaml.Scalar

/-!
# Values of YAML

The values of the nodes of a graph. A collection holds the numbers of its parts, so a value may be part of
itself. Scalars get their value at once; collections wait in line until all that was met before them is
done, so the first fault in this order is the one reported.
-/

namespace RouteAtlas.Yaml

inductive Value where
  | scalar (s : Scalar)
  | list (items : List NodeId)
  | pairs (items : List (NodeId × NodeId))
  /-- A mapping. Of pairs with equal keys the last one counts. -/
  | mapping (pairs : List (NodeId × NodeId))
  | set (members : List NodeId)

namespace Value

def canBeKey : Value → Bool
  | scalar _ => true
  | _ => false

/-- The value counts as nothing: null, false, zero, or empty. -/
def isBlank : Value → Bool
  | scalar .null => true
  | scalar (.bool b) => !b
  | scalar (.integer n) => n == 0
  | scalar (.float x) => x == 0
  | scalar (.string t) => t.isEmpty
  | scalar (.bytes b) => b.isEmpty
  | scalar .date => false
  | list items => items.isEmpty
  | pairs items => items.isEmpty
  | mapping items => items.isEmpty
  | set items => items.isEmpty

end Value

/-- The state while values are made: the nodes, the values so far, and the collections whose parts are still
to be made, in order. -/
structure Builder where
  nodes : Array Node
  values : Array (Option Value)
  waiting : List NodeId := []

abbrev Build := StateT Builder (Except Fault)

namespace Build

def node (id : NodeId) : Build Node := do
  match (← get).nodes[id]? with
  | some n => return n
  | none => throw .malformed

def setNode (id : NodeId) (n : Node) : Build Unit :=
  modify fun s => { s with nodes := s.nodes.setIfInBounds id n }

def setValue (id : NodeId) (v : Value) : Build Unit :=
  modify fun s => { s with values := s.values.setIfInBounds id (some v) }

def tag (id : NodeId) : Build Tag := return (← node id).tag

/-- The text that a node stands for: its own, or that of the value of the first key that stands for the
value of a mapping. `fuel` bounds the number of mappings inside one another. -/
def text (id : NodeId) : Nat → Build Text
  | 0 => throw .circular
  | fuel + 1 => do
    match ← node id with
    | .scalar _ t => return t
    | .sequence .. => throw .malformed
    | .mapping _ pairs =>
      match ← pairs.findM? fun (key, _) => return (← tag key) == .value with
      | some (_, v) => text v fuel
      | none => throw .malformed

/-- Makes a collection, and leaves its parts for later. -/
def later (id : NodeId) (v : Value) : Build Value := do
  setValue id v
  modify fun s => { s with waiting := s.waiting ++ [id] }
  return v

/-- The value of a node; collections are still empty. -/
def value (id : NodeId) : Build Value := do
  match ((← get).values[id]?).join with
  | some v => return v
  | none =>
    let n ← node id
    match n.tag with
    | .seq => later id (.list [])
    | .omap | .pairs => later id (.pairs [])
    | .map => later id (.mapping [])
    | .set => later id (.set [])
    | .merge | .value | .other => throw .malformed
    | t =>
      let written ← text id ((← get).nodes.size + 1)
      let v ← match t, n with
        | .timestamp, .mapping .. => throw .stampOfMapping
        | _, _ => pure (Value.scalar (← Scalar.ofText t written))
      setValue id v
      return v

/-! ### Merged mappings -/

def pairsOf (id : NodeId) : Build (List (NodeId × NodeId)) := do
  match ← node id with
  | .mapping _ pairs => return pairs
  | _ => throw .malformed

def setPairs (id : NodeId) (pairs : List (NodeId × NodeId)) : Build Unit := do
  setNode id (.mapping (← tag id) pairs)

/-- The pairs before the first key that merges, its value, and the pairs behind it. -/
def firstMerge : List (NodeId × NodeId) →
    Build (Option (List (NodeId × NodeId) × NodeId × List (NodeId × NodeId)))
  | [] => return none
  | (key, v) :: rest => do
    if (← tag key) = .merge then return some ([], v, rest)
    else
      match ← firstMerge rest with
      | some (front, w, behind) => return some ((key, v) :: front, w, behind)
      | none => return none

/-- A key that stands for the value of a mapping is a string in a mapping that is read as such. -/
def settleKey (key : NodeId) : Build Unit := do
  match ← node key with
  | .scalar .value t => setNode key (.scalar .str t)
  | .sequence .value items => setNode key (.sequence .str items)
  | .mapping .value pairs => setNode key (.mapping .str pairs)
  | _ => return

/-- Puts the pairs of merged mappings in front of those of the mapping itself. Each round takes one merging
key away; `fuel` bounds their number in the graph, and `merged` holds the pairs found so far. -/
def flatten (id : NodeId) (merged : List (NodeId × NodeId)) : Nat → Build Unit
  | 0 => throw .malformed
  | fuel + 1 => do
    match ← firstMerge (← pairsOf id) with
    | none =>
      let pairs ← pairsOf id
      pairs.forM fun (key, _) => settleKey key
      setPairs id (merged ++ pairs)
    | some (front, v, behind) =>
      setPairs id (front ++ behind)
      match ← node v with
      | .mapping .. =>
        flatten v [] fuel
        flatten id (merged ++ (← pairsOf v)) fuel
      | .sequence _ items =>
        let each ← items.mapM fun item => do
          let _ ← pairsOf item
          flatten item [] fuel
          pairsOf item
        flatten id (merged ++ each.reverse.flatten) fuel
      | .scalar .. => throw .malformed

def mergeCount (nodes : Array Node) : Nat :=
  (nodes.toList.flatMap fun
    | .mapping _ pairs => pairs.filter fun (key, _) => (nodes[key]?.map Node.tag) == some .merge
    | _ => []).length

/-- The pairs of a mapping once merged mappings are in place and all values are made. -/
def mappingPairs (id : NodeId) : Build (List (NodeId × NodeId)) := do
  let _ ← pairsOf id
  flatten id [] (mergeCount (← get).nodes + 1)
  let pairs ← pairsOf id
  pairs.forM fun (key, v) => do
    if !(← value key).canBeKey then throw .malformed
    let _ ← value v
  return pairs

/-! ### Parts of collections -/

def onlyPair (id : NodeId) : Build (NodeId × NodeId) := do
  match ← node id with
  | .mapping _ [(key, v)] =>
    let _ ← value key
    let _ ← value v
    return (key, v)
  | _ => throw .malformed

def complete (id : NodeId) : Build Unit := do
  let n ← node id
  match n.tag, n with
  | .seq, .sequence _ items =>
    items.forM fun item => do
      let _ ← value item
    setValue id (.list items)
  | .omap, .sequence _ items | .pairs, .sequence _ items =>
    setValue id (.pairs (← items.mapM onlyPair))
  | .map, _ => setValue id (.mapping (← mappingPairs id))
  | .set, _ => setValue id (.set ((← mappingPairs id).map Prod.fst))
  | _, _ => throw .malformed

/-- Makes the parts of all waiting collections; `fuel` bounds their number. -/
def completeAll : Nat → Build Unit
  | 0 => return
  | fuel + 1 => do
    match (← get).waiting with
    | [] => return
    | id :: rest =>
      modify fun s => { s with waiting := rest }
      complete id
      completeAll fuel

end Build

/-- A text that has been read: the values of its nodes and the number of the whole. -/
structure Loaded where
  values : Array (Option Value)
  root : Option NodeId

namespace Loaded

def value (l : Loaded) (id : NodeId) : Value := (l.values[id]?.join).getD (.scalar .null)

def whole (l : Loaded) : Value := (l.root.map l.value).getD (.scalar .null)

def member? (l : Loaded) (v : Value) (key : Text) : Option Value :=
  match v with
  | .mapping pairs =>
    (pairs.reverse.find? fun (k, _) =>
      match l.value k with
      | .scalar (.string t) => t == key
      | _ => false).map fun (_, v) => l.value v
  | _ => none

end Loaded

def load (t : Text) : Except Fault Loaded := do
  let (nodes, root) ← compose t
  match root with
  | none => return ⟨#[], none⟩
  | some id =>
    let build : Build Unit := do
      let _ ← Build.value id
      Build.completeAll (nodes.size + 1)
    let (_, s) ← build.run { nodes, values := Array.replicate nodes.size none }
    return ⟨s.values, some id⟩

end RouteAtlas.Yaml
