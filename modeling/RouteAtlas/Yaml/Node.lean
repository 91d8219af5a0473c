import RouteAtlas.Yaml.Lexer
import RouteAtlas.Yaml.Tag

/-!
# Nodes of YAML

The tokens of one document as a graph of nodes: scalars, sequences and mappings, each with its type.
An alias is the node that its anchor names, so the graph may have cycles.
-/

namespace RouteAtlas.Yaml

abbrev NodeId := Nat

inductive Node where
  | scalar (tag : Tag) (text : Text)
  | sequence (tag : Tag) (items : List NodeId)
  | mapping (tag : Tag) (pairs : List (NodeId × NodeId))
deriving DecidableEq, Repr

def Node.tag : Node → Tag
  | scalar t _ => t
  | sequence t _ => t
  | mapping t _ => t

/-- What is known while nodes are made: the tokens ahead and the fault behind them, the handles of tags,
the anchors seen, and the nodes made so far. -/
structure Composer where
  tokens : List Token
  fault : Option Fault := none
  handles : List (Text × Text) := []
  anchors : List (Text × NodeId) := []
  nodes : Array Node := #[]

abbrev Compose := StateT Composer (Except Fault)

namespace Compose

def peek : Compose (Option Token) := do
  let s ← get
  match s.tokens, s.fault with
  | [], some f => throw f
  | tokens, _ => return tokens.head?

def drop : Compose Unit := modify fun s => { s with tokens := s.tokens.tail }

/-- The next token is one of those given; the end of the tokens counts as none. -/
def next (among : List Token) : Compose Bool := return (← peek).any among.contains

def accept (t : Token) : Compose Bool := do
  if ← next [t] then
    drop
    return true
  else return false

def fail {α : Type} : Compose α := throw .malformed

def alloc (n : Node) : Compose NodeId := do
  let s ← get
  set { s with nodes := s.nodes.push n }
  return s.nodes.size

def nothing : Compose NodeId := alloc (.scalar .null [])

/-- Gives a node the name of an anchor. Every anchor is used once. -/
def name (anchor : Option Text) (id : NodeId) : Compose Unit := do
  match anchor with
  | none => return
  | some a => modify fun s => { s with anchors := (a, id) :: s.anchors }

def resolve (alias_ : Text) : Compose NodeId := do
  match (← get).anchors.lookup alias_ with
  | some id => return id
  | none => fail

def expand (handle : Option Text) (suffix : Text) : Compose Text := do
  match handle with
  | none => return suffix
  | some h =>
    match (← get).handles.lookup h with
    | some start => return start ++ suffix
    | none => fail

/-- The properties in front of a node: an anchor and a tag, in either order. -/
def properties : Compose (Option Text × Option Text) := do
  let anchor : Compose (Option Text) := do
    match ← peek with
    | some (.anchor a) =>
      drop
      return some a
    | _ => return none
  let tag : Compose (Option (Option Text × Text)) := do
    match ← peek with
    | some (.tag h t) =>
      drop
      return some (h, t)
    | _ => return none
  let first ← anchor
  let written ← tag
  let second ← if first.isNone && written.isSome then anchor else pure none
  match written with
  | none => return (first.or second, none)
  | some (h, t) => return (first.or second, some (← expand h t))

def collectionTag (tag : Option Text) (default : Tag) : Tag :=
  match tag with
  | none => default
  | some t => if t = "!" then default else .ofUri t

def scalarTag (tag : Option Text) (plain : Bool) (text : Text) : Tag :=
  match tag with
  | none => if plain then .ofPlain text else .str
  | some t => if t = "!" then .ofPlain text else .ofUri t

def fill (id : NodeId) (n : Node) : Compose Unit :=
  modify fun s => { s with nodes := s.nodes.setIfInBounds id n }

def comma : Compose Unit := do
  if !(← accept .flowEntry) then fail

/-- The tokens in front of which a node is left out. -/
def blockGap : List Token := [.key, .value, .blockEnd]

mutual

/-- A node. In a block it may be a block collection; where `dashes` holds, also a sequence whose
dashes are not indented. -/
def node (block dashes : Bool) : Nat → Compose NodeId
  | 0 => fail
  | fuel + 1 => do
    match ← peek with
    | some (.alias a) =>
      drop
      resolve a
    | _ =>
      let (anchor, tag) ← properties
      let content ← peek
      if let some a := anchor then
        if ((← get).anchors.lookup a).isSome then fail
      match content with
      | some (.scalar text plain) =>
        drop
        let id ← alloc (.scalar (scalarTag tag plain text) text)
        name anchor id
        return id
      | some .flowSequenceStart =>
        drop
        sequence anchor tag (flowItems true fuel)
      | some .flowMappingStart =>
        drop
        mapping anchor tag (flowPairs true fuel)
      | some .blockSequenceStart =>
        if block then
          drop
          sequence anchor tag (blockItems fuel)
        else emptyNode anchor tag
      | some .blockMappingStart =>
        if block then
          drop
          mapping anchor tag (blockPairs fuel)
        else emptyNode anchor tag
      | some .blockEntry =>
        if dashes then sequence anchor tag (plainItems fuel) else emptyNode anchor tag
      | _ => emptyNode anchor tag
where
  emptyNode (anchor tag : Option Text) : Compose NodeId := do
    if anchor.isNone && tag.isNone then fail
    else
      let t : Tag :=
        match tag with
        | none => .null
        | some t => if t = "!" then .null else .ofUri t
      let id ← alloc (.scalar t [])
      name anchor id
      return id
  sequence (anchor tag : Option Text) (items : Compose (List NodeId)) : Compose NodeId := do
    let t := collectionTag tag .seq
    let id ← alloc (.sequence t [])
    name anchor id
    fill id (.sequence t (← items))
    return id
  mapping (anchor tag : Option Text) (pairs : Compose (List (NodeId × NodeId))) :
      Compose NodeId := do
    let t := collectionTag tag .map
    let id ← alloc (.mapping t [])
    name anchor id
    fill id (.mapping t (← pairs))
    return id

/-- A node unless one of the given tokens stands in its place. -/
def nodeUnless (gap : List Token) (block dashes : Bool) : Nat → Compose NodeId
  | 0 => fail
  | fuel + 1 => do
    if ← next gap then nothing else node block dashes fuel

def blockItems : Nat → Compose (List NodeId)
  | 0 => fail
  | fuel + 1 => do
    if ← accept .blockEntry then
      let item ← nodeUnless [.blockEntry, .blockEnd] true false fuel
      return item :: (← blockItems fuel)
    else if ← accept .blockEnd then return []
    else fail

def plainItems : Nat → Compose (List NodeId)
  | 0 => fail
  | fuel + 1 => do
    if ← accept .blockEntry then
      let item ← nodeUnless [.blockEntry, .key, .value, .blockEnd] true false fuel
      return item :: (← plainItems fuel)
    else return []

def blockPairs : Nat → Compose (List (NodeId × NodeId))
  | 0 => fail
  | fuel + 1 => do
    if ← next [.key, .value] then
      let key ← if ← accept .key then nodeUnless blockGap true true fuel else fail
      let value ← if ← accept .value then nodeUnless blockGap true true fuel else nothing
      return (key, value) :: (← blockPairs fuel)
    else if ← accept .blockEnd then return []
    else fail

/-- The items of a flow sequence up to its end. A pair among them is a mapping of its own. -/
def flowItems (first : Bool) : Nat → Compose (List NodeId)
  | 0 => fail
  | fuel + 1 => do
    if ← accept .flowSequenceEnd then return []
    else
      if !first then comma
      if ← accept .key then
        let id ← alloc (.mapping .map [])
        let key ← nodeUnless [.value, .flowEntry, .flowSequenceEnd] false false fuel
        let value ←
          if ← accept .value then nodeUnless [.flowEntry, .flowSequenceEnd] false false fuel
          else nothing
        fill id (.mapping .map [(key, value)])
        return id :: (← flowItems false fuel)
      else if ← accept .flowSequenceEnd then return []
      else
        let item ← node false false fuel
        return item :: (← flowItems false fuel)

def flowPairs (first : Bool) : Nat → Compose (List (NodeId × NodeId))
  | 0 => fail
  | fuel + 1 => do
    if ← accept .flowMappingEnd then return []
    else
      if !first then comma
      if ← accept .key then
        let key ← nodeUnless [.value, .flowEntry, .flowMappingEnd] false false fuel
        let value ←
          if ← accept .value then nodeUnless [.flowEntry, .flowMappingEnd] false false fuel
          else nothing
        return (key, value) :: (← flowPairs false fuel)
      else if ← accept .flowMappingEnd then return []
      else
        let key ← node false false fuel
        let value ← nothing
        return (key, value) :: (← flowPairs false fuel)

end

/-! ### Documents -/

def defaultHandles : List (Text × Text) := [("!", "!"), ("!!", Tag.standard)]

/-- The directives ahead: at most one version, which must be one of the first, and handles of
different names. -/
def directives (version : Bool) (handles : List (Text × Text)) : List Token →
    Except Fault (List (Text × Text) × Bool × List Token)
  | .directive (.version major) :: rest =>
    if version ∨ major ≠ 1 then .error .malformed else directives true handles rest
  | .directive (.handle h start) :: rest =>
    if (handles.lookup h).isSome then .error .malformed
    else directives version (handles ++ [(h, start)]) rest
  | .directive .other :: rest => directives version handles rest
  | rest => .ok (handles, version, rest)

def dropEnds (tokens : List Token) : List Token := tokens.dropWhile (· == .documentEnd)

def content (explicit : Bool) : Compose NodeId := do
  let fuel := 2 * (← get).tokens.length + 2
  match ← peek with
  | none => if explicit then nothing else fail
  | some (.directive _) | some .documentStart | some .documentEnd =>
    if explicit then nothing else fail
  | _ => node true false fuel

def ended : Compose Unit := do
  modify fun s => { s with tokens := dropEnds s.tokens }
  if (← peek).isSome then fail

/-- The single document of the tokens, if there is one. -/
def document : Compose (Option NodeId) := do
  match ← peek with
  | none => return none
  | some (.directive _) | some .documentStart =>
    let (handles, _, rest) ← directives false [] (← get).tokens
    modify fun s => { s with tokens := rest, handles := handles ++ defaultHandles }
    match ← peek with
    | some .documentStart =>
      drop
      let root ← content true
      ended
      return some root
    | _ => fail
  | _ =>
    modify fun s => { s with handles := defaultHandles }
    let root ← content false
    ended
    return some root

end Compose

/-- The graph of a text: its nodes and the root of its document, if there is one. -/
def compose (t : Text) : Except Fault (Array Node × Option NodeId) := do
  let ts := Tokens.ofText t
  let (root, s) ← Compose.document.run { tokens := ts.list, fault := ts.fault }
  return (s.nodes, root)

end RouteAtlas.Yaml
