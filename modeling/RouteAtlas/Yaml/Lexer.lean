import RouteAtlas.Yaml.Lexeme

/-!
# Cutting YAML into tokens

Indentation becomes explicit: blocks get tokens for their start and end. A key without a mark of its
own is recognised at the colon behind it, so its token is put in afterwards at the place where the
key started. Such a key must lie on one line and within 1024 characters.
-/

namespace RouteAtlas.Yaml

/-- A place where a key may have started. -/
structure PossibleKey where
  token : Nat
  required : Bool
  index : Nat
  line : Nat
  column : Nat
deriving DecidableEq, Repr

structure Lexer where
  mark : Mark
  /-- The tokens read so far, the last one first. -/
  tokens : List Token := []
  flow : Nat := 0
  /-- The column of the innermost block. -/
  indent : Int := -1
  outer : List Int := []
  keyAllowed : Bool := true
  keys : List (Nat × PossibleKey) := []
  done : Bool := false

namespace Lexer

def emit (s : Lexer) (t : Token) : Lexer := { s with tokens := t :: s.tokens }

def insertAt (s : Lexer) (n : Nat) (t : Token) : Lexer :=
  let later := s.tokens.length - n
  { s with tokens := s.tokens.take later ++ t :: s.tokens.drop later }

def moveTo (s : Lexer) (m : Mark) : Lexer := { s with mark := m }

def unwindGo (s : Lexer) (column : Int) : List Int → Lexer
  | [] => s
  | out :: more =>
    if s.indent > column then
      unwindGo { s with indent := out, outer := more, tokens := .blockEnd :: s.tokens } column more
    else s

/-- Ends the blocks that are indented further than a column, unless a flow collection is open. -/
def unwind (s : Lexer) (column : Int) : Lexer :=
  if s.flow = 0 then unwindGo s column s.outer else s

/-- Starts a block at a column if that is further in than the innermost one. -/
def indentTo (s : Lexer) (column : Nat) (block : Lexer → Lexer) : Lexer :=
  if s.indent < column then
    block { s with indent := column, outer := s.indent :: s.outer }
  else s

def isStale (s : Lexer) (k : PossibleKey) : Bool :=
  k.line != s.mark.line || decide (k.index + 1024 < s.mark.index)

/-- Forgets the possible keys that can no longer be keys. -/
def dropStale (s : Lexer) : Except Fault Lexer :=
  if s.keys.any fun (_, k) => s.isStale k && k.required then .error .malformed
  else .ok { s with keys := s.keys.filter fun (_, k) => !s.isStale k }

def dropKey (s : Lexer) : Except Fault Lexer :=
  match s.keys.lookup s.flow with
  | some k =>
    if k.required then .error .malformed
    else .ok { s with keys := s.keys.filter (·.1 != s.flow) }
  | none => .ok s

def noteKey (s : Lexer) : Except Fault Lexer :=
  if s.keyAllowed then do
    let s ← s.dropKey
    return { s with keys := (s.flow, {
      token := s.tokens.length
      required := s.flow == 0 && s.indent == s.mark.column
      index := s.mark.index
      line := s.mark.line
      column := s.mark.column }) :: s.keys }
  else .ok s

/-- Passes over spaces, comments and line breaks. A line break outside flow collections allows a key. -/
def skipGo : Nat → Lexer → Lexer
  | 0, s => s
  | fuel + 1, s =>
    let m := s.mark.pass (· == ' ')
    let m := if m.at? '#' then m.pass (!isBreak ·) else m
    match m.lineBreak? with
    | some (_, m) =>
      skipGo fuel { s with mark := m, keyAllowed := s.keyAllowed || s.flow == 0 }
    | none => s.moveTo m

def skipToToken (s : Lexer) : Lexer :=
  let s := if s.mark.index = 0 ∧ s.mark.at? '\uFEFF' then s.moveTo s.mark.next else s
  skipGo (s.mark.rest.length + 1) s

/-! ### Tokens -/

def finish (s : Lexer) : Except Fault Lexer := do
  let s ← (s.unwind (-1)).dropKey
  return { s with keyAllowed := false, keys := [], done := true }

def documentBoundary (s : Lexer) (t : Token) : Except Fault Lexer := do
  let s ← (s.unwind (-1)).dropKey
  return ({ s with keyAllowed := false }.moveTo (s.mark.skip 3)).emit t

def directiveLine (s : Lexer) : Except Fault Lexer := do
  let s ← (s.unwind (-1)).dropKey
  let (d, m) ← directive s.mark
  return ({ s with keyAllowed := false }.moveTo m).emit (.directive d)

def openFlow (s : Lexer) (t : Token) : Except Fault Lexer := do
  let s ← s.noteKey
  return ({ s with flow := s.flow + 1, keyAllowed := true }.moveTo s.mark.next).emit t

def closeFlow (s : Lexer) (t : Token) : Except Fault Lexer := do
  if s.flow = 0 then .error .malformed
  let s ← s.dropKey
  return ({ s with flow := s.flow - 1, keyAllowed := false }.moveTo s.mark.next).emit t

def nextInFlow (s : Lexer) : Except Fault Lexer := do
  let s ← s.dropKey
  return ({ s with keyAllowed := true }.moveTo s.mark.next).emit .flowEntry

def dash (s : Lexer) : Except Fault Lexer := do
  if s.flow = 0 ∧ !s.keyAllowed then .error .malformed
  let s := if s.flow = 0 then s.indentTo s.mark.column (·.emit .blockSequenceStart) else s
  let s ← { s with keyAllowed := true }.dropKey
  return (s.moveTo s.mark.next).emit .blockEntry

def markedKey (s : Lexer) : Except Fault Lexer := do
  if s.flow = 0 ∧ !s.keyAllowed then .error .malformed
  let s := if s.flow = 0 then s.indentTo s.mark.column (·.emit .blockMappingStart) else s
  let s ← { s with keyAllowed := s.flow == 0 }.dropKey
  return (s.moveTo s.mark.next).emit .key

/-- The colon before a value. Where a key may have started, the tokens that this calls for are put in
there. -/
def colon (s : Lexer) : Except Fault Lexer :=
  match s.keys.lookup s.flow with
  | some k =>
    let s := { s with keys := s.keys.filter (·.1 != s.flow), keyAllowed := false }
    let s := s.insertAt k.token .key
    let s := if s.flow = 0 then s.indentTo k.column (·.insertAt k.token .blockMappingStart) else s
    .ok ((s.moveTo s.mark.next).emit .value)
  | none => do
    if s.flow = 0 ∧ !s.keyAllowed then .error .malformed
    let s := if s.flow = 0 then s.indentTo s.mark.column (·.emit .blockMappingStart) else s
    let s ← { s with keyAllowed := s.flow == 0 }.dropKey
    return (s.moveTo s.mark.next).emit .value

/-- A token that a key may start with, read by `read`. -/
def keyPart (s : Lexer) (read : Mark → Except Fault (Token × Mark)) : Except Fault Lexer := do
  let s ← s.noteKey
  let (t, m) ← read s.mark
  return ({ s with keyAllowed := false }.moveTo m).emit t

def block (s : Lexer) (fold : Bool) : Except Fault Lexer := do
  let s ← { s with keyAllowed := true }.dropKey
  let (t, m) ← blockScalar fold s.indent s.mark
  return (s.moveTo m).emit (.scalar t false)

/-- A plain scalar. A key may follow if it ends behind a line break. -/
def plain (s : Lexer) : Except Fault Lexer := do
  let s ← s.noteKey
  let (t, broken, m) := plainScalar (s.flow != 0) (s.indent + 1) s.mark
  return ({ s with keyAllowed := broken }.moveTo m).emit (.scalar t true)

/-- A plain scalar may start with this character, `after` being the one behind it. -/
def startsPlain (inFlow : Bool) (c : Char) (after : Option Char) : Bool :=
  !(isGap (some c) || ("-?:,[]\x7b\x7d#&*!|>'\"%@\x60" : Text).contains c)
    || (!isGap after && (c == '-' || (!inFlow && (c == '?' || c == ':'))))

def token (s : Lexer) : Except Fault Lexer := do
  let s ← s.skipToToken.dropStale
  let s := s.unwind s.mark.column
  let m := s.mark
  let after := m.peek 1
  let inFlow := s.flow != 0
  let text (f : Text → Token) (r : Except Fault (Text × Mark)) : Except Fault (Token × Mark) :=
    r.map fun (t, m) => (f t, m)
  match m.peek with
  | none => s.finish
  | some c =>
    if c = '%' ∧ m.column = 0 then s.directiveLine
    else if m.column = 0 ∧ m.boundary "---" then s.documentBoundary .documentStart
    else if m.column = 0 ∧ m.boundary "..." then s.documentBoundary .documentEnd
    else if c = '[' then s.openFlow .flowSequenceStart
    else if c = '{' then s.openFlow .flowMappingStart
    else if c = ']' then s.closeFlow .flowSequenceEnd
    else if c = '}' then s.closeFlow .flowMappingEnd
    else if c = ',' then s.nextInFlow
    else if c = '-' ∧ isGap after then s.dash
    else if c = '?' ∧ (inFlow ∨ isGap after) then s.markedKey
    else if c = ':' ∧ (inFlow ∨ isGap after) then s.colon
    else if c = '*' then s.keyPart fun m => text .alias (anchorName m)
    else if c = '&' then s.keyPart fun m => text .anchor (anchorName m)
    else if c = '!' then s.keyPart fun m => (tag m).map fun ((h, t), m) => (.tag h t, m)
    else if c = '|' ∧ !inFlow then s.block false
    else if c = '>' ∧ !inFlow then s.block true
    else if c = '\'' then s.keyPart fun m => text (.scalar · false) (quotedScalar false m)
    else if c = '"' then s.keyPart fun m => text (.scalar · false) (quotedScalar true m)
    else if startsPlain inFlow c after then s.plain
    else .error .malformed

/-- The tokens in front of which no token can be put any more. -/
def settled (s : Lexer) : List Token :=
  let tokens := s.tokens.reverse
  match s.keys.filterMap fun (_, k) => if s.isStale k then none else some k.token with
  | [] => tokens
  | first :: more => tokens.take (more.foldl min first)

end Lexer

/-- The tokens of a text; if there is a fault, those that are settled before it. -/
structure Tokens where
  list : List Token
  fault : Option Fault := none

/-- Reads all tokens; `fuel` bounds their number. -/
def Lexer.allTokens : Nat → Lexer → Tokens
  | 0, _ => { list := [], fault := some .malformed }
  | fuel + 1, s =>
    match s.token with
    | .error f => { list := s.settled, fault := some f }
    | .ok s => if s.done then { list := s.tokens.reverse } else allTokens fuel s

def isAllowed (c : Char) : Bool :=
  let n := c.toNat
  n == 9 || n == 10 || n == 13 || decide (0x20 ≤ n ∧ n ≤ 0x7E) || n == 0x85
    || decide (0xA0 ≤ n ∧ n ≤ 0xD7FF) || decide (0xE000 ≤ n ∧ n ≤ 0xFFFD) || decide (0x10000 ≤ n)

def Tokens.ofText (t : Text) : Tokens :=
  if t.all isAllowed then Lexer.allTokens (t.length + 2) { mark := .start t }
  else { list := [], fault := some .malformed }

end RouteAtlas.Yaml
