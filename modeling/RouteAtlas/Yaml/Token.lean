import RouteAtlas.Yaml.Fault

/-!
# Tokens of YAML

The tokens that a text is cut into, and the marks that tell where in the text one stands.
-/

namespace RouteAtlas.Yaml

inductive Directive where
  | version (major : Nat)
  /-- A handle that stands for the beginning of tags. -/
  | handle (name start : Text)
  | other
deriving DecidableEq, Repr

inductive Token where
  | directive (d : Directive)
  | documentStart
  | documentEnd
  | blockSequenceStart
  | blockMappingStart
  | blockEnd
  | flowSequenceStart
  | flowSequenceEnd
  | flowMappingStart
  | flowMappingEnd
  | blockEntry
  | flowEntry
  | key
  | value
  | alias (name : Text)
  | anchor (name : Text)
  /-- A tag, with its handle if it has one. -/
  | tag (handle : Option Text) (suffix : Text)
  /-- A scalar; `plain` if it stands without quotation marks and not as a block. -/
  | scalar (text : Text) (plain : Bool)
deriving DecidableEq, Repr

/-- The line feeds of YAML. -/
def isBreak (c : Char) : Bool := c == '\n' || c == '\x85' || c == '\u2028' || c == '\u2029'

/-- The end of the text, a space, a tab or a line break. -/
def isGap : Option Char → Bool
  | none => true
  | some c => c == ' ' || c == '\t' || isBreak c

def isSpaceOrEnd : Option Char → Bool
  | none => true
  | some c => c == ' ' || isBreak c

def isLineEnd : Option Char → Bool
  | none => true
  | some c => isBreak c

/-- Where one stands in a text: what follows, how many characters lie before, and the line and
column. -/
structure Mark where
  rest : Text
  index : Nat
  line : Nat
  column : Nat
deriving DecidableEq, Repr

namespace Mark

def start (t : Text) : Mark := ⟨t, 0, 0, 0⟩

def peek (m : Mark) (n : Nat := 0) : Option Char := m.rest[n]?

/-- One character further. A byte order mark takes no column. -/
def next (m : Mark) : Mark :=
  match m.rest with
  | [] => m
  | c :: cs =>
    if isBreak c then ⟨cs, m.index + 1, m.line + 1, 0⟩
    else ⟨cs, m.index + 1, m.line, if c = '\uFEFF' then m.column else m.column + 1⟩

def skip (m : Mark) : Nat → Mark
  | 0 => m
  | n + 1 => m.next.skip n

def run (m : Mark) (p : Char → Bool) : Text := m.rest.takeWhile p

def pass (m : Mark) (p : Char → Bool) : Mark := m.skip (m.run p).length

def at? (m : Mark) (c : Char) : Bool := m.peek == some c

/-- A line break, and what it reads as: the two separators as themselves, others as a line feed. -/
def lineBreak? (m : Mark) : Option (Char × Mark) :=
  match m.peek with
  | some c =>
    if c = '\n' ∨ c = '\x85' then some ('\n', m.next)
    else if c = '\u2028' ∨ c = '\u2029' then some (c, m.next)
    else none
  | none => none

def boundary (m : Mark) (word : Text) : Bool := Text.startsWith word m.rest && isGap (m.peek 3)

def atBoundary (m : Mark) : Bool := m.boundary "---" || m.boundary "..."

/-- Behind spaces, a comment and the line break after them; nothing if anything else stands there. -/
def restOfLine? (m : Mark) : Option Mark :=
  let m := m.pass (· == ' ')
  let m := if m.at? '#' then m.pass (!isBreak ·) else m
  if isLineEnd m.peek then some ((m.lineBreak?.map Prod.snd).getD m) else none

end Mark
end RouteAtlas.Yaml
