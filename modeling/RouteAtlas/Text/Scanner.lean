import RouteAtlas.Text.Basic
import RouteAtlas.Text.Class

/-!
# Scanners

A scanner reads something at a place of a text and says where it ends. Every scanner is greedy and
never takes a choice back, so a text fits in at most one way. `pieces` cuts a text into what a
scanner finds, read from the left without overlap, and the characters between; the finds, the
first find and the text with every find replaced are views of the pieces.
-/

namespace RouteAtlas

/-- A place in a text: the character before it, if any, and what follows. -/
structure Cursor where
  before : Option Char
  rest : Text
deriving DecidableEq, Repr

namespace Cursor

def start (t : Text) : Cursor := ⟨none, t⟩

def past (c : Cursor) (word rest : Text) : Cursor := ⟨word.getLast?.or c.before, rest⟩

end Cursor

/-- Reads something at a place and gives the place behind it, or nothing where it is not found. -/
abbrev Scanner := StateT Cursor Option

/-- A part of a text: one character that no find covers, or a find. -/
inductive Piece (α : Type) where
  | plain (c : Char)
  | found (a : α)
deriving Repr

namespace Scanner

variable {α β : Type}

/-! ### Single reads -/

def literal (word : Text) : Scanner Unit := fun c =>
  (Text.after? word c.rest).map fun rest => ((), c.past word rest)

/-- The longest run, possibly empty, of characters of a class. -/
def run (p : Char → Bool) : Scanner Text := fun c =>
  some (c.rest.takeWhile p, c.past (c.rest.takeWhile p) (c.rest.dropWhile p))

def one (p : Char → Bool) : Scanner Char := fun c =>
  match c.rest with
  | x :: rest => if p x then some (x, ⟨some x, rest⟩) else none
  | [] => none

def run1 (p : Char → Bool) : Scanner Text := do
  let first ← one p
  let more ← run p
  return first :: more

def oneOf (words : List Text) : Scanner Text := fun c =>
  words.findSome? fun word => (literal word c).map fun (_, c) => (word, c)

/-- What the scanner reads, or nothing and the same place. -/
def option (s : Scanner α) : Scanner (Option α) := fun c =>
  match s c with
  | some (a, c') => some (some a, c')
  | none => some (none, c)

/-- Fails unless the condition on the place holds. -/
def check (p : Cursor → Bool) : Scanner Unit := fun c => if p c then some ((), c) else none

def blanks : Scanner Text := run Text.isBlank

def blanks1 : Scanner Text := run1 Text.isBlank

/-- Exactly one side of the place is a word character. -/
def boundary : Scanner Unit :=
  check fun c => (c.before.any Text.isWord) != (c.rest.head?.any Text.isWord)

/-- An ASCII letter or underscore, then letters, digits and underscores. -/
def identifier : Scanner Text := do
  let first ← one Text.isIdentifierStart
  let more ← run Text.isIdentifier
  return first :: more

/-- What stands between two characters of the class `q`, none of which it holds. -/
def quoted (q : Char → Bool) : Scanner Text := do
  let _ ← one q
  let body ← run fun c => !q c
  let _ ← one q
  return body

/-- Repeats a scanner as often as it succeeds and gets on, at most `fuel` times. -/
def repeatGo (s : Scanner α) : Nat → Scanner (List α)
  | 0 => pure []
  | fuel + 1 => fun c =>
    match s c with
    | some (a, c') =>
      match repeatGo s fuel c' with
      | some (as, c'') => some (a :: as, c'')
      | none => some ([a], c')
    | none => some ([], c)

/-- Repeats a scanner, which reads at least one character, as often as it succeeds. -/
def repeated (s : Scanner α) : Scanner (List α) := fun c => repeatGo s c.rest.length c

/-! ### A whole text -/

/-- The pieces of the text at a place; `fuel` bounds their number. -/
def piecesGo (s : Scanner α) : Nat → Cursor → List (Piece α)
  | 0, c => c.rest.map .plain
  | _ + 1, ⟨_, []⟩ => []
  | fuel + 1, ⟨b, x :: xs⟩ =>
    match s ⟨b, x :: xs⟩ with
    | some (a, c) => .found a :: piecesGo s fuel c
    | none => .plain x :: piecesGo s fuel ⟨some x, xs⟩

/-- The text cut into the finds of a scanner, which reads at least one character where it succeeds,
and the characters between them. -/
def pieces (s : Scanner α) (t : Text) : List (Piece α) := piecesGo s t.length (.start t)

def findAll (s : Scanner α) (t : Text) : List α :=
  (s.pieces t).filterMap fun
    | .plain _ => none
    | .found a => some a

def find? (s : Scanner α) (t : Text) : Option α := (s.findAll t).head?

def occursIn (s : Scanner α) (t : Text) : Bool := !(s.findAll t).isEmpty

/-- The text in which each find is replaced by what the scanner made of it. -/
def substitute (s : Scanner Text) (t : Text) : Text :=
  (s.pieces t).flatMap fun
    | .plain c => [c]
    | .found a => a

end Scanner
end RouteAtlas
