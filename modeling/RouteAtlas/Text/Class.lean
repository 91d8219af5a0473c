import RouteAtlas.Text.Basic
import RouteAtlas.Text.WordTable
import RouteAtlas.Text.DigitTable
import RouteAtlas.Text.PrintableTable

/-!
# Character classes

Blanks, word characters, identifier characters, decimal digits and printable characters. Each class
is decided by a rule on ASCII and by a table above it; `isIdentifier_isWord` says that
identifiers are made of word characters. A table of edges lists, in increasing order, the code points
where membership changes.
-/

namespace RouteAtlas.Text

/-- The code point `n` lies in the set with these edges: an odd number of them lies at or below it. -/
def inside (edges : List Nat) (n : Nat) : Bool := edges.countP (· ≤ n) % 2 == 1

/-- White space and the separators of lines and paragraphs, the four information separators
included. -/
def isBlank (c : Char) : Bool :=
  let n := c.toNat
  if n < 128 then decide (9 ≤ n ∧ n ≤ 13 ∨ 28 ≤ n ∧ n ≤ 32)
  else n == 0x85 || n == 0xA0 || n == 0x1680 || (decide (0x2000 ≤ n ∧ n ≤ 0x200A)) || n == 0x2028
    || n == 0x2029 || n == 0x202F || n == 0x205F || n == 0x3000

def isLetter (c : Char) : Bool := decide ('a' ≤ c ∧ c ≤ 'z' ∨ 'A' ≤ c ∧ c ≤ 'Z')

def isDigit (c : Char) : Bool := decide ('0' ≤ c ∧ c ≤ '9')

def isIdentifierStart (c : Char) : Bool := isLetter c || c == '_'

def isIdentifier (c : Char) : Bool := isLetter c || isDigit c || c == '_'

/-- A letter or numeral of any script, or the underscore. -/
def isWord (c : Char) : Bool :=
  if c.toNat < 128 then isIdentifier c else inside wordEdges c.toNat

/-- The value of a decimal digit of any script. -/
def digit? (c : Char) : Option Nat :=
  if c.toNat < 128 then if isDigit c then some (c.toNat - 48) else none
  else (zeros.find? fun z => decide (z ≤ c.toNat ∧ c.toNat < z + 10)).map (c.toNat - ·)

/-- A character that can be shown as itself in a quoted text. -/
def isPrintable (c : Char) : Bool :=
  if c.toNat < 128 then decide (32 ≤ c.toNat ∧ c.toNat < 127) else inside printableEdges c.toNat

def hexDigit? (c : Char) : Option Nat :=
  if '0' ≤ c ∧ c ≤ '9' then some (c.toNat - 48)
  else if 'a' ≤ c ∧ c ≤ 'f' then some (c.toNat - 87)
  else if 'A' ≤ c ∧ c ≤ 'F' then some (c.toNat - 55)
  else none

def strip (t : Text) : Text := trim isBlank t

/-! ### How the classes meet -/

theorem isIdentifierStart_isIdentifier {c : Char} (h : isIdentifierStart c) : isIdentifier c := by
  simp only [isIdentifierStart, Bool.or_eq_true] at h
  simp only [isIdentifier, Bool.or_eq_true]
  exact h.elim (fun l => .inl (.inl l)) .inr

theorem toNat_lt_of_isIdentifier {c : Char} (h : isIdentifier c) : c.toNat < 128 := by
  have le {d : Char} (hd : c ≤ d) : c.toNat ≤ d.toNat := hd
  simp only [isIdentifier, isLetter, isDigit, Bool.or_eq_true, decide_eq_true_eq,
    beq_iff_eq] at h
  rcases h with ((h | h) | h) | h
  · exact Nat.lt_of_le_of_lt (le h.2) (by decide)
  · exact Nat.lt_of_le_of_lt (le h.2) (by decide)
  · exact Nat.lt_of_le_of_lt (le h.2) (by decide)
  · subst h; decide

theorem isIdentifier_isWord {c : Char} (h : isIdentifier c) : isWord c := by
  rw [isWord, if_pos (toNat_lt_of_isIdentifier h)]; exact h

end RouteAtlas.Text
