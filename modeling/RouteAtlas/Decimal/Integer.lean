import RouteAtlas.Text.Class

/-!
# Integers as text

Reading integers in a base from two to sixteen and writing them in base ten. Digits of any script
are read; one underscore may stand between digits. Both directions refuse numbers of more than
`digitLimit` decimal digits.
-/

namespace RouteAtlas.Decimal

def digitLimit : Nat := 4300

inductive IntegerFault where
  /-- It has more decimal digits than are read. -/
  | tooLong (digits : Nat)
  | malformed
deriving DecidableEq, Repr

/-- The blanks that may surround a number. -/
def isBlank (c : Char) : Bool := Text.isBlank c && !decide (28 ≤ c.toNat ∧ c.toNat ≤ 31)

def digitIn? (base : Nat) (c : Char) : Option Nat :=
  ((Text.digit? c).or (if Text.isLetter c then Text.hexDigit? c else none)).filter (· < base)

/-- Digits, in which one underscore may stand between two: their value and their number, or nothing
if the text is not of this form. `wait` holds where a digit must come next. -/
def digitsGo (base : Nat) : Bool → Nat → Nat → Text → Option (Nat × Nat)
  | wait, value, count, [] => if wait then none else some (value, count)
  | wait, value, count, c :: cs =>
    if c = '_' then if wait then none else digitsGo base true value count cs
    else
      match digitIn? base c with
      | some d => digitsGo base false (value * base + d) (count + 1) cs
      | none => none

def sign : Text → Int × Text
  | '-' :: cs => (-1, cs)
  | '+' :: cs => (1, cs)
  | cs => (1, cs)

def announces (base : Nat) (c : Char) : Bool :=
  (base == 16 && (c == 'x' || c == 'X')) || (base == 8 && (c == 'o' || c == 'O'))
    || (base == 2 && (c == 'b' || c == 'B'))

/-- The digits without the announcement of their base, which an underscore may follow. -/
def withoutAnnouncement (base : Nat) : Text → Text
  | '0' :: c :: cs =>
    if announces base c then
      match cs with
      | '_' :: cs => cs
      | cs => cs
    else '0' :: c :: cs
  | cs => cs

def leadingDigits (t : Text) : Nat :=
  ((t.takeWhile fun c => (digitIn? 10 c).isSome || c == '_').filter (· ≠ '_')).length

/-- The integer written in a base, surrounded by blanks, with a sign if there is one. Only base ten
knows a limit on the digits. -/
def readInteger (base : Nat) (t : Text) : Except IntegerFault Int :=
  let (s, digits) := sign (Text.trim isBlank t)
  let digits := withoutAnnouncement base digits
  if base = 10 ∧ leadingDigits digits > digitLimit then .error (.tooLong (leadingDigits digits))
  else
    match digitsGo base true 0 0 digits with
    | some (value, _) => .ok (s * value)
    | none => .error .malformed

def natText (n : Nat) : Text := Nat.toDigits 10 n

def integerText (n : Int) : Text := if n < 0 then '-' :: natText n.natAbs else natText n.natAbs

/-- An integer in base ten, unless it has too many digits. -/
def integerText? (n : Int) : Option Text :=
  if (natText n.natAbs).length > digitLimit then none else some (integerText n)

end RouteAtlas.Decimal
