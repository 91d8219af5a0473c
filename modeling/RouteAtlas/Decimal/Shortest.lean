import RouteAtlas.Decimal.Integer

/-!
# The shortest decimal of a floating-point number

A binary fraction `m · 2^q` stands for all reals that round to it. `shortest` gives the decimal with
the fewest digits among them, and of these the nearest. `Layout` says how a decimal is written out.
-/

namespace RouteAtlas.Decimal

/-- A positive decimal: `digits · 10^exponent`. -/
structure Scaled where
  digits : Nat
  exponent : Int
deriving DecidableEq, Repr

def digitCount (n : Nat) : Nat := (natText n).length

/-- Without zeros at the end; `fuel` bounds their number. -/
def withoutZeros : Nat → Scaled → Scaled
  | 0, s => s
  | fuel + 1, s =>
    if s.digits ≠ 0 ∧ s.digits % 10 = 0 then withoutZeros fuel ⟨s.digits / 10, s.exponent + 1⟩
    else s

/-- A positive number `4m · 2^q / 4` with the bounds of the reals that round to it, all as
numerators over one denominator. The bounds themselves belong to the interval if `closed`. -/
structure Interval where
  low : Nat
  value : Nat
  high : Nat
  denominator : Nat
  closed : Bool

/-- The reals that round to `m · 2^q`. Below a power of two the gap is half as wide. -/
def Interval.ofBinary (m : Nat) (q : Int) (narrow : Bool) : Interval :=
  let scale := Nat.pow 2 (q - 2).toNat
  { low := (4 * m - if narrow then 1 else 2) * scale
    value := 4 * m * scale
    high := (4 * m + 2) * scale
    denominator := Nat.pow 2 (2 - q).toNat
    closed := m % 2 == 0 }

def Interval.magnitude (i : Interval) : Int :=
  if i.denominator ≤ i.value then digitCount (i.value / i.denominator)
  else
    let j := digitCount i.denominator - digitCount i.value
    if i.denominator ≤ i.value * Nat.pow 10 j then 1 - j else -j

def Interval.inUnits (i : Interval) (p : Int) : Interval :=
  let up := Nat.pow 10 (-p).toNat
  { i with
    low := i.low * up
    value := i.value * up
    high := i.high * up
    denominator := i.denominator * Nat.pow 10 p.toNat }

def Interval.contains (i : Interval) (n : Nat) : Bool :=
  let x := n * i.denominator
  if i.closed then decide (i.low ≤ x ∧ x ≤ i.high) else decide (i.low < x ∧ x < i.high)

/-- The neighbour of the value in whole units that lies in the interval; of two the nearer one, and
of two at the same distance the even one. -/
def Interval.neighbour? (i : Interval) : Option Nat :=
  let n := i.value / i.denominator
  let below := i.value - n * i.denominator
  let above := (n + 1) * i.denominator - i.value
  if i.contains n then
    if i.contains (n + 1) && (decide (above < below) || (above == below && n % 2 == 1)) then
      some (n + 1)
    else some n
  else if i.contains (n + 1) then some (n + 1)
  else none

/-- The first of the numbers of digits at which a neighbour lies in the interval. -/
def Interval.search (i : Interval) (magnitude : Int) : List Nat → Scaled
  | [] => ⟨0, 0⟩
  | n :: ns =>
    match (i.inUnits (magnitude - n)).neighbour? with
    | some digits => withoutZeros 20 ⟨digits, magnitude - n⟩
    | none => search i magnitude ns

/-- The shortest decimal among the reals that round to `m · 2^q`, where `m` has at most 53 bits. -/
def shortest (m : Nat) (q : Int) (narrow : Bool) : Scaled :=
  let i := Interval.ofBinary m q narrow
  i.search i.magnitude ((List.range 17).map (· + 1))

/-! ### Writing it out -/

/-- How a floating-point number is written: the exponents of the first digit that are written by
position, the least number of digits of an exponent, and the names of what is no number. -/
structure Layout where
  least : Int
  greatest : Int
  exponentDigits : Nat
  infinite : Text
  undefined : Text

/-- Positions from one ten-thousandth to below ten quadrillions, exponents of two digits. -/
def Layout.standard : Layout := ⟨-4, 15, 2, "inf", "nan"⟩

def padded (width n : Nat) : Text :=
  List.replicate (width - (natText n).length) '0' ++ natText n

/-- A positive decimal by position, with at least one digit on either side of the point. -/
def Scaled.positional (s : Scaled) : Text :=
  let digits := natText s.digits
  let point : Int := digits.length + s.exponent
  if point ≤ 0 then "0." ++ List.replicate (-point).toNat '0' ++ digits
  else if 0 ≤ s.exponent then digits ++ List.replicate s.exponent.toNat '0' ++ ".0"
  else digits.take point.toNat ++ '.' :: digits.drop point.toNat

def Scaled.scientific (l : Layout) (s : Scaled) : Text :=
  let digits := natText s.digits
  let e : Int := digits.length + s.exponent - 1
  let mantissa : Text :=
    match digits with
    | d :: d' :: ds => d :: '.' :: d' :: ds
    | ds => ds
  mantissa ++ 'e' :: (if e < 0 then '-' else '+') :: padded l.exponentDigits e.natAbs

def Scaled.text (l : Layout) (s : Scaled) : Text :=
  let e : Int := digitCount s.digits + s.exponent - 1
  if l.least ≤ e ∧ e ≤ l.greatest then s.positional else s.scientific l

/-- A double-precision number by its bits: sign, exponent, fraction. -/
def ofBits (l : Layout) (bits : Nat) : Text :=
  let negative := bits / Nat.pow 2 63 % 2 == 1
  let exponent : Nat := bits / Nat.pow 2 52 % Nat.pow 2 11
  let fraction : Nat := bits % Nat.pow 2 52
  let body : Text :=
    if exponent = 2047 then if fraction = 0 then l.infinite else l.undefined
    else if exponent = 0 ∧ fraction = 0 then "0.0"
    else if exponent = 0 then (shortest fraction (-1074) false).text l
    else (shortest (Nat.pow 2 52 + fraction) ((exponent : Int) - 1075)
      (fraction == 0 && exponent != 1)).text l
  if negative && !(exponent == 2047 && fraction != 0) then '-' :: body else body

def floatText (x : Float) : Text := ofBits .standard x.toBits.toNat

end RouteAtlas.Decimal
