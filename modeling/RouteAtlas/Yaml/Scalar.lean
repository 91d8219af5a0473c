import RouteAtlas.Yaml.Tag
import RouteAtlas.Decimal.Reading
import RouteAtlas.Text.Base64
import RouteAtlas.Text.Case

/-!
# Scalars of YAML

The value of a text, given its type. A text that does not fit a type asked for by a tag is a fault, and
the faults differ from type to type.
-/

namespace RouteAtlas.Yaml

/-- A value without parts. Of dates it only matters that they are dates. -/
inductive Scalar where
  | null
  | bool (b : Bool)
  | integer (n : Int)
  | float (x : Float)
  | string (t : Text)
  | bytes (b : List UInt8)
  | date

namespace Scalar

def truths : List (Text × Bool) := [
  ("yes", true), ("no", false), ("true", true), ("false", false), ("on", true), ("off", false)]

def readTruth (t : Text) : Except Fault Bool :=
  let word := Text.lower t
  match truths.lookup word with
  | some b => .ok b
  | none => .error (.truth word)

/-- A minus or plus sign, and the text without it. There must be a text. -/
def signed : Text → Except Fault (Int × Text)
  | [] => .error .noDigits
  | t => .ok (Decimal.sign t)

def inBase (base : Nat) (t : Text) : Except Fault Int :=
  match Decimal.readInteger base t with
  | .ok n => .ok n
  | .error (.tooLong digits) => .error (.longInteger digits)
  | .error .malformed => .error (.integer base t)

/-- An integer in the base that its first characters announce, or in base sixty with colons between its
digits. Underscores do not count. -/
def readInt (t : Text) : Except Fault Int := do
  let (s, t) ← signed (t.filter (· ≠ '_'))
  match t with
  | [] => throw .noDigits
  | ['0'] => return 0
  | '0' :: 'b' :: digits => return s * (← inBase 2 digits)
  | '0' :: 'x' :: digits => return s * (← inBase 16 digits)
  | '0' :: digits => return s * (← inBase 8 ('0' :: digits))
  | t =>
    if t.contains ':' then
      let digits ← (Text.split ':' t).mapM (inBase 10)
      return s * digits.foldl (fun n d => n * 60 + d) 0
    else return s * (← inBase 10 t)

/-- The sum of digits in base sixty, least significant first, where `weight` is the power of sixty of the
first. The power has to be in the range of the numbers. -/
def sexagesimal (weight : Nat) (sum : Float) : List Float → Except Fault Float
  | [] => .ok sum
  | d :: ds =>
    if Nat.pow 2 1024 ≤ weight then .error .range
    else sexagesimal (weight * 60) (sum + d * Decimal.toFloat weight 0) ds

def number (t : Text) : Except Fault Float :=
  match Decimal.readFloat t with
  | some x => .ok x
  | none => .error (.float t)

/-- A floating-point number, infinite, undefined, or in base sixty with colons between its digits.
Underscores do not count. -/
def readFloat (t : Text) : Except Fault Float := do
  let (s, t) ← signed (Text.lower (t.filter (· ≠ '_')))
  let withSign (x : Float) : Float := if s < 0 then -x else x
  if t = ".inf" then return withSign (1 / 0)
  else if t = ".nan" then return 0 / 0
  else if t.contains ':' then
    let digits ← (Text.split ':' t).mapM number
    return withSign (← sexagesimal 1 0 digits.reverse)
  else return withSign (← number t)

def readBytes (t : Text) : Except Fault (List UInt8) :=
  if t.all (·.toNat < 128) then
    match Text.ofBase64 t with
    | some b => .ok b
    | none => .error .malformed
  else .error .malformed

/-! ### Timestamps -/

def daysIn (year month : Nat) : Nat :=
  if month = 2 then
    if year % 4 = 0 ∧ (year % 100 ≠ 0 ∨ year % 400 = 0) then 29 else 28
  else if month = 4 ∨ month = 6 ∨ month = 9 ∨ month = 11 then 30
  else 31

/-- The first part of a timestamp that is out of range. -/
def outOfRange? (s : Stamp) : Option DatePart :=
  let year := Decimal.digitsValue s.year
  let month := Decimal.digitsValue s.month
  let day := Decimal.digitsValue s.day
  let beyond (t : Text) (limit : Nat) : Bool := decide (limit ≤ Decimal.digitsValue t)
  if year = 0 then some .year
  else if month = 0 ∨ 12 < month then some .month
  else if day = 0 ∨ daysIn year month < day then some .day
  else
    match s.time with
    | none => none
    | some (hour, minute, second) =>
      if beyond hour 24 then some .hour
      else if beyond minute 60 then some .minute
      else if beyond second 60 then some .second
      else none

def offsetMinutes (s : Stamp) : Int :=
  match s.offset with
  | none => 0
  | some (sign, hours, minutes) =>
    let size : Int := Decimal.digitsValue hours * 60 + Decimal.digitsValue minutes
    if sign = '-' then -size else size

/-- Checks a timestamp: first its offset, then its other parts. One line feed at the end does not
count. -/
def checkStamp (t : Text) : Except Fault Unit :=
  match (Stamp.read? t).or ((Text.before? "\n" t).bind Stamp.read?) with
  | none => .error .timestamp
  | some s =>
    if 1440 ≤ (offsetMinutes s).natAbs then .error (.offset (offsetMinutes s))
    else
      match outOfRange? s with
      | some part => .error (.date part)
      | none => .ok ()

/-- The value of a text of a type. Types of collections have no texts. -/
def ofText (tag : Tag) (t : Text) : Except Fault Scalar :=
  match tag with
  | .null => .ok null
  | .bool => (readTruth t).map bool
  | .int => (readInt t).map integer
  | .float => (readFloat t).map float
  | .binary => (readBytes t).map bytes
  | .timestamp => (checkStamp t).map fun _ => date
  | .str => .ok (string t)
  | _ => .error .malformed

end Scalar
end RouteAtlas.Yaml
