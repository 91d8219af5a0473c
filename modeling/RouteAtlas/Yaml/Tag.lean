import RouteAtlas.Yaml.Token
import RouteAtlas.Text.Class

/-!
# Tags and plain scalars

A tag says of which type a node is. A plain scalar without one has the type of the first notation
that it fits: truth values, numbers, sexagesimal numbers, timestamps, null; otherwise it is a string.
-/

namespace RouteAtlas.Yaml

inductive Tag where
  | null
  | bool
  | int
  | float
  | binary
  | timestamp
  | omap
  | pairs
  | set
  | str
  | seq
  | map
  | merge
  | value
  | other
deriving DecidableEq, Repr

namespace Tag

def standard : Text := "tag:yaml.org,2002:"

/-- The types by the end of their tag. -/
def names : List (Text × Tag) := [
  ("null", null), ("bool", bool), ("int", int), ("float", float), ("binary", binary),
  ("timestamp", timestamp), ("omap", omap), ("pairs", pairs), ("set", set), ("str", str),
  ("seq", seq), ("map", map), ("merge", merge), ("value", value)]

def ofUri (uri : Text) : Tag :=
  match Text.after? standard uri with
  | some name => (names.lookup name).getD other
  | none => other

end Tag

/-! ### Notations -/

/-- A minus or plus sign at the front is passed over. -/
def unsigned : Text → Text
  | c :: cs => if c = '-' ∨ c = '+' then cs else c :: cs
  | [] => []

def isSpacedDigit (c : Char) : Bool := Text.isDigit c || c == '_'

/-- One or two digits below sixty. -/
def isSixtieth : Text → Bool
  | [a] => Text.isDigit a
  | [a, b] => Text.isDigit a && decide (a ≤ '5') && Text.isDigit b
  | _ => false

/-- Digits, then parts below sixty behind colons, at least one. -/
def isSexagesimal (first : Char → Bool) (t : Text) : Bool :=
  match Text.split ':' t with
  | (d :: ds) :: part :: parts =>
    first d && ds.all isSpacedDigit && (part :: parts).all isSixtieth
  | _ => false

/-- An integer in base two, eight, ten, sixteen or sixty. -/
def isInt (t : Text) : Bool :=
  match unsigned t with
  | ['0'] => true
  | '0' :: 'b' :: ds => !ds.isEmpty && ds.all fun c => c == '0' || c == '1' || c == '_'
  | '0' :: 'x' :: ds => !ds.isEmpty && ds.all fun c => (Text.hexDigit? c).isSome || c == '_'
  | '0' :: ds => ds.all fun c => c == '_' || (Text.isDigit c && decide (c ≤ '7'))
  | d :: ds =>
    Text.isDigit d && (ds.all isSpacedDigit || isSexagesimal Text.isDigit (d :: ds))
  | [] => false

def isExponentOrEnd : Text → Bool
  | [] => true
  | e :: s :: ds =>
    (e == 'e' || e == 'E') && (s == '-' || s == '+') && !ds.isEmpty && ds.all Text.isDigit
  | _ => false

def isFloat (t : Text) : Bool :=
  let body := unsigned t
  let whole := body.takeWhile (· ≠ '.')
  match body.dropWhile (· ≠ '.') with
  | '.' :: fraction =>
    (match whole with
      | d :: ds =>
        (Text.isDigit d && ds.all isSpacedDigit && isExponentOrEnd (fraction.dropWhile isSpacedDigit))
          || (isSexagesimal Text.isDigit whole && fraction.all isSpacedDigit)
      | [] => (["inf", "Inf", "INF"] : List Text).contains fraction)
    || match t, fraction with
      | '.' :: _, d :: ds =>
        (Text.isDigit d && isExponentOrEnd (ds.dropWhile isSpacedDigit))
          || (["nan", "NaN", "NAN"] : List Text).contains (d :: ds)
      | _, _ => false
  | _ => false

structure Stamp where
  year : Text
  month : Text
  day : Text
  time : Option (Text × Text × Text) := none
  fraction : Text := []
  /-- The sign of the offset from universal time, its hours and its minutes. -/
  offset : Option (Char × Text × Text) := none
deriving DecidableEq, Repr

/-- Between `least` and `most` digits at the front, as many as there are. -/
def digitsBetween (least most : Nat) (t : Text) : Option (Text × Text) :=
  let run := (t.take most).takeWhile Text.isDigit
  if least ≤ run.length then some (run, t.drop run.length) else none

def readOffset (t : Text) : Option (Option (Char × Text × Text)) :=
  match t.dropWhile fun c => c == ' ' || c == '\t' with
  | [] => if t = [] then some none else none
  | ['Z'] => some none
  | s :: rest =>
    if s = '-' ∨ s = '+' then do
      let (hours, rest) ← digitsBetween 1 2 rest
      match rest with
      | [] => return some (s, hours, [])
      | ':' :: rest =>
        let (minutes, rest) ← digitsBetween 2 2 rest
        if rest = [] then return some (s, hours, minutes) else none
      | _ => none
    else none

def Stamp.read? (t : Text) : Option Stamp := do
  let (year, rest) ← digitsBetween 4 4 t
  let rest ← Text.after? "-" rest
  let (month, rest) ← digitsBetween 1 2 rest
  let rest ← Text.after? "-" rest
  let (day, rest) ← digitsBetween 1 2 rest
  if rest = [] then return { year, month, day }
  let rest ← match rest with
    | c :: more =>
      if c = 'T' ∨ c = 't' then some more
      else if c = ' ' ∨ c = '\t' then some (more.dropWhile fun c => c == ' ' || c == '\t')
      else none
    | [] => none
  let (hour, rest) ← digitsBetween 1 2 rest
  let rest ← Text.after? ":" rest
  let (minute, rest) ← digitsBetween 2 2 rest
  let rest ← Text.after? ":" rest
  let (second, rest) ← digitsBetween 2 2 rest
  let (fraction, rest) : Text × Text :=
    match rest with
    | '.' :: more => (more.takeWhile Text.isDigit, more.dropWhile Text.isDigit)
    | rest => ([], rest)
  let offset ← readOffset rest
  return { year, month, day, time := some (hour, minute, second), fraction, offset }

/-- A timestamp. A date alone needs two digits for month and day. -/
def isTimestamp (t : Text) : Bool :=
  match Stamp.read? t with
  | some s => s.time.isSome || (s.month.length == 2 && s.day.length == 2)
  | none => false

def truthWords : List Text := ["yes", "Yes", "YES", "no", "No", "NO", "true", "True", "TRUE", "false",
  "False", "FALSE", "on", "On", "ON", "off", "Off", "OFF"]

/-- The type of a plain scalar. One line feed at its end does not count. -/
def Tag.ofPlain (text : Text) : Tag :=
  let fits (p : Text → Bool) : Bool := p text || (Text.before? "\n" text).any p
  if fits truthWords.contains then .bool
  else if fits isFloat then .float
  else if fits isInt then .int
  else if fits (· == "<<") then .merge
  else if text = [] ∨ fits (["~", "null", "Null", "NULL"] : List Text).contains then .null
  else if fits isTimestamp then .timestamp
  else if fits (· == "=") then .value
  else if fits (["!", "&", "*"] : List Text).contains then .other
  else .str

end RouteAtlas.Yaml
