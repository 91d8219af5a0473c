import RouteAtlas.Json.Basic
import RouteAtlas.Decimal.Reading
import RouteAtlas.Text.Scanner

/-!
# Reading JSON

The value that a text denotes, or nothing if the text is not JSON. `NaN`, `Infinity` and
`-Infinity` count as numbers; control characters may not stand in strings as themselves.
-/

namespace RouteAtlas.Json

/-- What follows the blanks of JSON. -/
def skip (t : Text) : Text := t.dropWhile fun c => c == ' ' || c == '\t' || c == '\n' || c == '\r'

def readHex4 : Text → Option (Nat × Text)
  | a :: b :: c :: d :: rest => do
    let a ← Text.hexDigit? a
    let b ← Text.hexDigit? b
    let c ← Text.hexDigit? c
    let d ← Text.hexDigit? d
    return (((a * 16 + b) * 16 + c) * 16 + d, rest)
  | _ => none

def joinSurrogates (high low : Nat) : Char :=
  Char.ofNat (0x10000 + (high - 0xD800) * 0x400 + (low - 0xDC00))

/-- The character of an escape with four digits, and what follows it. A surrogate without its
partner becomes the replacement character. -/
def readUnicode (t : Text) : Option (Char × Text) := do
  let (n, rest) ← readHex4 t
  if 0xD800 ≤ n ∧ n < 0xDC00 then
    match rest with
    | '\\' :: 'u' :: more =>
      let (m, rest') ← readHex4 more
      if 0xDC00 ≤ m ∧ m < 0xE000 then return (joinSurrogates n m, rest')
      else return ('\uFFFD', rest)
    | _ => return ('\uFFFD', rest)
  else if 0xDC00 ≤ n ∧ n < 0xE000 then return ('\uFFFD', rest)
  else return (Char.ofNat n, rest)

def simpleEscape? (c : Char) : Option Char :=
  [('"', '"'), ('\\', '\\'), ('/', '/'), ('b', '\x08'), ('f', '\x0c'), ('n', '\n'), ('r', '\r'),
    ('t', '\t')].lookup c

/-- The rest of a string up to its closing mark, and what follows; `fuel` bounds its length. -/
def readStringGo : Nat → Text → Option (Text × Text)
  | 0, _ => none
  | _ + 1, [] => none
  | fuel + 1, c :: cs =>
    if c = '"' then some ([], cs)
    else if c = '\\' then
      match cs with
      | 'u' :: rest => do
        let (x, rest) ← readUnicode rest
        let (t, rest) ← readStringGo fuel rest
        return (x :: t, rest)
      | e :: rest => do
        let x ← simpleEscape? e
        let (t, rest) ← readStringGo fuel rest
        return (x :: t, rest)
      | [] => none
    else if c.toNat < 32 then none
    else do
      let (t, rest) ← readStringGo fuel cs
      return (c :: t, rest)

def readString (t : Text) : Option (Text × Text) := readStringGo (t.length + 1) t

def readDigits (t : Text) : Text × Text := (t.takeWhile Text.isDigit, t.dropWhile Text.isDigit)

def readExponent : Text → Option (Int × Text)
  | c :: cs =>
    if c = 'e' ∨ c = 'E' then
      let (s, cs) := Decimal.sign cs
      match readDigits cs with
      | (d :: ds, rest) => some (s * Decimal.digitsValue (d :: ds), rest)
      | _ => none
    else none
  | [] => none

def readFraction : Text → Option (Text × Text)
  | '.' :: cs =>
    match readDigits cs with
    | (d :: ds, rest) => some (d :: ds, rest)
    | _ => none
  | _ => none

/-- A number: an integer of not too many digits, or a decimal with a fraction or an exponent. -/
def readNumber (t : Text) : Option (Json × Text) :=
  let (negative, t) : Bool × Text :=
    match t with
    | '-' :: t => (true, t)
    | t => (false, t)
  let (whole, rest) : Text × Text :=
    match t with
    | '0' :: rest => (['0'], rest)
    | t => readDigits t
  if whole = [] then none
  else
    let (fraction, rest) := ((readFraction rest).map fun (f, r) => (some f, r)).getD (none, rest)
    let (exponent, rest) := ((readExponent rest).map fun (e, r) => (some e, r)).getD (none, rest)
    match fraction, exponent with
    | none, none =>
      if whole.length > Decimal.digitLimit then none
      else
        let n : Int := Decimal.digitsValue whole
        some (integer (if negative then -n else n), rest)
    | fraction, exponent =>
      let x := Decimal.Parts.toFloat ⟨whole, fraction.getD [], exponent.getD 0⟩
      some (float (if negative then -x else x), rest)

def words : List (Text × Json) := [
  ("null", null), ("true", bool true), ("false", bool false), ("NaN", float (0 / 0)),
  ("Infinity", float (1 / 0)), ("-Infinity", float (-1 / 0))]

def readWord (t : Text) : Option (Json × Text) :=
  words.findSome? fun (word, value) => (Text.after? word t).map (value, ·)

mutual

/-- The value at the front of a text, and what follows it; `fuel` bounds the number of steps. -/
def readValue : Nat → Text → Option (Json × Text)
  | 0, _ => none
  | fuel + 1, t =>
    match t with
    | '"' :: rest => (readString rest).map fun (s, rest) => (string s, rest)
    | '[' :: rest =>
      match skip rest with
      | ']' :: rest => some (array [], rest)
      | rest => (readItems fuel rest).map fun (items, rest) => (array items, rest)
    | '{' :: rest =>
      match skip rest with
      | '}' :: rest => some (object [], rest)
      | rest => (readMembers fuel rest).map fun (members, rest) => (ofPairs members, rest)
    | t => (readWord t).or (readNumber t)

def readItems : Nat → Text → Option (List Json × Text)
  | 0, _ => none
  | fuel + 1, t => do
    let (item, rest) ← readValue fuel t
    match skip rest with
    | ',' :: rest => do
      let (items, rest) ← readItems fuel (skip rest)
      return (item :: items, rest)
    | ']' :: rest => return ([item], rest)
    | _ => none

def readMembers : Nat → Text → Option (List (Text × Json) × Text)
  | 0, _ => none
  | fuel + 1, t =>
    match t with
    | '"' :: rest => do
      let (name, rest) ← readString rest
      match skip rest with
      | ':' :: rest => do
        let (value, rest) ← readValue fuel (skip rest)
        match skip rest with
        | ',' :: rest => do
          let (members, rest) ← readMembers fuel (skip rest)
          return ((name, value) :: members, rest)
        | '}' :: rest => return ([(name, value)], rest)
        | _ => none
      | _ => none
    | _ => none

end

/-- The value that a text denotes, with blanks around it. -/
def parse? (t : Text) : Option Json :=
  match readValue (2 * t.length + 1) (skip t) with
  | some (value, rest) => if skip rest = [] then some value else none
  | none => none

end RouteAtlas.Json
