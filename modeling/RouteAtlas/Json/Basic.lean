import RouteAtlas.OrderedMap
import RouteAtlas.Text.Quoted
import RouteAtlas.Decimal.Shortest

/-!
# JSON

Values of JSON, with the members of an object in order, and the pretty-printed text of a value: two
spaces of indentation, ASCII only.
-/

namespace RouteAtlas

/-- A value. The members of an object are in order; `Json.ofPairs` makes their names distinct. -/
inductive Json where
  | null
  | bool (b : Bool)
  | integer (n : Int)
  | float (x : Float)
  | string (t : Text)
  | array (items : List Json)
  | object (members : List (Text × Json))

namespace Json

/-- An object from pairs: of equal names the last value counts, at the place of the first. -/
def ofPairs (pairs : List (Text × Json)) : Json := object (OrderedMap.ofList pairs).toList

def member? : Json → Text → Option Json
  | object members, name => members.lookup name
  | _, _ => none

/-! ### Printing -/

/-- A character of a string. Beyond the basic plane it is written as two surrogates. -/
def escape (c : Char) : Text :=
  if c = '"' then "\\\""
  else if c = '\\' then "\\\\"
  else if c = '\n' then "\\n"
  else if c = '\r' then "\\r"
  else if c = '\t' then "\\t"
  else if c = '\x0c' then "\\f"
  else if c = '\x08' then "\\b"
  else
    let n := c.toNat
    if 32 ≤ n ∧ n < 127 then [c]
    else if n < 0x10000 then "\\u" ++ Text.hex 4 n
    else "\\u" ++ Text.hex 4 (0xD800 + (n - 0x10000) / 0x400)
      ++ "\\u" ++ Text.hex 4 (0xDC00 + (n - 0x10000) % 0x400)

def quoted (t : Text) : Text := '"' :: t.flatMap escape ++ ['"']

def newline (level : Nat) : Text := '\n' :: List.replicate (2 * level) ' '

/-- How JSON writes what is no number. -/
def floatLayout : Decimal.Layout := { Decimal.Layout.standard with
  infinite := "Infinity"
  undefined := "NaN" }

mutual

/-- The text of a value whose lines are indented to a level. -/
def render (level : Nat) : Json → Text
  | null => "null"
  | bool b => if b then "true" else "false"
  | integer n => Decimal.integerText n
  | float x => Decimal.ofBits floatLayout x.toBits.toNat
  | string t => quoted t
  | array [] => "[]"
  | array (item :: items) =>
    '[' :: newline (level + 1) ++ render (level + 1) item ++ renderItems (level + 1) items
      ++ newline level ++ "]"
  | object [] => "\x7b\x7d"
  | object ((name, value) :: members) =>
    '{' :: newline (level + 1) ++ quoted name ++ ": " ++ render (level + 1) value
      ++ renderMembers (level + 1) members ++ newline level ++ "\x7d"

def renderItems (level : Nat) : List Json → Text
  | [] => []
  | item :: items => ',' :: newline level ++ render level item ++ renderItems level items

def renderMembers (level : Nat) : List (Text × Json) → Text
  | [] => []
  | (name, value) :: members =>
    ',' :: newline level ++ quoted name ++ ": " ++ render level value ++ renderMembers level members

end

def print (j : Json) : Text := render 0 j

end Json
end RouteAtlas
