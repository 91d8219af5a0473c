import RouteAtlas.Text.Quoted
import RouteAtlas.Decimal.Integer

/-!
# Faults of YAML

Why a text gives no value, and how this is said. A text that is not YAML is one fault; the others come
from scalars that do not fit their type.
-/

namespace RouteAtlas.Yaml

inductive DatePart where
  | year
  | month
  | day
  | hour
  | minute
  | second
deriving DecidableEq, Repr

inductive Fault where
  /-- It is not YAML, or it asks for something that has no value. -/
  | malformed
  | codePoint (n : Nat)
  | integer (base : Nat) (text : Text)
  /-- An integer has more digits than are read. -/
  | longInteger (digits : Nat)
  | float (text : Text)
  | range
  | noDigits
  | truth (text : Text)
  /-- A text is no timestamp. -/
  | timestamp
  /-- A mapping stands where the text of a timestamp is looked for. -/
  | stampOfMapping
  | date (part : DatePart)
  /-- The offset of a timestamp, in minutes, is a day or more. -/
  | offset (minutes : Int)
  /-- The value of a mapping leads back to the mapping. -/
  | circular
deriving DecidableEq, Repr

def DatePart.message : DatePart → Text
  | year => "year 0 is out of range"
  | month => "month must be in 1..12"
  | day => "day is out of range for month"
  | hour => "hour must be in 0..23"
  | minute => "minute must be in 0..59"
  | second => "second must be in 0..59"

/-- A length of time as days and seconds, of which only the days may be negative. -/
def durationText (minutes : Int) : Text :=
  let days := minutes.fdiv 1440
  let seconds := (minutes.fmod 1440) * 60
  let further : Text := if seconds = 0 then [] else ", seconds=" ++ Decimal.integerText seconds
  "datetime.timedelta(days=" ++ Decimal.integerText days ++ further ++ [')']

/-- The limit on digits, as messages name it. -/
def limitText : Text :=
  "Exceeds the limit (" ++ Decimal.natText Decimal.digitLimit ++ " digits) for integer string conversion"

def limitAdvice : Text := "; use sys.set_int_max_str_digits() to increase the limit"

def Fault.message : Fault → Text
  | malformed => "malformed"
  | codePoint n =>
    if n < Nat.pow 2 31 then "chr() arg not in range(0x110000)"
    else "Python int too large to convert to C int"
  | integer base t =>
    "invalid literal for int() with base " ++ Decimal.natText base ++ ": " ++ (Text.quote t).take 200
  | longInteger digits =>
    limitText ++ ": value has " ++ Decimal.natText digits ++ " digits" ++ limitAdvice
  | float t => "could not convert string to float: " ++ Text.quote t
  | range => "int too large to convert to float"
  | noDigits => "string index out of range"
  | truth t => Text.quote t
  | timestamp => "'NoneType' object has no attribute 'groupdict'"
  | stampOfMapping => "expected string or bytes-like object, got 'list'"
  | date part => part.message
  | offset minutes =>
    "offset must be a timedelta strictly between -timedelta(hours=24) and timedelta(hours=24), not "
      ++ durationText minutes ++ "."
  | circular => "maximum recursion depth exceeded"

end RouteAtlas.Yaml
