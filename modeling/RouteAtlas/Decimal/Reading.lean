import RouteAtlas.Decimal.Integer

/-!
# Reading decimals

Texts such as `-1.5e3` as floating-point numbers, correctly rounded. Exponents far outside the range
are cut down first, so that the work stays small.
-/

namespace RouteAtlas.Decimal

/-- The number nearest to `digits · 10^exponent`. -/
def toFloat (digits : Nat) (exponent : Int) : Float :=
  let size : Int := (natText digits).length + exponent
  if digits = 0 ∨ size < -400 then 0
  else if size > 400 then 1 / 0
  else if exponent < 0 then Float.ofScientific digits true exponent.natAbs
  else Float.ofScientific digits false exponent.natAbs

structure Parts where
  whole : Text
  fraction : Text
  exponent : Int

def Parts.toFloat (p : Parts) : Float :=
  let value := (p.whole ++ p.fraction).foldl (fun n c => n * 10 + (Text.digit? c).getD 0) 0
  Decimal.toFloat value (p.exponent - p.fraction.length)

def digitsValue (t : Text) : Nat := t.foldl (fun n c => n * 10 + (Text.digit? c).getD 0) 0

/-- Digits with single underscores between them, without the underscores, and what follows. -/
def digitRun (t : Text) : Option (Text × Text) :=
  let run := t.takeWhile fun c => (Text.digit? c).isSome || c == '_'
  let rest := t.dropWhile fun c => (Text.digit? c).isSome || c == '_'
  if run = [] then some ([], rest)
  else if (digitsGo 10 true 0 0 run).isSome then some (run.filter (· ≠ '_'), rest)
  else none

/-- An exponent at the end of a decimal, zero where there is none. -/
def exponentAtEnd : Text → Option Int
  | [] => some 0
  | c :: cs =>
    if c = 'e' ∨ c = 'E' then
      let (s, cs) := sign cs
      match digitRun cs with
      | some (d :: ds, []) => some (s * digitsValue (d :: ds))
      | _ => none
    else none

/-- The number that a text denotes, surrounded by blanks, with a sign if there is one: a decimal,
infinity or no number. -/
def readFloat (t : Text) : Option Float :=
  let (s, body) := sign (Text.trim isBlank t)
  let signed (x : Float) : Float := if s < 0 then -x else x
  let lower := body.map Char.toLower
  if lower = "inf" ∨ lower = "infinity" then some (signed (1 / 0))
  else if lower = "nan" then some (0 / 0)
  else do
    let (whole, rest) ← digitRun body
    let (fraction, rest) ← match rest with
      | '.' :: rest =>
        -- the point ends a run of digits, so no underscore may stand on either side of it
        digitRun rest
      | rest => some ([], rest)
    guard (whole ≠ [] ∨ fraction ≠ [])
    let e ← exponentAtEnd rest
    return signed (Parts.toFloat ⟨whole, fraction, e⟩)

end RouteAtlas.Decimal
