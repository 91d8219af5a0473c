import RouteAtlas.Text.Class

/-!
# Quoted texts

How messages show a text: between quotation marks, with escapes for what cannot be shown as itself.
-/

namespace RouteAtlas.Text

def hexDigit (n : Nat) : Char := Nat.digitChar (n % 16)

/-- The last `width` digits of a number in base sixteen. -/
def hex : Nat → Nat → Text
  | 0, _ => []
  | width + 1, n => hex width (n / 16) ++ [hexDigit n]

def quotedChar (mark c : Char) : Text :=
  if c = mark ∨ c = '\\' then ['\\', c]
  else if c = '\n' then "\\n"
  else if c = '\r' then "\\r"
  else if c = '\t' then "\\t"
  else if isPrintable c then [c]
  else if c.toNat < 0x100 then "\\x" ++ hex 2 c.toNat
  else if c.toNat < 0x10000 then "\\u" ++ hex 4 c.toNat
  else "\\U" ++ hex 8 c.toNat

/-- A text between single quotation marks, or between double ones where it holds single ones and no
double ones. -/
def quote (t : Text) : Text :=
  let mark : Char := if t.contains '\'' && !t.contains '"' then '"' else '\''
  mark :: t.flatMap (quotedChar mark) ++ [mark]

end RouteAtlas.Text
