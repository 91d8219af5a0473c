import RouteAtlas.Text.Basic

/-!
# Base 64

Bytes written with 64 characters, four of which carry three bytes. Characters outside the alphabet are
passed over; the padding at the end has to be complete.
-/

namespace RouteAtlas.Text

def sextet? (c : Char) : Option Nat :=
  if 'A' ≤ c ∧ c ≤ 'Z' then some (c.toNat - 65)
  else if 'a' ≤ c ∧ c ≤ 'z' then some (c.toNat - 71)
  else if '0' ≤ c ∧ c ≤ '9' then some (c.toNat + 4)
  else if c = '+' then some 62
  else if c = '/' then some 63
  else none

/-- Decodes a text, given how many characters of the current group have been read, the bits that they
have left over, and the padding seen since the last character. -/
def base64Go : (read left pads : Nat) → Text → Option (List UInt8)
  | read, _, _, [] => if read = 0 then some [] else none
  | read, left, pads, c :: cs =>
    if c = '=' then
      if read < 2 then base64Go read left pads cs
      else if 4 ≤ read + pads + 1 then some []
      else base64Go read left (pads + 1) cs
    else
      match sextet? c with
      | none => base64Go read left pads cs
      | some v =>
        match read with
        | 0 => base64Go 1 v 0 cs
        | 1 => (base64Go 2 (v % 16) 0 cs).map (UInt8.ofNat (left * 4 + v / 16) :: ·)
        | 2 => (base64Go 3 (v % 4) 0 cs).map (UInt8.ofNat (left * 16 + v / 4) :: ·)
        | _ => (base64Go 0 0 0 cs).map (UInt8.ofNat (left * 64 + v) :: ·)

/-- The bytes that a text denotes, or nothing if it ends in the middle of a group. -/
def ofBase64 (t : Text) : Option (List UInt8) := base64Go 0 0 0 t

end RouteAtlas.Text
