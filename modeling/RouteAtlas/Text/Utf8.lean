import RouteAtlas.Text.Quoted
import RouteAtlas.Decimal.Integer

/-!
# UTF-8

Bytes as text and back. Ill-formed bytes are left out, or reported with their position. A carriage
return, alone or before a line feed, reads as a line feed.
-/

namespace RouteAtlas.Text

def utf8 (t : Text) : List UInt8 := t.flatMap String.utf8EncodeChar

inductive Utf8Reason where
  | start
  | continuation
  | truncated
deriving DecidableEq, Repr

/-- Ill-formed bytes: where they start, how many they are, the first of them, and what is wrong. -/
structure Utf8Fault where
  position : Nat
  length : Nat
  byte : UInt8
  reason : Utf8Reason
deriving DecidableEq, Repr

/-- The continuation bytes of a character: `need` of them, the next one between `low` and `high`.
Gives the code point and what follows, or the number of bytes that fit and what is wrong. -/
def continued (seen value : Nat) : Nat → Nat → Nat → List UInt8 →
    Except (Nat × Utf8Reason) (Nat × List UInt8)
  | 0, _, _, bytes => .ok (value, bytes)
  | _ + 1, _, _, [] => .error (seen, .truncated)
  | need + 1, low, high, b :: bytes =>
    if low ≤ b.toNat ∧ b.toNat ≤ high then
      continued (seen + 1) (value * 64 + (b.toNat - 0x80)) need 0x80 0xBF bytes
    else .error (seen, .continuation)

/-- The character at the front and what follows it, or the number of ill-formed bytes and what is
wrong with them. -/
def front (b : UInt8) (bytes : List UInt8) : Except (Nat × Utf8Reason) (Nat × List UInt8) :=
  let n := b.toNat
  if n < 0x80 then .ok (n, bytes)
  else if n < 0xC2 then .error (1, .start)
  else if n < 0xE0 then continued 1 (n - 0xC0) 1 0x80 0xBF bytes
  else if n < 0xF0 then
    continued 1 (n - 0xE0) 2 (if n = 0xE0 then 0xA0 else 0x80) (if n = 0xED then 0x9F else 0xBF)
      bytes
  else if n < 0xF5 then
    continued 1 (n - 0xF0) 3 (if n = 0xF0 then 0x90 else 0x80) (if n = 0xF4 then 0x8F else 0xBF)
      bytes
  else .error (1, .start)

/-- The text of bytes without the ill-formed ones; `fuel` bounds the number of bytes. -/
def lossyGo : Nat → List UInt8 → Text
  | 0, _ => []
  | _ + 1, [] => []
  | fuel + 1, b :: bytes =>
    match front b bytes with
    | .ok (n, rest) => Char.ofNat n :: lossyGo fuel rest
    | .error _ => lossyGo fuel bytes

/-- The text of bytes, where ill-formed bytes are left out. -/
def ofUtf8Lossy (bytes : List UInt8) : Text := lossyGo bytes.length bytes

/-- The text of bytes that stand at a position, or the first fault; `fuel` bounds the number of
bytes. -/
def strictGo : Nat → Nat → List UInt8 → Except Utf8Fault Text
  | 0, _, _ => .ok []
  | _ + 1, _, [] => .ok []
  | fuel + 1, position, b :: bytes =>
    match front b bytes with
    | .ok (n, rest) =>
      (strictGo fuel (position + (bytes.length + 1 - rest.length)) rest).map (Char.ofNat n :: ·)
    | .error (length, reason) => .error ⟨position, length, b, reason⟩

/-- The text of well-formed bytes, or the first fault. -/
def ofUtf8 (bytes : List UInt8) : Except Utf8Fault Text := strictGo bytes.length 0 bytes

def withoutMark : List UInt8 → List UInt8
  | 0xEF :: 0xBB :: 0xBF :: bytes => bytes
  | bytes => bytes

/-- Line feeds for carriage returns, one for a carriage return and a line feed together. -/
def plainLines : Text → Text
  | '\r' :: '\n' :: cs => '\n' :: plainLines cs
  | c :: cs => (if c = '\r' then '\n' else c) :: plainLines cs
  | [] => []

def Utf8Reason.text : Utf8Reason → Text
  | start => "invalid start byte"
  | continuation => "invalid continuation byte"
  | truncated => "unexpected end of data"

def Utf8Fault.message (f : Utf8Fault) : Text :=
  let place : Text :=
    if f.length = 1 then
      "byte 0x" ++ hex 2 f.byte.toNat ++ " in position " ++ Decimal.natText f.position
    else
      "bytes in position " ++ Decimal.natText f.position ++ '-'
        :: Decimal.natText (f.position + f.length - 1)
  "'utf-8' codec can't decode " ++ place ++ ": " ++ f.reason.text

end RouteAtlas.Text
