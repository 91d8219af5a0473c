import RouteAtlas.Yaml.Token
import RouteAtlas.Text.Class
import RouteAtlas.Text.Utf8

/-!
# Lexemes of YAML

Scalars in their four styles, anchors, tags and directives, each read from the mark where it
starts. Loops are bounded by the length of what follows.
-/

namespace RouteAtlas.Yaml

def isNameChar (c : Char) : Bool := Text.isLetter c || Text.isDigit c || c == '-' || c == '_'

/-! ### Quoted scalars -/

/-- The line breaks ahead, with spaces and tabs around them passed over. A document boundary must not
stand there. -/
def quotedBreaks : Nat → Mark → Except Fault (Text × Mark)
  | 0, _ => .error .malformed
  | fuel + 1, m =>
    if m.atBoundary then .error .malformed
    else
      let m := m.pass fun c => c == ' ' || c == '\t'
      match m.lineBreak? with
      | some (c, m) => (quotedBreaks fuel m).map fun (t, m) => (c :: t, m)
      | none => .ok ([], m)

/-- What a line break and the breaks after it read as: one break alone is a space. -/
def folded (first : Char) (more : Text) : Text :=
  if first ≠ '\n' then first :: more else if more = [] then [' '] else more

def quotedSpaces (m : Mark) : Except Fault (Text × Mark) :=
  let blanks := m.run fun c => c == ' ' || c == '\t'
  let m := m.skip blanks.length
  match m.peek with
  | none => .error .malformed
  | some _ =>
    match m.lineBreak? with
    | some (first, m) =>
      (quotedBreaks (m.rest.length + 1) m).map fun (more, m) => (folded first more, m)
    | none => .ok (blanks, m)

def escapes : List (Char × Char) := [
  ('0', '\x00'), ('a', '\x07'), ('b', '\x08'), ('t', '\t'), ('\t', '\t'), ('n', '\n'), ('v', '\x0b'),
  ('f', '\x0c'), ('r', '\r'), ('e', '\x1b'), (' ', ' '), ('"', '"'), ('\\', '\\'), ('/', '/'),
  ('N', '\x85'), ('_', '\xa0'), ('L', '\u2028'), ('P', '\u2029')]

def escapeDigits? (c : Char) : Option Nat :=
  if c = 'x' then some 2 else if c = 'u' then some 4 else if c = 'U' then some 8 else none

def hexValue? (t : Text) : Option Nat :=
  t.foldlM (fun n c => (Text.hexDigit? c).map (n * 16 + ·)) 0

/-- The character of an escape whose backslash has been passed; nothing for an escaped line break. -/
def escape (m : Mark) : Except Fault (Text × Mark) :=
  match m.peek with
  | none => .error .malformed
  | some c =>
    match escapes.lookup c with
    | some x => .ok ([x], m.next)
    | none =>
      match escapeDigits? c with
      | some count =>
        let digits := m.next.rest.take count
        if digits.length < count then .error .malformed
        else
          match hexValue? digits with
          | none => .error .malformed
          | some n =>
            if n < 0x110000 then .ok ([Char.ofNat n], m.next.skip count)
            else .error (.codePoint n)
      | none =>
        match m.lineBreak? with
        | some (_, m) => quotedBreaks (m.rest.length + 1) m
        | none => .error .malformed

/-- The text of a quoted scalar up to the next blank or the closing mark. -/
def quotedWord (double : Bool) : Nat → Mark → Except Fault (Text × Mark)
  | 0, _ => .error .malformed
  | fuel + 1, m =>
    let plain := m.run fun c =>
      !(c == '\'' || c == '"' || c == '\\' || c == ' ' || c == '\t' || isBreak c)
    let m := m.skip plain.length
    let more (t : Text) (m : Mark) : Except Fault (Text × Mark) :=
      (quotedWord double fuel m).map fun (rest, m) => (plain ++ t ++ rest, m)
    match m.peek with
    | some '\'' =>
      if double then more "'" m.next
      else if m.peek 1 = some '\'' then more "'" (m.skip 2)
      else .ok (plain, m)
    | some '"' => if double then .ok (plain, m) else more "\"" m.next
    | some '\\' =>
      if double then
        match escape m.next with
        | .ok (t, m) => more t m
        | .error f => .error f
      else more "\\" m.next
    | _ => .ok (plain, m)

def quotedRest (double : Bool) : Nat → Mark → Except Fault (Text × Mark)
  | 0, _ => .error .malformed
  | fuel + 1, m => do
    let (word, m) ← quotedWord double (m.rest.length + 1) m
    if m.at? (if double then '"' else '\'') then return (word, m.next)
    else
      let (spaces, m) ← quotedSpaces m
      let (rest, m) ← quotedRest double fuel m
      return (word ++ spaces ++ rest, m)

def quotedScalar (double : Bool) (m : Mark) : Except Fault (Text × Mark) :=
  quotedRest double (m.rest.length + 1) m.next

/-! ### Plain scalars -/

/-- A plain scalar goes on with this character, `after` being the one behind it. -/
def continuesPlain (inFlow : Bool) (c : Char) (after : Option Char) : Bool :=
  !(isGap (some c)
    || (c == ':' && (isGap after || (inFlow && after.any fun a => (",[]\x7b\x7d" : Text).contains a)))
    || (inFlow && (",?[]\x7b\x7d" : Text).contains c))

def plainWord (inFlow : Bool) : Text → Text
  | [] => []
  | c :: cs => if continuesPlain inFlow c cs.head? then c :: plainWord inFlow cs else []

/-- The line breaks ahead, with spaces between them passed over, and whether they end at a document
boundary. -/
def plainBreaks : Nat → Mark → Text × Bool × Mark
  | 0, m => ([], false, m)
  | fuel + 1, m =>
    let m := m.pass (· == ' ')
    match m.lineBreak? with
    | some (c, m) =>
      if m.atBoundary then ([c], true, m)
      else
        let (t, ended, m) := plainBreaks fuel m
        (c :: t, ended, m)
    | none => ([], false, m)

/-- The blanks behind a word of a plain scalar: what they read as, empty where the scalar ends, and
whether there is a line break among them. -/
def plainSpaces (m : Mark) : Text × Bool × Mark :=
  let blanks := m.run (· == ' ')
  let m := m.skip blanks.length
  match m.lineBreak? with
  | some (first, m) =>
    if m.atBoundary then ([], true, m)
    else
      let (more, ended, m) := plainBreaks (m.rest.length + 1) m
      (if ended then [] else folded first more, true, m)
  | none => (blanks, false, m)

/-- A plain scalar whose words before have been read; `spaces` stand before the next word, and the
lines of the scalar are indented by `indent` at least. Gives its text and whether it ends behind a
line break. -/
def plainRest (inFlow : Bool) (indent : Int) : Nat → Text → Bool → Mark → Text × Bool × Mark
  | 0, _, broken, m => ([], broken, m)
  | fuel + 1, spaces, broken, m =>
    let word := if m.at? '#' then [] else plainWord inFlow m.rest
    if word = [] then ([], broken, m)
    else
      let (after, broken, m) := plainSpaces (m.skip word.length)
      if after = [] ∨ m.at? '#' ∨ (!inFlow ∧ (m.column : Int) < indent) then
        (spaces ++ word, broken, m)
      else
        let (rest, broken, m) := plainRest inFlow indent fuel after broken m
        (spaces ++ word ++ rest, broken, m)

def plainScalar (inFlow : Bool) (indent : Int) (m : Mark) : Text × Bool × Mark :=
  plainRest inFlow indent (m.rest.length + 1) [] false m

/-! ### Block scalars -/

inductive Chomping where
  | strip
  | clip
  | keep
deriving DecidableEq, Repr

def chomping? : Option Char → Option Chomping
  | some '+' => some .keep
  | some '-' => some .strip
  | _ => none

def increment? : Option Char → Option Nat
  | some c => if Text.isDigit c then some (c.toNat - 48) else none
  | none => none

/-- The header of a block scalar: chomping and indentation in either order. -/
def blockHeader (m : Mark) : Except Fault ((Chomping × Option Nat) × Mark) :=
  let (chomping, increment, m) : Option Chomping × Option Nat × Mark :=
    match chomping? m.peek with
    | some c =>
      match increment? m.next.peek with
      | some n => (some c, some n, m.skip 2)
      | none => (some c, none, m.next)
    | none =>
      match increment? m.peek with
      | some n =>
        match chomping? m.next.peek with
        | some c => (some c, some n, m.skip 2)
        | none => (none, some n, m.next)
      | none => (none, none, m)
  if increment = some 0 ∨ !isSpaceOrEnd m.peek then .error .malformed
  else
    match m.restOfLine? with
    | some m => .ok ((chomping.getD .clip, increment), m)
    | none => .error .malformed

/-- The line breaks before the first line of a block scalar, and the greatest column among the
spaces before it. -/
def blockIndentation : Nat → Nat → Mark → Text × Nat × Mark
  | 0, widest, m => ([], widest, m)
  | fuel + 1, widest, m =>
    let m := m.pass (· == ' ')
    let widest := max widest m.column
    match m.lineBreak? with
    | some (c, m) =>
      let (t, widest, m) := blockIndentation fuel widest m
      (c :: t, widest, m)
    | none => ([], widest, m)

def toColumn (column : Nat) (m : Mark) : Mark :=
  m.skip (min (column - m.column) (m.run (· == ' ')).length)

/-- The line breaks ahead of a line of a block scalar, with the indentation passed over. -/
def blockBreaks (indent : Nat) : Nat → Mark → Text × Mark
  | 0, m => ([], m)
  | fuel + 1, m =>
    let m := toColumn indent m
    match m.lineBreak? with
    | some (c, m) =>
      let (t, m) := blockBreaks indent fuel m
      (c :: t, m)
    | none => ([], m)

def atBlockLine (indent : Nat) (m : Mark) : Bool := m.column == indent && m.peek.isSome

/-- The lines of a block scalar, `breaks` standing before the first. Gives the text without the line
breaks at its end, the first of these and the others. -/
def blockLines (fold : Bool) (indent : Nat) : Nat → Text → Mark → Text × Text × Text × Mark
  | 0, breaks, m => ([], [], breaks, m)
  | fuel + 1, breaks, m =>
    if !atBlockLine indent m then ([], [], breaks, m)
    else
      let flush := !(m.at? ' ' || m.at? '\t')
      let line := m.run (!isBreak ·)
      let m := m.skip line.length
      let (lineBreak, m) : Text × Mark :=
        match m.lineBreak? with
        | some (c, m) => ([c], m)
        | none => ([], m)
      let (after, m) := blockBreaks indent (m.rest.length + 1) m
      if atBlockLine indent m then
        let glue : Text :=
          if fold ∧ lineBreak = ['\n'] ∧ flush ∧ !(m.at? ' ' || m.at? '\t') then
            if after = [] then [' '] else []
          else lineBreak
        let (rest, last, breaks', m) := blockLines fold indent fuel after m
        (breaks ++ line ++ glue ++ rest, last, breaks', m)
      else (breaks ++ line, lineBreak, after, m)

def blockScalar (fold : Bool) (outer : Int) (m : Mark) : Except Fault (Text × Mark) := do
  let ((chomping, increment), m) ← blockHeader m.next
  let least := max (outer + 1).toNat 1
  let (breaks, indent, m) : Text × Nat × Mark :=
    match increment with
    | none =>
      let (breaks, widest, m) := blockIndentation (m.rest.length + 1) 0 m
      (breaks, max least widest, m)
    | some n =>
      let indent := least + n - 1
      let (breaks, m) := blockBreaks indent (m.rest.length + 1) m
      (breaks, indent, m)
  let (text, last, after, m) := blockLines fold indent (m.rest.length + 1) breaks m
  return (match chomping with
    | .strip => text
    | .clip => text ++ last
    | .keep => text ++ last ++ after, m)

/-! ### Anchors, tags and directives -/

def anchorName (m : Mark) : Except Fault (Text × Mark) :=
  let m := m.next
  let name := m.run isNameChar
  let m := m.skip name.length
  if name = [] then .error .malformed
  else if isGap m.peek || m.peek.any fun c => ("?:,]\x7d%@\x60" : Text).contains c then .ok (name, m)
  else .error .malformed

/-- A handle: an exclamation mark, or a name between two. -/
def tagHandle (m : Mark) : Except Fault (Text × Mark) :=
  if !m.at? '!' then .error .malformed
  else
    let name := m.next.run isNameChar
    let behind := m.next.skip name.length
    if m.next.at? ' ' then .ok ("!", m.next)
    else if behind.at? '!' then .ok ('!' :: name ++ ['!'], behind.next)
    else .error .malformed

def isUriChar (c : Char) : Bool :=
  Text.isLetter c || Text.isDigit c || ("-;/?:@&=+$,_.!~*'()[]" : Text).contains c

/-- The bytes of escapes ahead, two hexadecimal digits each behind a percent sign. -/
def uriBytes : Nat → Mark → Except Fault (List UInt8 × Mark)
  | 0, m => .ok ([], m)
  | fuel + 1, m =>
    if !m.at? '%' then .ok ([], m)
    else
      match m.next.peek.bind Text.hexDigit?, (m.next.peek 1).bind Text.hexDigit? with
      | some a, some b =>
        (uriBytes fuel (m.skip 3)).map fun (bytes, m) => (UInt8.ofNat (a * 16 + b) :: bytes, m)
      | _, _ => .error .malformed

def uriRest : Nat → Mark → Except Fault (Text × Mark)
  | 0, m => .ok ([], m)
  | fuel + 1, m =>
    let plain := m.run isUriChar
    let m := m.skip plain.length
    if m.at? '%' then do
      let (bytes, m) ← uriBytes (m.rest.length + 1) m
      match Text.ofUtf8 bytes with
      | .ok t =>
        let (rest, m) ← uriRest fuel m
        return (plain ++ t ++ rest, m)
      | .error _ => .error .malformed
    else .ok (plain, m)

def uri (m : Mark) : Except Fault (Text × Mark) := do
  let (t, m') ← uriRest (m.rest.length + 1) m
  if m'.index = m.index then .error .malformed else return (t, m')

def tag (m : Mark) : Except Fault ((Option Text × Text) × Mark) := do
  let ((handle, suffix), m) ← (
    if m.peek 1 = some '<' then do
      let (t, m) ← uri (m.skip 2)
      if m.at? '>' then return ((none, t), m.next) else .error .malformed
    else if isGap (m.peek 1) then return ((none, "!"), m.next)
    else do
      let word := m.next.run fun c => !(c == ' ' || isBreak c)
      let (handle, m) ← if word.contains '!' then tagHandle m else pure ("!", m.next)
      let (t, m) ← uri m
      return ((some handle, t), m) : Except Fault ((Option Text × Text) × Mark))
  if isSpaceOrEnd m.peek then return ((handle, suffix), m) else .error .malformed

def number (m : Mark) : Except Fault (Nat × Mark) :=
  let digits := m.run Text.isDigit
  if digits = [] then .error .malformed
  else .ok (digits.foldl (fun n c => n * 10 + (c.toNat - 48)) 0, m.skip digits.length)

def directive (m : Mark) : Except Fault (Directive × Mark) := do
  let m := m.next
  let name := m.run isNameChar
  let m := m.skip name.length
  if name = [] ∨ !isSpaceOrEnd m.peek then .error .malformed
  let (d, m) ← (
    if name = "YAML" then do
      let (major, m) ← number (m.pass (· == ' '))
      if !m.at? '.' then .error .malformed
      let (_, m) ← number m.next
      if isSpaceOrEnd m.peek then return (.version major, m) else .error .malformed
    else if name = "TAG" then do
      let (handle, m) ← tagHandle (m.pass (· == ' '))
      if !m.at? ' ' then .error .malformed
      let (start, m) ← uri (m.pass (· == ' '))
      if isSpaceOrEnd m.peek then return (.handle handle start, m) else .error .malformed
    else return (.other, m.pass (!isBreak ·)) : Except Fault (Directive × Mark))
  match m.restOfLine? with
  | some m => return (d, m)
  | none => .error .malformed

end RouteAtlas.Yaml
