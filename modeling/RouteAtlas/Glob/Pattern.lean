import RouteAtlas.Glob.Basic
import RouteAtlas.Tree.Name

/-!
# Glob patterns

Patterns as people write them, read into globs: `**` spans directories, `*` and `?` stay inside one,
braces hold alternatives. `Matcher.ofPattern` also knows the one pattern that is decided by the
name of the file alone, and `base` gives the directory below which all matches lie.
-/

namespace RouteAtlas.Glob

/-- The text up to the brace that closes a group, and what follows it; `depth` counts the groups
opened inside. Nothing if the group is not closed. -/
def closing? : Nat → Text → Option (Text × Text)
  | _, [] => none
  | depth, c :: cs =>
    if c = '}' then
      match depth with
      | 0 => some ([], cs)
      | depth + 1 => (closing? depth cs).map fun (body, rest) => (c :: body, rest)
    else (closing? (if c = '{' then depth + 1 else depth) cs).map fun (body, rest) =>
      (c :: body, rest)

/-- The parts of a group between the commas that stand in no inner group. -/
def alternatives : Nat → Text → List Text
  | _, [] => [[]]
  | depth, c :: cs =>
    if c = ',' ∧ depth = 0 then [] :: alternatives depth cs
    else
      match alternatives (if c = '{' then depth + 1 else if c = '}' then depth - 1 else depth) cs with
      | part :: parts => (c :: part) :: parts
      | [] => [[c]]

/-- Reads a pattern; `fuel` bounds the number of steps. -/
def readGo : Nat → Text → Glob
  | 0, _ => empty
  | _ + 1, [] => empty
  | fuel + 1, '*' :: '*' :: '/' :: rest => seq directories (readGo fuel rest)
  | fuel + 1, '*' :: '*' :: rest => seq span (readGo fuel rest)
  | fuel + 1, '*' :: rest => seq segment (readGo fuel rest)
  | fuel + 1, '?' :: rest => seq inSegment (readGo fuel rest)
  | fuel + 1, '{' :: rest =>
    match closing? 0 rest with
    | some (body, after) =>
      seq (anyOf ((alternatives 0 body).map (readGo fuel))) (readGo fuel after)
    | none => seqAll (('{' :: rest).map char)
  | fuel + 1, c :: rest => seq (char c) (readGo fuel rest)

/-- The glob that a pattern denotes. -/
def read (pattern : Text) : Glob := readGo (pattern.length + 1) pattern

/-! ### Patterns against paths -/

inductive Matcher where
  | glob (g : Glob)
  /-- The path leads through `app/api` to a file of the name `route.ts` or `route.js`. -/
  | appRoute
deriving DecidableEq, Repr

/-- The matcher for a pattern. Patterns for the route files of an `app/api` directory are decided by
name, all others by their glob. -/
def Matcher.ofPattern (pattern : Text) : Matcher :=
  let pattern := Tree.plain pattern
  if Text.endsWith "route.\x7bts,js\x7d" pattern && Text.holds "app/api" pattern then .appRoute
  else .glob (read pattern)

def Matcher.accepts (m : Matcher) (path : Text) : Bool :=
  let path := Tree.plain path
  match m with
  | .glob g => g.accepts path
  | .appRoute =>
    Text.holds "app/api" path && (["route.ts", "route.js"] : List Text).contains (Tree.baseName path)

def anyMatches (path : Text) (patterns : List Text) : Bool :=
  patterns.any fun pattern => (Matcher.ofPattern pattern).accepts path

/-- The directory part of a pattern before its first wildcard or group: everything that the pattern
matches lies below it. -/
def base (pattern : Text) : Text :=
  let fixed := (Tree.plain pattern).takeWhile fun c => c ≠ '*' ∧ c ≠ '?' ∧ c ≠ '{'
  match fixed.reverse.dropWhile (· ≠ '/') with
  | _ :: front => front.reverse
  | [] => []

end RouteAtlas.Glob
