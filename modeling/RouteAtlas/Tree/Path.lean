import RouteAtlas.Text.Basic

/-!
# Paths

A path is a root and a list of segments; reading one drops empty segments and `.`, keeps `..`, and
follows no links. `relativeText` is the arithmetic of one path below another.
-/

namespace RouteAtlas

/-- A path: its root, which is empty for a relative path, and its segments. -/
structure Path where
  /-- Empty, one slash, or the two slashes that stand apart from one. -/
  root : Text
  segments : List Text
deriving DecidableEq, Repr

namespace Path

/-- The segments of a text that a path keeps. -/
def segmentsOf (t : Text) : List Text :=
  (Text.split '/' t).filter fun s => s ≠ [] ∧ s ≠ ['.']

def rootOf (t : Text) : Text :=
  match t with
  | '/' :: '/' :: '/' :: _ => "/"
  | '/' :: '/' :: _ => "//"
  | '/' :: _ => "/"
  | _ => []

def ofText (t : Text) : Path := ⟨rootOf t, segmentsOf t⟩

/-- The text of a path; that of the empty relative path is a dot. -/
def text (p : Path) : Text :=
  if p.root = [] ∧ p.segments = [] then "." else p.root ++ Text.join "/" p.segments

/-- The path below another, or the path itself if it has a root. -/
def below (p q : Path) : Path := if q.root = [] then ⟨p.root, p.segments ++ q.segments⟩ else q

def sub (p : Path) (t : Text) : Path := p.below (ofText t)

def parent (p : Path) : Path := ⟨p.root, p.segments.dropLast⟩

def name (p : Path) : Text := p.segments.getLast?.getD []

def behind? : List Text → List Text → Option (List Text)
  | [], rest => some rest
  | _ :: _, [] => none
  | a :: as, b :: bs => if a = b then behind? as bs else none

/-- The path relative to another that it lies below. -/
def relativeTo? (p base : Path) : Option Path :=
  if p.root = base.root then (behind? base.segments p.segments).map (⟨[], ·⟩) else none

/-- The text of a path relative to another, or of the path itself if it does not lie below. -/
def relativeText (p base : Path) : Text := ((p.relativeTo? base).getD p).text

/-- The segments with every `..` taking back the one before it. -/
def normalize (segments : List Text) : List Text :=
  segments.foldl (fun done s => if s = ['.', '.'] then done.dropLast else done ++ [s]) []

def absolute (segments : List Text) : Path := ⟨"/", segments⟩

/-! ### Laws -/

theorem behind?_append (base rest : List Text) : behind? base (base ++ rest) = some rest := by
  induction base with
  | nil => rfl
  | cons a as ih => simpa [behind?] using ih

theorem below_below (root : Path) (base s : List Text) :
    (root.below ⟨[], base⟩).below ⟨[], s⟩ = root.below ⟨[], base ++ s⟩ := by
  simp [below]

/-- A path below another is relative to it by the segments added. -/
theorem relativeTo?_below (base : Path) (segments : List Text) :
    (base.below ⟨[], segments⟩).relativeTo? base = some ⟨[], segments⟩ := by
  simp [below, relativeTo?, behind?_append]

end Path
end RouteAtlas
