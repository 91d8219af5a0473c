import RouteAtlas.Extract.Django
import RouteAtlas.Proofs.Extract.Parameters
import RouteAtlas.Proofs.Scanner.Quoted

/-!
# Names of placeholders

Which names the placeholders of a text have. `NamesOf` lists the names of all parts of a text that are
written in a given form, and `namesOf_iff` says that a scanner which reads the form finds exactly
these names. `converter` reads the form `Converted`, `braced` the form `Braced`. A slash before or
behind a path changes nothing.
-/

namespace RouteAtlas.Extract

open Scanner Route

variable {written : Text → Text → Prop} {s : Scanner Text} {b : Option Char} {t : Text}
  {names : List Text} {x y : Char}

/-! ### Parts written in a form -/

/-- The names of the parts of a text that are written in a form, which says what is written for which
name. The parts are read from the left and do not overlap. -/
inductive NamesOf (written : Text → Text → Prop) : Text → List Text → Prop where
  | stop : NamesOf written [] []
  | name {w n t : Text} {names : List Text} (here : written w n) (more : NamesOf written t names) :
      NamesOf written (w ++ t) (n :: names)
  | other {x : Char} {t : Text} {names : List Text} (fails : ∀ w n, written w n → ¬ w <+: x :: t)
      (more : NamesOf written t names) : NamesOf written (x :: t) names

/-- The scanner reads what is written in the form, and gives its name. -/
structure ReadsWritten (s : Scanner Text) (written : Text → Text → Prop) : Prop where
  consumes : Consumes s
  shape : ∀ {b r n c'}, s ⟨b, r⟩ = some (n, c') → ∃ w, written w n ∧ r = w ++ c'.rest
  reads : ∀ {w n} b rest, written w n → ∃ b', s ⟨b, w ++ rest⟩ = some (n, ⟨b', rest⟩)

theorem namesOf_finds (reads : ReadsWritten s written) (b : Option Char) (t : Text) :
    NamesOf written t (finds (piecesAt s ⟨b, t⟩)) := by
  refine piecesAt_induction reads.consumes
    (motive := fun _ t ps => NamesOf written t (finds ps)) ?_ ?_ ?_ b t
  · intro b
    exact .stop
  · intro b x t nothing more
    refine .other ?_ more
    intro w n here ⟨rest, text⟩
    obtain ⟨b', found⟩ := reads.reads b rest here
    rw [text, nothing] at found
    cases found
  · intro b w n t _ found more
    obtain ⟨w', here, text⟩ := reads.shape found
    obtain rfl : w = w' := List.append_cancel_right text
    exact .name here more

theorem finds_of_namesOf (reads : ReadsWritten s written) (h : NamesOf written t names)
    (b : Option Char) : finds (piecesAt s ⟨b, t⟩) = names := by
  induction h generalizing b with
  | stop => rfl
  | name here _ ih =>
    obtain ⟨b', found⟩ := reads.reads b _ here
    rw [piecesAt_of_some reads.consumes found]
    exact congrArg (_ :: ·) (ih b')
  | @other x t _ fails _ ih =>
    have nothing : s ⟨b, x :: t⟩ = none := eq_none_of_forall fun n c' found => by
      obtain ⟨w, here, text⟩ := reads.shape found
      exact fails w n here ⟨c'.rest, text.symm⟩
    rw [piecesAt_of_none nothing]
    exact ih _

/-- A scanner that reads the form finds the names, and no others are the names. -/
theorem namesOf_iff (reads : ReadsWritten s written) :
    NamesOf written t names ↔ s.findAll t = names := by
  constructor
  · intro h
    exact finds_of_namesOf reads h none
  · intro h
    exact h ▸ namesOf_finds reads none t

/-- Where nothing is written in the form there are no names. -/
theorem namesOf_absent (absent : ∀ w n, written w n → ¬ w <:+: t) :
    NamesOf written t names ↔ names = [] := by
  constructor
  · intro h
    induction h with
    | stop => rfl
    | name here => exact absurd (List.prefix_append _ _).isInfix (absent _ _ here)
    | other _ _ ih =>
      apply ih
      intro w n here inside
      exact absent w n here (List.infix_cons inside)
  · rintro rfl
    induction t with
    | nil => exact .stop
    | cons x t ih =>
      refine .other ?_ (ih ?_)
      · intro w n here start
        exact absent w n here start.isInfix
      · intro w n here inside
        exact absent w n here (List.infix_cons inside)

/-- A character that belongs to no part may be put behind the text. -/
theorem NamesOf.concat (h : NamesOf written t names) (free : ∀ w n, written w n → w ≠ [] ∧ x ∉ w) :
    NamesOf written (t ++ [x]) names := by
  have shorter {w u : Text} (outside : x ∉ w) (start : w <+: u ++ [x]) : w <+: u := by
    rcases List.prefix_concat_iff.mp start with rfl | start
    · exact absurd (by simp) outside
    · exact start
  induction h with
  | stop =>
    refine .other ?_ .stop
    intro w n here start
    obtain ⟨nonempty, outside⟩ := free w n here
    exact nonempty (List.prefix_nil.mp (shorter (u := []) outside start))
  | name here _ ih =>
    rw [List.append_assoc]
    exact .name here ih
  | other fails _ ih =>
    refine .other ?_ ih
    intro w n here start
    exact fails w n here (shorter (free w n here).2 start)

/-! ### Converters -/

/-- `<name>` or `<type:name>` with one of the built-in types. -/
inductive Converted : Text → Text → Prop where
  | bare (n : Identifier) : Converted ('<' :: (n.text ++ ['>'])) n.text
  | typed {type : Text} (known : type ∈ (["str", "int", "slug", "uuid", "path"] : List Text))
      (n : Identifier) : Converted ('<' :: (type ++ ':' :: (n.text ++ ['>']))) n.text

def builtin : Scanner Unit := do
  let _ ← oneOf ["str", "int", "slug", "uuid", "path"]

theorem builtin_shape (c : Cursor) (u : Unit) (c' : Cursor) (found : builtin c = some (u, c')) :
    ∃ type, type ∈ (["str", "int", "slug", "uuid", "path"] : List Text) ∧
      c.rest = type ++ c'.rest := by
  obtain ⟨type, mid, read, same⟩ := bind_eq_some.mp found
  obtain ⟨_, rfl⟩ := Prod.mk.inj (Option.some.inj same)
  exact ⟨type, mem_of_oneOf read, (between_oneOf read).1⟩

theorem identifier_of_builtin :
    ∀ type ∈ (["str", "int", "slug", "uuid", "path"] : List Text), type ≠ [] ∧
      type.head?.all Text.isIdentifierStart = true ∧
        ∀ x ∈ type, Text.isIdentifier x = true := by
  intro type known
  have all : ∀ t ∈ (["str", "int", "slug", "uuid", "path"] : List Text), t ≠ [] ∧
      t.head?.all Text.isIdentifierStart = true ∧ t.all Text.isIdentifier = true := by decide
  obtain ⟨nonempty, first, inside⟩ := all type known
  exact ⟨nonempty, first, List.all_eq_true.mp inside⟩

theorem consumes_converter : Consumes converter :=
  consumes_angled (reads_bind (reads_of_consumes (consumes_oneOf (by decide))) fun _ =>
    reads_pure _)

/-- A name in brackets holds no colon, so no type is read in front of it. -/
theorem converter_bare (n : Identifier) (b : Option Char) (rest : Text) :
    converter ⟨b, '<' :: (n.text ++ '>' :: rest)⟩ = some (n.text, ⟨some '>', rest⟩) := by
  apply angled_name
  refine eq_none_of_forall fun u c' found => ?_
  obtain ⟨_, mid, first, second⟩ := bind_eq_some.mp found
  obtain ⟨type, known, text⟩ := builtin_shape _ _ _ first
  have inside {w : Text} (h : ∀ x ∈ w, Text.isIdentifier x = true) :
      ∀ x ∈ w, (!Text.isIdentifier x) = false := fun x member => by rw [h x member]; rfl
  rw [(between_literal second).1] at text
  have same : n.text ++ '>' :: rest = type ++ ':' :: c'.rest := text
  obtain ⟨_, marks, _⟩ := cut_at_first (inside n.inside)
    (inside (identifier_of_builtin type known).2.2) (by decide) (by decide) same
  exact absurd marks (by decide)

theorem converter_typed {type : Text}
    (known : type ∈ (["str", "int", "slug", "uuid", "path"] : List Text)) (n : Identifier)
    (b : Option Char) (rest : Text) :
    converter ⟨b, '<' :: (type ++ ':' :: (n.text ++ '>' :: rest))⟩ =
      some (n.text, ⟨some '>', rest⟩) := by
  apply angled_converter
  have read : builtin ⟨some '<', type ++ ':' :: (n.text ++ '>' :: rest)⟩ =
      some ((), ⟨type.getLast?.or (some '<'), ':' :: (n.text ++ '>' :: rest)⟩) :=
    bind_of_some (oneOf_append (by decide) known _ _)
  exact (bind_of_some read).trans (literal_append ":" _ _)

theorem readsWritten_converter : ReadsWritten converter Converted where
  consumes := consumes_converter
  shape := by
    intro b r a c' found
    obtain ⟨n, type, rfl, typed, text⟩ := angled_shape_of builtin_shape found
    rcases typed with rfl | ⟨type, known, rfl⟩
    · exact ⟨_, .bare n, by rw [text]; simp⟩
    · exact ⟨_, .typed known n, by rw [text]; simp⟩
  reads := by
    intro w a b rest here
    cases here with
    | bare n =>
      refine ⟨some '>', ?_⟩
      rw [← converter_bare n b rest]
      simp
    | typed known n =>
      refine ⟨some '>', ?_⟩
      rw [← converter_typed known n b rest]
      simp

/-! ### Braces -/

/-- `{name}` with up to two stars before the name, and with a question mark or a constraint, or both,
behind it. -/
inductive Braced : Text → Text → Prop where
  | intro (n : Identifier) {stars mark bound : Text}
      (starred : stars = [] ∨ stars = ['*'] ∨ stars = ['*', '*'])
      (marked : mark = [] ∨ mark = ['?'])
      (bounded : bound = [] ∨ ∃ c, bound = ':' :: c ∧ '}' ∉ c) :
      Braced ('{' :: (stars ++ (n.text ++ (mark ++ (bound ++ ['}']))))) n.text

theorem readsWritten_braced : ReadsWritten braced Braced where
  consumes := consumes_braced
  shape := by
    intro b r a c' found
    obtain ⟨n, stars, mark, bound, rfl, starred, marked, bounded, text⟩ := braced_shape found
    exact ⟨_, .intro n starred marked bounded, by rw [text]; simp⟩
  reads := by
    intro w a b rest here
    cases here with
    | intro n starred marked bounded =>
      refine ⟨some '}', ?_⟩
      rw [← @braced_append b rest n _ _ _ starred marked bounded]
      simp

/-! ### A slash in front -/

section

variable {α : Type} {s : Scanner α}

theorem findAll_slash (opens : Opens s x) (other : x ≠ '/')
    (alike : ∀ t, s ⟨some '/', t⟩ = s ⟨none, t⟩) (p : Text) :
    s.findAll ('/' :: p) = s.findAll p := by
  show finds (piecesAt s ⟨none, '/' :: p⟩) = finds (piecesAt s ⟨none, p⟩)
  rw [piecesAt_of_none (opens none '/' p other.symm), piecesAt_congr (alike p)]
  rfl

theorem findAll_rooted (opens : Opens s x) (other : x ≠ '/')
    (alike : ∀ t, s ⟨some '/', t⟩ = s ⟨none, t⟩) (p : Text) :
    s.findAll (rooted p) = s.findAll p := by
  unfold rooted
  split
  · rfl
  · exact findAll_slash opens other alike p

end

theorem colon_before (t : Text) : colon ⟨some '/', t⟩ = colon ⟨none, t⟩ := by
  have outside : Text.isWord '/' = false := by decide
  simp [colon, check, bind_apply, outside]
  rfl

end RouteAtlas.Extract
