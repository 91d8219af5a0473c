import RouteAtlas.Proofs.Extract.Attributes
import RouteAtlas.Proofs.Extract.Signatures
import RouteAtlas.Proofs.Scanner.Sequences

/-!
# Files of controllers

A file that is some text and then the members of a controller, each with its attribute lines, its
parameters and its body. `attributed_members` says which actions are read by their attributes, one for
each member that has any, and `conventional_members` which members are read by their type.
-/

namespace RouteAtlas.Extract

open Scanner Route

/-- A public member of a controller: how far its lines are indented, its attribute lines, its name, its
parameters and what follows these up to the end of a line. -/
structure Member where
  indent : Text
  attributes : List Attribute
  name : Word
  parameters : Text
  body : Text
  indented : Indent indent
  parameters_balanced : Balanced parameters
  unattributed : ¬ ("[Http" : Text) <:+: parameters ++ ')' :: body

namespace Member

variable (m : Member)

def header : Text := m.attributes.flatMap fun a => m.indent ++ (a.text ++ ['\n'])

/-- What follows the parenthesis that opens the parameter list. -/
def tail : Text := m.parameters ++ ')' :: (m.body ++ ['\n'])

def text : Text :=
  m.header ++ (m.indent ++ ("public IActionResult " ++ (m.name.text ++ '(' :: m.tail)))

def signature : Text := '(' :: (m.parameters ++ [')'])

/-- The action that the first attribute makes. -/
def routed : Option Action := m.attributes.head?.map (·.action m.name.text m.signature)

/-! ### Members with attributes -/

theorem shuns_tail : Shuns "[Http" m.tail := by
  have line : m.tail = (m.parameters ++ ')' :: m.body) ++ ['\n'] := by simp [tail]
  exact line ▸ shuns_line m.unattributed (by decide)

theorem silent_tail : Silent attributed m.tail := silent_of_shuns m.shuns_tail

theorem silent_indent {α : Type} {s : Scanner α} {x : Char} (opens : Opens s x) (space : x ≠ ' ')
    (tab : x ≠ '\t') : Silent s m.indent := silent_of_opens opens (m.indented.notMem space tab)

theorem opens_attributed : Opens attributed '[' := opens_bind (opens_literal '[' _)

theorem finds_attributed (b : Option Char) (t : Text) : ∃ b',
    finds (piecesAt attributed ⟨b, m.text ++ t⟩) =
      m.routed.toList ++ finds (piecesAt attributed ⟨b', t⟩) := by
  have indent := m.silent_indent opens_attributed (by decide) (by decide)
  cases attributes : m.attributes with
  | nil =>
    have line : Silent attributed ("public IActionResult " ++ (m.name.text ++ ['('])) :=
      silent_of_opens opens_attributed <| List.not_mem_append (by decide) <|
        List.not_mem_append (m.name.notMem (by decide)) (by decide)
    have whole : m.text = (m.indent ++ ("public IActionResult " ++ (m.name.text ++ ['(']))) ++
        m.tail := by
      simp [text, header, attributes]
    refine ⟨m.text.getLast?.or b, ?_⟩
    rw [whole, finds_silent ((indent.append line).append m.silent_tail), routed, attributes]
    rfl
  | cons a more =>
    have read := attributed_append a more m.indented m.name (m.indent.getLast?.or b) (m.tail ++ t)
    have whole : m.text ++ t = m.indent ++ (a.text ++ '\n' ::
        (more.flatMap (fun a => m.indent ++ (a.text ++ ['\n'])) ++
          (m.indent ++ ("public IActionResult " ++ (m.name.text ++ '(' :: (m.tail ++ t)))))) := by
      simp [text, header, attributes]
    have closed : balanced ('(' :: (m.tail ++ t)) = m.signature := by
      have list : m.tail ++ t = m.parameters ++ ')' :: (m.body ++ '\n' :: t) := by simp [tail]
      rw [list]
      exact balanced_append m.parameters_balanced _
    -- The find takes in the other attribute lines, and ends behind the opening parenthesis.
    refine ⟨m.tail.getLast?.or (some '('), ?_⟩
    rw [whole, finds_silent indent, piecesAt_of_some consumes_attributed read, routed, attributes,
      closed]
    exact congrArg (_ :: ·) (finds_silent m.silent_tail (some '(') t)

end Member

theorem attributed_members {lead : Text} (silent : Silent attributed lead) (ms : List Member) :
    attributed.findAll (lead ++ ms.flatMap Member.text) = ms.filterMap Member.routed := by
  obtain ⟨b, found⟩ := finds_items (fun m (_ : m ∈ ms) b t => m.finds_attributed b t)
    (lead.getLast?.or none) []
  have nothing : finds (piecesAt attributed ⟨b, []⟩) = [] := rfl
  rw [nothing, List.append_nil, List.append_nil] at found
  rw [List.filterMap_eq_flatMap_toList]
  exact (finds_silent silent none _).trans found

/-! ### Members by their type -/

namespace Member

variable (m : Member)

/-- The parameters before the first closing parenthesis. -/
def front : Text := m.parameters.takeWhile (· != ')')

/-- What follows the first closing parenthesis. -/
def behind : Text := (m.parameters ++ ')' :: m.body).drop (m.front.length + 1)

/-- The parameter list up to the first closing parenthesis. -/
def cut : Text := '(' :: m.front ++ [')']

theorem front_free : ')' ∉ m.front := fun inside => by
  have other := List.all_eq_true.mp (List.all_takeWhile (p := (· != ')')) (l := m.parameters)) _ inside
  exact absurd rfl (bne_iff_ne.mp other)

/-- A parameter list, whatever follows it, is cut at its first closing parenthesis. -/
theorem front_append (rest : Text) : m.parameters ++ ')' :: rest =
    m.front ++ ')' :: (m.parameters ++ ')' :: rest).drop (m.front.length + 1) := by
  have split : m.parameters ++ ')' :: rest =
      m.front ++ (m.parameters.dropWhile (· != ')') ++ ')' :: rest) := by
    rw [front, ← List.append_assoc, List.takeWhile_append_dropWhile]
  obtain ⟨r, closing⟩ : ∃ r, m.parameters.dropWhile (· != ')') ++ ')' :: rest = ')' :: r := by
    cases closing : m.parameters.dropWhile (· != ')') with
    | nil => exact ⟨_, rfl⟩
    | cons x r =>
      have first := List.head?_dropWhile_not (· != ')') m.parameters
      rw [closing] at first
      obtain rfl : x = ')' := by simpa using first
      exact ⟨_, rfl⟩
  rw [split, closing]
  simp

theorem opens_conventional : Opens conventional 'p' := opens_bind (opens_literal 'p' _)

theorem silent_header : Silent conventional m.header := by
  refine silent_flatMap fun a _ => ?_
  exact (m.silent_indent opens_conventional (by decide) (by decide)).append <|
    a.silent_conventional.append (silent_of_opens opens_conventional (by decide))

/-- A member is read up to its first closing parenthesis. -/
theorem finds_conventional (b : Option Char) (t : Text) :
    finds (piecesAt conventional ⟨b, m.text ++ t⟩) =
      (m.name.text, m.cut) :: finds (piecesAt conventional ⟨some ')', m.behind ++ '\n' :: t⟩) := by
  have lead : Silent conventional (m.header ++ m.indent) :=
    m.silent_header.append (m.silent_indent opens_conventional (by decide) (by decide))
  have whole : m.text ++ t = (m.header ++ m.indent) ++ ("public IActionResult " ++
      (m.name.text ++ '(' :: (m.front ++ ')' :: (m.behind ++ '\n' :: t)))) := by
    have tail : m.tail = (m.front ++ ')' :: m.behind) ++ ['\n'] := by
      rw [behind, ← front_append]
      simp [tail]
    rw [text, tail]
    simp
  have read := conventional_append m.front_free m.name ((m.header ++ m.indent).getLast?.or b)
    (m.behind ++ '\n' :: t)
  rw [whole, finds_silent lead, piecesAt_of_some consumes_conventional read]
  rfl

end Member

section

variable {lead : Text} {ms : List Member}

/-- Members are read one by one, where no other begins behind the parameters of one of them. -/
theorem conventional_members_append (silent : Silent conventional lead)
    (unpublic : ∀ m ∈ ms, ¬ ("public" : Text) <:+: m.behind) (t : Text) :
    ∃ b, conventional.findAll (lead ++ (ms.flatMap Member.text ++ t)) =
      ms.map (fun m => (m.name.text, m.cut)) ++ finds (piecesAt conventional ⟨b, t⟩) := by
  have step (m : Member) (member : m ∈ ms) (b : Option Char) (t : Text) : ∃ b',
      finds (piecesAt conventional ⟨b, m.text ++ t⟩) =
        [(m.name.text, m.cut)] ++ finds (piecesAt conventional ⟨b', t⟩) := by
    have rest : Silent conventional (m.behind ++ ['\n']) :=
      silent_of_shuns (shuns_line (unpublic m member) (by decide))
    have passed := finds_silent rest (some ')') t
    rw [List.append_assoc] at passed
    rw [m.finds_conventional]
    exact ⟨_, congrArg (_ :: ·) passed⟩
  obtain ⟨b, found⟩ := finds_items step (lead.getLast?.or none) t
  rw [← List.map_eq_flatMap] at found
  exact ⟨b, (finds_silent silent none _).trans found⟩

theorem conventional_members (silent : Silent conventional lead)
    (unpublic : ∀ m ∈ ms, ¬ ("public" : Text) <:+: m.behind) :
    conventional.findAll (lead ++ ms.flatMap Member.text) =
      ms.map fun m => (m.name.text, m.cut) := by
  obtain ⟨b, found⟩ := conventional_members_append silent unpublic []
  have nothing : finds (piecesAt conventional ⟨b, []⟩) = [] := rfl
  rwa [nothing, List.append_nil, List.append_nil] at found

end

/-! ### Actions by convention -/

/-- A member routed by its name has a name that starts with no underscore, and is not `Dispose`. -/
def Conventional (name : Text) : Prop := name.head? ≠ some '_' ∧ name ≠ "Dispose"

instance (name : Text) : Decidable (Conventional name) := inferInstanceAs (Decidable (_ ∧ _))

theorem conventionalActions_cons (seen : List Text) (name signature : Text)
    (found : List (Text × Text)) :
    conventionalActions seen ((name, signature) :: found) =
      if name ∉ seen ∧ Conventional name then
        ⟨"get", Text.lower name, name, signature⟩ :: conventionalActions (name :: seen) found
      else conventionalActions seen found := by
  have passed : (seen.contains name || decide (name.head? = some '_') ||
      decide (name = "Dispose")) = true ↔ ¬ (name ∉ seen ∧ Conventional name) := by
    rw [Bool.or_eq_true, Bool.or_eq_true, decide_eq_true_iff, decide_eq_true_iff,
      List.contains_iff_mem, Conventional]
    grind
  rw [conventionalActions]
  by_cases taken : name ∉ seen ∧ Conventional name
  · rw [if_pos taken, if_neg fun skip => passed.mp skip taken]
  · rw [if_neg taken, if_pos (passed.mpr taken)]

theorem name_notMem_of_conventional {seen : List Text} {found : List (Text × Text)} {a : Action}
    (member : a ∈ conventionalActions seen found) : a.name ∉ seen := by
  induction found generalizing seen with
  | nil => cases member
  | cons p found ih =>
    obtain ⟨name, signature⟩ := p
    rw [conventionalActions_cons] at member
    split at member
    · rename_i taken
      rcases List.mem_cons.mp member with rfl | later
      · exact taken.1
      · exact fun old => ih later (List.mem_cons_of_mem name old)
    · exact ih member

/-- Among members of different names, those that are not yet seen are taken. -/
theorem conventionalActions_of_nodup {seen : List Text} {found : List (Text × Text)}
    (distinct : (found.map Prod.fst).Nodup) :
    conventionalActions seen found =
      (found.filter fun p => p.1 ∉ seen ∧ Conventional p.1).map fun p =>
        ⟨"get", Text.lower p.1, p.1, p.2⟩ := by
  induction found generalizing seen with
  | nil => rfl
  | cons p found ih =>
    obtain ⟨name, signature⟩ := p
    obtain ⟨fresh, distinct⟩ := List.nodup_cons.mp distinct
    have unmoved : (found.filter fun p => p.1 ∉ name :: seen ∧ Conventional p.1) =
        found.filter fun p => p.1 ∉ seen ∧ Conventional p.1 := by
      refine List.filter_congr fun p member => ?_
      have other : p.1 ≠ name := fun e => fresh (List.mem_map.mpr ⟨p, member, e⟩)
      simp [other]
    rw [conventionalActions_cons, List.filter_cons]
    split
    · rename_i taken
      rw [if_pos (decide_eq_true taken), List.map_cons, ih distinct, unmoved]
    · rename_i passed
      rw [if_neg (by simpa using passed), ih distinct]

/-! ### The first of several attributes -/

/-- The first of each list are all that the lists hold only if no list has a second. -/
theorem filterMap_head?_eq_flatMap {ι β : Type} {l : List ι} {f : ι → List β} :
    l.filterMap (fun i => (f i).head?) = l.flatMap f ↔ ∀ i ∈ l, (f i).length ≤ 1 := by
  have fewer (l : List ι) : (l.filterMap fun i => (f i).head?).length ≤ (l.flatMap f).length := by
    induction l with
    | nil => exact Nat.le_refl 0
    | cons i l ih =>
      rw [List.filterMap_cons, List.flatMap_cons, List.length_append]
      cases f i with
      | nil => exact Nat.le_trans ih (Nat.le_add_left _ _)
      | cons y ys =>
        simp only [List.head?_cons, List.length_cons]
        omega
  induction l with
  | nil => exact ⟨fun _ => List.forall_mem_nil _, fun _ => rfl⟩
  | cons i l ih =>
    have rest := fewer l
    rw [List.filterMap_cons, List.flatMap_cons, List.forall_mem_cons]
    match f i with
    | [] => simpa using ih
    | [y] => simpa using ih
    | y :: z :: ys =>
      refine iff_of_false (fun same => ?_) fun h => absurd h.1 (by simp)
      have lengths := congrArg List.length same
      simp only [List.head?_cons, List.length_append, List.length_cons] at lengths
      omega

end RouteAtlas.Extract
