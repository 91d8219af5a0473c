import RouteAtlas.Proofs.Extract.Actions
import RouteAtlas.Proofs.Extract.Parameters
import RouteAtlas.Proofs.Scanner.Cutting

/-!
# How an action is recognised

An action without an attribute is read with its parameters up to the first closing parenthesis, one with
an attribute with all of them. `hints_recognised` says which query hints are lost by that: those behind
which the first closing parenthesis is no longer to come.
-/

namespace RouteAtlas.Extract

open Scanner Route

/-! ### Hints before the first closing parenthesis -/

/-- The type and the name behind a `FromQuery` attribute. -/
def typedName : Scanner Text := do
  let _ ← blanks
  let _ ← run1 fun c => Text.isWord c || (("<>[],?." : Text).contains c)
  let _ ← blanks1
  run1 Text.isWord

theorem queryAttribute_eq : queryAttribute = (do
    literal "[FromQuery"
    let _ ← run fun c => c != ']'
    literal "]"
    typedName) := rfl

theorem reads_typedName : Reads typedName :=
  reads_bind (reads_run _) fun _ => reads_bind (reads_of_consumes (consumes_run1 _)) fun _ =>
    reads_bind (reads_of_consumes (consumes_run1 _)) fun _ => reads_of_consumes (consumes_run1 _)

theorem heeds_typedName : Heeds ')' typedName :=
  heeds_bind (heeds_run (by decide)) fun _ => heeds_bind (heeds_run1 (by decide)) fun _ =>
    heeds_bind (heeds_run1 (by decide)) fun _ => heeds_run1 (by decide)

section

variable {b : Option Char} {c c' : Cursor} {u r a : Text}

theorem queryAttribute_shape (found : queryAttribute c = some (a, c')) :
    ∃ w, ']' ∈ w ∧ c.rest = w ++ c'.rest := by
  obtain ⟨_, mid, first, found⟩ := bind_eq_some.mp found
  obtain ⟨v, mid', second, found⟩ := bind_eq_some.mp found
  obtain ⟨_, mid'', third, found⟩ := bind_eq_some.mp found
  obtain ⟨w, rest, _⟩ := reads_typedName _ _ _ found
  refine ⟨"[FromQuery" ++ (v ++ ("]" ++ w)), by simp, ?_⟩
  rw [(between_literal first).1, (between_run second).1, (between_literal third).1, rest]
  simp only [List.append_assoc]

/-- Where an attribute is closed before the parenthesis, nothing behind it is seen. -/
theorem queryAttribute_sameBefore (free : ')' ∉ u) (closes : ']' ∈ u) (b : Option Char) (r : Text) :
    SameBefore ')' r (queryAttribute ⟨b, u ++ [')']⟩) (queryAttribute ⟨b, u ++ ')' :: r⟩) := by
  have opening := heeds_literal (x := ')') (w := "[FromQuery") (by decide) b r free
  rw [queryAttribute_eq, bind_apply, bind_apply]
  generalize cut : literal "[FromQuery" ⟨b, u ++ [')']⟩ = p at opening
  generalize literal "[FromQuery" ⟨b, u ++ ')' :: r⟩ = q at opening
  cases opening with
  | none => exact .none
  | @some _ b' u' free' =>
    have text : u ++ [')'] = ("[FromQuery" ++ u') ++ [')'] :=
      (between_literal cut).1.trans (List.append_assoc ..).symm
    rw [List.append_cancel_right text] at closes
    obtain ⟨v, w, rfl, unclosed⟩ :=
      List.eq_append_cons_of_mem ((List.mem_append.mp closes).resolve_left (by decide))
    -- The run up to the bracket would go past the parenthesis, so it heeds it only with the bracket.
    have read (t : Text) : (run (fun y => y != ']') >>= fun _ => literal "]" >>= fun _ => typedName)
        ⟨b', v ++ ']' :: t⟩ = typedName ⟨some ']', t⟩ := by
      rw [bind_apply, run_until unclosed, Option.bind_some, bind_apply]
      exact congrArg (Option.bind · _) (literal_append "]" _ t)
    have behind := heeds_typedName (some ']') r fun h =>
      free' (List.mem_append_right v (List.mem_cons_of_mem ']' h))
    rw [← read, ← read] at behind
    simpa using behind

theorem finds_queryAttribute_of_notMem (unclosed : ']' ∉ u) :
    finds (piecesAt queryAttribute ⟨b, u⟩) = [] := by
  refine (finds_eq_nil_iff consumes_queryAttribute).mpr fun a ⟨v, w, c', text, found⟩ => ?_
  obtain ⟨w', inside, rest⟩ := queryAttribute_shape found
  change w = w' ++ c'.rest at rest
  exact unclosed (by rw [text, rest]; simp [inside])

theorem length_le_of_unclosed (unclosed : ']' ∉ u) {p : Text × Text}
    (member : p ∈ finds (piecesAt (placed queryAttribute) ⟨b, u ++ ')' :: r⟩)) :
    p.2.length ≤ r.length := by
  obtain ⟨v, w, c', text, found, behind⟩ := mem_finds_placed consumes_queryAttribute member
  obtain ⟨w', inside, rest⟩ := queryAttribute_shape found
  change w = w' ++ c'.rest at rest
  rw [rest, ← behind, ← List.append_assoc] at text
  rcases List.append_eq_append_iff.mp text with ⟨d, whole, after⟩ | ⟨d, whole, _⟩
  · cases d with
    | nil =>
      rw [List.append_nil] at whole
      exact absurd (whole ▸ List.mem_append_right v inside) unclosed
    | cons y d =>
      have suffix : p.2 <:+ r := ⟨d, (List.cons.inj after).2.symm⟩
      exact suffix.length_le
  · exact absurd (whole ▸ List.mem_append_left d (List.mem_append_right v inside)) unclosed

/-- The hints of a parameter list that is cut behind its first closing parenthesis are the early ones of
the whole list. -/
theorem queryAttribute_cut (free : ')' ∉ u) (b : Option Char) (r : Text) :
    finds (piecesAt queryAttribute ⟨b, u ++ [')']⟩) =
      early r (finds (piecesAt (placed queryAttribute) ⟨b, u ++ ')' :: r⟩)) := by
  refine finds_cut consumes_queryAttribute (fun b u r free => ?_) b free r
  -- Without a bracket before the cut an attribute of the whole text may well begin there, but it ends
  -- behind the parenthesis.
  by_cases closes : ']' ∈ u
  · exact .inl (queryAttribute_sameBefore free closes b r)
  · refine .inr ⟨finds_queryAttribute_of_notMem ?_, fun p => length_le_of_unclosed closes⟩
    exact List.not_mem_append closes (by decide)

end

/-! ### The declarations of one action -/

def isHint (p : Parameter) : Bool := p.location == ("query" : Text)

/-- The names of the query parameters of a declaration. -/
def queryHints (d : Declaration) : List Text := (d.parameters.filter isHint).map Parameter.name

theorem queryHints_ofAction (file base : Text) (a : Action) :
    queryHints (ofAction file base a) = queryAttribute.findAll a.signature := by
  have path (names : List Text) : (Parameter.allInPath names).filter isHint = [] := by
    refine List.filter_eq_nil_iff.mpr fun p member => ?_
    obtain ⟨n, _, rfl⟩ := List.mem_map.mp (allInPath_eq names ▸ member)
    exact Bool.false_ne_true
  have query (names : List Text) :
      (names.map (Parameter.inQuery ·)).filter isHint = names.map (Parameter.inQuery ·) := by
    refine List.filter_eq_self.mpr fun p member => ?_
    obtain ⟨n, _, rfl⟩ := List.mem_map.mp member
    rfl
  have body (taken : Bool) : (if taken then [Parameter.body] else []).filter isHint = [] := by
    cases taken <;> rfl
  rw [queryHints, ofAction]
  simp only [List.filter_append, path, query, body, List.nil_append, List.append_nil, List.map_map]
  exact List.map_id _

/-- The declarations of the actions of a name. -/
def declarationsOf (name file text : Text) : List Declaration :=
  (controller.extract file text).filter (·.description = some ("Action: " ++ name))

theorem declarationsOf_eq (name file text : Text) :
    declarationsOf name file text = ((actions text).filter (·.name = name)).map
      (ofAction file ((routeAttribute.find? text).getD [])) := by
  change List.filter _ ((actions text).map _) = _
  rw [List.filter_map]
  refine congrArg (List.map _) (List.filter_congr fun a _ => decide_eq_decide.mpr ?_)
  rw [description_ofAction, Option.some.injEq]
  exact ⟨List.append_cancel_left, congrArg _⟩

theorem filter_conventionalActions_of_mem {seen : List Text} {name : Text} (old : name ∈ seen)
    (found : List (Text × Text)) :
    (conventionalActions seen found).filter (·.name = name) = [] :=
  List.filter_eq_nil_iff.mpr fun _ member same =>
    name_notMem_of_conventional member (of_decide_eq_true same ▸ old)

/-- Of the members of a name the first is taken. -/
theorem filter_conventionalActions {seen : List Text} {name : Text} (fresh : name ∉ seen)
    (conventional : Conventional name) (found : List (Text × Text)) :
    (conventionalActions seen found).filter (·.name = name) =
      ((found.find? (·.1 = name)).map fun p => ⟨"get", Text.lower p.1, p.1, p.2⟩).toList := by
  induction found generalizing seen with
  | nil => rfl
  | cons p found ih =>
    obtain ⟨other, signature⟩ := p
    rw [conventionalActions_cons, List.find?_cons]
    by_cases same : other = name
    · subst same
      rw [if_pos ⟨fresh, conventional⟩, List.filter_cons_of_pos (by simp),
        filter_conventionalActions_of_mem List.mem_cons_self]
      simp
    · split
      · rw [List.filter_cons_of_neg (by simpa using same),
          ih (List.not_mem_cons_of_ne_of_not_mem (Ne.symm same) fresh)]
        simp [same]
      · rw [ih fresh]
        simp [same]

/-! ### One member with and without an attribute -/

def Member.withGet (m : Member) : Member :=
  { m with attributes := [.get] }

/-- What stands around a member: a heading and other members, none of which has its name. -/
structure Surroundings (name : Text) where
  heading : Heading
  before : List Member
  after : List Member
  unpublic : ∀ m ∈ before, ¬ ("public" : Text) <:+: m.behind
  fresh : ∀ m ∈ before ++ after, m.name.text ≠ name

namespace Surroundings

variable {name : Text} (s : Surroundings name) (m : Member)

def around : Text := s.heading.text ++ (s.before ++ m :: s.after).flatMap Member.text

theorem routed_around : attributed.findAll (s.around m) =
    s.before.filterMap Member.routed ++ (m.routed.toList ++ s.after.filterMap Member.routed) := by
  have found := attributed_members s.heading.silent_attributed (s.before ++ m :: s.after)
  rw [List.filterMap_append, List.filterMap_cons] at found
  refine found.trans (congrArg (_ ++ ·) ?_)
  cases m.routed <;> rfl

theorem filter_routed {ms : List Member} (other : ∀ m ∈ ms, m.name.text ≠ name) :
    (ms.filterMap Member.routed).filter (·.name = name) = [] := by
  refine List.filter_eq_nil_iff.mpr fun a member same => ?_
  obtain ⟨m, inside, made⟩ := List.mem_filterMap.mp member
  obtain ⟨b, _, rfl⟩ := Option.map_eq_some_iff.mp made
  exact other m inside (of_decide_eq_true same)

theorem filter_routed_around : (attributed.findAll (s.around m)).filter (·.name = name) =
    m.routed.toList.filter (·.name = name) := by
  obtain ⟨before, after⟩ := List.forall_mem_append.mp s.fresh
  rw [routed_around, List.filter_append, List.filter_append, filter_routed before,
    filter_routed after, List.nil_append, List.append_nil]

theorem actions_around (own : m.name.text = name) (bare : m.attributes = [])
    (conventional : Conventional name) :
    (actions (s.around m)).filter (·.name = name) = [⟨"get", Text.lower name, name, m.cut⟩] := by
  obtain ⟨fresh_before, _⟩ := List.forall_mem_append.mp s.fresh
  have routed : (attributed.findAll (s.around m)).filter (·.name = name) = [] := by
    rw [filter_routed_around, Member.routed, bare]
    rfl
  have fresh : name ∉ (attributed.findAll (s.around m)).map Action.name := fun old => by
    obtain ⟨a, found, same⟩ := List.mem_map.mp old
    exact List.filter_eq_nil_iff.mp routed a found (decide_eq_true same)
  -- Whatever is found behind the member, it is the first of its name.
  have first : (Scanner.findAll Extract.conventional (s.around m)).find? (·.1 = name) =
      some (name, m.cut) := by
    obtain ⟨b, found⟩ := conventional_members_append s.heading.silent_conventional s.unpublic
      (m.text ++ s.after.flatMap Member.text)
    have text : s.around m = s.heading.text ++
        (s.before.flatMap Member.text ++ (m.text ++ s.after.flatMap Member.text)) := by
      rw [around, List.flatMap_append, List.flatMap_cons]
    rw [text, found, m.finds_conventional, List.find?_append, List.find?_eq_none.mpr,
      List.find?_cons_of_pos (by simpa using own), own, Option.none_or]
    intro p member
    obtain ⟨m', inside, rfl⟩ := List.mem_map.mp member
    simpa using fresh_before m' inside
  rw [actions, List.filter_append, routed, filter_conventionalActions fresh conventional, first]
  rfl

theorem actions_around_withGet (own : m.name.text = name) :
    (actions (s.around m.withGet)).filter (·.name = name) =
      [⟨"get", [], name, m.signature⟩] := by
  have routed : (attributed.findAll (s.around m.withGet)).filter (·.name = name) =
      [⟨"get", [], name, m.signature⟩] := by
    have made : m.withGet.routed = some ⟨"get", [], name, m.signature⟩ := by
      rw [← own]
      rfl
    rw [filter_routed_around, made, Option.toList_some, List.filter_cons_of_pos (by simp)]
    rfl
  have old : name ∈ (attributed.findAll (s.around m.withGet)).map Action.name := by
    have member := routed ▸ List.mem_singleton_self _
    exact List.mem_map.mpr ⟨_, (List.mem_filter.mp member).1, rfl⟩
  rw [actions, List.filter_append, routed, filter_conventionalActions_of_mem old]
  rfl

end Surroundings

/-- The part of the parameter list behind its first closing parenthesis. -/
def Member.beyond (m : Member) : Text := (m.parameters ++ [')']).drop (m.front.length + 1)

/-- The query hints of an action by convention are the early ones of those that it has with an
attribute above it. So none is lost only if the first closing parenthesis of the parameter list stands
behind all hints. -/
theorem hints_recognised (file : Text) {m : Member} (s : Surroundings m.name.text)
    (bare : m.attributes = []) (conventional : Conventional m.name.text) :
    ∃ d d', declarationsOf m.name.text file (s.around m) = [d] ∧
      declarationsOf m.name.text file (s.around m.withGet) = [d'] ∧
      queryHints d' = queryAttribute.findAll m.signature ∧
      queryHints d = early m.beyond ((placed queryAttribute).findAll m.signature) ∧
      (queryHints d = queryHints d' ↔
        ∀ p ∈ (placed queryAttribute).findAll m.signature, m.beyond.length < p.2.length) := by
  have free : ')' ∉ '(' :: m.front := List.not_mem_cons_of_ne_of_not_mem (by decide) m.front_free
  have whole : m.signature = ('(' :: m.front) ++ ')' :: m.beyond :=
    congrArg ('(' :: ·) (m.front_append [])
  have cut : queryAttribute.findAll m.cut =
      early m.beyond ((placed queryAttribute).findAll m.signature) := by
    rw [whole]
    exact queryAttribute_cut free none m.beyond
  have all : ((placed queryAttribute).findAll m.signature).map Prod.fst =
      queryAttribute.findAll m.signature := finds_placed consumes_queryAttribute none _
  refine ⟨ofAction file ((routeAttribute.find? (s.around m)).getD [])
      ⟨"get", Text.lower m.name.text, m.name.text, m.cut⟩,
    ofAction file ((routeAttribute.find? (s.around m.withGet)).getD [])
      ⟨"get", [], m.name.text, m.signature⟩,
    ?_, ?_, queryHints_ofAction .., (queryHints_ofAction ..).trans cut, ?_⟩
  · rw [declarationsOf_eq, s.actions_around m rfl bare conventional]
    rfl
  · rw [declarationsOf_eq, s.actions_around_withGet m rfl]
    rfl
  · rw [queryHints_ofAction, queryHints_ofAction, cut, ← all]
    exact early_eq_map_iff

/-! #### A name within an attribute -/

def pagedMember : Member where
  indent := []
  attributes := []
  name := .ofText "Search" (by decide)
  parameters := "[FromQuery] int page, [FromQuery(Name = \"size\")] int size"
  body := "\n\x7b\n\x7d"
  indented := Text.forall_of_all (by decide)
  parameters_balanced := by decide
  unattributed := by decide

def onlyPaged : Surroundings pagedMember.name.text where
  heading := usersHeading
  before := []
  after := []
  unpublic := List.forall_mem_nil _
  fresh := List.forall_mem_nil _

theorem hints_recognised_paged :
    pagedMember.attributes = [] ∧ Conventional pagedMember.name.text ∧
      ∃ d d', declarationsOf "Search" "Users.cs" (onlyPaged.around pagedMember) = [d] ∧
        declarationsOf "Search" "Users.cs" (onlyPaged.around pagedMember.withGet) = [d'] ∧
        queryHints d' = (["page", "size"] : List Text) ∧ queryHints d = (["page"] : List Text) := by
  have bare : pagedMember.attributes = [] := rfl
  have conventional : Conventional pagedMember.name.text := by decide
  obtain ⟨d, d', plain, attributed, all, cut, _⟩ :=
    hints_recognised "Users.cs" onlyPaged bare conventional
  refine ⟨bare, conventional, d, d', plain, attributed, all.trans ?_, cut.trans ?_⟩
  · decide +kernel
  · decide +kernel

/-- The query parameter of an action is missed without an attribute and found with one. -/
theorem hints_recognised_size :
    (controller.extract "HomeController.cs"
      "public IActionResult List([FromQuery(Name = \"size\")] int size)\n\x7b\n\x7d\n").map queryHints =
        [[]] ∧
    (controller.extract "HomeController.cs"
      "[HttpGet]\npublic IActionResult List([FromQuery(Name = \"size\")] int size)\n\x7b\n\x7d\n").map
        queryHints = [[("size" : Text)]] := by
  decide +kernel

end RouteAtlas.Extract
