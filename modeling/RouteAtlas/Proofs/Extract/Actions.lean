import Mathlib.Data.List.Nodup
import RouteAtlas.Proofs.Extract.Controllers

/-!
# Actions of a controller

What a controller declares. Where an action has several attributes only the first of them counts
(`extract_firstAttributes`). In a file with at most one attribute line above each member,
`extract_plain` lists the declarations: first the actions with an attribute, then those that are routed
by their name, both in the order of the file.
-/

namespace RouteAtlas.Extract

open Scanner Route

/-! ### Several attributes above a member -/

/-- Some text in which no verb attribute stands, and members with any number of attribute lines. -/
structure ActionFile where
  lead : Text
  members : List Member
  unattributed : ¬ ("[Http" : Text) <:+: lead

def ActionFile.text (f : ActionFile) : Text := (f.lead ++ ['\n']) ++ f.members.flatMap Member.text

theorem description_ofAction (file base : Text) (a : Action) :
    (ofAction file base a).description = some ("Action: " ++ a.name) := rfl

theorem ActionFile.attributed_text (f : ActionFile) :
    attributed.findAll f.text = f.members.filterMap Member.routed :=
  attributed_members (silent_of_shuns (shuns_line f.unattributed (by decide))) f.members

theorem ActionFile.name_mem_attributed (f : ActionFile) {m : Member} (inside : m ∈ f.members)
    (given : m.attributes ≠ []) :
    m.name.text ∈ (attributed.findAll f.text).map Action.name := by
  obtain ⟨first, more, attributes⟩ := List.exists_cons_of_ne_nil given
  have routed : m.routed = some (first.action m.name.text m.signature) := by
    rw [Member.routed, attributes]
    rfl
  rw [f.attributed_text]
  exact List.mem_map.mpr ⟨_, List.mem_filterMap.mpr ⟨m, inside, routed⟩, rfl⟩

/-- The declarations of a file begin with one for each member that has attributes, made by the first of
these; nothing else is declared for such a member. So all attributes are declared only if no member has
a second one. -/
theorem extract_firstAttributes (file : Text) (f : ActionFile) :
    let base := (routeAttribute.find? f.text).getD []
    let record (m : Member) (a : Attribute) := ofAction file base (a.action m.name.text m.signature)
    ∃ others,
      controller.extract file f.text =
        f.members.filterMap (fun m => m.attributes.head?.map (record m)) ++ others ∧
      (∀ d ∈ others, ∀ m ∈ f.members, m.attributes ≠ [] →
        d.description ≠ some ("Action: " ++ m.name.text)) ∧
      (controller.extract file f.text =
        f.members.flatMap (fun m => m.attributes.map (record m)) ++ others ↔
          ∀ m ∈ f.members, m.attributes.length ≤ 1) := by
  intro base record
  have first : (attributed.findAll f.text).map (ofAction file base) =
      f.members.filterMap fun m => m.attributes.head?.map (record m) := by
    rw [f.attributed_text, List.map_filterMap]
    exact List.filterMap_congr fun m _ => Option.map_map ..
  have whole : controller.extract file f.text = (attributed.findAll f.text).map (ofAction file base) ++
      (conventionalActions ((attributed.findAll f.text).map Action.name)
        (conventional.findAll f.text)).map (ofAction file base) := List.map_append
  rw [first] at whole
  refine ⟨_, whole, ?_, ?_⟩
  · intro d member m inside given same
    obtain ⟨a, found, rfl⟩ := List.mem_map.mp member
    rw [description_ofAction] at same
    have named : a.name = m.name.text := List.append_cancel_left (Option.some.inj same)
    exact name_notMem_of_conventional found (named ▸ f.name_mem_attributed inside given)
  · have heads : (f.members.filterMap fun m => m.attributes.head?.map (record m)) =
        f.members.filterMap fun m => (m.attributes.map (record m)).head? :=
      List.filterMap_congr fun m _ => List.head?_map.symm
    rw [whole, List.append_cancel_right_eq, heads, filterMap_head?_eq_flatMap]
    simp only [List.length_map]

/-- Of two attribute lines above an action only the first is declared. -/
theorem extract_save : (controller.extract "HomeController.cs"
    "[HttpGet]\n[HttpPost]\npublic IActionResult Save()\n\x7b\n\x7d\n").map
      (fun d => (d.method, d.path)) = [(("get" : Text), ("/home/save" : Text))] := by
  decide +kernel

/-! ### Controllers with one attribute a member -/

/-- What stands above the members. -/
structure Heading where
  base : Option Text
  name : Word
  heritage : Text
  base_route : ∀ t ∈ base, IsRoute t
  unattributed : ¬ ("[Http" : Text) <:+: heritage
  unbased : ¬ ("[Route" : Text) <:+: heritage
  unpublic : ¬ ("public" : Text) <:+: heritage

namespace Heading

variable (h : Heading)

def baseLine : Text := h.base.elim [] fun t => "[Route(\"" ++ (t ++ "\")]\n")

def classLine : Text :=
  "public class " ++ (h.name.text ++ ("Controller" ++ (h.heritage ++ ['\n'])))

def text : Text := h.baseLine ++ h.classLine

theorem shuns_classLine {opening : Text} (first : opening.head? = some '[')
    (line : '\n' ∉ opening) (free : ¬ opening <:+: h.heritage) : Shuns opening h.classLine := by
  have unopened {t : Text} (other : '[' ∉ t) : Shuns opening t := shuns_of_head_notMem first other
  exact (unopened (by decide)).append <| (unopened (h.name.notMem (by decide))).append <|
    (unopened (by decide)).append (shuns_line free line)

theorem silent_attributed : Silent attributed h.text := by
  refine silent_of_shuns (Shuns.append ?_ (h.shuns_classLine rfl (by decide) h.unattributed))
  unfold baseLine
  cases base : h.base with
  | none => exact shuns_nil
  | some t =>
    have route : Shuns "[Http" t := (h.base_route t base).shuns rfl (by decide) (by decide)
    exact Shuns.append (by decide) (route.append (by decide))

theorem silent_classLine : Silent conventional h.classLine := by
  have word : Silent conventional ("public class " : Text) :=
    silent_cons (fun _ _ => rfl) (silent_of_opens Member.opens_conventional (by decide))
  have named : Silent conventional ((h.name.text ++ "Controlle") ++ ['r']) :=
    Extract.silent_conventional (List.forall_mem_append.mpr
      ⟨List.forall_mem_append.mpr ⟨h.name.notBlank, Text.forall_of_all (by decide)⟩,
        Text.forall_of_all (by decide)⟩) (by decide)
  have heritage : Silent conventional (h.heritage ++ ['\n']) :=
    silent_of_shuns (shuns_line h.unpublic (by decide))
  have whole : h.classLine = "public class " ++
      (((h.name.text ++ "Controlle") ++ ['r']) ++ (h.heritage ++ ['\n'])) := by
    unfold classLine
    simp
  exact whole ▸ word.append (named.append heritage)

theorem silent_baseLine : Silent conventional h.baseLine := by
  unfold baseLine
  cases base : h.base with
  | none => exact silent_nil
  | some t =>
    have closing : ∀ x ∈ t ++ ("\")" : Text), Text.isBlank x = false :=
      List.forall_mem_append.mpr ⟨(h.base_route t base).notBlank, Text.forall_of_all (by decide)⟩
    have line : Silent conventional (("[Route(\"" ++ (t ++ "\")")) ++ [']']) :=
      Extract.silent_conventional (List.forall_mem_append.mpr
        ⟨List.forall_mem_append.mpr ⟨Text.forall_of_all (by decide), closing⟩,
          Text.forall_of_all (by decide)⟩) (by decide)
    have whole : (some t).elim [] (fun t => ("[Route(\"" ++ (t ++ "\")]\n") : Text)) =
        (("[Route(\"" ++ (t ++ "\")")) ++ [']']) ++ "\n" := by simp
    exact whole ▸ line.append (silent_of_opens Member.opens_conventional (by decide))

theorem silent_conventional : Silent conventional h.text :=
  h.silent_baseLine.append h.silent_classLine

/-- The base is the one that is written above the class, where nothing behind is taken for one. -/
theorem find?_base {rest : Text} (silent : Silent routeAttribute rest) :
    routeAttribute.find? (h.text ++ rest) = h.base := by
  have finds_eq : routeAttribute.find? (h.text ++ rest) =
      (finds (piecesAt routeAttribute ⟨none, h.text ++ rest⟩)).head? := rfl
  rw [finds_eq, text]
  unfold baseLine
  cases base : h.base with
  | none =>
    have classLine : Silent routeAttribute h.classLine :=
      silent_of_shuns (h.shuns_classLine rfl (by decide) h.unbased)
    have none := finds_silent (classLine.append silent) none []
    rw [List.append_nil] at none
    exact congrArg List.head? none
  | some t =>
    have read := routeAttribute_append (h.base_route t base).unquoted none
      ('\n' :: (h.classLine ++ rest))
    have whole : (some t).elim [] (fun t => ("[Route(\"" ++ (t ++ "\")]\n") : Text)) ++ h.classLine ++
        rest = "[Route(\"" ++ (t ++ ("\")]" ++ '\n' :: (h.classLine ++ rest))) := by simp
    rw [whole, piecesAt_of_some consumes_routeAttribute read]
    rfl

end Heading

/-- A member with at most one attribute line, parameters with at most one attribute each, and an empty
body. -/
structure PlainMember where
  indent : Text
  verbAttribute : Option Attribute
  name : Word
  parameters : List ActionParameter
  body : Text
  indented : Indent indent
  hollow : ∀ x ∈ body, Text.isBlank x = true ∨ x = '{' ∨ x = '}'

namespace PlainMember

variable (m : PlainMember)

theorem notMem_body {x : Char} (full : Text.isBlank x = false) (opening : x ≠ '{')
    (closing : x ≠ '}') : x ∉ m.body := fun inside => by
  rcases m.hollow x inside with blank | rfl | rfl
  · rw [full] at blank
    cases blank
  · exact opening rfl
  · exact closing rfl

theorem shuns {opening : Text} (first : opening.head? = some '[')
    (marks : ∀ source : Source, Shuns opening source.mark) :
    Shuns opening (listed m.parameters ++ ')' :: m.body) := by
  have body : '[' ∉ ')' :: m.body := List.not_mem_cons_of_ne_of_not_mem (by decide)
    (m.notMem_body (by decide) (by decide) (by decide))
  exact (shuns_listed first marks m.parameters).append (shuns_of_head_notMem first body)

def member : Member where
  indent := m.indent
  attributes := m.verbAttribute.toList
  name := m.name
  parameters := listed m.parameters
  body := m.body
  indented := m.indented
  parameters_balanced := balanced_listed m.parameters
  unattributed := (m.shuns rfl (by rintro ⟨⟩ <;> decide)).absent (by decide)

def text : Text := m.member.text

theorem silent_routeAttribute : Silent routeAttribute m.text := by
  have unopened {t : Text} (free : '[' ∉ t) : Shuns "[Route" t := shuns_of_head_notMem rfl free
  have indent : Shuns "[Route" m.indent := unopened (m.indented.notMem (by decide) (by decide))
  have header : Shuns "[Route" m.member.header :=
    shuns_flatMap fun a _ => indent.append (a.shuns_route.append (unopened (by decide)))
  have opening : Shuns "[Route" ("public IActionResult " ++ (m.name.text ++ ['('])) :=
    (unopened (by decide)).append ((unopened (m.name.notMem (by decide))).append
      (unopened (by decide)))
  have tail : Shuns "[Route" ((listed m.parameters ++ ')' :: m.body) ++ ['\n']) :=
    (m.shuns rfl (by rintro ⟨⟩ <;> decide)).append (unopened (by decide))
  have whole : m.text = m.member.header ++ (m.indent ++
      (("public IActionResult " ++ (m.name.text ++ ['('])) ++
        ((listed m.parameters ++ ')' :: m.body) ++ ['\n']))) := by
    simp [text, Member.text, Member.tail, member]
  rw [whole]
  exact silent_of_shuns (header.append (indent.append (opening.append tail)))

theorem front_member : m.member.front = listed m.parameters := by
  have free : ')' ∉ listed m.parameters :=
    listed_free (by decide) (by decide) (by rintro ⟨⟩ <;> decide) _
  have whole := takeWhile_of_stops (bne_of_notMem free) (stops_nil _)
  rwa [List.append_nil] at whole

theorem cut_member : m.member.cut = signature m.parameters := by
  rw [Member.cut, front_member]
  rfl

theorem behind_member : m.member.behind = m.body := by
  have same := m.member.front_append m.body
  rw [front_member] at same
  rw [Member.behind, front_member]
  exact (List.cons.inj (List.append_cancel_left same)).2.symm

theorem unpublic : ¬ ("public" : Text) <:+: m.member.behind := by
  rw [behind_member]
  exact fun inside => m.notMem_body (x := 'p') (by decide) (by decide) (by decide)
    (inside.subset (by decide))

/-- The declaration of the member as an action of a method, with a template of its own. -/
def declaration (file base method template : Text) : Declaration :=
  let path := actionPath (controllerName file) base
    ⟨method, template, m.name.text, signature m.parameters⟩
  { method
    path
    source := file
    parameters := Parameter.allInPath (braced.findAll path) ++
      ((m.parameters.filter (·.source = .query)).map (·.name.text)).map (Parameter.inQuery ·) ++
      if (["post", "put", "patch"] : List Text).contains method ∧
          ∃ p ∈ m.parameters, p.source = .body then
        [.body]
      else []
    description := some ("Action: " ++ m.name.text)
    responses := Responses.ofRouters }

theorem ofAction_member (file base method template : Text) :
    ofAction file base ⟨method, template, m.name.text, signature m.parameters⟩ =
      m.declaration file base method template := by
  have taken : (methodsWithBody.contains method &&
      bodyAttribute.occursIn (signature m.parameters)) = true ↔
        (["post", "put", "patch"] : List Text).contains method ∧
          ∃ p ∈ m.parameters, p.source = .body := by
    rw [Bool.and_eq_true, body_signature, methodsWithBody]
  simp only [ofAction, declaration, query_signature, taken]

end PlainMember

section

variable {ms : List PlainMember}

/-- The name of a member is that of an action with an attribute exactly if the member has one. -/
theorem name_mem_routed (distinct : (ms.map (·.name.text)).Nodup) {m : PlainMember} (member : m ∈ ms)
    {f : PlainMember → Attribute → Action} (named : ∀ m a, (f m a).name = m.name.text) :
    m.name.text ∈ (ms.filterMap fun m => m.verbAttribute.map (f m)).map Action.name ↔
      m.verbAttribute ≠ none := by
  constructor
  · intro routed
    obtain ⟨action, found, same⟩ := List.mem_map.mp routed
    obtain ⟨m', member', made⟩ := List.mem_filterMap.mp found
    obtain ⟨a, given, rfl⟩ := Option.map_eq_some_iff.mp made
    rw [named] at same
    obtain rfl := List.inj_on_of_nodup_map distinct member' member same
    exact fun none => by simp [none] at given
  · intro given
    obtain ⟨a, given⟩ := Option.ne_none_iff_exists'.mp given
    exact List.mem_map.mpr ⟨f m a, List.mem_filterMap.mpr ⟨m, member, by rw [given]; rfl⟩,
      named m a⟩

theorem actions_plain (h : Heading) (distinct : (ms.map (·.name.text)).Nodup) :
    actions (h.text ++ ms.flatMap PlainMember.text) =
      ms.filterMap (fun m => m.verbAttribute.map
        (·.action m.name.text (signature m.parameters))) ++
      (ms.filter fun m => m.verbAttribute = none ∧ Conventional m.name.text).map fun m =>
        ⟨"get", Text.lower m.name.text, m.name.text, signature m.parameters⟩ := by
  have text : ms.flatMap PlainMember.text = (ms.map PlainMember.member).flatMap Member.text :=
    (List.flatMap_map PlainMember.member Member.text ms).symm
  have routed : attributed.findAll (h.text ++ ms.flatMap PlainMember.text) =
      ms.filterMap fun m => m.verbAttribute.map (·.action m.name.text (signature m.parameters)) := by
    rw [text, attributed_members h.silent_attributed, List.filterMap_map]
    refine List.filterMap_congr fun m _ => ?_
    cases given : m.verbAttribute with
    | none => simp [Member.routed, PlainMember.member, given]
    | some a => simp [Member.routed, PlainMember.member, given]; rfl
  have found : conventional.findAll (h.text ++ ms.flatMap PlainMember.text) =
      ms.map fun m => (m.name.text, signature m.parameters) := by
    rw [text, conventional_members h.silent_conventional, List.map_map]
    · exact List.map_congr_left fun m _ => congrArg (m.name.text, ·) m.cut_member
    · exact List.forall_mem_map.mpr fun m _ => m.unpublic
  have names : (ms.map fun m => (m.name.text, signature m.parameters)).map Prod.fst =
      ms.map (·.name.text) := List.map_map
  have unrouted : ∀ m ∈ ms,
      (m.name.text ∉ (ms.filterMap fun m => m.verbAttribute.map
        (·.action m.name.text (signature m.parameters))).map Action.name ∧
          Conventional m.name.text) ↔ m.verbAttribute = none ∧ Conventional m.name.text :=
    fun m member => and_congr_left fun _ =>
      (not_congr (name_mem_routed distinct member fun _ _ => rfl)).trans not_not
  rw [actions, routed, found, conventionalActions_of_nodup (names ▸ distinct), List.filter_map,
    List.map_map]
  refine congrArg (_ ++ List.map _ ·) (List.filter_congr fun m member => ?_)
  exact decide_eq_decide.mpr (unrouted m member)

end

/-- What a controller with at most one attribute line above each member declares. -/
theorem extract_plain (file : Text) (h : Heading) (ms : List PlainMember)
    (distinct : (ms.map (·.name.text)).Nodup) :
    controller.extract file (h.text ++ ms.flatMap PlainMember.text) =
      ms.filterMap (fun m => m.verbAttribute.map fun a =>
        m.declaration file (h.base.getD []) (Text.lower a.verb) (a.template.getD [])) ++
      (ms.filter fun m => m.verbAttribute = none ∧ Conventional m.name.text).map fun m =>
        m.declaration file (h.base.getD []) "get" (Text.lower m.name.text) := by
  have base : routeAttribute.find? (h.text ++ ms.flatMap PlainMember.text) = h.base :=
    h.find?_base (silent_flatMap fun m _ => m.silent_routeAttribute)
  change (actions _).map (ofAction file ((routeAttribute.find? _).getD [])) = _
  rw [base, actions_plain h distinct, List.map_append, List.map_filterMap, List.map_map]
  congr 1
  · refine List.filterMap_congr fun m _ => ?_
    rw [Option.map_map]
    exact congrArg (Option.map · _) (funext fun a => m.ofAction_member file _ _ _)
  · exact List.map_congr_left fun m _ => m.ofAction_member file _ _ _

/-! #### A controller of users -/

def usersHeading : Heading where
  base := some "api/[controller]"
  name := .ofText "Users" (by decide)
  heritage := " : ControllerBase\n\x7b"
  base_route := by
    rintro _ ⟨⟩
    exact .characters_append (w := "api/") (Text.forall_of_all (by decide))
      (.token (w := "[controller]") (by decide) .nil)
  unattributed := by decide
  unbased := by decide
  unpublic := by decide

def usersMembers : List PlainMember := [
  { indent := "    "
    verbAttribute := some .get
    name := .ofText "List" (by decide)
    parameters := [⟨.query, .ofText "int" (by decide), .ofText "page" (by decide)⟩]
    body := "\n    \x7b\n    \x7d"
    indented := Text.forall_of_all (by decide)
    hollow := Text.forall_of_all (by decide) },
  { indent := "    "
    verbAttribute := some (.plain "Post" (by decide))
    name := .ofText "Create" (by decide)
    parameters := [⟨.body, .ofText "UserDto" (by decide), .ofText "user" (by decide)⟩]
    body := "\n    \x7b\n    \x7d"
    indented := Text.forall_of_all (by decide)
    hollow := Text.forall_of_all (by decide) },
  { indent := "    "
    verbAttribute := none
    name := .ofText "Export" (by decide)
    parameters := []
    body := " \x7b \x7d"
    indented := Text.forall_of_all (by decide)
    hollow := Text.forall_of_all (by decide) }]

theorem extract_plain_users :
    (usersMembers.map (·.name.text)).Nodup ∧
      (controller.extract "Controllers/UsersController.cs"
        (usersHeading.text ++ usersMembers.flatMap PlainMember.text)).map
          (fun d => (d.method, d.path, d.parameters.map Parameter.name)) = ([
        ("get", "/api/users", ["page"]),
        ("post", "/api/users", ["body"]),
        ("get", "/api/users/export", [])] : List (Text × Text × List Text)) := by
  have distinct : (usersMembers.map (·.name.text)).Nodup := by decide
  refine ⟨distinct, ?_⟩
  rw [extract_plain _ usersHeading usersMembers distinct]
  decide +kernel

end RouteAtlas.Extract
