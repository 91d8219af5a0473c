import RouteAtlas.Proofs.Extract.Members

/-!
# Attributes of a controller

Verb attributes and the `Route` attribute, over the characters of routes. `attributed_append` says
that the first of the attribute lines above a member gives the action, and `routeAttribute_append`
what the scanner for the base of the routes reads.
-/

namespace RouteAtlas.Extract

open Scanner

variable {b : Option Char} {c c' : Cursor} {t u opening : Text} {x : Char}

/-! ### Routes -/

def isRouteCharacter (x : Char) : Bool := Text.isWord x || ("/-.\x7b\x7d:?*" : Text).contains x

/-- Routes are made of word characters, some marks, and the two tokens. -/
inductive IsRoute : Text → Prop where
  | nil : IsRoute []
  | character {x : Char} {t : Text} (inside : isRouteCharacter x = true) (rest : IsRoute t) :
      IsRoute (x :: t)
  | token {w t : Text} (known : w ∈ (["[controller]", "[action]"] : List Text))
      (rest : IsRoute t) : IsRoute (w ++ t)

theorem routeCharacter_ne (inside : isRouteCharacter x = true) {y : Char}
    (other : isRouteCharacter y = false) : x ≠ y := by
  rintro rfl
  rw [inside] at other
  cases other

theorem notBlank_of_routeCharacter (inside : isRouteCharacter x = true) :
    Text.isBlank x = false := by
  rcases (Bool.or_eq_true _ _).mp inside with word | mark
  · exact Route.isBlank_of_isWord word
  · have all : ∀ y ∈ ("/-.\x7b\x7d:?*" : Text), Text.isBlank y = false :=
      Text.forall_of_all (by decide)
    exact all x (List.contains_iff_mem.mp mark)

namespace IsRoute

theorem characters_append {w : Text} (inside : ∀ x ∈ w, isRouteCharacter x = true)
    (rest : IsRoute t) : IsRoute (w ++ t) := by
  induction w with
  | nil => exact rest
  | cons x w ih =>
    obtain ⟨first, more⟩ := List.forall_mem_cons.mp inside
    exact .character first (ih more)

/-- A property of all characters of routes and of both tokens. -/
theorem forall_of {p : Char → Prop} (characters : ∀ x, isRouteCharacter x = true → p x)
    (opening : p '[') (closing : p ']') (h : IsRoute t) : ∀ x ∈ t, p x := by
  induction h with
  | nil => exact List.forall_mem_nil p
  | character inside _ ih => exact List.forall_mem_cons.mpr ⟨characters _ inside, ih⟩
  | token known _ ih =>
    refine List.forall_mem_append.mpr ⟨fun x member => ?_, ih⟩
    have marked : ∀ w ∈ (["[controller]", "[action]"] : List Text), ∀ x ∈ w,
        x = '[' ∨ x = ']' ∨ isRouteCharacter x = true := Text.forall_forall_of_all (by decide)
    rcases marked _ known x member with rfl | rfl | inside
    · exact opening
    · exact closing
    · exact characters x inside

theorem unquoted (h : IsRoute t) : Unquoted t :=
  h.forall_of (fun x inside => by
    have single := routeCharacter_ne inside (y := '\'') (by decide)
    have double := routeCharacter_ne inside (y := '"') (by decide)
    simp [isQuote, single, double]) (by decide) (by decide)

theorem notBlank (h : IsRoute t) : ∀ x ∈ t, Text.isBlank x = false :=
  h.forall_of (fun _ => notBlank_of_routeCharacter) (by decide) (by decide)

/-- No attribute begins in a route. -/
theorem shuns (first : opening.head? = some '[') (controller : Shuns opening "[controller]")
    (action : Shuns opening "[action]") (h : IsRoute t) : Shuns opening t := by
  induction h with
  | nil => exact shuns_nil
  | @character x t inside _ ih =>
    have other : '[' ∉ [x] := fun h =>
      routeCharacter_ne inside (y := '[') (by decide) (List.mem_singleton.mp h).symm
    exact (shuns_of_head_notMem first other).append ih
  | token known _ ih =>
    refine Shuns.append ?_ ih
    rcases List.mem_cons.mp known with rfl | known
    · exact controller
    · obtain rfl := List.mem_singleton.mp known
      exact action

end IsRoute

/-! ### Verb attributes -/

/-- `[HttpVerb]` or `[HttpVerb("template")]`. -/
structure Attribute where
  verb : Text
  template : Option Text
  verb_known : verb ∈ (["Get", "Post", "Put", "Delete", "Patch"] : List Text)
  template_route : ∀ t ∈ template, IsRoute t

namespace Attribute

/-- The attribute without a template. -/
def plain (verb : Text) (known : verb ∈ (["Get", "Post", "Put", "Delete", "Patch"] : List Text)) :
    Attribute := ⟨verb, none, known, fun _ none => by cases none⟩

def get : Attribute := plain "Get" (by decide)

variable (a : Attribute)

/-- What follows the verb. -/
def closing : Text :=
  match a.template with
  | none => "]"
  | some t => "(\"" ++ (t ++ "\")]")

def text : Text := "[Http" ++ (a.verb ++ a.closing)

theorem closing_eq : ∃ u : Text, a.closing = u ++ "]" ∧ (u = [] ∨ ∃ t, IsRoute t ∧
    u = "(\"" ++ (t ++ "\")")) := by
  unfold closing
  cases template : a.template with
  | none => exact ⟨[], rfl, .inl rfl⟩
  | some t => exact ⟨_, by simp, .inr ⟨t, a.template_route t template, rfl⟩⟩

theorem notBlank : ∀ x ∈ a.text, Text.isBlank x = false := by
  have verbs : ∀ v ∈ pascalMethods, ∀ x ∈ v, Text.isBlank x = false :=
    Text.forall_forall_of_all (by decide)
  obtain ⟨u, closing, shape⟩ := a.closing_eq
  refine List.forall_mem_append.mpr ⟨Text.forall_of_all (by decide),
    List.forall_mem_append.mpr ⟨verbs a.verb a.verb_known, ?_⟩⟩
  rw [closing]
  refine List.forall_mem_append.mpr ⟨?_, Text.forall_of_all (by decide)⟩
  rcases shape with rfl | ⟨t, route, rfl⟩
  · exact List.forall_mem_nil _
  · exact List.forall_mem_append.mpr ⟨Text.forall_of_all (by decide),
      List.forall_mem_append.mpr ⟨route.notBlank, Text.forall_of_all (by decide)⟩⟩

theorem silent_conventional : Silent conventional a.text := by
  obtain ⟨u, closing, _⟩ := a.closing_eq
  have whole : a.text = ("[Http" ++ (a.verb ++ u)) ++ [']'] := by simp [text, closing]
  rw [whole]
  exact Extract.silent_conventional (whole ▸ a.notBlank) (by decide)

theorem shuns_route : Shuns "[Route" a.text := by
  have verbs : ∀ v ∈ pascalMethods, '[' ∉ v := by decide
  have unopened {t : Text} (free : '[' ∉ t) : Shuns "[Route" t := shuns_of_head_notMem rfl free
  obtain ⟨u, closing, shape⟩ := a.closing_eq
  refine Shuns.append (by decide) ((unopened (verbs a.verb a.verb_known)).append ?_)
  rw [closing]
  refine Shuns.append ?_ (by decide)
  rcases shape with rfl | ⟨t, route, rfl⟩
  · exact shuns_nil
  · exact Shuns.append (by decide) ((route.shuns rfl (by decide) (by decide)).append (by decide))

end Attribute

/-! ### Reading attributes -/

theorem attributeTemplate_append (free : Unquoted t) (b : Option Char) (rest : Text) :
    attributeTemplate ⟨b, "(\"" ++ (t ++ ("\")" ++ rest))⟩ = some (t, ⟨some ')', rest⟩) := by
  refine (argument_parenthesized (x := '"') (y := '"') (by decide) (by decide) free b _).trans ?_
  refine (bind_of_some (blanks_none (x := ')') (by decide) _ rest)).trans ?_
  exact bind_of_some (literal_append ")" _ rest)

theorem oneOf_verb {verb : Text} (known : verb ∈ pascalMethods) (b : Option Char) (rest : Text) :
    oneOf pascalMethods ⟨b, verb ++ rest⟩ = some (verb, ⟨verb.getLast?.or b, rest⟩) :=
  oneOf_append (by decide) known b rest

/-- The optional template of an attribute and the bracket behind it are read. -/
theorem closing_append (a : Attribute) {β : Type} (f : Option Text → Scanner β) (b : Option Char)
    (rest : Text) :
    (option attributeTemplate >>= fun o => literal "]" >>= fun _ => f o) ⟨b, a.closing ++ rest⟩ =
      f a.template ⟨some ']', rest⟩ := by
  have bracket (b' : Option Char) : literal "]" ⟨b', "]" ++ rest⟩ = some ((), ⟨some ']', rest⟩) :=
    literal_eq_some.mpr ⟨rest, rfl, rfl⟩
  rw [bind_apply, Attribute.closing]
  cases template : a.template with
  | none =>
    rw [option_of_none rfl, Option.bind_some, bind_apply, bracket]
    rfl
  | some t =>
    have read := attributeTemplate_append (a.template_route t template).unquoted b ("]" ++ rest)
    have text : ("(\"" ++ (t ++ "\")]") ++ rest : Text) = "(\"" ++ (t ++ ("\")" ++ ("]" ++ rest))) := by
      simp
    dsimp only
    rw [text, option_of_some read, Option.bind_some, bind_apply, bracket]
    rfl

/-- What an attribute and the member below it make. -/
def Attribute.action (a : Attribute) (name signature : Text) : Action :=
  ⟨Text.lower a.verb, a.template.getD [], name, signature⟩

/-- No member is public on an attribute line, nor on what is left of one. -/
theorem publicMember_attributes {indent l : Text} (h : Indent indent) (more : List Attribute)
    (member : l ∈ [] :: more.map fun a => indent ++ a.text) :
    '\n' ∉ l ∧ ∀ b t, publicMember ⟨b, l ++ '\n' :: t⟩ = none := by
  rcases List.mem_cons.mp member with rfl | member
  · have none : Indent [] := List.forall_mem_nil _
    exact ⟨List.not_mem_nil, publicMember_none none (by decide) (by decide) (by decide)⟩
  · obtain ⟨a, _, rfl⟩ := List.mem_map.mp member
    refine ⟨List.not_mem_append (h.notMem (by decide) (by decide)) fun inside => ?_, fun b t => ?_⟩
    · exact absurd (a.notBlank '\n' inside) (by decide)
    · rw [List.append_assoc]
      exact publicMember_none h (by decide) (by decide) (by decide) b _

/-- The first of several attribute lines gives the action. -/
theorem attributed_append (a : Attribute) (more : List Attribute) {indent : Text}
    (h : Indent indent) (n : Word) (b : Option Char) (rest : Text) :
    attributed ⟨b, a.text ++ '\n' :: (more.flatMap (fun a => indent ++ (a.text ++ ['\n'])) ++
        (indent ++ ("public IActionResult " ++ (n.text ++ '(' :: rest))))⟩ =
      some (a.action n.text (balanced ('(' :: rest)), ⟨some '(', rest⟩) := by
  have lines : '\n' :: (more.flatMap (fun a => indent ++ (a.text ++ ['\n'])) ++
      (indent ++ ("public IActionResult " ++ (n.text ++ '(' :: rest)))) =
      ([] :: more.map fun a => indent ++ a.text).flatMap (· ++ ['\n']) ++
        (indent ++ ("public IActionResult " ++ (n.text ++ '(' :: rest))) := by
    simp [List.flatMap_map]
  -- The first line to be passed over is the empty rest of the attribute's own.
  have member := fromLine_skip (fun _ => publicMember_attributes h more)
    (fun b => publicMember_append h n b rest) (some ']')
  rw [lines, attributed, bind_apply, Attribute.text, List.append_assoc, List.append_assoc]
  rw [literal_append, Option.bind_some, bind_apply, oneOf_verb a.verb_known,
    Option.bind_some, closing_append, bind_apply]
  exact congrArg (Option.bind · _) member

theorem consumes_attributed : Consumes attributed := by
  have template : Reads attributeTemplate :=
    reads_bind (reads_run _) fun _ => reads_bind (reads_literal _) fun _ =>
      reads_bind (reads_of_consumes consumes_argument) fun _ => reads_bind (reads_run _) fun _ =>
        reads_bind (reads_literal _) fun _ => reads_pure _
  have member : Reads fun c => fromLine publicMember (c.rest.count '\n') c := by
    intro c p c' found
    obtain ⟨w, mid, between, found⟩ := fromLine_eq_some found
    obtain ⟨_, v, rest⟩ := publicMember_eq_some found
    exact ⟨w ++ v, between_trans between rest⟩
  exact consumes_bind (consumes_literal (by decide)) fun _ =>
    reads_bind (reads_of_consumes (consumes_oneOf (by decide))) fun _ =>
      reads_bind (reads_option template) fun _ => reads_bind (reads_literal _) fun _ =>
        reads_bind member fun _ => reads_pure _

/-- The name of an action is a word. -/
theorem gives_attributed_name : Gives attributed fun a => ∃ n : Word, a.name = n.text := by
  have member : Gives (fun c => fromLine publicMember (c.rest.count '\n') c)
      fun p => ∃ n : Word, p.1 = n.text := by
    intro c p c' found
    obtain ⟨_, mid, _, found⟩ := fromLine_eq_some found
    exact (publicMember_eq_some found).1
  exact gives_bind fun _ => gives_bind fun _ => gives_bind fun _ => gives_bind fun _ =>
    gives_bind_of member fun _ named => gives_pure named

/-! ### The base of the routes -/

theorem consumes_routeAttribute : Consumes routeAttribute :=
  consumes_bind (consumes_literal (by decide)) fun _ =>
    reads_bind (reads_run _) fun _ => reads_bind (reads_literal _) fun _ =>
      reads_bind (reads_of_consumes consumes_argument) fun _ => reads_bind (reads_run _) fun _ =>
        reads_bind (reads_literal _) fun _ => reads_pure _

theorem routeAttribute_append (free : Unquoted t) (b : Option Char) (rest : Text) :
    routeAttribute ⟨b, "[Route(\"" ++ (t ++ ("\")]" ++ rest))⟩ = some (t, ⟨some ']', rest⟩) := by
  refine (bind_of_some (literal_append "[Route" b _)).trans ?_
  refine (bind_of_some (blanks_none (x := '(') (by decide) _ _)).trans ?_
  refine (bind_of_some (literal_append "(" _ _)).trans ?_
  refine (bind_of_some
    (argument_append (x := '"') (y := '"') (by decide) (by decide) free _ _)).trans ?_
  refine (bind_of_some (blanks_none (x := ')') (by decide) _ _)).trans ?_
  exact bind_of_some (literal_append ")]" _ rest)

end RouteAtlas.Extract
