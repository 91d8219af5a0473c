import RouteAtlas.Proofs.Extract.Attributes
import RouteAtlas.Proofs.Glob.Names
import RouteAtlas.Proofs.Route.Thinning
import RouteAtlas.Proofs.Text.Lowering
import RouteAtlas.Proofs.Text.Replacement

/-!
# Paths of actions

How the path of an action is put together from the base of its controller and its own template: the
two are joined, the tokens replaced, and a path that is then empty or a lone slash gives way to one made
of the names of the controller and the action. `canonical_attributed` says what the template of such a
path is.
-/

namespace RouteAtlas

namespace Route

open Scanner Text

variable {part new t u : Text}

theorem thinned_replace (first : part.head? = some '[') (free : '/' ∉ part)
    (h : Thinned t u) (new : Text) : Thinned (replace part new t) (replace part new u) := by
  obtain ⟨o, rfl⟩ := List.head?_eq_some_iff.mp first
  rw [replace_eq_substitute (List.cons_ne_nil _ _), replace_eq_substitute (List.cons_ne_nil _ _)]
  exact thinned_substitute (x := '[') (by decide)
    (consumes_bind (consumes_literal (List.cons_ne_nil _ _)) fun _ => reads_pure _)
    (opens_bind (opens_literal '[' o)) (even_bind (even_literal free) fun _ => even_pure new) h

/-! ### Slashes around what is joined -/

theorem cons_slashes {v : Text} (all : ∀ x ∈ v, x = '/') (t : Text) :
    '/' :: (v ++ t) = v ++ '/' :: t := by
  induction v with
  | nil => rfl
  | cons x v ih =>
    obtain ⟨rfl, rest⟩ := List.forall_mem_cons.mp all
    exact congrArg ('/' :: ·) (ih rest)

theorem exists_trim (p : Char → Bool) (t : Text) : ∃ v w,
    (∀ x ∈ v, p x = true) ∧ (∀ x ∈ w, p x = true) ∧ t = v ++ (trim p t ++ w) := by
  refine ⟨t.takeWhile p, ((t.dropWhile p).reverse.takeWhile p).reverse,
    List.all_eq_true.mp List.all_takeWhile, fun x inside => ?_, ?_⟩
  · exact List.all_eq_true.mp List.all_takeWhile x (List.mem_reverse.mp inside)
  · rw [trim, ← List.reverse_append, List.takeWhile_append_dropWhile, List.reverse_reverse,
      List.takeWhile_append_dropWhile]

/-- Joining leaves out only slashes at the ends of the two parts. -/
theorem thinned_joined (t u : Text) : Thinned ('/' :: (t ++ '/' :: u))
    ('/' :: (Extract.withoutSlashes t ++ '/' :: Extract.withoutSlashes u)) := by
  have slash {w : Text} (h : ∀ x ∈ w, (x == '/') = true) : ∀ x ∈ w, x = '/' :=
    fun x inside => eq_of_beq (h x inside)
  obtain ⟨v, w, front, back, whole⟩ := exists_trim (· == '/') t
  obtain ⟨v', w', front', back', whole'⟩ := exists_trim (· == '/') u
  have text : '/' :: (t ++ '/' :: u) = v ++ '/' :: (Extract.withoutSlashes t ++
      (w ++ (v' ++ '/' :: (Extract.withoutSlashes u ++ w')))) := by
    rw [← cons_slashes (slash front), ← cons_slashes (slash front'), Extract.withoutSlashes,
      Extract.withoutSlashes]
    conv_lhs => rw [whole, whole']
    simp only [List.append_assoc]
  have ending : Thinned (Extract.withoutSlashes u ++ w') (Extract.withoutSlashes u ++ []) :=
    (Thinned.slashes (slash back')).append_left _
  rw [List.append_nil] at ending
  rw [text, ← List.append_assoc w]
  refine Thinned.run (slash front) (.cons '/' (Thinned.append_left _ ?_))
  refine Thinned.run ?_ (.cons '/' ending)
  exact List.forall_mem_append.mpr ⟨slash back, slash front'⟩

theorem thinned_rooted (t : Text) : Thinned ('/' :: t) (rooted t) := by
  unfold rooted
  split
  · rename_i first
    obtain ⟨r, rfl⟩ := List.head?_eq_some_iff.mp first
    exact .double (.refl _)
  · exact .refl _

end Route

namespace Extract

open Scanner Route Text

/-! ### Names of controllers -/

theorem slash_notMem_controllerName (file : Text) : '/' ∉ controllerName file := by
  have base := (Tree.baseName_cases (swap '\\' '/' file)).1
  refine slash_notMem_lower fun inside => ?_
  rcases mem_replaceFirst inside with inside | none
  · cases named : before? ".cs" (Tree.baseName (swap '\\' '/' file)) with
    | none =>
      rw [named] at inside
      exact base inside
    | some body =>
      rw [named] at inside
      exact base (before?_eq_some_iff.mp named ▸ List.mem_append_left _ inside)
  · cases none

/-! ### From base and template to the path -/

/-- A path in which the tokens are replaced by the names of the controller and of the action. -/
def named (controller action t : Text) : Text :=
  replace "[action]" (lower action) (replace "[controller]" controller t)

section

variable {controller action t u : Text}

theorem named_slash_cons (controller action t : Text) :
    named controller action ('/' :: t) = '/' :: named controller action t := by
  rw [named, replace_slash_cons rfl, replace_slash_cons rfl]
  rfl

theorem thinned_named (controller action : Text) (h : Thinned t u) :
    Thinned (named controller action t) (named controller action u) :=
  thinned_replace rfl (by decide) (thinned_replace rfl (by decide) h _) _

/-- Only the empty path and a lone slash become so. -/
theorem named_blank_iff (some : controller ≠ [] ∧ '/' ∉ controller)
    (some' : lower action ≠ [] ∧ '/' ∉ lower action) :
    named controller action t = [] ∨ named controller action t = "/" ↔ t = [] ∨ t = "/" := by
  constructor
  · rintro (empty | slash)
    · exact .inl (replace_eq_nil some.1 (replace_eq_nil some'.1 empty))
    · exact .inr (replace_eq_slash some.1 some.2 (replace_eq_slash some'.1 some'.2 slash))
  · rintro (rfl | rfl)
    · exact .inl rfl
    · exact .inr rfl

theorem named_notBlank (plain : ∀ x ∈ controller, isBlank x = false)
    (plain' : ∀ x ∈ lower action, isBlank x = false) (h : ∀ x ∈ t, isBlank x = false) :
    ∀ x ∈ named controller action t, isBlank x = false := by
  intro x inside
  rcases mem_replace inside with inside | inside
  · exact (mem_replace inside).elim (h x) (plain x)
  · exact plain' x inside

theorem joined_of_ne_nil (base : t ≠ []) (template : u ≠ []) :
    joined t u = '/' :: (withoutSlashes t ++ '/' :: withoutSlashes u) := by
  obtain ⟨x, t, rfl⟩ := List.exists_cons_of_ne_nil base
  obtain ⟨y, u, rfl⟩ := List.exists_cons_of_ne_nil template
  rfl

theorem joined_nil_left (template : u ≠ []) : joined [] u = u := by
  obtain ⟨y, u, rfl⟩ := List.exists_cons_of_ne_nil template
  rfl

theorem joined_nil_right (base : t ≠ []) : joined t [] = t := by
  obtain ⟨x, t, rfl⟩ := List.exists_cons_of_ne_nil base
  rfl

/-- Base and template join to nothing but a slash only if they are nothing but a slash. -/
theorem joined_blank_iff (t u : Text) :
    joined t u = [] ∨ joined t u = "/" ↔ t ++ u = [] ∨ t ++ u = "/" := by
  by_cases base : t = []
  · subst base
    by_cases template : u = []
    · subst template
      exact iff_of_true (.inr rfl) (.inl rfl)
    · rw [joined_nil_left template, List.nil_append]
  · by_cases template : u = []
    · subst template
      rw [joined_nil_right base, List.append_nil]
    · rw [joined_of_ne_nil base template]
      have long : 2 ≤ (t ++ u).length := by
        have := List.length_pos_iff.mpr base
        have := List.length_pos_iff.mpr template
        rw [List.length_append]
        omega
      refine iff_of_false ?_ ?_
      · rintro (empty | slash)
        · cases empty
        · simpa using congrArg List.length slash
      · rintro (empty | slash)
        · rw [empty] at long
          cases long
        · rw [slash] at long
          exact absurd long (by decide)

theorem thinned_either (either : t = [] ∨ u = []) :
    Thinned ('/' :: (t ++ '/' :: u)) ('/' :: (t ++ u)) := by
  rcases either with rfl | rfl
  · exact .double (.refl _)
  · exact Thinned.append_left ('/' :: t) .last

/-- Base and template may as well be put together by a slash in front of each. -/
theorem canonical_named_joined
    (plain : ∀ x ∈ named controller action ('/' :: (t ++ '/' :: u)), isBlank x = false) :
    canonical (rooted (named controller action (joined t u))) =
      canonical (named controller action ('/' :: (t ++ '/' :: u))) := by
  by_cases both : t ≠ [] ∧ u ≠ []
  · have thin := thinned_named controller action (thinned_joined t u)
    rw [joined_of_ne_nil both.1 both.2, named_slash_cons]
    rw [named_slash_cons controller action (withoutSlashes t ++ '/' :: withoutSlashes u)] at thin
    exact (canonical_thinned thin plain).symm
  · have either : t = [] ∨ u = [] := by
      by_cases base : t = []
      · exact .inl base
      · exact .inr (not_not.mp fun template => both ⟨base, template⟩)
    have thin := thinned_named controller action (thinned_either either)
    -- Where one part is empty, the other is not given the slash in front.
    have single : joined t u = t ++ u ∨ joined t u = '/' :: (t ++ u) := by
      rcases either with rfl | rfl
      · by_cases template : u = []
        · exact .inr (by rw [template]; rfl)
        · exact .inl (joined_nil_left template)
      · by_cases base : t = []
        · exact .inr (by rw [base]; rfl)
        · exact .inl ((joined_nil_right base).trans (List.append_nil t).symm)
    rw [canonical_thinned thin plain, named_slash_cons]
    rw [named_slash_cons controller action (t ++ u)] at thin
    rcases single with same | same
    · rw [same]
      exact (canonical_thinned (thinned_rooted _) fun x inside => plain x (thin.subset x inside)).symm
    · rw [same, named_slash_cons]
      rfl

end

/-! ### Actions with an attribute -/

/-- The path of an action is made of the names of the controller and the action where base and
template together are empty or a lone slash. -/
theorem actionPath_eq {controller : Text} (nonempty : controller ≠ []) (free : '/' ∉ controller)
    (base : Text) {a : Action} {n : Word} (name : a.name = n.text) :
    actionPath controller base a = rooted
      (if base ++ a.template = [] ∨ base ++ a.template = "/" then
        '/' :: controller ++ '/' :: if a.template = [] then lower a.name else a.template
      else named controller a.name (joined base a.template)) := by
  have action : lower a.name ≠ [] ∧ '/' ∉ lower a.name :=
    ⟨lower_ne_nil (name ▸ n.nonempty), slash_notMem_lower (name ▸ n.notMem (by decide))⟩
  have blank := (named_blank_iff ⟨nonempty, free⟩ action).trans (joined_blank_iff base a.template)
  rw [actionPath]
  change rooted (if named controller a.name (joined base a.template) = [] ∨
    named controller a.name (joined base a.template) = "/" then _ else _) = _
  simp only [blank]
  rfl

/-- The template of an action with an attribute. Base and template are joined by slashes and the tokens
replaced; only where the two together are empty or a lone slash the names of the controller and of the
action take their place. -/
theorem canonical_attributed (file text : Text) {a : Action} (found : a ∈ attributed.findAll text)
    (nonempty : controllerName file ≠ []) (plain : ∀ x ∈ controllerName file, isBlank x = false) :
    let base := (routeAttribute.find? text).getD []
    let d := ofAction file base a
    (∀ x ∈ base ++ a.template, isBlank x = false) →
    d ∈ controller.extract file text ∧ canonical d.path = canonical
      (if base ++ a.template = [] ∨ base ++ a.template = "/" then
        '/' :: controllerName file ++ '/' :: if a.template = [] then lower a.name else a.template
      else named (controllerName file) a.name ('/' :: (base ++ '/' :: a.template))) := by
  intro base d route_plain
  obtain ⟨n, name⟩ := gives_findAll gives_attributed_name found
  refine ⟨List.mem_map.mpr ⟨a, List.mem_append_left _ found, rfl⟩, ?_⟩
  change canonical (actionPath (controllerName file) base a) = _
  rw [actionPath_eq nonempty (slash_notMem_controllerName file) base name]
  split
  · rfl
  · obtain ⟨base_plain, template_plain⟩ := List.forall_mem_append.mp route_plain
    have action_plain : ∀ x ∈ lower a.name, isBlank x = false :=
      lower_notBlank (name ▸ n.notBlank)
    refine canonical_named_joined (named_notBlank plain action_plain ?_)
    exact List.forall_mem_cons.mpr ⟨by decide, List.forall_mem_append.mpr ⟨base_plain,
      List.forall_mem_cons.mpr ⟨by decide, template_plain⟩⟩⟩

/-- A template for single users below the base of all of them. -/
theorem canonical_attributed_users :
    let text : Text := "[Route(\"api/[controller]/\")]\n" ++
      ("[HttpPut(\"/\x7bid:int\x7d/[action]\")]\npublic IActionResult Rename()\n" : Text)
    let a : Action := ⟨"put", "/\x7bid:int\x7d/[action]", "Rename", "()"⟩
    a ∈ attributed.findAll text ∧
      canonical (ofAction "UsersController.cs" "api/[controller]/" a).path =
        "/api/users/\x7bid\x7d/rename" := by
  intro text a
  have found : a ∈ attributed.findAll text := by decide +kernel
  have base : (routeAttribute.find? text).getD [] = "api/[controller]/" := by decide +kernel
  have plain : ∀ x ∈ ("api/[controller]/" ++ a.template : Text), isBlank x = false :=
    forall_of_all (by decide)
  have all := canonical_attributed "UsersController.cs" text found (by decide +kernel)
    (forall_of_all (by decide +kernel))
  rw [base] at all
  exact ⟨found, (all plain).2.trans (by decide +kernel)⟩

/-- A controller whose base is a lone slash, with one action at that base. -/
def homeAtRoot : Text :=
  "[Route(\"/\")]\npublic class HomeController : Controller\n\x7b\n" ++
    ("    [HttpGet]\n    public IActionResult Index()\n    \x7b\n    \x7d\n\x7d\n" : Text)

/-- A base that is a lone slash gives way to the names where the template is empty, although the two
make a slash. -/
theorem canonical_homeAtRoot :
    (controller.extract "HomeController.cs" homeAtRoot).map (canonical ·.path) =
      [("/home/index" : Text)] ∧
    canonical (named "home" "Index" ('/' :: ("/" ++ '/' :: []))) = "/" := by
  decide +kernel

end Extract
end RouteAtlas
