import RouteAtlas.Project.Dialect
import RouteAtlas.Proofs.Route.Slashes
import RouteAtlas.Proofs.Scanner.Pieces

/-!
# Sound declarations

Whatever an extractor reads answers a request method and describes its path parameters as required
strings. `sound_placed` says so of the routes of any file in a project of any dialect, and that their
templates have the shape of templates.
-/

namespace RouteAtlas

open Route Scanner

/-- The methods that a route may answer. -/
def requestMethods : List Text := ["get", "post", "put", "delete", "patch", "head", "options"]

namespace Route

/-! ### Parameters -/

def Parameter.Sound (p : Parameter) : Prop :=
  p.location = ("path" : Text) → p.required = true ∧ p.schema = ("string" : Text)

namespace Parameter

theorem sound_inPath (name : Text) : (inPath name).Sound := fun _ => ⟨rfl, rfl⟩

theorem sound_inQuery (name : Text) (required : Bool) : (inQuery name required).Sound :=
  fun h => absurd h (by simp [inQuery])

theorem sound_body : body.Sound := fun h => absurd h (by simp [body])

theorem mem_of_mem_distinctFrom {p : Parameter} {seen : List Text} {ps : List Parameter}
    (h : p ∈ distinctFrom seen ps) : p ∈ ps := by
  induction ps generalizing seen with
  | nil => exact h
  | cons q ps ih =>
    rw [distinctFrom] at h
    split at h
    · exact List.mem_cons_of_mem q (ih h)
    · rcases List.mem_cons.mp h with rfl | h
      · exact List.mem_cons_self
      · exact List.mem_cons_of_mem q (ih h)

theorem sound_distinctFrom {seen : List Text} {ps : List Parameter} (h : ∀ p ∈ ps, p.Sound) :
    ∀ p ∈ distinctFrom seen ps, p.Sound := fun p hp => h p (mem_of_mem_distinctFrom hp)

theorem sound_allInPath (names : List Text) : ∀ p ∈ allInPath names, p.Sound :=
  sound_distinctFrom (List.forall_mem_map.mpr fun name _ => sound_inPath name)

theorem sound_optionalBody (present : Prop) [Decidable present] :
    ∀ p ∈ (if present then [body] else []), p.Sound := by
  split
  · exact List.forall_mem_singleton.mpr sound_body
  · exact fun _ h => absurd h List.not_mem_nil

theorem sound_queries {α : Type} (l : List α) (name : α → Text) (required : α → Bool) :
    ∀ p ∈ l.map fun a => inQuery (name a) (required a), p.Sound :=
  List.forall_mem_map.mpr fun a _ => sound_inQuery (name a) (required a)

end Parameter

/-! ### Declarations -/

/-- The declaration answers a request method, and its path parameters are required strings. -/
structure Declaration.Sound (d : Declaration) : Prop where
  method : d.method ∈ requestMethods
  parameters : ∀ p ∈ d.parameters, p.Sound

end Route

def Extractor.Sound (e : Extractor) : Prop := ∀ file text, ∀ d ∈ e.extract file text, d.Sound

namespace Extract

open Parameter

def capitalMethods : List Text := ["GET", "POST", "PUT", "DELETE", "PATCH"]

theorem methods_subset : ∀ method ∈ methods, method ∈ requestMethods := by decide

theorem patternMethods_subset : ∀ method ∈ patternMethods, method ∈ requestMethods := by decide

/-- The methods of cases and attributes are request methods in other letters. -/
theorem lower_mem_requestMethods : ∀ method ∈ capitalMethods ++ pascalMethods,
    Text.lower method ∈ requestMethods := by decide

theorem sound_handlers : handlers.Sound := by
  intro file text d found
  obtain ⟨method, member, rfl⟩ := List.mem_map.mp found
  refine ⟨methods_subset _ (List.mem_filter.mp member).1, List.forall_mem_append.mpr ⟨?_, ?_⟩⟩
  · exact sound_distinctFrom (sound_queries _ _ _)
  · exact sound_optionalBody _

theorem sound_callsWith (call : Text → Scanner Text) (anchor : Anchor) (file text : Text) :
    ∀ d ∈ callsWith call anchor file text, d.Sound := by
  intro d found
  obtain ⟨method, member, found⟩ := List.mem_flatMap.mp found
  obtain ⟨path, _, rfl⟩ := List.mem_map.mp found
  refine ⟨methods_subset method member, List.forall_mem_append.mpr ⟨List.forall_mem_append.mpr
    ⟨sound_allInPath _, sound_distinctFrom (sound_queries _ _ _)⟩, sound_optionalBody _⟩⟩

theorem sound_routeObjects : routeObjects.Sound := by
  intro file text d found
  obtain ⟨⟨method, path, handler⟩, _, found⟩ := List.mem_filterMap.mp found
  unfold ofObject at found
  dsimp only at found
  split at found
  · rename_i known
    obtain rfl := Option.some.inj found
    exact ⟨List.contains_iff_mem.mp known, sound_allInPath _⟩
  · cases found

theorem sound_urlPatterns : urlPatterns.Sound := by
  intro file text d found
  obtain ⟨⟨route, view⟩, _, found⟩ := List.mem_flatMap.mp found
  obtain ⟨method, member, rfl⟩ := List.mem_map.mp found
  exact ⟨patternMethods_subset method member, sound_allInPath _⟩

theorem gives_routerCase : Gives routerCase fun found => found.1 ∈ capitalMethods :=
  gives_bind fun _ => gives_bind fun _ => gives_bind_of (gives_oneOf _) fun _ member =>
  gives_bind fun _ => gives_bind fun _ => gives_bind fun _ => gives_bind fun _ =>
  gives_bind fun _ => gives_bind fun _ => gives_bind fun _ => gives_bind fun _ =>
  gives_bind fun _ => gives_bind fun _ => gives_bind fun _ => gives_bind fun _ => gives_pure member

theorem sound_playRouter : playRouter.Sound := by
  intro file text d found
  obtain ⟨⟨method, path, bindings, call⟩, read, rfl⟩ := List.mem_map.mp found
  have member := gives_findAll gives_routerCase read
  exact ⟨lower_mem_requestMethods _ (List.mem_append_left _ member),
    List.forall_mem_append.mpr ⟨sound_allInPath _, sound_queries _ _ _⟩⟩

theorem gives_registration : Gives registration fun found => found.1 ∈ pascalMethods :=
  gives_bind fun _ => gives_bind fun _ => gives_bind_of (gives_oneOf _) fun _ member =>
  gives_bind fun _ => gives_bind fun _ => gives_bind fun _ => gives_bind fun _ =>
  gives_bind fun _ => gives_pure member

theorem sound_minimalEndpoints : minimalEndpoints.Sound := by
  intro file text d found
  obtain ⟨⟨method, path⟩, read, rfl⟩ := List.mem_map.mp found
  have member := gives_findAll gives_registration read
  exact ⟨lower_mem_requestMethods _ (List.mem_append_right _ member), sound_allInPath _⟩

theorem gives_attributed : Gives attributed fun action => action.method ∈ requestMethods :=
  gives_bind fun _ => gives_bind_of (gives_oneOf _) fun _ member =>
  gives_bind fun _ => gives_bind fun _ => gives_bind fun _ =>
  gives_pure (lower_mem_requestMethods _ (List.mem_append_right _ member))

theorem method_of_mem_conventionalActions {a : Action} {seen : List Text}
    {found : List (Text × Text)} (h : a ∈ conventionalActions seen found) :
    a.method = ("get" : Text) := by
  induction found generalizing seen with
  | nil => cases h
  | cons p found ih =>
    obtain ⟨name, signature⟩ := p
    rw [conventionalActions] at h
    split at h
    · exact ih h
    · rcases List.mem_cons.mp h with rfl | h
      · rfl
      · exact ih h

theorem sound_controller : controller.Sound := by
  intro file text d found
  obtain ⟨action, member, rfl⟩ := List.mem_map.mp found
  refine ⟨?_, List.forall_mem_append.mpr ⟨List.forall_mem_append.mpr
    ⟨sound_allInPath _, sound_queries _ _ _⟩, sound_optionalBody _⟩⟩
  rcases List.mem_append.mp member with routed | named
  · exact gives_findAll gives_attributed routed
  · have get := method_of_mem_conventionalActions named
    show action.method ∈ requestMethods
    rw [get]
    decide

end Extract

/-! ### Dialects -/

namespace Dialect

theorem sound_allExtractors : ∀ e ∈ allExtractors, e.Sound := by
  intro e member
  simp only [allExtractors, scriptExtractors, List.cons_append, List.nil_append, List.mem_cons,
    List.not_mem_nil, or_false] at member
  rcases member with rfl | rfl | rfl | rfl | rfl | rfl | rfl | rfl
  · exact Extract.sound_handlers
  · exact Extract.sound_callsWith _ _
  · exact Extract.sound_callsWith _ _
  · exact Extract.sound_routeObjects
  · exact Extract.sound_urlPatterns
  · exact Extract.sound_playRouter
  · exact Extract.sound_minimalEndpoints
  · exact Extract.sound_controller

theorem mem_allExtractors {d : Dialect} {file : Text} {e : Extractor} (h : e ∈ d.extractors file) :
    e ∈ allExtractors := by
  have scripts : e ∈ scriptExtractors → e ∈ allExtractors := List.mem_append_left _
  cases d with
  | dotnetProject =>
    simp only [extractors] at h
    split at h
    · simp_all [allExtractors]
    · split at h <;> simp_all [allExtractors]
  | strapi =>
    rcases List.mem_append.mp h with script | object
    · exact scripts script
    · simp_all [allExtractors]
  | django | play | dotnetMinimalApi | dotnetWebApi => simp_all [extractors, allExtractors]
  | unsupported | unknown => exact absurd h List.not_mem_nil
  | _ => exact scripts h

theorem isTemplate_place (anchor : Anchor) (file path : Text) :
    IsTemplate (place anchor file path) := by
  cases anchor <;> exact isTemplate_canonical _

/-- The routes of a file are sound, and their templates have the shape of templates. -/
theorem sound_placed {d : Dialect} {file text : Text} {p : Text × Declaration}
    (h : p ∈ d.placed file text) : IsTemplate p.1 ∧ p.2.Sound := by
  obtain ⟨e, used, found⟩ := List.mem_flatMap.mp h
  obtain ⟨r, read, rfl⟩ := List.mem_map.mp found
  exact ⟨isTemplate_place r.anchor file r.path,
    sound_allExtractors e (mem_allExtractors used) file text r read⟩

end Dialect
end RouteAtlas
