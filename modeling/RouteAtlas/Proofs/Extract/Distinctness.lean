import Mathlib.Data.List.Nodup
import RouteAtlas.Proofs.Extract.Soundness

/-!
# Parameters told apart

A parameter is told apart by its name and by where it is passed. `nodup_keys_extracted` says that
only parameters of the query can be declared twice, and that six of the eight extractors declare
none twice.
-/

namespace RouteAtlas

open Route

namespace Route.Parameter

def key (p : Parameter) : Text × Text := (p.name, p.location)

theorem nodup_names_distinctFrom (seen : List Text) (ps : List Parameter) :
    ((distinctFrom seen ps).map name).Nodup ∧ ∀ p ∈ distinctFrom seen ps, p.name ∉ seen := by
  induction ps generalizing seen with
  | nil => exact ⟨List.nodup_nil, List.forall_mem_nil _⟩
  | cons p ps ih =>
    unfold distinctFrom
    split
    · exact ih seen
    · rename_i new
      obtain ⟨distinct, fresh⟩ := ih (p.name :: seen)
      constructor
      · rw [List.map_cons, List.nodup_cons]
        refine ⟨fun old => ?_, distinct⟩
        obtain ⟨q, later, same⟩ := List.mem_map.mp old
        exact fresh q later (same ▸ List.mem_cons_self)
      · refine List.forall_mem_cons.mpr ⟨by simpa using new, fun q later => ?_⟩
        exact fun old => fresh q later (List.mem_cons_of_mem p.name old)

theorem location_allInPath (names : List Text) :
    ∀ p ∈ allInPath names, p.location = ("path" : Text) := by
  intro p member
  obtain ⟨n, _, rfl⟩ := List.mem_map.mp (mem_of_mem_distinctFrom member)
  rfl

/-- At one place the keys differ exactly if the names do. -/
theorem nodup_keys_of_location {ps : List Parameter} {place : Text}
    (there : ∀ p ∈ ps, p.location = place) : (ps.map key).Nodup ↔ (ps.map name).Nodup := by
  have keys : ps.map key = (ps.map name).map (·, place) := by
    rw [List.map_map]
    exact List.map_congr_left fun p member => congrArg (p.name, ·) (there p member)
  rw [keys, List.nodup_map_iff fun _ _ same => (Prod.mk.inj same).1]

end Route.Parameter

namespace Extract

open Parameter

variable {file text : Text} {d : Declaration}

/-- The parameters of a declaration as every extractor puts them together: those of the path, those
of the query and, perhaps, the body. -/
structure Parts (d : Declaration) (queries : List Parameter) : Prop where
  split : ∃ names rest, d.parameters = allInPath names ++ queries ++ rest ∧
    (rest = [] ∨ rest = [.body])
  query : ∀ p ∈ queries, p.location = ("query" : Text)

theorem Parts.nodup_keys {queries : List Parameter} (parts : Parts d queries) :
    (d.parameters.map key).Nodup ↔ (queries.map name).Nodup := by
  rw [← nodup_keys_of_location parts.query]
  obtain ⟨names, rest, whole, body⟩ := parts.split
  have paths : ((allInPath names).map key).Nodup :=
    (nodup_keys_of_location (location_allInPath names)).mpr (nodup_names_distinctFrom [] _).1
  have bodies : (rest.map key).Nodup := by
    rcases body with rfl | rfl
    · exact List.nodup_nil
    · exact List.nodup_singleton _
  have inBody : ∀ p ∈ rest, p.location = ("body" : Text) := by
    rcases body with rfl | rfl
    · exact List.forall_mem_nil _
    · exact List.forall_mem_singleton.mpr rfl
  -- Parameters at two places have different keys.
  have apart {ps qs : List Parameter} {here there : Text} (other : here ≠ there)
      (h : ∀ p ∈ ps, p.location = here) (h' : ∀ q ∈ qs, q.location = there) :
      ∀ a ∈ ps.map key, ∀ b ∈ qs.map key, a ≠ b := by
    intro a left b right same
    obtain ⟨p, member, rfl⟩ := List.mem_map.mp left
    obtain ⟨q, member', rfl⟩ := List.mem_map.mp right
    apply other
    rw [← h p member, ← h' q member']
    exact (Prod.mk.inj same).2
  rw [whole, List.map_append, List.map_append, List.nodup_append, List.nodup_append]
  constructor
  · intro all
    exact all.1.2.1
  · intro distinct
    refine ⟨⟨paths, distinct, ?_⟩, bodies, ?_⟩
    · exact apart (by decide) (location_allInPath names) parts.query
    · intro a left b right
      rcases List.mem_append.mp left with left | left
      · exact apart (by decide) (location_allInPath names) inBody a left b right
      · exact apart (by decide) parts.query inBody a left b right

/-! ### The extractors -/

theorem location_query {α : Type} (l : List α) (name : α → Text) (required : α → Bool) :
    ∀ p ∈ l.map fun a => inQuery (name a) (required a), p.location = ("query" : Text) :=
  List.forall_mem_map.mpr fun _ _ => rfl

theorem location_distinctFrom {seen : List Text} {ps : List Parameter} {place : Text}
    (h : ∀ p ∈ ps, p.location = place) : ∀ p ∈ distinctFrom seen ps, p.location = place :=
  fun p member => h p (mem_of_mem_distinctFrom member)

theorem optionalBody_cases (present : Prop) [Decidable present] :
    (if present then [body] else []) = [] ∨ (if present then [body] else []) = [body] := by
  split
  · exact .inr rfl
  · exact .inl rfl

theorem parts_handlers (read : d ∈ handlers.extract file text) :
    Parts d (distinct (searchQuery.findAll text |>.map fun name =>
      inQuery name (Text.holds ('!' :: name) text))) := by
  obtain ⟨method, _, rfl⟩ := List.mem_map.mp read
  exact ⟨⟨[], _, rfl, optionalBody_cases _⟩, location_distinctFrom (location_query _ _ _)⟩

theorem parts_callsWith {call : Text → Scanner Text} {anchor : Anchor}
    (read : d ∈ callsWith call anchor file text) :
    ∃ seen, Parts d (distinctFrom seen ((queryRead.findAll text).map (inQuery ·))) := by
  obtain ⟨method, _, read⟩ := List.mem_flatMap.mp read
  obtain ⟨path, _, rfl⟩ := List.mem_map.mp read
  exact ⟨_, ⟨_, _, rfl, optionalBody_cases _⟩, location_distinctFrom (location_query _ _ _)⟩

theorem parts_of_allInPath {names : List Text} (whole : d.parameters = allInPath names) :
    Parts d [] :=
  ⟨⟨names, [], by rw [whole, List.append_nil, List.append_nil], .inl rfl⟩, List.forall_mem_nil _⟩

theorem parts_routeObjects (read : d ∈ routeObjects.extract file text) : Parts d [] := by
  obtain ⟨⟨method, path, handler⟩, _, read⟩ := List.mem_filterMap.mp read
  unfold ofObject at read
  dsimp only at read
  split at read
  · obtain rfl := Option.some.inj read
    exact parts_of_allInPath rfl
  · cases read

theorem parts_urlPatterns (read : d ∈ urlPatterns.extract file text) : Parts d [] := by
  obtain ⟨⟨route, view⟩, _, read⟩ := List.mem_flatMap.mp read
  obtain ⟨method, _, rfl⟩ := List.mem_map.mp read
  exact parts_of_allInPath rfl

theorem parts_minimalEndpoints (read : d ∈ minimalEndpoints.extract file text) : Parts d [] := by
  obtain ⟨⟨method, path⟩, _, rfl⟩ := List.mem_map.mp read
  exact parts_of_allInPath rfl

theorem parts_ofCase (file : Text) (c : Text × Text × Text × Text) :
    Parts (ofCase file c) ((queryBinding.findAll c.2.2.1).map fun b =>
      inQuery b.2 (b.1 = ("q" : Text))) := by
  obtain ⟨method, path, bindings, call⟩ := c
  exact ⟨⟨_, [], (List.append_nil _).symm, .inl rfl⟩, location_query _ _ _⟩

theorem parts_ofAction (file base : Text) (a : Action) :
    Parts (ofAction file base a) ((queryAttribute.findAll a.signature).map (inQuery ·)) :=
  ⟨⟨_, _, rfl, optionalBody_cases _⟩, location_query _ _ _⟩

theorem nodup_keys_of_name {e : Extractor} (known : e ∈ Dialect.allExtractors)
    (noCase : e.name ≠ "play-router") (noAction : e.name ≠ "controller")
    (read : d ∈ e.extract file text) : (d.parameters.map key).Nodup := by
  simp only [Dialect.allExtractors, Dialect.scriptExtractors, List.cons_append, List.nil_append,
    List.mem_cons, List.not_mem_nil, or_false] at known
  have calls {call : Text → Scanner Text} {anchor : Anchor}
      (read : d ∈ callsWith call anchor file text) : (d.parameters.map key).Nodup := by
    obtain ⟨seen, parts⟩ := parts_callsWith read
    exact parts.nodup_keys.mpr (nodup_names_distinctFrom seen _).1
  rcases known with rfl | rfl | rfl | rfl | rfl | rfl | rfl | rfl
  · exact (parts_handlers read).nodup_keys.mpr (nodup_names_distinctFrom [] _).1
  · exact calls read
  · exact calls read
  · exact (parts_routeObjects read).nodup_keys.mpr List.nodup_nil
  · exact (parts_urlPatterns read).nodup_keys.mpr List.nodup_nil
  · exact absurd rfl noCase
  · exact (parts_minimalEndpoints read).nodup_keys.mpr List.nodup_nil
  · exact absurd rfl noAction

/-- No extractor declares a parameter of the path twice, or the body, and six of them declare none
twice. A case of a router declares a parameter twice exactly if two of its bindings have the same
name, and an action of a controller exactly if two of its query attributes have. -/
theorem nodup_keys_extracted (file text : Text) :
    (∀ e ∈ Dialect.allExtractors, e.name ≠ "play-router" → e.name ≠ "controller" →
      ∀ d ∈ e.extract file text, (d.parameters.map key).Nodup) ∧
    (∀ d ∈ playRouter.extract file text, ∃ c ∈ routerCase.findAll text,
      d = ofCase file c ∧ ((d.parameters.map key).Nodup ↔
        ((queryBinding.findAll c.2.2.1).map Prod.snd).Nodup)) ∧
    ∀ d ∈ controller.extract file text, ∃ a ∈ actions text,
      d = ofAction file ((routeAttribute.find? text).getD []) a ∧ ((d.parameters.map key).Nodup ↔
        (queryAttribute.findAll a.signature).Nodup) := by
  refine ⟨fun e known noCase noAction d => nodup_keys_of_name known noCase noAction,
    fun d read => ?_, fun d read => ?_⟩
  · obtain ⟨c, found, rfl⟩ := List.mem_map.mp read
    refine ⟨c, found, rfl, (parts_ofCase file c).nodup_keys.trans ?_⟩
    rw [List.map_map]
    rfl
  · obtain ⟨a, found, rfl⟩ := List.mem_map.mp read
    refine ⟨a, found, rfl, (parts_ofAction file _ a).nodup_keys.trans ?_⟩
    rw [List.map_map]
    exact iff_of_eq (congrArg List.Nodup (List.map_id _))

theorem nodup_keys_extracted_users :
    routerCalls ∈ Dialect.allExtractors ∧ routerCalls.name ≠ "play-router" ∧
      routerCalls.name ≠ "controller" ∧
      ∃ d ∈ routerCalls.extract "users.ts"
        "router.get('/:id/:id', (req, res) => send(req.query.page, req.query.page))",
        d.parameters.map key = ([("id", "path"), ("page", "query")] : List (Text × Text)) ∧
          (d.parameters.map key).Nodup := by
  have known : routerCalls ∈ Dialect.allExtractors := List.mem_cons_of_mem _ List.mem_cons_self
  have read : ∃ d ∈ routerCalls.extract "users.ts"
      "router.get('/:id/:id', (req, res) => send(req.query.page, req.query.page))",
      d.parameters.map key = ([("id", "path"), ("page", "query")] : List (Text × Text)) := by
    decide +kernel
  obtain ⟨d, read, keys⟩ := read
  refine ⟨known, by decide, by decide, d, read, keys, ?_⟩
  exact (nodup_keys_extracted _ _).1 routerCalls known (by decide) (by decide) d read

/-- Two actions, of which the first has a parenthesis in a quoted text, so that its parameter list
is read on into the second. -/
def openBracket : Text :=
  "[HttpGet]\npublic IActionResult List([FromQuery] string mark = \"(\")\n\x7b\n\x7d\n" ++
    "[HttpGet]\npublic IActionResult Find([FromQuery] string mark)\n\x7b\n\x7d\n"

/-- A query parameter is declared twice where a case binds it twice, and where a list is read on. -/
theorem keys_repeated :
    (playRouter.extract "ItemsRouter.scala"
      "case GET(p\"/items\" ? q\"tag=$first\" & q\"tag=$second\") => items.list(first, second)").map
        (·.parameters.map key) =
      ([[("tag", "query"), ("tag", "query")]] : List (List (Text × Text))) ∧
    (controller.extract "BracketsController.cs" openBracket).map (·.parameters.map key) =
      ([[("mark", "query"), ("mark", "query")], [("mark", "query")]] :
        List (List (Text × Text))) := by
  decide +kernel

end Extract
end RouteAtlas
