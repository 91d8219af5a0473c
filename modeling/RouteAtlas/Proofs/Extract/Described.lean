import RouteAtlas.Proofs.Atlas.Soundness
import RouteAtlas.Proofs.Extract.Names
import RouteAtlas.Proofs.Route.Naming

/-!
# Described placeholders

An extractor reads the names of path parameters in the path that it declares, with readers of its
own notation; the template is made from the path that `canonical` has rewritten.
`pathNames_operation` says that both agree where no other notation comes between: the path
parameters of an operation are the placeholders of its template, each once.
-/

namespace RouteAtlas

open Route Scanner

namespace Route

/-! ### Path parameters -/

/-- The names of the parameters that are passed in the path. -/
def pathNames (ps : List Parameter) : List Text :=
  (ps.filter fun p => p.location = ("path" : Text)).map Parameter.name

theorem pathNames_append (ps qs : List Parameter) :
    pathNames (ps ++ qs) = pathNames ps ++ pathNames qs := by
  simp [pathNames]

theorem pathNames_inPath (names : List Text) : pathNames (names.map Parameter.inPath) = names := by
  have kept : ∀ p ∈ names.map Parameter.inPath, decide (p.location = ("path" : Text)) = true :=
    List.forall_mem_map.mpr fun _ _ => rfl
  rw [pathNames, List.filter_eq_self.mpr kept, List.map_map]
  exact List.map_id names

theorem pathNames_eq_nil {ps : List Parameter} (h : ∀ p ∈ ps, p.location ≠ ("path" : Text)) :
    pathNames ps = [] := by
  rw [pathNames, List.filter_eq_nil_iff.mpr fun p hp => by simpa using h p hp, List.map_nil]

namespace Operation

theorem nodup_distinctNames (seen names : List Text) : (distinctNames seen names).Nodup := by
  induction names generalizing seen with
  | nil => exact List.nodup_nil
  | cons n names ih =>
    rw [distinctNames]
    split
    · exact ih seen
    · refine List.nodup_cons.mpr ⟨fun h => ?_, ih _⟩
      exact (mem_distinctNames.mp h).2 List.mem_cons_self

/-- Where the described path parameters are distinct placeholders of the template, the path
parameters of the operation are the placeholders, each once. -/
theorem pathNames_ofDeclaration {d : Declaration} {template : Text}
    (distinct : (pathNames d.parameters).Nodup)
    (named : ∀ n ∈ pathNames d.parameters, n ∈ parameterNames template) :
    (pathNames (ofDeclaration d template).parameters).Nodup ∧
      ∀ n, n ∈ pathNames (ofDeclaration d template).parameters ↔ n ∈ parameterNames template := by
  have whole : pathNames (ofDeclaration d template).parameters =
      ((distinctNames [] (parameterNames template)).filter
        fun n => !(pathNames d.parameters).contains n) ++ pathNames d.parameters :=
    (pathNames_append _ _).trans (congrArg (· ++ _) (pathNames_inPath _))
  rw [whole]
  constructor
  · refine List.nodup_append.mpr ⟨(nodup_distinctNames _ _).filter _, distinct, ?_⟩
    rintro n missing _ described rfl
    simpa [described] using (List.mem_filter.mp missing).2
  · intro n
    rw [List.mem_append, List.mem_filter, mem_distinctNames]
    by_cases described : n ∈ pathNames d.parameters
    · simp [described, named n described]
    · simp [described]

end Operation

namespace Parameter

theorem names_distinctFrom_inPath (seen names : List Text) :
    distinctFrom seen (names.map inPath) = (distinctNames seen names).map inPath := by
  induction names generalizing seen with
  | nil => rfl
  | cons n names ih =>
    simp only [List.map_cons, distinctFrom, distinctNames, inPath] at ih ⊢
    split
    · exact ih seen
    · rw [ih]
      rfl

theorem location_inQueries {α : Type} (l : List α) (name : α → Text) (required : α → Bool) :
    ∀ p ∈ l.map fun a => inQuery (name a) (required a), p.location ≠ ("path" : Text) :=
  List.forall_mem_map.mpr fun _ _ => by simp [inQuery]

theorem location_optionalBody (present : Prop) [Decidable present] :
    ∀ p ∈ (if present then [body] else []), p.location ≠ ("path" : Text) := by
  split
  · exact List.forall_mem_singleton.mpr (by simp [body])
  · exact fun _ h => absurd h List.not_mem_nil

theorem pathNames_allInPath (names : List Text) {others : List Parameter}
    (h : ∀ p ∈ others, p.location ≠ ("path" : Text)) :
    pathNames (allInPath names ++ others) = distinctNames [] names := by
  rw [pathNames_append, pathNames_eq_nil h, List.append_nil]
  exact (congrArg pathNames (names_distinctFrom_inPath [] names)).trans (pathNames_inPath _)

end Parameter

/-! ### Declarations -/

/-- The path parameters of a declaration are distinct placeholders of its template. -/
structure Declaration.Accurate (d : Declaration) (file : Text) : Prop where
  distinct : (pathNames d.parameters).Nodup
  named : ∀ n ∈ pathNames d.parameters, n ∈ parameterNames (d.template file)

theorem accurate_of_names {d : Declaration} {file : Text} (names : List Text)
    {others : List Parameter} (parameters : d.parameters = Parameter.allInPath names ++ others)
    (h : ∀ p ∈ others, p.location ≠ ("path" : Text))
    (named : ∀ n ∈ names, n ∈ parameterNames (d.template file)) : d.Accurate file := by
  have same : pathNames d.parameters = distinctNames [] names := by
    rw [parameters, Parameter.pathNames_allInPath names h]
  refine ⟨same ▸ Operation.nodup_distinctNames [] names, fun n hn => named n ?_⟩
  rw [same] at hn
  exact (Operation.mem_distinctNames.mp hn).1

theorem accurate_of_absolute {d : Declaration} {file : Text} {names : List Text}
    {others : List Parameter} (anchor : d.anchor = .absolute)
    (parameters : d.parameters = Parameter.allInPath names ++ others)
    (h : ∀ p ∈ others, p.location ≠ ("path" : Text))
    (named : ∀ n ∈ names, n ∈ parameterNames (canonical d.path)) : d.Accurate file := by
  have template : d.template file = canonical d.path := by rw [Declaration.template, anchor, place]
  exact accurate_of_names names parameters h (template ▸ named)

end Route

namespace Extract

variable {file text : Text} {d : Declaration}

/-- The characters that open or close the placeholders of notations other than the extractor's own.
What the location of a file contributes has no notation of its own. -/
def foreignMarks (name : Text) : Text :=
  (List.lookup name ([
    ("router-calls", "[]\x7b\x7d$<>"),
    ("app-calls", "[]\x7b\x7d$<>"),
    ("strapi-routes", "[]\x7b\x7d$<>"),
    ("django-urls", "[]\x7b\x7d$"),
    ("play-router", "[]\x7b\x7d<>"),
    ("minimal-api", "[]$<>"),
    ("controller", "[]$<>")] : List (Text × Text))).getD []

theorem free_of_foreign {marks name t : Text}
    (foreign : marks.all (foreignMarks name).contains = true)
    (free : ∀ x ∈ foreignMarks name, x ∉ t) : ∀ x ∈ marks, x ∉ t := fun x mark =>
  free x (List.contains_iff_mem.mp (List.all_eq_true.mp foreign x mark))

/-! ### Readers of names -/

theorem readsName_builtin : ReadsName builtin := by
  intro c u c' found
  obtain ⟨type, known, text⟩ := builtin_shape c u c' found
  obtain ⟨nonempty, first, inside⟩ := identifier_of_builtin type known
  cases type with
  | nil => exact absurd rfl nonempty
  | cons x type => exact ⟨⟨x, type, first, (List.forall_mem_cons.mp inside).2⟩, text⟩

/-- What the built-in converters are read from is read with any converter. -/
theorem fitsAt_converter {path a : Text} (fits : FitsAt converter none path a) :
    FitsAt (angled anyConverter) none path a := by
  refine fitsAt_mono (fun c c' found => ?_) fits
  obtain ⟨b, r⟩ := c
  obtain ⟨n, type, rfl, typed, rfl⟩ := angled_shape readsName_builtin found
  exact ⟨_, angled_any typed b n c'.rest⟩

theorem robust_pathBinding : Robust pathBinding := by
  intro b r a c' found
  obtain ⟨_, mid, first, second⟩ := bind_eq_some.mp found
  obtain ⟨n, rfl, text, stop⟩ := identifier_eq_some second
  have text' : r = '$' :: mid.rest := (between_literal first).1
  refine ⟨'$' :: n.text, by rw [text', text]; rfl, List.cons_ne_nil _ _,
    fun _ => isBlank_of_mem_cons (by decide), fun b' rest _ less => ?_⟩
  refine ⟨⟨n.text.getLast?, rest⟩, bind_eq_some.mpr ⟨(), ⟨some '$', n.text ++ rest⟩, ?_, ?_⟩⟩
  · simp
  · exact identifier_append n (stops_of_shorter stop less)

theorem consumes_pathBinding : Consumes pathBinding :=
  consumes_bind (consumes_literal (by decide)) fun _ => reads_of_consumes consumes_identifier

theorem fitsAt_dollar {path a : Text} (fits : FitsAt pathBinding none path a) :
    FitsAt Route.dollar none (Text.strip path) a := by
  refine fitsAt_mono (fun c c' found => ?_) (fitsAt_strip robust_pathBinding fits)
  obtain ⟨_, mid, first, second⟩ := bind_eq_some.mp found
  obtain ⟨o, c'', bound⟩ := exists_option _ c'
  exact ⟨c'', bind_eq_some.mpr ⟨_, mid, first, bind_eq_some.mpr ⟨a, c', second,
    bind_eq_some.mpr ⟨o, c'', bound, rfl⟩⟩⟩⟩

/-! ### The extractors -/

theorem location_queryNames (seen : List Text) (names : List Text) :
    ∀ p ∈ Parameter.distinctFrom seen (names.map (Parameter.inQuery ·)),
      p.location ≠ ("path" : Text) := fun p hp =>
  Parameter.location_inQueries names id (fun _ => false) p (Parameter.mem_of_mem_distinctFrom hp)

theorem accurate_callsWith {call : Text → Scanner Text} {anchor : Anchor}
    (found : d ∈ callsWith call anchor file text)
    (named : ∀ n, FitsAt colon none d.path n → n ∈ parameterNames (d.template file)) :
    d.Accurate file := by
  obtain ⟨method, _, found⟩ := List.mem_flatMap.mp found
  obtain ⟨path, _, rfl⟩ := List.mem_map.mp found
  refine accurate_of_names (colon.findAll path) (List.append_assoc _ _ _)
    (List.forall_mem_append.mpr ⟨location_queryNames _ _, Parameter.location_optionalBody _⟩)
    fun n hn => named n (fitsAt_of_mem_finds consumes_colon hn)

theorem anchor_callsWith {call : Text → Scanner Text} {anchor : Anchor}
    (found : d ∈ callsWith call anchor file text) : d.anchor = anchor := by
  obtain ⟨method, _, found⟩ := List.mem_flatMap.mp found
  obtain ⟨path, _, rfl⟩ := List.mem_map.mp found
  rfl

theorem accurate_routerCalls (found : d ∈ routerCalls.extract file text)
    (path : ∀ x ∈ ("[$<\x7b" : Text), x ∉ d.path) (location : ∀ x ∈ ("[$<\x7b" : Text), x ∉ file) :
    d.Accurate file := by
  refine accurate_callsWith found fun n fits => ?_
  have template : d.template file = canonical (mounted (locationPath file) d.path) := by
    rw [Declaration.template, anchor_callsWith found]
    rfl
  rw [template]
  -- The mounted path takes its characters from the location, the declared path and slashes.
  refine mem_parameterNames_of_colon (fun x mark inside => ?_) (fitsAt_colon_mounted _ fits)
  have other : '/' ∉ ("[$<\x7b" : Text) := by decide
  rcases mem_of_mem_mounted inside with rfl | base | own
  · exact other mark
  · rcases mem_of_mem_locationPath base with rfl | base
    · exact other mark
    · exact location x mark base
  · exact path x mark own

theorem accurate_appCalls (found : d ∈ appCalls.extract file text)
    (path : ∀ x ∈ ("[$<\x7b" : Text), x ∉ d.path) : d.Accurate file := by
  refine accurate_callsWith found fun n fits => ?_
  rw [Declaration.template, anchor_callsWith found]
  exact mem_parameterNames_of_colon path fits

theorem accurate_routeObjects (found : d ∈ routeObjects.extract file text)
    (path : ∀ x ∈ ("[$<\x7b" : Text), x ∉ d.path) : d.Accurate file := by
  obtain ⟨⟨method, route, handler⟩, _, found⟩ := List.mem_filterMap.mp found
  unfold ofObject at found
  dsimp only at found
  split at found
  · obtain rfl := Option.some.inj found
    refine accurate_of_absolute rfl (List.append_nil _).symm (fun _ h => absurd h List.not_mem_nil)
      fun n hn => ?_
    rcases List.mem_append.mp hn with colons | rest
    · exact mem_parameterNames_of_colon path (fitsAt_of_mem_finds consumes_colon colons)
    · split at rest
      · rename_i occurs
        obtain rfl := List.mem_singleton.mp rest
        have some : catchAll.findAll (rooted route) ≠ [] := by simpa [occursIn] using occurs
        obtain ⟨u, member⟩ := List.exists_mem_of_ne_nil _ some
        exact mem_parameterNames_of_catchAll path (fitsAt_of_mem_finds consumes_catchAll member)
      · cases rest
  · cases found

theorem accurate_urlPatterns (found : d ∈ urlPatterns.extract file text)
    (path : ∀ x ∈ ("[$\x7b" : Text), x ∉ d.path) : d.Accurate file := by
  obtain ⟨⟨route, view⟩, _, found⟩ := List.mem_flatMap.mp found
  obtain ⟨method, _, rfl⟩ := List.mem_map.mp found
  refine accurate_of_absolute rfl (List.append_nil _).symm (fun _ h => absurd h List.not_mem_nil)
    fun n hn => mem_parameterNames_of_angled path (fitsAt_strip robust_angled ?_)
  exact fitsAt_converter (fitsAt_of_mem_finds consumes_converter hn)

theorem accurate_playRouter (found : d ∈ playRouter.extract file text)
    (path : ∀ x ∈ ("[<\x7b" : Text), x ∉ d.path) : d.Accurate file := by
  obtain ⟨⟨method, route, bindings, call⟩, _, rfl⟩ := List.mem_map.mp found
  refine accurate_of_absolute rfl rfl
    (Parameter.location_inQueries _ Prod.snd fun found => found.1 = ("q" : Text))
    fun n hn => mem_parameterNames_of_dollar path (fitsAt_dollar ?_)
  exact fitsAt_of_mem_finds consumes_pathBinding hn

theorem accurate_minimalEndpoints (found : d ∈ minimalEndpoints.extract file text)
    (path : ∀ x ∈ ("[$<" : Text), x ∉ d.path) : d.Accurate file := by
  obtain ⟨⟨method, route⟩, _, rfl⟩ := List.mem_map.mp found
  exact accurate_of_absolute rfl (List.append_nil _).symm (fun _ h => absurd h List.not_mem_nil)
    fun n hn => mem_parameterNames_of_braced path hn

theorem accurate_controller (found : d ∈ controller.extract file text)
    (path : ∀ x ∈ ("[$<" : Text), x ∉ d.path) : d.Accurate file := by
  obtain ⟨action, _, rfl⟩ := List.mem_map.mp found
  refine accurate_of_absolute rfl (List.append_assoc _ _ _) (List.forall_mem_append.mpr
    ⟨Parameter.location_inQueries _ id fun _ => false, Parameter.location_optionalBody _⟩)
    fun n hn => mem_parameterNames_of_braced path hn

theorem accurate_handlers (found : d ∈ handlers.extract file text) : d.Accurate file := by
  obtain ⟨method, _, rfl⟩ := List.mem_map.mp found
  have others : ∀ p ∈ handlerParameters text, p.location ≠ ("path" : Text) :=
    List.forall_mem_append.mpr ⟨fun p hp =>
      Parameter.location_inQueries _ _ _ p (Parameter.mem_of_mem_distinctFrom hp),
      Parameter.location_optionalBody _⟩
  exact accurate_of_names [] rfl others fun _ h => absurd h List.not_mem_nil

end Extract

/-! ### Operations -/

theorem accurate_extracted {e : Extractor} (known : e ∈ Dialect.allExtractors) {file text : Text}
    {d : Declaration} (read : d ∈ e.extract file text)
    (path : ∀ x ∈ Extract.foreignMarks e.name, x ∉ d.path)
    (location : e.name = ("router-calls" : Text) → ∀ x ∈ Extract.foreignMarks e.name, x ∉ file) :
    d.Accurate file := by
  simp only [Dialect.allExtractors, Dialect.scriptExtractors, List.cons_append, List.nil_append,
    List.mem_cons, List.not_mem_nil, or_false] at known
  rcases known with rfl | rfl | rfl | rfl | rfl | rfl | rfl | rfl
  · exact Extract.accurate_handlers read
  · exact Extract.accurate_routerCalls read (Extract.free_of_foreign (by decide) path)
      (Extract.free_of_foreign (by decide) (location rfl))
  · exact Extract.accurate_appCalls read (Extract.free_of_foreign (by decide) path)
  · exact Extract.accurate_routeObjects read (Extract.free_of_foreign (by decide) path)
  · exact Extract.accurate_urlPatterns read (Extract.free_of_foreign (by decide) path)
  · exact Extract.accurate_playRouter read (Extract.free_of_foreign (by decide) path)
  · exact Extract.accurate_minimalEndpoints read (Extract.free_of_foreign (by decide) path)
  · exact Extract.accurate_controller read (Extract.free_of_foreign (by decide) path)

/-- The path parameters of the operation that is made of an extracted route are the placeholders of
its template, each once, provided that the path and, for a router, the location of its file are free
of the marks of other notations. -/
theorem pathNames_operation {e : Extractor} (known : e ∈ Dialect.allExtractors) {file text : Text}
    {d : Declaration} (read : d ∈ e.extract file text)
    (path : ∀ x ∈ Extract.foreignMarks e.name, x ∉ d.path)
    (location : e.name = ("router-calls" : Text) → ∀ x ∈ Extract.foreignMarks e.name, x ∉ file) :
    (pathNames (Operation.ofDeclaration d (d.template file)).parameters).Nodup ∧
      ∀ n, n ∈ pathNames (Operation.ofDeclaration d (d.template file)).parameters ↔
        n ∈ parameterNames (d.template file) :=
  have accurate := accurate_extracted known read path location
  Operation.pathNames_ofDeclaration accurate.distinct accurate.named

/-- A route that a router declares with a name and a catch-all. -/
def userFiles : Declaration where
  method := "get"
  path := "/:id/(.*)"
  source := "src/routes/users.ts"
  parameters := [.inPath "id", .inQuery "page"]
  anchor := .router
  summary := some "GET /:id/(.*)"
  responses := Responses.ofRouters

theorem pathNames_operation_userFiles :
    userFiles ∈ Extract.routerCalls.extract "src/routes/users.ts"
        "router.get('/:id/(.*)', (req, res) => send(req.query.page))" ∧
      (∀ x ∈ Extract.foreignMarks "router-calls", x ∉ userFiles.path) ∧
      (∀ x ∈ Extract.foreignMarks "router-calls", x ∉ ("src/routes/users.ts" : Text)) ∧
      parameterNames (userFiles.template "src/routes/users.ts") = [("id" : Text), ("path" : Text)] ∧
      ∀ n, n ∈ pathNames (Operation.ofDeclaration userFiles
        (userFiles.template "src/routes/users.ts")).parameters ↔
          n = ("id" : Text) ∨ n = ("path" : Text) := by
  have read : userFiles ∈ Extract.routerCalls.extract "src/routes/users.ts"
      "router.get('/:id/(.*)', (req, res) => send(req.query.page))" := by decide +kernel
  have path : ∀ x ∈ Extract.foreignMarks "router-calls", x ∉ userFiles.path :=
    Text.forall_of_all (by decide)
  have location : ∀ x ∈ Extract.foreignMarks "router-calls",
      x ∉ ("src/routes/users.ts" : Text) := Text.forall_of_all (by decide)
  have names : parameterNames (userFiles.template "src/routes/users.ts") =
      [("id" : Text), ("path" : Text)] := by decide +kernel
  have known : Extract.routerCalls ∈ Dialect.allExtractors :=
    List.mem_cons_of_mem _ List.mem_cons_self
  refine ⟨read, path, location, names, fun n => ?_⟩
  rw [(pathNames_operation known read path fun _ => location).2 n, names]
  simp

end RouteAtlas
