import RouteAtlas.Extract.Strapi
import RouteAtlas.Proofs.Extract.Names
import RouteAtlas.Proofs.Scanner.Sequences

/-!
# Lists of route objects

In a list of objects with the keys `method`, `path` and `handler` the extractor reads one route for each
object whose method is known (`extract_objects`), whatever follows the handler up to the next closing
brace.
-/

namespace RouteAtlas.Extract

open Scanner Route

variable {b : Option Char} {t v rest : Text}

/-! ### Objects -/

/-- An object: its method, path and handler, what follows the handler, and what stands between the
object and the next one. -/
structure RouteObject where
  method : Text
  path : Text
  handler : Text
  rest : Text
  gap : Text
  method_unquoted : Unquoted method
  path_unquoted : Unquoted path
  handler_unquoted : Unquoted handler
  rest_unclosed : '}' ∉ rest
  gap_unopened : '{' ∉ gap

/-- The names behind the colons of a path, and `path` for what a catch-all stands for. -/
def objectNames (path : Text) : List Text :=
  (colon.findAll path).eraseDups ++
    if (("(.*)" : Text) <:+: path ∨ ("(.+)" : Text) <:+: path) ∧
        (colon.findAll path).contains ("path" : Text) = false then [("path" : Text)] else []

namespace RouteObject

variable (o : RouteObject)

def text : Text :=
  "\x7b method: '" ++ (o.method ++ ("', path: '" ++ (o.path ++ ("', handler: '" ++
    (o.handler ++ '\'' :: (o.rest ++ '}' :: o.gap))))))

/-- The route that an object declares in a file, if its method is known. -/
def declaration? (file : Text) : Option Declaration :=
  if (["get", "post", "put", "delete", "patch", "head", "options"] : List Text).contains
      (Text.lower o.method) then some {
    method := Text.lower o.method
    path := rooted o.path
    source := file
    parameters := (objectNames o.path).map Parameter.inPath
    description := some ("Handler: " ++ o.handler)
    responses := Responses.ofTables }
  else none

def found : Text × Text × Text := (o.method, o.path, o.handler)

end RouteObject

/-! ### Reading objects -/

theorem entry_append (key : Text) (free : Unquoted v) (b : Option Char) (rest : Text) :
    entry key ⟨b, (key ++ ":") ++ ' ' :: '\'' :: (v ++ '\'' :: rest)⟩ =
      some (v, ⟨some '\'', rest⟩) := by
  have blank : ∀ x ∈ [' '], Text.isBlank x = true := List.forall_mem_singleton.mpr (by decide)
  unfold entry
  rw [bind_of_some (literal_append (key ++ ":") b _)]
  exact argument_blanks blank (by decide) (by decide) free _ rest

theorem comma_append (stop : Stops Text.isBlank rest) (b : Option Char) :
    comma ⟨b, ',' :: ' ' :: rest⟩ = some ((), ⟨some ' ', rest⟩) := by
  refine (bind_of_some (blanks_none (x := ',') (by decide) b _)).trans ?_
  refine (bind_of_some (literal_append "," b _)).trans ?_
  exact bind_of_some (blanks_space stop _)

theorem reads_entry (key : Text) : Reads (entry key) :=
  reads_bind (reads_literal _) fun _ => reads_of_consumes consumes_argument

theorem reads_comma : Reads comma :=
  reads_bind (reads_run _) fun _ =>
  reads_bind (reads_literal _) fun _ =>
  reads_bind (reads_run _) fun _ => reads_pure _

theorem consumes_routeObject : Consumes routeObject :=
  consumes_bind (consumes_literal (by decide)) fun _ =>
  reads_bind (reads_run _) fun _ =>
  reads_bind (reads_entry _) fun _ =>
  reads_bind reads_comma fun _ =>
  reads_bind (reads_entry _) fun _ =>
  reads_bind reads_comma fun _ =>
  reads_bind (reads_entry _) fun _ =>
  reads_bind (reads_run _) fun _ =>
  reads_bind (reads_literal _) fun _ => reads_pure _

namespace RouteObject

variable (o : RouteObject)

theorem routeObject_append (b : Option Char) (t : Text) :
    routeObject ⟨b, o.text ++ t⟩ = some (o.found, ⟨some '}', o.gap ++ t⟩) := by
  have whole : o.text ++ t = "\x7b" ++ ' ' :: ((("method" : Text) ++ ":") ++ ' ' :: '\'' ::
      (o.method ++ '\'' :: ',' :: ' ' :: ((("path" : Text) ++ ":") ++ ' ' :: '\'' ::
      (o.path ++ '\'' :: ',' :: ' ' :: ((("handler" : Text) ++ ":") ++ ' ' :: '\'' ::
      (o.handler ++ '\'' :: (o.rest ++ '}' :: (o.gap ++ t)))))))) := by
    have opening : ("\x7b method: '" : Text) =
        "\x7b" ++ ' ' :: ((("method" : Text) ++ ":") ++ [' ', '\'']) := rfl
    have second : ("', path: '" : Text) =
        '\'' :: ',' :: ' ' :: ((("path" : Text) ++ ":") ++ [' ', '\'']) := rfl
    have third : ("', handler: '" : Text) =
        '\'' :: ',' :: ' ' :: ((("handler" : Text) ++ ":") ++ [' ', '\'']) := rfl
    show ("\x7b method: '" ++ (o.method ++ ("', path: '" ++ (o.path ++ ("', handler: '" ++
      (o.handler ++ '\'' :: (o.rest ++ '}' :: o.gap))))))) ++ t = _
    simp only [opening, second, third, List.append_assoc, List.cons_append, List.nil_append]
  rw [whole]
  refine (bind_of_some (literal_append "\x7b" b _)).trans ?_
  refine (bind_of_some (blanks_space (stops_cons.mpr (by decide)) _)).trans ?_
  refine (bind_of_some (entry_append "method" o.method_unquoted _ _)).trans ?_
  refine (bind_of_some (comma_append (stops_cons.mpr (by decide)) _)).trans ?_
  refine (bind_of_some (entry_append "path" o.path_unquoted _ _)).trans ?_
  refine (bind_of_some (comma_append (stops_cons.mpr (by decide)) _)).trans ?_
  refine (bind_of_some (entry_append "handler" o.handler_unquoted _ _)).trans ?_
  refine (bind_of_some (run_until o.rest_unclosed _ _)).trans ?_
  exact bind_of_some (literal_append "\x7d" _ _)

theorem finds_object (b : Option Char) (t : Text) : ∃ b',
    finds (piecesAt routeObject ⟨b, o.text ++ t⟩) =
      [o.found] ++ finds (piecesAt routeObject ⟨b', t⟩) := by
  have gap : Silent routeObject o.gap :=
    silent_of_opens (opens_bind (opens_literal '{' [])) o.gap_unopened
  rw [piecesAt_of_some consumes_routeObject (o.routeObject_append b t)]
  exact ⟨_, congrArg (o.found :: ·) (finds_silent gap _ t)⟩

end RouteObject

/-! ### From objects to declarations -/

theorem occursIn_catchAll (path : Text) :
    catchAll.occursIn path = true ↔
      ("(.*)" : Text) <:+: path ∨ ("(.+)" : Text) <:+: path := by
  rw [occursIn_iff consumes_catchAll]
  constructor
  · rintro ⟨_, u, r, c', rfl, found⟩
    obtain ⟨w, known, rfl⟩ := catchAll_shape found
    have inside : w <:+: u ++ (w ++ c'.rest) := ⟨u, c'.rest, List.append_assoc _ _ _⟩
    rcases known with rfl | rfl
    · exact .inl inside
    · exact .inr inside
  · rintro (⟨u, r, rfl⟩ | ⟨u, r, rfl⟩)
    · exact ⟨(), u, _, _, List.append_assoc _ _ _, catchAll_star⟩
    · exact ⟨(), u, _, _, List.append_assoc _ _ _, catchAll_plus⟩

theorem names_rooted (path : Text) :
    (colon.findAll (rooted path) ++
        if catchAll.occursIn (rooted path) then [("path" : Text)] else []).eraseDups =
      objectNames path := by
  have colons : colon.findAll (rooted path) = colon.findAll path :=
    findAll_rooted opens_colon (by decide) colon_before path
  have catches : catchAll.occursIn (rooted path) = catchAll.occursIn path := by
    rw [occursIn, findAll_rooted opens_catchAll (by decide) (fun _ => rfl) path]
    rfl
  rw [colons, catches, List.eraseDups_append, objectNames]
  simp only [← occursIn_catchAll]
  congr 1
  generalize ("path" : Text) = name
  by_cases caught : catchAll.occursIn path = true
  · by_cases taken : name ∈ colon.findAll path
    · simp [caught, taken, List.removeAll]
    · simp [caught, taken, List.removeAll, List.eraseDups_cons]
  · simp [caught]

theorem ofObject_found (file : Text) (o : RouteObject) :
    ofObject file o.found = o.declaration? file := by
  unfold RouteObject.declaration? RouteObject.found ofObject
  simp only [allInPath_eq, names_rooted]
  rfl

/-- What is read from a list of route objects: one route for each object whose method, in small letters,
is a known one, in the order of the objects. The names are those behind a colon of the path, where no
word character and no opening brace stands before the colon. -/
theorem extract_objects (file : Text) (objects : List RouteObject) :
    routeObjects.extract file (objects.flatMap RouteObject.text) =
      objects.filterMap (·.declaration? file) ∧
    ∀ path names, Named ":" (fun b => ∀ x ∈ b, Text.isWord x = false ∧ x ≠ '{') none path names ↔
      colon.findAll path = names := by
  constructor
  · have found := findAll_flatMap fun o (_ : o ∈ objects) b t => o.finds_object b t
    show (routeObject.findAll _).filterMap (ofObject file) = _
    rw [found, ← List.map_eq_flatMap, List.filterMap_map]
    exact List.filterMap_congr fun o _ => ofObject_found file o
  · intro path names
    exact named_iff readsNamed_colon

end RouteAtlas.Extract
