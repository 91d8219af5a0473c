import RouteAtlas.Proofs.Extract.Calls
import RouteAtlas.Proofs.Extract.Registrations
import RouteAtlas.Proofs.Project.Faults
import RouteAtlas.Proofs.Project.Gathering

/-!
# Detected routes

Whether a project registers routes is told from its texts before any route is read.
`extract_detected` says that a text with routes is told apart, unless all of its routes answer one
method that is not looked for, and that its file is then among those that are read.
-/

namespace RouteAtlas

theorem mem_of_filterAuxM {α ε : Type} {l done kept : List α} {test : α → Except ε Bool} {a : α}
    (ended : List.filterAuxM test l done = .ok kept) (seen : a ∈ l ∧ test a = .ok true ∨ a ∈ done) :
    a ∈ kept := by
  induction l generalizing done with
  | nil =>
    cases ended
    exact seen.resolve_left fun h => List.not_mem_nil h.1
  | cons b l ih =>
    rw [List.filterAuxM] at ended
    obtain ⟨verdict, tested, ended⟩ := bind_ok ended
    apply ih ended
    rcases seen with ⟨member, holds⟩ | old
    · rcases List.mem_cons.mp member with rfl | later
      · rw [holds] at tested
        cases tested
        exact .inr List.mem_cons_self
      · exact .inl ⟨later, holds⟩
    · cases verdict with
      | true => exact .inr (List.mem_cons_of_mem b old)
      | false => exact .inr old

theorem mem_of_filterM {α ε : Type} {l kept : List α} {test : α → Except ε Bool} {a : α}
    (ended : l.filterM test = .ok kept) (member : a ∈ l) (holds : test a = .ok true) :
    a ∈ kept := by
  obtain ⟨chosen, passed, same⟩ := bind_ok ended
  cases same
  exact List.mem_reverse.mpr (mem_of_filterAuxM passed (.inl ⟨member, holds⟩))

theorem mem_of_mapM {α β ε : Type} {l : List α} {step : α → Except ε β} {results : List β} {a : α}
    {b : β} (ended : l.mapM step = .ok results) (member : a ∈ l) (given : step a = .ok b) :
    b ∈ results := by
  induction l generalizing results with
  | nil => cases member
  | cons c l ih =>
    rw [List.mapM_cons] at ended
    obtain ⟨first, here, ended⟩ := bind_ok ended
    obtain ⟨others, later, same⟩ := bind_ok ended
    cases same
    rcases List.mem_cons.mp member with rfl | member
    · rw [given] at here
      cases here
      exact List.mem_cons_self
    · exact List.mem_cons_of_mem first (ih later member)

namespace Extract

open Scanner Traits

variable {c c' : Cursor} {b : Option Char} {method p r text : Text}

/-! ### Calls on an application -/

theorem consumes_registeringCall : Consumes registeringCall :=
  consumes_of_reads_bind (reads_check _) fun _ =>
  consumes_bind (consumes_oneOf (by decide)) fun _ =>
  reads_bind (reads_literal _) fun _ =>
  reads_bind (reads_of_consumes (consumes_oneOf (by decide))) fun _ =>
  reads_bind (reads_run _) fun _ => reads_literal _

theorem registeringCall_of_appCall (known : method ∈ methods)
    (found : appCall method ⟨b, r⟩ = some (p, c')) :
    ∃ c'', registeringCall ⟨b, r⟩ = some ((), c'') := by
  obtain ⟨_, _, edge, called⟩ := bind_eq_some.mp found
  obtain ⟨rfl, _⟩ := boundary_eq_some edge
  obtain ⟨_, ⟨b', r'⟩, named, accessed⟩ := bind_eq_some.mp called
  obtain ⟨_, x, y, ⟨ws, ws', blank, _, rfl⟩, _, _, _, _, access⟩ := methodCall_shape accessed
  let behind : Text := ws' ++ x :: (p ++ y :: c'.rest)
  have whole : r = "app" ++ ("." ++ (method ++ (ws ++ ("(" ++ behind)))) := by
    have start : r = "app" ++ r' := (between_literal named).1
    rw [start, access]
    simp [behind]
  have passed (b : Option Char) (t : Text) :
      blanks ⟨b, ws ++ ("(" ++ t)⟩ = some (ws, ⟨ws.getLast?.or b, "(" ++ t⟩) :=
    run_append blank (stops_cons.mpr (by decide))
  rw [whole] at edge ⊢
  unfold registeringCall
  refine ⟨⟨some '(', behind⟩, (bind_of_some edge).trans ?_⟩
  refine (bind_of_some (oneOf_append (by decide) (w := ("app" : Text)) (by decide) _ _)).trans ?_
  refine (bind_of_some (literal_append "." _ _)).trans ?_
  refine (bind_of_some (oneOf_append (by decide) known _ _)).trans ?_
  refine (bind_of_some (passed _ _)).trans ?_
  exact literal_append "(" _ _

theorem callsRouter_of_appCalls {file : Text} (some : appCalls.extract file text ≠ []) :
    callsRouter text = true := by
  obtain ⟨d, read⟩ := List.exists_mem_of_ne_nil _ some
  obtain ⟨method, known, found⟩ := List.mem_flatMap.mp read
  obtain ⟨p, member, _⟩ := List.mem_map.mp found
  obtain ⟨u, r, c', whole, called⟩ :=
    fitsAt_of_mem_finds (readsCalls_appCall method).consumes member
  obtain ⟨c'', registers⟩ := registeringCall_of_appCall known called
  exact (occursIn_iff consumes_registeringCall).mpr ⟨(), u, r, c'', whole, registers⟩

/-! ### Endpoints -/

theorem registration_verb {verb : Text} (read : registration ⟨b, r⟩ = some ((verb, p), c')) :
    verb ∈ pascalMethods ∧ ("app.Map" : Text) ++ verb <+: r := by
  obtain ⟨_, _, edge, entered⟩ := bind_eq_some.mp read
  obtain ⟨rfl, _⟩ := boundary_eq_some edge
  obtain ⟨_, mapped, first, named⟩ := bind_eq_some.mp entered
  obtain ⟨verb', called, second, argued⟩ := bind_eq_some.mp named
  obtain ⟨_, _, _, argued⟩ := bind_eq_some.mp argued
  obtain ⟨_, _, _, argued⟩ := bind_eq_some.mp argued
  obtain ⟨_, _, _, argued⟩ := bind_eq_some.mp argued
  obtain ⟨_, _, _, argued⟩ := bind_eq_some.mp argued
  obtain ⟨_, _, _, given⟩ := bind_eq_some.mp argued
  obtain ⟨rfl, rfl⟩ := Prod.mk.inj (Prod.mk.inj (Option.some.inj given)).1
  have whole : r = "app.Map" ++ mapped.rest := (between_literal first).1
  rw [(between_oneOf second).1] at whole
  exact ⟨mem_of_oneOf second, called.rest, by rw [whole, List.append_assoc]⟩

theorem exists_verb_of_endpoint {file : Text} {d : Route.Declaration}
    (read : d ∈ minimalEndpoints.extract file text) :
    ∃ verb ∈ pascalMethods, Text.lower verb = d.method ∧ ("app.Map" : Text) ++ verb <:+: text := by
  obtain ⟨⟨verb, p⟩, found, rfl⟩ := List.mem_map.mp read
  obtain ⟨u, r, c', rfl, registered⟩ := fitsAt_of_mem_finds consumes_registration found
  obtain ⟨known, v, rfl⟩ := registration_verb registered
  exact ⟨verb, known, rfl, u, v, List.append_assoc _ _ _⟩

theorem mapsEndpoints_iff_of_endpoint {file : Text} {d : Route.Declaration}
    (read : d ∈ minimalEndpoints.extract file text) :
    mapsEndpoints text = true ↔
      ∃ name ∈ (["MapGet", "MapPost", "MapPut", "MapDelete"] : List Text), name <:+: text := by
  obtain ⟨verb, _, _, mapped⟩ := exists_verb_of_endpoint read
  have opened : Text.holds "app.Map" text = true :=
    Text.holds_iff.mpr ((List.prefix_append _ _).isInfix.trans mapped)
  unfold mapsEndpoints
  rw [opened, Bool.true_and, List.any_eq_true]
  simp only [Text.holds_iff]

theorem mapsEndpoints_of_endpoint {file : Text} {d : Route.Declaration}
    (read : d ∈ minimalEndpoints.extract file text) (other : d.method ≠ "patch") :
    mapsEndpoints text = true := by
  obtain ⟨verb, known, same, mapped⟩ := exists_verb_of_endpoint read
  have looked : ∀ verb ∈ pascalMethods, Text.lower verb ≠ "patch" →
      "Map" ++ verb ∈ (["MapGet", "MapPost", "MapPut", "MapDelete"] : List Text) := by decide
  have named : ("Map" ++ verb : Text) <:+: "app.Map" ++ verb := ⟨"app.", [], by simp⟩
  refine (mapsEndpoints_iff_of_endpoint read).mpr ⟨_, looked verb known ?_, named.trans mapped⟩
  rwa [same]

end Extract

namespace Traits

variable {t : Tree} {root : Path} {s : Traits} {path text : Text}

/-- A file that stands where routes are registered by convention. -/
def IsConventional (t : Tree) (root : Path) (path : Text) : Prop :=
  path ∈ autoFiles ∧ isFile t root path = .ok true ∨
    ∃ folder ∈ autoFolders, ∃ files, walk t root folder { wanted := isScript } = .ok files ∧
      path ∈ files

theorem mem_autoTargets (gathered : gather t root = .ok s) (stands : IsConventional t root path)
    (read : t.readLossy (root.sub path) = .ok text) (calls : callsRouter text = true) :
    path ∈ s.autoTargets := by
  obtain ⟨files, kept, ended⟩ := bind_ok (gather_iff.mp gathered).targets
  obtain ⟨below, walked, ended⟩ := bind_ok ended
  have targets : (files ++ below.flatten).filter (registers t root) = s.autoTargets :=
    Except.ok.inj ended
  have registering : registers t root path = true := by
    unfold registers
    rw [read]
    exact calls
  rw [← targets, List.mem_filter, List.mem_append]
  refine ⟨?_, registering⟩
  rcases stands with ⟨known, file⟩ | ⟨folder, known, found, listed, inside⟩
  · exact .inl (mem_of_filterM kept known file)
  · exact .inr (List.mem_flatten.mpr ⟨found, mem_of_mapM walked known listed, inside⟩)

theorem dotnetDialect_of_mapsEndpoints (gathered : gather t root = .ok s)
    (read : programText t root = .ok (some text)) (maps : mapsEndpoints text = true) :
    s.dotnetDialect = .dotnetMinimalApi := by
  obtain ⟨program, found, entry, minimal⟩ := (gather_iff.mp gathered).program
  obtain rfl : some text = program := Except.ok.inj (read.symm.trans found)
  unfold dotnetDialect
  rw [entry, minimal, Option.any_some, maps]
  rfl

/-- A text from which a call on an application is read holds a registering call. A text from which
an endpoint is read is seen to map endpoints exactly if one of four names stands in it, and so whenever
an endpoint does not answer PATCH. So a conventional file with such a call is read in a project, and
a program with such an endpoint makes its dialect. -/
theorem extract_detected (file text : Text) :
    (Extract.appCalls.extract file text ≠ [] → callsRouter text = true) ∧
    (∀ d ∈ Extract.minimalEndpoints.extract file text,
      (mapsEndpoints text = true ↔
        ∃ name ∈ (["MapGet", "MapPost", "MapPut", "MapDelete"] : List Text), name <:+: text) ∧
      (d.method ≠ "patch" → mapsEndpoints text = true)) ∧
    ∀ t root s, gather t root = .ok s →
      (IsConventional t root file → t.readLossy (root.sub file) = .ok text →
        Extract.appCalls.extract file text ≠ [] → file ∈ s.autoTargets) ∧
      (programText t root = .ok (some text) →
        ∀ d ∈ Extract.minimalEndpoints.extract file text, d.method ≠ "patch" →
          s.dotnetDialect = .dotnetMinimalApi) := by
  refine ⟨Extract.callsRouter_of_appCalls, fun d found => ⟨?_, ?_⟩,
    fun t root s gathered => ⟨?_, ?_⟩⟩
  · exact Extract.mapsEndpoints_iff_of_endpoint found
  · exact Extract.mapsEndpoints_of_endpoint found
  · intro stands read calls
    exact mem_autoTargets gathered stands read (Extract.callsRouter_of_appCalls calls)
  · intro read d found other
    exact dotnetDialect_of_mapsEndpoints gathered read
      (Extract.mapsEndpoints_of_endpoint found other)

/-! ### Programs -/

/-- A script that registers a route, beside a program that maps one. -/
def scripted : Entry := .folder [
  ("Program.cs", .file (Text.utf8 "app.MapGet(\"/\", Home);\n")),
  ("server.js", .file (Text.utf8 "app.get ( '/', home);\n"))]

theorem extract_detected_scripted :
    ∃ s, gather ⟨scripted, []⟩ ⟨"/", []⟩ = .ok s ∧ ("server.js" : Text) ∈ s.autoTargets ∧
      s.dotnetDialect = .dotnetMinimalApi ∧ callsRouter "app.get ( '/', home);\n" = true ∧
      mapsEndpoints "app.MapGet(\"/\", Home);\n" = true := by
  have called : Extract.appCalls.extract "server.js" "app.get ( '/', home);\n" ≠ [] := by
    decide +kernel
  have mapped : ∃ d ∈ Extract.minimalEndpoints.extract "Program.cs" "app.MapGet(\"/\", Home);\n",
      d.method ≠ "patch" := by decide +kernel
  obtain ⟨d, found, other⟩ := mapped
  obtain ⟨s, gathered⟩ : ∃ s, gather ⟨scripted, []⟩ ⟨"/", []⟩ = .ok s :=
    exists_gather (e := scripted) rfl (by decide) (by decide)
  have stands : IsConventional ⟨scripted, []⟩ ⟨"/", []⟩ "server.js" :=
    .inl ⟨by decide, by decide +kernel⟩
  obtain ⟨scripts, _, scripted⟩ := extract_detected "server.js" "app.get ( '/', home);\n"
  obtain ⟨_, programs, mapping⟩ := extract_detected "Program.cs" "app.MapGet(\"/\", Home);\n"
  refine ⟨s, gathered, ?_, ?_, scripts called, (programs d found).2 other⟩
  · exact (scripted _ _ s gathered).1 stands (by decide +kernel) called
  · exact (mapping _ _ s gathered).2 (by decide +kernel) d found other

/-- A route that answers PATCH is read, but the program is not seen to map endpoints. -/
theorem extract_undetected :
    (Extract.minimalEndpoints.extract "Program.cs" "app.MapPatch(\"/items\", Update);\n").map
      Route.Declaration.path = ["/items"] ∧
    mapsEndpoints "app.MapPatch(\"/items\", Update);\n" = false ∧
    (gather ⟨.folder [("Program.cs", .file (Text.utf8 "app.MapPatch(\"/items\", Update);\n"))], []⟩
      ⟨"/", []⟩).map dotnetDialect = .ok .unknown := by
  decide +kernel

end Traits
end RouteAtlas
