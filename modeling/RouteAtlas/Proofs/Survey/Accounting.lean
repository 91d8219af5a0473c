import RouteAtlas.Proofs.Survey.Steps

/-!
# Accounting

Every route that a file declares is an entry of the atlas or has been replaced, and every
replacement is reported once. `routes_accounted` states this for files in any order and with any
routes, and for the survey of a project.
-/

namespace RouteAtlas

/-- The record reports that an entry has been replaced. -/
def Log.Record.tellsOverride (r : Log.Record) : Bool :=
  r.level = .debug && r.channel = .aggregator && Text.startsWith "Overriding " r.message

namespace Survey

open Run Atlas Route

/-! ### Reports of replaced entries -/

def overridesTold (rs : List Log.Record) : Nat := rs.countP Log.Record.tellsOverride

theorem overridesTold_append (rs qs : List Log.Record) :
    overridesTold (rs ++ qs) = overridesTold rs + overridesTold qs := List.countP_append

theorem overridesTold_of_apart {rs : List Log.Record} (h : Apart rs) : overridesTold rs = 0 := by
  apply List.countP_eq_zero.mpr
  intro r member
  simp [Log.Record.tellsOverride, h r member]

theorem tellsOverride_record (o : Override) : o.record.tellsOverride = true := by
  have message : o.record.message = "Overriding " ++ (Text.upper o.method ++
      (' ' :: o.template ++ o.origin)) := by
    simp only [Override.record, List.append_assoc]
  rw [Log.Record.tellsOverride, message, Text.startsWith, Text.after?_append]
  rfl

theorem overridesTold_overrides (os : List Override) :
    overridesTold (os.map Override.record) = os.length := by
  have every : ∀ r ∈ os.map Override.record, r.tellsOverride = true := by
    intro r member
    obtain ⟨o, _, rfl⟩ := List.mem_map.mp member
    exact tellsOverride_record o
  rw [overridesTold, List.countP_eq_length.mpr every, List.length_map]

/-- Collecting reports as often as the number of replaced entries grows. -/
theorem overridesTold_collectRecords (c : Collection) (read : List FileSurvey) :
    c.collisions + overridesTold (collectRecords c read) =
      (c.addFiles (entries read)).collisions := by
  induction read generalizing c with
  | nil => rfl
  | cons f read ih =>
    have next : c.addFiles (entries (f :: read)) =
        (c.add f.file f.placed).2.addFiles (entries read) := rfl
    have warnings : Apart (f.warnings.map (⟨.warning, .orchestrator, ·⟩)) := by
      intro r member
      obtain ⟨_, _, rfl⟩ := List.mem_map.mp member
      exact Log.Channel.noConfusion
    have grown := congrArg List.length (c.add_overrides f.file f.placed)
    rw [List.length_append] at grown
    rw [next, ← ih, collectRecords, overridesTold_append, overridesTold_append,
      overridesTold_of_apart warnings, overridesTold_overrides, List.length_drop,
      Collection.collisions, Collection.collisions]
    omega

/-! ### Accounting -/

theorem find?_addFiles (read : List FileSurvey) (template method : Text) :
    (Collection.addFiles {} (entries read)).atlas.find? template method =
      (lastAt template method (read.flatMap FileSurvey.placed)).map
        (.ofDeclaration · template) := by
  rw [Collection.addFiles_atlas, find?_foldl_putPlaced, routesOf_entries]
  exact Option.or_none

theorem collisions_add_endpoints (read : List FileSurvey) :
    (Collection.addFiles {} (entries read)).collisions +
        (Collection.addFiles {} (entries read)).atlas.endpoints =
      (read.flatMap FileSurvey.placed).length := by
  have total := Collection.addFiles_tally {} (entries read)
  rw [routesOf_entries] at total
  exact total.trans (Nat.zero_add _)

theorem overridesTold_reportAll (s : Session) (read : List FileSurvey) :
    overridesTold (s.reportAll (collectRecords {} read)).log =
      overridesTold s.log + (Collection.addFiles {} (entries read)).collisions := by
  rw [Session.reportAll_log, overridesTold_append, ← overridesTold_collectRecords]
  exact congrArg (overridesTold s.log + ·) (Nat.zero_add _).symm

/-- The candidate files are found and read after some of the reports, which change the tree only
where a file keeps them. Every route of these files is an entry or has been replaced, and every
replacement is reported. -/
def Accounted (s : Session) (v : Survey) (s' : Session) : Prop :=
  ∃ before between after excluded records,
    s' = s.reportAll (before ++ (between ++ after)) ∧
    Candidates.find (s.reportAll before).space.tree v.root v.traits v.dialect excluded =
      .ok (v.files, records) ∧
    v.collisions + v.endpoints = (v.files.flatMap
      (routesIn (s.reportAll (before ++ between)).space.tree v.root v.dialect)).length ∧
    (s.logFile = none → v.collisions + v.endpoints =
      (v.files.flatMap (routesIn s.space.tree v.root v.dialect)).length) ∧
    overridesTold s'.log = overridesTold s.log + v.collisions

theorem accounted_of_surveyed {s s' : Session} {v : Survey} (h : Surveyed s v s') :
    Accounted s v s' := by
  obtain ⟨before, between, later, excluded, records, number, read, apart, apart', apart'', found,
    surveyed, collected, rfl⟩ := h
  have collisions : v.collisions = (Collection.addFiles {} (entries read)).collisions := by
    rw [Survey.collisions, collected]
    rfl
  have endpoints : v.endpoints = (Collection.addFiles {} (entries read)).atlas.endpoints := by
    rw [Survey.endpoints, atlas?, collected]
    rfl
  have total : v.collisions + v.endpoints = (v.files.flatMap
      (routesIn (s.reportAll (before ++ between)).space.tree v.root v.dialect)).length := by
    rw [collisions, endpoints, collisions_add_endpoints, (surveyFiles_ok surveyed).2]
  refine ⟨before, between, _, excluded, records, rfl, found, total, fun kept => ?_, ?_⟩
  · rwa [Session.reportAll_space_of_no_logFile kept] at total
  · have reported := overridesTold_collectRecords {} read
    rw [Session.reportAll_log, overridesTold_append, overridesTold_append, overridesTold_append,
      overridesTold_append, overridesTold_of_apart apart, overridesTold_of_apart apart',
      overridesTold_of_apart apart'', collisions]
    show overridesTold s.log + (0 + (0 + (_ + 0))) = _
    rw [Nat.zero_add, Nat.zero_add, Nat.add_zero, ← reported]
    exact congrArg (overridesTold s.log + ·) (Nat.zero_add _).symm

/-- Of files whose routes are collected in order: an entry is there where a route belongs and is
that of the last such route, every route is an entry or has been replaced, and every replacement is
reported. Therefore a supported project is accounted for. -/
theorem routes_accounted :
    (∀ (read : List FileSurvey) (s : Session), ∃ c s', Ends (read.foldlM collect {}) s c s' ∧
      (∀ template method,
        ((c.atlas.find? template method).isSome ↔
          ∃ p ∈ read.flatMap FileSurvey.placed, p.1 = template ∧ p.2.method = method) ∧
        c.atlas.find? template method =
          (lastAt template method (read.flatMap FileSurvey.placed)).map
            (.ofDeclaration · template)) ∧
      c.collisions + c.atlas.endpoints = (read.flatMap FileSurvey.placed).length ∧
      overridesTold s'.log = overridesTold s.log + c.collisions) ∧
    ∀ path surface workers given s v s', Ends (conductWith path surface workers given) s v s' →
      v.dialect.isSupported → Accounted s v s' := by
  constructor
  · intro read s
    refine ⟨_, _, ends_foldlM_collect.mpr ⟨rfl, rfl⟩, fun template method => ⟨?_, ?_⟩, ?_, ?_⟩
    · rw [find?_addFiles, Option.isSome_map, lastAt_isSome_iff]
    · exact find?_addFiles read template method
    · exact collisions_add_endpoints read
    · exact overridesTold_reportAll s read
  · intro path surface workers given s v s' ends supported
    have course := surveyed_of_ends ends
    rw [if_pos supported] at course
    exact accounted_of_surveyed course

/-- A project of one file that declares a route twice and another one once. -/
def twiceDeclared : Session where
  space := {
    tree := {
      top := .folder [("routes", .folder [("a.ts", .file (Text.utf8
        "router.get('/x', f)\nrouter.get('/x', g)\nrouter.post('/:id', h)\n"))])]
      here := [] }
    today := "2024-01-01" }

theorem routes_accounted_twiceDeclared : ∃ v s',
    Ends (conductWith "/" .web none none) twiceDeclared v s' ∧ v.dialect.isSupported = true ∧
      v.collisions = 1 ∧ v.endpoints = 2 ∧ Accounted twiceDeclared v s' := by
  have run : endsWith (conductWith "/" .web none none) twiceDeclared (fun v =>
      v.dialect.isSupported && v.collisions == 1 && v.endpoints == 2) = true := by decide +kernel
  obtain ⟨v, s', ends, facts⟩ := exists_of_endsWith run
  simp only [Bool.and_eq_true, beq_iff_eq] at facts
  obtain ⟨⟨supported, collisions⟩, endpoints⟩ := facts
  exact ⟨v, s', ends, supported, collisions, endpoints,
    routes_accounted.2 _ _ _ _ _ v s' ends supported⟩

end Survey
end RouteAtlas
