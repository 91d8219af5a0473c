import RouteAtlas.Survey.Basic
import RouteAtlas.Proofs.Atlas.Collecting
import RouteAtlas.Proofs.Session

/-!
# The course of a survey

A survey looks at the tree and reports; nothing else of the session changes. `ends_take` and
`ends_readRoutes` say what it looks at, what it reports and what it gives, and `surveyFiles_eq` that
the number of files read at a time does not matter.
-/

namespace RouteAtlas.Survey

open Run

/-! ### Reading files -/

theorem mapM_cons_ok {α β ε : Type} {f : α → Except ε β} {a : α} {l : List α} {r : List β} :
    (a :: l).mapM f = .ok r ↔ ∃ b bs, f a = .ok b ∧ l.mapM f = .ok bs ∧ r = b :: bs := by
  rw [List.mapM_cons]
  cases f a with
  | error e => simp [bind, Except.bind]
  | ok b =>
    cases l.mapM f with
    | error e => simp [bind, Except.bind]
    | ok bs => simp [bind, Except.bind, pure, Except.pure, eq_comm]

theorem flatten_mapM {α β ε : Type} (f : α → Except ε β) (ls : List (List α)) :
    (do return (← ls.mapM fun l => l.mapM f).flatten) = ls.flatten.mapM f := by
  induction ls with
  | nil => rfl
  | cons l ls ih =>
    rw [List.flatten_cons, List.mapM_append, ← ih, List.mapM_cons]
    cases l.mapM f with
    | error e => rfl
    | ok bs => cases ls.mapM fun l => l.mapM f <;> rfl

/-- Files are read as if one at a time. -/
theorem surveyFiles_eq (t : Tree) (root : Path) (d : Dialect) (workers : Nat) (files : List Text) :
    surveyFiles t root d workers files = files.mapM (surveyFile t root d) := by
  unfold surveyFiles
  rw [flatten_mapM, flatten_rounds]

/-- The routes that a file declares, none if it cannot be read. -/
def routesIn (t : Tree) (root : Path) (d : Dialect) (file : Text) : List Placed :=
  match t.readLossy (root.sub file) with
  | .ok text => d.placed file text
  | .error _ => []

theorem surveyFile_ok {t : Tree} {root : Path} {d : Dialect} {file : Text} {f : FileSurvey}
    (h : surveyFile t root d file = .ok f) : f.file = file ∧ f.placed = routesIn t root d file := by
  unfold surveyFile at h
  unfold routesIn
  dsimp only at h
  split at h
  · rename_i text read
    rw [read]
    cases h
    exact ⟨rfl, rfl⟩
  · cases h
  · rename_i read
    rw [read]
    cases h
    exact ⟨rfl, rfl⟩

theorem surveyFiles_ok {t : Tree} {root : Path} {d : Dialect} {workers : Nat} {files : List Text}
    {read : List FileSurvey} (h : surveyFiles t root d workers files = .ok read) :
    read.map FileSurvey.file = files ∧
      read.flatMap FileSurvey.placed = files.flatMap (routesIn t root d) := by
  rw [surveyFiles_eq] at h
  induction files generalizing read with
  | nil =>
    cases h
    exact ⟨rfl, rfl⟩
  | cons file files ih =>
    obtain ⟨f, rest, first, others, rfl⟩ := mapM_cons_ok.mp h
    obtain ⟨name, placed⟩ := surveyFile_ok first
    obtain ⟨names, routes⟩ := ih others
    simp only [List.map_cons, List.flatMap_cons, name, names, placed, routes, and_self]

/-! ### Collecting -/

def entries (read : List FileSurvey) : List (Text × List Placed) :=
  read.map fun f => (f.file, f.placed)

theorem routesOf_entries (read : List FileSurvey) :
    Collection.routesOf (entries read) = read.flatMap FileSurvey.placed := by
  rw [Collection.routesOf, entries, List.flatMap_map]

/-- The reports while files are added to a collection. -/
def collectRecords (c : Collection) : List FileSurvey → List Log.Record
  | [] => []
  | f :: read =>
    let c' := (c.add f.file f.placed).2
    f.warnings.map (⟨.warning, .orchestrator, ·⟩)
      ++ (c'.overrides.drop c.overrides.length).map Override.record ++ collectRecords c' read

theorem ends_collect {c c' : Collection} {f : FileSurvey} {s s' : Session} :
    Ends (collect c f) s c' s' ↔
      c' = (c.add f.file f.placed).2 ∧ s' = s.reportAll
        (f.warnings.map (⟨.warning, .orchestrator, ·⟩)
          ++ (c'.overrides.drop c.overrides.length).map Override.record) := by
  have opened : collect c f = f.warnings.forM (Run.tell .warning) >>= fun _ =>
      Run.reportAll (((c.add f.file f.placed).2.overrides.drop c.overrides.length).map
        Override.record) >>= fun _ => pure (c.add f.file f.placed).2 := rfl
  rw [opened, ends_bind]
  simp only [ends_bind, ends_tellAll, ends_reportAll, ends_pure]
  constructor
  · rintro ⟨_, _, rfl, _, _, rfl, rfl, rfl⟩
    exact ⟨rfl, (Session.reportAll_append ..).symm⟩
  · rintro ⟨rfl, rfl⟩
    exact ⟨(), _, rfl, (), _, rfl, rfl, (Session.reportAll_append ..).symm⟩

/-- Files are collected without failure: the routes are added and the reports made. -/
theorem ends_foldlM_collect {c c' : Collection} {read : List FileSurvey} {s s' : Session} :
    Ends (read.foldlM collect c) s c' s' ↔
      c' = c.addFiles (entries read) ∧ s' = s.reportAll (collectRecords c read) := by
  induction read generalizing c s with
  | nil =>
    show Ends (pure c) s c' s' ↔ _
    rw [ends_pure, eq_comm, eq_comm (a := s)]
    rfl
  | cons f read ih =>
    rw [List.foldlM_cons, ends_bind]
    constructor
    · rintro ⟨_, _, first, rest⟩
      obtain ⟨rfl, rfl⟩ := ends_collect.mp first
      obtain ⟨rfl, rfl⟩ := ih.mp rest
      exact ⟨rfl, (Session.reportAll_append ..).symm⟩
    · rintro ⟨rfl, rfl⟩
      exact ⟨_, _, ends_collect.mpr ⟨rfl, rfl⟩, ih.mpr ⟨rfl, Session.reportAll_append ..⟩⟩

/-! ### The whole survey -/

/-- The part of a survey that follows the choice of a supported dialect. -/
def readRoutes (root : Path) (workers : Option Int) (c : Config) (traits : Traits)
    (dialect : Dialect) : Run Survey := do
  let (files, records) ← Run.look fun w =>
    Candidates.find w.tree root traits dialect c.excluded
  Run.reportAll records
  Run.tell .info ("Found " ++ Decimal.natText files.length ++ " route files")
  let read ← Run.look fun w => surveyFiles w.tree root dialect (workersFor workers c) files
  let collection ← read.foldlM collect {}
  Run.tell .debug ("Merged " ++ Decimal.natText collection.atlas.endpoints ++ " endpoints with "
    ++ Decimal.natText collection.collisions ++ " overrides")
  return {
    root, dialect, traits, files
    warnings := read.flatMap FileSurvey.warnings
    collection := some collection }

def foundRecord (files : List Text) : Log.Record :=
  ⟨.info, .orchestrator, "Found " ++ Decimal.natText files.length ++ " route files"⟩

def mergedRecord (c : Collection) : Log.Record :=
  ⟨.debug, .orchestrator, "Merged " ++ Decimal.natText c.atlas.endpoints ++ " endpoints with "
    ++ Decimal.natText c.collisions ++ " overrides"⟩

theorem ends_readRoutes {root : Path} {workers : Option Int} {c : Config} {traits : Traits}
    {dialect : Dialect} {s s' : Session} {v : Survey} :
    Ends (readRoutes root workers c traits dialect) s v s' ↔
      ∃ files records read,
        Candidates.find s.space.tree root traits dialect c.excluded = .ok (files, records) ∧
        surveyFiles (s.reportAll (records ++ [foundRecord files])).space.tree root dialect
          (workersFor workers c) files = .ok read ∧
        v = { root, dialect, traits, files
              warnings := read.flatMap FileSurvey.warnings
              collection := some (Collection.addFiles {} (entries read)) } ∧
        s' = s.reportAll (records ++ [foundRecord files] ++ collectRecords {} read
          ++ [mergedRecord (Collection.addFiles {} (entries read))]) := by
  simp only [readRoutes, ends_bind, ends_look, ends_reportAll, ends_tell, ends_pure,
    ends_foldlM_collect]
  constructor
  · rintro ⟨⟨files, records⟩, _, ⟨found, rfl⟩, _, _, rfl, _, _, rfl, read, _, ⟨surveyed, rfl⟩,
      _, _, ⟨rfl, rfl⟩, _, _, rfl, rfl, rfl⟩
    refine ⟨files, records, read, found, ?_, rfl, ?_⟩
    · rw [Session.reportAll_append]
      exact surveyed
    · simp only [Session.reportAll_append]
      rfl
  · rintro ⟨files, records, read, found, surveyed, rfl, rfl⟩
    rw [Session.reportAll_append] at surveyed
    refine ⟨(files, records), s, ⟨found, rfl⟩, (), _, rfl, (), _, rfl, read, _, ⟨surveyed, rfl⟩,
      _, _, ⟨rfl, rfl⟩, (), _, rfl, rfl, ?_⟩
    simp only [Session.reportAll_append]
    rfl

def analyzingRecord (root : Path) : Log.Record :=
  ⟨.info, .orchestrator, "Analyzing project: " ++ root.text⟩

def dialectRecords (root : Path) (traits : Traits) (surface : Surface) : List Log.Record :=
  Traits.gatherRecord root traits :: (chooseDialect traits surface).2 ++
    [⟨.info, .orchestrator, "Detected: " ++ (chooseDialect traits surface).1.name⟩]

/-- A survey gathers the traits, chooses the dialect and reads routes if the dialect is supported. -/
theorem ends_take {root : Path} {surface : Surface} {workers : Option Int} {config : Run Config}
    {s s' : Session} {v : Survey} :
    Ends (take root surface workers config) s v s' ↔
      ∃ c mid traits, Ends config (s.report (analyzingRecord root)) c mid ∧
        Traits.gather mid.space.tree root = .ok traits ∧
        let dialect := (chooseDialect traits surface).1
        let mid' := mid.reportAll (dialectRecords root traits surface)
        if dialect.isSupported then Ends (readRoutes root workers c traits dialect) mid' v s'
        else v = { root, dialect, traits } ∧ s' = mid' := by
  have opened : take root surface workers config =
      Run.report (analyzingRecord root) >>= fun _ => config >>= fun c =>
      Run.look (fun w => Traits.gather w.tree root) >>= fun traits =>
      Run.report (Traits.gatherRecord root traits) >>= fun _ =>
      Run.reportAll (chooseDialect traits surface).2 >>= fun _ =>
      Run.report ⟨.info, .orchestrator, "Detected: " ++ (chooseDialect traits surface).1.name⟩
        >>= fun _ =>
      if !(chooseDialect traits surface).1.isSupported then
        pure { root, dialect := (chooseDialect traits surface).1, traits }
      else readRoutes root workers c traits (chooseDialect traits surface).1 := rfl
  have reports (m : Session) (traits : Traits) :
      ((m.report (Traits.gatherRecord root traits)).reportAll
        (chooseDialect traits surface).2).report
          ⟨.info, .orchestrator, "Detected: " ++ (chooseDialect traits surface).1.name⟩ =
      m.reportAll (dialectRecords root traits surface) :=
    (Session.reportAll_append _ (_ :: _) [_]).symm
  rw [opened]
  simp only [ends_bind, ends_report, ends_look, ends_reportAll]
  constructor
  · rintro ⟨_, _, rfl, c, _, configured, traits, _, ⟨gathered, same⟩, _, _, rfl, _, _, rfl,
      _, _, rfl, last⟩
    subst same
    rw [reports, ends_unless] at last
    exact ⟨c, _, traits, configured, gathered, last⟩
  · rintro ⟨c, mid, traits, configured, gathered, last⟩
    refine ⟨(), _, rfl, c, mid, configured, traits, mid, ⟨gathered, rfl⟩, (), _, rfl, (), _, rfl,
      (), _, rfl, ?_⟩
    rw [reports, ends_unless]
    exact last

/-! ### Reports on other things than the collection -/

/-- None of the reports is on the collection. -/
def Apart (rs : List Log.Record) : Prop := ∀ r ∈ rs, r.channel ≠ .aggregator

theorem apart_nil : Apart [] := fun _ h => absurd h List.not_mem_nil

theorem apart_singleton {r : Log.Record} (h : r.channel ≠ .aggregator) : Apart [r] :=
  List.forall_mem_singleton.mpr h

theorem apart_append {rs qs : List Log.Record} (hr : Apart rs) (hq : Apart qs) : Apart (rs ++ qs) :=
  List.forall_mem_append.mpr ⟨hr, hq⟩

theorem apart_dialectRecords (root : Path) (traits : Traits) (surface : Surface) :
    Apart (dialectRecords root traits surface) := by
  have chosen : Apart (chooseDialect traits surface).2 := by
    cases surface with
    | web =>
      unfold chooseDialect Traits.dialectLog
      dsimp only
      split
      · exact apart_singleton Log.Channel.noConfusion
      · exact apart_nil
    | dotnet => exact apart_nil
  have gathered : Apart [Traits.gatherRecord root traits] := apart_singleton Log.Channel.noConfusion
  exact apart_append (apart_append gathered chosen) (apart_singleton Log.Channel.noConfusion)

theorem apart_find {t : Tree} {root : Path} {traits : Traits} {dialect : Dialect}
    {excluded files : List Text} {records : List Log.Record}
    (h : Candidates.find t root traits dialect excluded = .ok (files, records)) :
    Apart records := by
  unfold Candidates.find at h
  split at h
  · cases h
    exact apart_singleton Log.Channel.noConfusion
  · rename_i rule _
    cases found : rule.files t root with
    | error f =>
      rw [found] at h
      cases h
    | ok paths =>
      rw [found] at h
      cases h
      split
      · exact apart_nil
      · exact apart_singleton Log.Channel.noConfusion

theorem ends_settingsFor {given : Option Config} {root : Path} {s s' : Session} {c : Config}
    (h : Ends (settingsFor given root) s c s') : ∃ rs, Apart rs ∧ s' = s.reportAll rs := by
  cases given with
  | some c' => exact ⟨[], apart_nil, (ends_pure.mp h).2.symm⟩
  | none =>
    rw [settingsFor, configFor, ends_bind] at h
    obtain ⟨_, _, got, h⟩ := h
    obtain ⟨rfl, rfl⟩ := ends_get.mp got
    split at h
    · exact ⟨[], apart_nil, (ends_pure.mp h).2.symm⟩
    · obtain ⟨_, _, told, h⟩ := ends_bind.mp h
      obtain rfl := ends_tell.mp told
      exact ⟨[_], apart_singleton Log.Channel.noConfusion, (ends_pure.mp h).2.symm⟩
    · exact absurd h ends_throw

/-! ### From path to collection -/

/-- The candidate files of the survey were found, they were read, and their routes make up its
collection. The reports before, between and after are on other things. -/
def Surveyed (s : Session) (v : Survey) (s' : Session) : Prop :=
  ∃ before between later excluded records number read,
    Apart before ∧ Apart between ∧ Apart later ∧
    Candidates.find (s.reportAll before).space.tree v.root v.traits v.dialect excluded =
      .ok (v.files, records) ∧
    surveyFiles (s.reportAll (before ++ between)).space.tree v.root v.dialect number v.files =
      .ok read ∧
    v.collection = some (Collection.addFiles {} (entries read)) ∧
    s' = s.reportAll (before ++ (between ++ (collectRecords {} read ++ later)))

theorem surveyed_of_ends {path : Text} {surface : Surface} {workers : Option Int}
    {given : Option Config} {s s' : Session} {v : Survey}
    (h : Ends (conductWith path surface workers given) s v s') :
    if v.dialect.isSupported then Surveyed s v s' else v.collection = none := by
  have opened : conductWith path surface workers given = Run.look (·.projectRoot path) >>=
      fun root => take root surface workers (settingsFor given root) := rfl
  rw [opened, ends_bind] at h
  obtain ⟨root, _, looked, taken⟩ := h
  obtain ⟨_, rfl⟩ := ends_look.mp looked
  obtain ⟨c, mid, traits, configured, _, rest⟩ := ends_take.mp taken
  obtain ⟨rs, apart, rfl⟩ := ends_settingsFor configured
  dsimp only at rest
  split at rest
  · rename_i supported
    obtain ⟨files, records, read, found, surveyed, rfl, rfl⟩ := ends_readRoutes.mp rest
    rw [if_pos supported]
    refine ⟨[analyzingRecord root] ++ (rs ++ dialectRecords root traits surface),
      records ++ [foundRecord files], [mergedRecord (Collection.addFiles {} (entries read))],
      c.excluded, records, workersFor workers c, read, ?_, ?_,
      apart_singleton Log.Channel.noConfusion, ?_, ?_, rfl, ?_⟩
    · exact apart_append (apart_singleton Log.Channel.noConfusion)
        (apart_append apart (apart_dialectRecords root traits surface))
    · exact apart_append (apart_find found) (apart_singleton Log.Channel.noConfusion)
    · simp only [Session.reportAll_append] at found ⊢
      exact found
    · simp only [Session.reportAll_append] at surveyed ⊢
      exact surveyed
    · simp only [Session.reportAll_append]
      rfl
  · rename_i unsupported
    obtain ⟨rfl, _⟩ := rest
    rw [if_neg unsupported]

end RouteAtlas.Survey
