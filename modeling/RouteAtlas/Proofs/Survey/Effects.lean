import RouteAtlas.Proofs.Survey.Configured
import RouteAtlas.Proofs.Survey.Republishing
import RouteAtlas.Proofs.Tree.Effects

/-!
# What a publication leaves behind

Until the document is written a publication only reports (`keeping_prepare`). `publish_effects` says what
has become of the files after it, however it ends.
-/

namespace RouteAtlas

open RouteAtlas.Tree

variable {s s' s'' : Session} {new new' : Place → Prop} {p : Path} {place : Place}

/-! ### Sessions -/

theorem Tree.appendAt_keeps (t : Tree) (place : Place) (content : Bytes) :
    Keeps new (some place) t (t.appendAt place content) := by
  unfold appendAt
  split
  · rename_i old stands
    refine (puts_set (c := .file (old ++ content)) (.file stands) rfl).keeps ?_
    rw [shown_eq_file.mpr stands]
    exact .grown rfl old content
  · exact .refl t

namespace Session

/-- Between the two sessions nothing is lost, folders are made only where `new` holds, and of all files
only the one that keeps the reports is started or grows. -/
structure Keeps (new : Place → Prop) (s s' : Session) : Prop where
  tree : s.space.tree.Keeps new s.logFile s'.space.tree
  logFile : s'.logFile = s.logFile

theorem Keeps.refl (s : Session) : Keeps new s s := ⟨.refl _, rfl⟩

theorem Keeps.trans (first : Keeps new s s') (second : Keeps new s' s'') : Keeps new s s'' :=
  ⟨first.tree.trans (first.logFile ▸ second.tree), second.logFile.trans first.logFile⟩

theorem Keeps.mono (folders : ∀ q, new q → new' q) (keeps : Keeps new s s') : Keeps new' s s' :=
  ⟨keeps.tree.mono folders fun _ => id, keeps.logFile⟩

theorem keeps_report (s : Session) (r : Log.Record) : Keeps new s (s.report r) := by
  refine ⟨?_, report_logFile s r⟩
  unfold report
  cases s.logFile with
  | none => exact .refl _
  | some place => exact appendAt_keeps ..

end Session

/-! ### Steps that only report -/

namespace Run

variable {α β : Type} {step : Run α} {next : α → Run β}

/-- Nothing changes in the step but the file that keeps the reports, also if it fails. -/
def Keeping (step : Run α) : Prop :=
  ∀ s : Session, s.Keeps (fun _ => False) (outcome step s).2

theorem keeping_pure (a : α) : Keeping (pure a) := fun s => .refl s

theorem keeping_look (f : Workspace → Except Failure α) : Keeping (look f) := fun s => .refl s

theorem keeping_report (r : Log.Record) : Keeping (report r) := fun s => s.keeps_report r

theorem keeping_bind (first : Keeping step) (rest : ∀ a, Keeping (next a)) :
    Keeping (step >>= next) := by
  intro s
  have kept := first s
  rw [outcome_bind]
  split
  · rename_i a mid ended
    rw [ended] at kept
    exact kept.trans (rest a mid)
  · rename_i f mid failed
    rw [failed] at kept
    exact kept

theorem keeping_ite {c : Prop} [Decidable c] {step' : Run α} (yes : Keeping step)
    (no : Keeping step') : Keeping (if c then step else step') := by
  split
  · exact yes
  · exact no

theorem keeping_forM {l : List α} {step : α → Run Unit} (each : ∀ a, Keeping (step a)) :
    Keeping (l.forM step) := by
  induction l with
  | nil => exact keeping_pure ()
  | cons a l ih => exact keeping_bind (each a) fun _ => ih

theorem keeping_foldlM {l : List α} {step : β → α → Run β} (each : ∀ b a, Keeping (step b a))
    (b : β) : Keeping (l.foldlM step b) := by
  induction l generalizing b with
  | nil => exact keeping_pure b
  | cons a l ih => exact keeping_bind (each b a) ih

theorem keeping_reportAll (rs : List Log.Record) : Keeping (reportAll rs) :=
  keeping_forM keeping_report

theorem keeping_tell (level : Log.Level) (message : Text) : Keeping (tell level message) :=
  keeping_report _

theorem outcome_makeFolders (p : Path) (s : Session) :
    (outcome (makeFolders p) s).2 = s.withTree (s.space.tree.makeFolders p).1 := by
  have got : outcome get s = (.ok s, s) := rfl
  have put (s' : Session) : outcome (set s') s = (.ok (), s') := rfl
  unfold makeFolders
  rw [outcome_bind, got]
  dsimp only
  rw [outcome_bind, put]
  dsimp only
  split <;> rfl

theorem keeps_makeFolders (plain : Tree.Plain p) (s : Session) :
    s.Keeps (fun _ => True) (outcome (makeFolders p) s).2 := by
  rw [outcome_makeFolders]
  exact ⟨(makeFolders_keeps plain).mono (fun _ _ => trivial) fun _ => id, rfl⟩

theorem failed_change {p : Path} {operation : Tree → Except Fault Tree} {f : Failure}
    (failed : outcome (change p operation) s = (.error f, s')) : s' = s := by
  unfold change at failed
  rcases failed_bind failed with first | ⟨_, _, got, rest⟩
  · cases first
  · obtain ⟨rfl, rfl⟩ := ends_get.mp got
    split at rest
    · cases rest
    · exact (Prod.mk.inj rest).2.symm

end Run

namespace Survey

open Run

theorem keeping_collect (c : Collection) (f : FileSurvey) : Keeping (collect c f) :=
  keeping_bind (keeping_forM (keeping_tell _)) fun _ =>
    keeping_bind (keeping_reportAll _) fun _ => keeping_pure _

theorem keeping_readRoutes (root : Path) (workers : Option Int) (c : Config) (traits : Traits)
    (d : Dialect) : Keeping (readRoutes root workers c traits d) :=
  keeping_bind (keeping_look _) fun _ =>
  keeping_bind (keeping_reportAll _) fun _ =>
  keeping_bind (keeping_tell _ _) fun _ =>
  keeping_bind (keeping_look _) fun _ =>
  keeping_bind (keeping_foldlM keeping_collect _) fun _ =>
  keeping_bind (keeping_tell _ _) fun _ => keeping_pure _

theorem keeping_takeWith (root : Path) (surface : Surface) (workers : Option Int) (c : Config) :
    Keeping (takeWith root surface workers c) := by
  refine keeping_bind (keeping_look _) fun traits => keeping_bind (keeping_report _) fun _ => ?_
  refine keeping_bind (keeping_reportAll _) fun _ => keeping_bind (keeping_tell _ _) fun _ => ?_
  exact keeping_ite (keeping_pure _) (keeping_readRoutes _ _ _ _ _)

theorem keeping_take {root : Path} {surface : Surface} {workers : Option Int} {config : Run Config}
    (configured : Keeping config) : Keeping (take root surface workers config) := by
  intro s
  rw [outcome_take]
  exact (s.keeps_report _).trans (keeping_bind configured (keeping_takeWith root surface workers) _)

theorem keeping_configFor (root : Path) : Keeping (configFor root) := by
  intro s
  rw [outcome_configFor]
  split
  · exact .refl s
  · exact keeping_bind (keeping_tell _ _) (fun _ => keeping_pure _) s
  · exact .refl s

/-! ### Before the document is written -/

/-- What is to be written, and where. -/
structure Plan where
  path : Path
  atlas : Atlas
  settings : Document.Settings

def Plan.content (plan : Plan) : Bytes := Text.utf8 (Document.text plan.atlas plan.settings)

/-- The part of a publication that precedes the writing. -/
def prepare (r : Request) : Run (Survey × Option Plan) := do
  let root ← Run.look (·.projectRoot r.path)
  let c ← configFor root
  let v ← take root r.surface r.workers (pure c)
  match v.atlas? with
  | none =>
    if v.dialect = .unsupported then
      Run.tell .error ("Unsupported project type: " ++ v.traits.unsupportedReason.getD [])
    else Run.tell .error ("No supported API routes found in " ++ root.text)
    return (v, none)
  | some atlas =>
    let settings ← Run.look fun w => Document.Settings.resolve w root r.surface c r.host r.scheme
    let path ← Run.look fun w => w.expand (target r v w.today)
    return (v, some { path, atlas, settings })

/-- The part of a publication that writes what was planned, if anything was. -/
def deliver : Survey × Option Plan → Run (Survey × Option Path)
  | (v, none) => return (v, none)
  | (v, some plan) => do
    write plan.path (Document.text plan.atlas plan.settings)
    Run.report (generatedRecord plan.path)
    Run.report (countRecord plan.atlas)
    return (v, some plan.path)

theorem publish_eq (r : Request) : publish r = prepare r >>= deliver := by
  unfold publish prepare
  simp only [bind_assoc]
  -- Up to the survey both are the same, and then they differ in when they go on to write.
  refine bind_congr fun root => bind_congr fun c => bind_congr fun v => ?_
  cases v.atlas? with
  | none =>
    dsimp only
    split <;> rfl
  | some atlas =>
    simp only [bind_assoc, pure_bind]
    rfl

theorem keeping_prepare (r : Request) : Keeping (prepare r) := by
  refine keeping_bind (keeping_look _) fun root => keeping_bind (keeping_configFor root) fun c => ?_
  refine keeping_bind (keeping_take (keeping_pure c)) fun v => ?_
  split
  · exact keeping_ite (keeping_bind (keeping_tell _ _) fun _ => keeping_pure _)
      (keeping_bind (keeping_tell _ _) fun _ => keeping_pure _)
  · exact keeping_bind (keeping_look _) fun _ => keeping_bind (keeping_look _) fun _ => keeping_pure _

/-- The plan is the document of the survey, with the settings of the project, to be written to the path
that was asked for or under its default name. -/
def Plans (r : Request) (s : Session) (v : Survey) (plan : Plan) : Prop :=
  ∃ root c before after, s.space.projectRoot r.path = .ok root ∧ Ends (configFor root) s c before ∧
    Ends (take root r.surface r.workers (pure c)) before v after ∧ v.atlas? = some plan.atlas ∧
    Document.Settings.resolve after.space root r.surface c r.host r.scheme = .ok plan.settings ∧
    after.space.expand (target r v after.space.today) = .ok plan.path

variable {r : Request} {v : Survey} {plan : Plan} {f : Failure} {text : Text} {content : Bytes}

/-- Only a survey of a project of no supported kind has no document. -/
theorem ends_prepare {planned : Option Plan} (ended : Ends (prepare r) s (v, planned) s') :
    match planned with
    | none => v.dialect.isSupported = false
    | some plan => Plans r s v plan := by
  unfold prepare at ended
  simp only [ends_bind, ends_look] at ended
  obtain ⟨root, _, ⟨found, rfl⟩, c, before, configured, v', after, taken, ended⟩ := ended
  split at ended
  · rename_i absent
    have same : v = v' ∧ planned = none := by
      split at ended
      · obtain ⟨_, _, _, ended⟩ := ends_bind.mp ended
        cases (ends_pure.mp ended).1
        exact ⟨rfl, rfl⟩
      · obtain ⟨_, _, _, ended⟩ := ends_bind.mp ended
        cases (ends_pure.mp ended).1
        exact ⟨rfl, rfl⟩
    obtain ⟨rfl, rfl⟩ := same
    obtain ⟨_, _, traits, _, _, rest⟩ := ends_take.mp taken
    dsimp only at rest
    split at rest
    · obtain ⟨_, _, _, _, _, rfl, _⟩ := ends_readRoutes.mp rest
      cases absent
    · rename_i unsupported
      obtain ⟨rfl, _⟩ := rest
      simpa using unsupported
  · rename_i atlas known
    simp only [ends_bind, ends_look, ends_pure] at ended
    obtain ⟨settings, _, ⟨resolved, rfl⟩, path, _, ⟨expanded, rfl⟩, same, rfl⟩ := ended
    cases same
    exact ⟨root, c, before, _, found, configured, taken, known, resolved, expanded⟩

theorem Plans.plain (plans : Plans r s v plan) : Tree.Plain plan.path := by
  obtain ⟨_, _, _, _, _, _, _, _, _, expanded⟩ := plans
  unfold target at expanded
  split at expanded
  · exact Workspace.plain_of_expand expanded
  · exact Workspace.plain_of_expand expanded

/-! ### The document -/

/-- Between the two sessions a file was written to a path, which leads to it, in the place of a file or
of nothing. Of all else only folders above it are new, and only the file that keeps the reports has
grown; if it is the same file, it has grown by the reports that were made later. -/
structure Written (p : Path) (content : Bytes) (place : Place) (s s' : Session) : Prop where
  found : ∃ more, s'.space.tree.find p = .ok (place, .file (content ++ more)) ∧
    (s.logFile ≠ some place → more = [])
  stood : s.space.tree.shown place = none ∨ ∃ old, s.space.tree.shown place = some (.file old)
  others : ∀ q, q ≠ place → Kept (s'.space.tree.Above p.parent) s.logFile q
    (s.space.tree.shown q) (s'.space.tree.shown q)
  logFile : s'.logFile = s.logFile

theorem Written.preceded (written : Written p content place s' s'')
    (keeps : s.Keeps (fun _ => False) s') : Written p content place s s'' := by
  refine ⟨?_, (keeps.tree.places place).stood written.stood, fun q other => ?_,
    written.logFile.trans keeps.logFile⟩
  · rw [← keeps.logFile]
    exact written.found
  · have rest := written.others q other
    rw [keeps.logFile] at rest
    exact ((keeps.tree.places q).mono False.elim id).trans rest

theorem Written.followed (written : Written p content place s s')
    (keeps : s'.Keeps (fun _ => False) s'') : Written p content place s s'' := by
  have tree := keeps.tree
  rw [written.logFile] at tree
  refine ⟨?_, written.stood, fun q other => ?_, keeps.logFile.trans written.logFile⟩
  · obtain ⟨first, found, quiet⟩ := written.found
    obtain ⟨second, found', quiet'⟩ := tree.find_file found
    refine ⟨first ++ second, ?_, fun other => ?_⟩
    · rw [found', List.append_assoc]
    · rw [quiet other, quiet' other, List.append_nil]
  · have first := (written.others q other).mono (fun above => above.stays tree.here tree.stays) id
    exact first.trans ((tree.places q).mono False.elim id)

theorem written_of_writes {t : Tree} (plain : Tree.Plain p) (writes : Writes s.space.tree p text t) :
    ∃ place, Written p (Text.utf8 text) place s (s.withTree t) := by
  obtain ⟨mid, made, changed⟩ := writes
  have keeps : s.space.tree.Keeps (mid.Above p.parent) s.logFile mid := by
    have keeps := @makeFolders_keeps s.space.tree _ s.logFile plain.parent
    rwa [made] at keeps
  obtain ⟨place, old, stood, puts, found⟩ := modify_ok changed
  have stood : mid.shown place = none ∨ ∃ old, mid.shown place = some (.file old) :=
    (stood.imp (fun there => ⟨old, there⟩) And.right).symm
  refine ⟨place, ⟨[], ?_, fun _ => rfl⟩, (keeps.places place).stood stood, fun q other => ?_, rfl⟩
  · rw [List.append_nil]
    exact found
  · have kept := (keeps.places q).mono (fun above => above.stays puts.here (puts.stays stood)) id
    have same := puts.shows q
    rw [if_neg other] at same
    rw [← same] at kept
    exact kept

/-- Where a document cannot be written, nothing has changed but some folders above it are made. -/
theorem failed_write (plain : Tree.Plain p) (failed : outcome (write p text) s = (.error f, s')) :
    s.Keeps (fun _ => True) s' := by
  have folders := keeps_makeFolders plain.parent s
  rcases failed_bind failed with first | ⟨_, mid, ended, rest⟩
  · rw [first] at folders
    exact folders
  · rw [ended] at folders
    obtain rfl := failed_change rest
    exact folders

theorem ends_deliver {out : Survey × Option Path} (plain : Tree.Plain plan.path)
    (ended : Ends (deliver (v, some plan)) s out s') :
    out = (v, some plan.path) ∧ ∃ place, Written plan.path plan.content place s s' := by
  simp only [deliver, ends_bind, ends_write, ends_report, ends_pure] at ended
  obtain ⟨_, _, ⟨t, writes, rfl⟩, _, _, rfl, _, _, rfl, same, rfl⟩ := ended
  obtain ⟨place, written⟩ := written_of_writes plain writes
  exact ⟨same.symm, place, (written.followed (Session.keeps_report ..)).followed (Session.keeps_report ..)⟩

theorem failed_deliver (plain : Tree.Plain plan.path)
    (failed : outcome (deliver (v, some plan)) s = (.error f, s')) : s.Keeps (fun _ => True) s' := by
  rcases failed_bind failed with failed | ⟨_, _, _, failed⟩
  · exact failed_write plain failed
  · cases failed

/-! ### The publication -/

theorem keeps_of_failed (failed : outcome (publish r) s = (.error f, s')) :
    s.Keeps (fun _ => True) s' := by
  have kept := keeping_prepare r s
  rw [publish_eq] at failed
  rcases failed_bind failed with failed | ⟨⟨v, planned⟩, mid, ended, failed⟩
  · rw [failed] at kept
    exact kept.mono fun _ => False.elim
  · rw [ended] at kept
    cases planned with
    | none => cases failed
    | some plan =>
      exact (kept.mono fun _ => False.elim).trans (failed_deliver (ends_prepare ended).plain failed)

theorem keeps_of_withheld (ended : Ends (publish r) s (v, none) s') :
    v.dialect.isSupported = false ∧ s.Keeps (fun _ => False) s' := by
  have kept := keeping_prepare r s
  rw [publish_eq] at ended
  obtain ⟨⟨v', planned⟩, mid, prepared, ended⟩ := ends_bind.mp ended
  rw [prepared] at kept
  cases planned with
  | none =>
    obtain ⟨same, rfl⟩ := ends_pure.mp ended
    cases same
    exact ⟨ends_prepare prepared, kept⟩
  | some plan => cases (ends_deliver (ends_prepare prepared).plain ended).1

theorem written_of_ends (ended : Ends (publish r) s (v, some p) s') :
    ∃ plan place, plan.path = p ∧ Plans r s v plan ∧ Written p plan.content place s s' := by
  have kept := keeping_prepare r s
  rw [publish_eq] at ended
  obtain ⟨⟨v', planned⟩, mid, prepared, ended⟩ := ends_bind.mp ended
  rw [prepared] at kept
  cases planned with
  | none => cases (ends_pure.mp ended).1
  | some plan =>
    have plans := ends_prepare prepared
    obtain ⟨same, place, written⟩ := ends_deliver plans.plain ended
    cases same
    exact ⟨plan, place, rfl, plans, written.preceded kept⟩

/-- A publication that fails, or that finds no project of a supported kind, leaves every file as it is and
makes no new one. One that gives a path has put the document of the survey, with the settings of the
project, into the file that the path leads to, and nothing else has changed but that folders above it
may be new. In either case the file that keeps the reports, if there is one, may have grown. -/
theorem publish_effects (r : Request) (s : Session) :
    match outcome (publish r) s with
    | (.error _, s') => s.Keeps (fun _ => True) s'
    | (.ok (v, none), s') => v.dialect.isSupported = false ∧ s.Keeps (fun _ => False) s'
    | (.ok (v, some p), s') => ∃ plan place, plan.path = p ∧ Plans r s v plan ∧
        Written p plan.content place s s' := by
  split
  · exact keeps_of_failed ‹_›
  · exact keeps_of_withheld ‹_›
  · exact written_of_ends ‹_›

end Survey
end RouteAtlas
