import RouteAtlas.Session

/-!
# Steps of a run

`Ends step s a s'` says that a step started in the session `s` ends well with `a` in `s'`. The
lemmas take a run apart into its steps; a step that only reports leads to `Session.reportAll`.
-/

namespace RouteAtlas

namespace Session

def reportAll (s : Session) (rs : List Log.Record) : Session := rs.foldl report s

theorem reportAll_append (s : Session) (rs qs : List Log.Record) :
    s.reportAll (rs ++ qs) = (s.reportAll rs).reportAll qs := List.foldl_append ..

theorem report_log (s : Session) (r : Log.Record) : (s.report r).log = s.log ++ [r] := by
  unfold report
  cases s.logFile <;> rfl

theorem report_logFile (s : Session) (r : Log.Record) : (s.report r).logFile = s.logFile := by
  unfold report
  cases h : s.logFile <;> simp [withTree, h]

theorem report_of_no_logFile {s : Session} (h : s.logFile = none) (r : Log.Record) :
    s.report r = { s with log := s.log ++ [r] } := by
  simp only [report, h]

theorem reportAll_log (s : Session) (rs : List Log.Record) :
    (s.reportAll rs).log = s.log ++ rs := by
  unfold reportAll
  induction rs generalizing s with
  | nil => simp
  | cons r rs ih => rw [List.foldl_cons, ih, report_log, List.append_assoc]; rfl

theorem reportAll_inj {s : Session} {rs qs : List Log.Record} :
    s.reportAll rs = s.reportAll qs ↔ rs = qs := by
  refine ⟨fun same => ?_, congrArg s.reportAll⟩
  have logs := congrArg Session.log same
  rw [reportAll_log, reportAll_log] at logs
  exact List.append_cancel_left logs

theorem reportAll_logFile (s : Session) (rs : List Log.Record) :
    (s.reportAll rs).logFile = s.logFile := by
  unfold reportAll
  induction rs generalizing s with
  | nil => rfl
  | cons r rs ih => rw [List.foldl_cons, ih, report_logFile]

/-- Where no file keeps the reports, nothing but the list of reports changes. -/
theorem reportAll_of_no_logFile {s : Session} (h : s.logFile = none) (rs : List Log.Record) :
    s.reportAll rs = { s with log := s.log ++ rs } := by
  unfold reportAll
  induction rs generalizing s with
  | nil => rw [List.foldl_nil, List.append_nil]
  | cons r rs ih =>
    rw [List.foldl_cons, ih ((report_logFile s r).trans h), report_of_no_logFile h]
    simp only [List.append_assoc, List.singleton_append]

theorem reportAll_space_of_no_logFile {s : Session} (h : s.logFile = none)
    (rs : List Log.Record) : (s.reportAll rs).space = s.space := by
  rw [reportAll_of_no_logFile h]

theorem withTree_reportAll {s : Session} (h : s.logFile = none) (rs : List Log.Record) (t : Tree) :
    (s.reportAll rs).withTree t = (s.withTree t).reportAll rs := by
  have h' : (s.withTree t).logFile = none := h
  rw [reportAll_of_no_logFile h, reportAll_of_no_logFile h']
  rfl

end Session

namespace Run

variable {α β : Type} {s s' : Session}

/-- The result of a step that is started in a session, and the session that it leaves. -/
def outcome (step : Run α) (s : Session) : Except Failure α × Session := (step.run.run s).run

/-- The step, started in `s`, ends well with `a` in `s'`. -/
def Ends (step : Run α) (s : Session) (a : α) (s' : Session) : Prop :=
  outcome step s = (.ok a, s')

def endsWith (step : Run α) (s : Session) (test : α → Bool) : Bool :=
  match outcome step s with
  | (.ok a, _) => test a
  | (.error _, _) => false

theorem exists_of_endsWith {step : Run α} {test : α → Bool} (h : endsWith step s test = true) :
    ∃ a s', Ends step s a s' ∧ test a = true := by
  unfold endsWith at h
  split at h
  · rename_i a s' found
    exact ⟨a, s', found, h⟩
  · cases h

theorem ends_pure {a b : α} : Ends (pure a) s b s' ↔ a = b ∧ s = s' := by
  show ((Except.ok a, s) : Except Failure α × Session) = (Except.ok b, s') ↔ _
  rw [Prod.mk.injEq, Except.ok.injEq]

theorem outcome_bind (step : Run α) (next : α → Run β) (s : Session) :
    outcome (step >>= next) s = match outcome step s with
      | (.ok a, mid) => outcome (next a) mid
      | (.error f, mid) => (.error f, mid) := by
  have opened : outcome (step >>= next) s =
      outcome (ExceptT.mk (ExceptT.bindCont next (outcome step s).1)) (outcome step s).2 := rfl
  rw [opened]
  obtain ⟨result, mid⟩ := outcome step s
  cases result <;> rfl

theorem ends_bind {step : Run α} {next : α → Run β} {b : β} :
    Ends (step >>= next) s b s' ↔ ∃ a mid, Ends step s a mid ∧ Ends (next a) mid b s' := by
  unfold Ends
  rw [outcome_bind]
  obtain ⟨result, mid⟩ := outcome step s
  cases result with
  | error f => simp
  | ok a =>
    simp only [Prod.mk.injEq, Except.ok.injEq]
    constructor
    · intro h
      exact ⟨a, mid, ⟨rfl, rfl⟩, h⟩
    · rintro ⟨_, _, ⟨rfl, rfl⟩, h⟩
      exact h

theorem failed_bind {step : Run α} {next : α → Run β} {f : Failure}
    (failed : outcome (step >>= next) s = (.error f, s')) :
    outcome step s = (.error f, s') ∨
      ∃ a mid, Ends step s a mid ∧ outcome (next a) mid = (.error f, s') := by
  rw [outcome_bind] at failed
  split at failed
  · exact .inr ⟨_, _, ‹_›, failed⟩
  · rename_i first
    obtain ⟨same, rfl⟩ := Prod.mk.inj failed
    cases same
    exact .inl first

theorem ends_throw {f : Failure} {a : α} : ¬Ends (throw f) s a s' := by
  intro h
  have : ((Except.error f, s) : Except Failure α × Session) = (Except.ok a, s') := h
  simp at this

theorem ends_get {a : Session} : Ends get s a s' ↔ a = s ∧ s' = s := by
  show ((Except.ok s, s) : Except Failure Session × Session) = (Except.ok a, s') ↔ _
  rw [Prod.mk.injEq, Except.ok.injEq, eq_comm, eq_comm (a := s)]

theorem ends_look {f : Workspace → Except Failure α} {a : α} :
    Ends (look f) s a s' ↔ f s.space = .ok a ∧ s' = s := by
  show ((f s.space, s) : Except Failure α × Session) = (Except.ok a, s') ↔ _
  rw [Prod.mk.injEq, eq_comm (a := s)]

theorem ends_report {r : Log.Record} {u : Unit} : Ends (report r) s u s' ↔ s' = s.report r := by
  show ((Except.ok (), s.report r) : Except Failure Unit × Session) = (Except.ok u, s') ↔ _
  simp [eq_comm]

/-- A step for every item that only reports. -/
theorem ends_forM {l : List α} {step : α → Run Unit} {record : α → Log.Record} {u : Unit}
    (reports : ∀ a, step a = report (record a)) :
    Ends (l.forM step) s u s' ↔ s' = s.reportAll (l.map record) := by
  induction l generalizing s with
  | nil =>
    show Ends (pure ()) s u s' ↔ s' = s
    simp [ends_pure, eq_comm]
  | cons a l ih =>
    show Ends (step a >>= fun _ => l.forM step) s u s' ↔ _
    rw [ends_bind]
    constructor
    · rintro ⟨_, mid, first, rest⟩
      rw [reports, ends_report] at first
      subst first
      exact ih.mp rest
    · intro h
      exact ⟨(), s.report (record a), by rw [reports, ends_report], ih.mpr h⟩

theorem ends_reportAll {rs : List Log.Record} {u : Unit} :
    Ends (reportAll rs) s u s' ↔ s' = s.reportAll rs := by
  unfold reportAll
  rw [ends_forM fun _ => rfl, List.map_id']

theorem ends_tell {level : Log.Level} {message : Text} {u : Unit} :
    Ends (tell level message) s u s' ↔ s' = s.report ⟨level, .orchestrator, message⟩ := ends_report

theorem ends_tellAll {level : Log.Level} {messages : List Text} {u : Unit} :
    Ends (messages.forM (tell level)) s u s' ↔
      s' = s.reportAll (messages.map (⟨level, .orchestrator, ·⟩)) := ends_forM fun _ => rfl

theorem ends_set {a : Session} {u : Unit} : Ends (set a : Run Unit) s u s' ↔ s' = a := by
  show ((Except.ok (), a) : Except Failure Unit × Session) = (Except.ok u, s') ↔ _
  simp [eq_comm]

theorem ends_makeFolders {p : Path} {u : Unit} : Ends (makeFolders p) s u s' ↔
    ∃ t, s.space.tree.makeFolders p = (t, none) ∧ s' = s.withTree t := by
  unfold makeFolders
  simp only [ends_bind, ends_get, ends_set]
  constructor
  · rintro ⟨_, _, ⟨rfl, rfl⟩, _, _, rfl, ended⟩
    split at ended
    · exact absurd ended ends_throw
    · rename_i none
      exact ⟨_, Prod.ext rfl none, (ends_pure.mp ended).2.symm⟩
  · rintro ⟨t, made, rfl⟩
    refine ⟨s, s, ⟨rfl, rfl⟩, (), _, rfl, ?_⟩
    rw [made]
    exact ends_pure.mpr ⟨rfl, rfl⟩

theorem ends_change {p : Path} {operation : Tree → Except Fault Tree} {u : Unit} :
    Ends (change p operation) s u s' ↔
      ∃ t, operation s.space.tree = .ok t ∧ s' = s.withTree t := by
  unfold change
  simp only [ends_bind, ends_get]
  constructor
  · rintro ⟨_, _, ⟨rfl, rfl⟩, ended⟩
    split at ended
    · rename_i t changed
      exact ⟨t, changed, ends_set.mp ended⟩
    · exact absurd ended ends_throw
  · rintro ⟨t, changed, rfl⟩
    refine ⟨s, s, ⟨rfl, rfl⟩, ?_⟩
    rw [changed]
    exact ends_set.mpr rfl

/-- Where the step ends well in one session, the other step ends well in the other session with the same
result, and both only make the same reports. -/
def EndsAlike (step step₂ : Run α) (s s₂ : Session) : Prop :=
  ∀ a mid, Ends step s a mid → ∃ rs, mid = s.reportAll rs ∧ Ends step₂ s₂ a (s₂.reportAll rs)

theorem endsAlike_pure (a : α) (s s₂ : Session) : EndsAlike (pure a) (pure a) s s₂ := by
  intro b mid ended
  obtain ⟨rfl, rfl⟩ := ends_pure.mp ended
  exact ⟨[], rfl, ends_pure.mpr ⟨rfl, rfl⟩⟩

theorem ends_unless {b : Bool} {early a : α} {step : Run α} :
    Ends (if !b then pure early else step) s a s' ↔
      if b then Ends step s a s' else a = early ∧ s' = s := by
  cases b <;> simp [ends_pure, eq_comm]

end Run
end RouteAtlas
