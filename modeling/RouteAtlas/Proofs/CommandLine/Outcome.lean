import RouteAtlas.CommandLine.Outcome
import RouteAtlas.Proofs.Survey.Effects

/-!
# How calls end

A call that names a file for the reports starts it before anything else. `call_ends` says how a call ends,
and what it leaves behind then; `call_escapes` is a call that ends with a failure and not with an exit.
-/

namespace RouteAtlas.CommandLine

open Run RouteAtlas.Tree Survey

variable {s s' mid : Session} {f : Failure} {o : Order} {out : Outcome} {file : Text}

/-! ### The file that keeps the reports -/

/-- The file that the reports go to from then on is started if it is missing. -/
theorem ends_keepReports {u : Unit} (ended : Ends (keepReports file) s u s') :
    s.space.tree.Keeps (fun _ => True) s'.logFile s'.space.tree := by
  simp only [keepReports, ends_bind, ends_look, ends_makeFolders, ends_change] at ended
  obtain ⟨path, s, ⟨expanded, rfl⟩, _, _, ⟨t, made, rfl⟩, spelled, _, ⟨_, rfl⟩, _, _,
    ⟨t', appended, rfl⟩, found, _, ⟨looked, rfl⟩, ended⟩ := ended
  cases ended
  have plain : Plain path := Workspace.plain_of_expand expanded
  obtain ⟨place, content, leads, keeps⟩ := append_ok appended
  have same : found = (place, .file content) := by
    have there : Failure.on spelled (t'.find spelled) = .ok (place, .file content) := by
      rw [leads]
      rfl
    exact Except.ok.inj (looked.symm.trans there)
  subst same
  have folders := @makeFolders_keeps s.space.tree _ (some place) plain.parent
  rw [made] at folders
  exact (folders.mono (fun _ _ => trivial) fun _ => id).trans
    (keeps.mono (fun _ => False.elim) fun _ => id)

/-- Where that file cannot be started, nothing has changed but that folders may be made. -/
theorem failed_keepReports (failed : outcome (keepReports file) s = (.error f, s')) :
    s.Keeps (fun _ => True) s' := by
  rcases failed_bind failed with first | ⟨path, s, looked, folded⟩
  · cases (Prod.mk.inj first).2
    exact .refl s
  obtain ⟨expanded, rfl⟩ := ends_look.mp looked
  have plain : Plain path := Workspace.plain_of_expand expanded
  have folders := keeps_makeFolders plain.parent s
  rcases failed_bind folded with first | ⟨_, mid, made, spelled⟩
  · rw [first] at folders
    exact folders
  rw [made] at folders
  rcases failed_bind spelled with first | ⟨absolute, _, looked, started⟩
  · cases first
  obtain ⟨_, rfl⟩ := ends_look.mp looked
  rcases failed_bind started with first | ⟨_, _, changed, found⟩
  · obtain rfl := failed_change first
    exact folders
  -- Once the file is started, the path leads to it.
  obtain ⟨t, appended, rfl⟩ := ends_change.mp changed
  obtain ⟨place, content, leads, _⟩ := append_ok appended
  rcases failed_bind found with first | ⟨_, _, _, last⟩
  · have there : Failure.on absolute (t.find absolute) = .error f := (Prod.mk.inj first).1
    rw [leads] at there
    cases there
  · cases last

/-- The set-up of the reports, which comes before everything else. -/
def setUp (o : Order) : Run Unit := o.given.logFile.forM keepReports

theorem ends_setUp {u : Unit} (ended : Ends (setUp o) s u mid) :
    s.space.tree.Keeps (fun _ => True) mid.logFile mid.space.tree := by
  unfold setUp at ended
  cases named : o.given.logFile with
  | none =>
    rw [named] at ended
    cases ended
    exact .refl _
  | some file =>
    rw [named] at ended
    exact ends_keepReports ended

theorem failed_setUp (failed : outcome (setUp o) s = (.error f, s')) :
    ∃ file, o.given.logFile = some file ∧ outcome (keepReports file) s = (.error f, s') := by
  unfold setUp at failed
  cases named : o.given.logFile with
  | none =>
    rw [named] at failed
    cases failed
  | some file =>
    rw [named] at failed
    exact ⟨file, rfl, failed⟩

/-! ### The call -/

/-- The document of the project that was asked for has been written. -/
def Publishes (o : Order) (s s' : Session) : Prop :=
  ∃ mid v plan place, Ends (setUp o) s () mid ∧ Plans o.request mid v plan ∧
    Written plan.path plan.content place mid s'

/-- What comes after the set-up. -/
def perform (o : Order) : Run Outcome := do
  if o.given.workers.any (· < 1) then
    return { exit := 2, errors := "--workers must be a positive integer\n" }
  let result ← Run.attempt (Survey.publish o.request)
  let s ← get
  let shown := console o.given.verbose s.log
  match result with
  | .error f => return { exit := 1, errors := shown ++ failureText o.surface f }
  | .ok (survey, none) =>
    let kind := "No OpenAPI document written (detected: " ++ survey.dialect.name ++ ")\n"
    return { exit := 1, errors := shown ++ kind }
  | .ok (survey, some path) =>
    return { output := success s.space.tree survey path, errors := shown }

theorem fulfil_eq (o : Order) : fulfil o = setUp o >>= fun _ => perform o := rfl

/-- After the set-up a call always exits: it has written the document and exits well, or it has not, and
no file has changed but the one that keeps the reports. -/
theorem outcome_perform (o : Order) (s : Session) :
    ∃ out s', outcome (perform o) s = (.ok out, s') ∧
      (out.exit = 0 ∧ (∃ v plan place, Plans o.request s v plan ∧
          Written plan.path plan.content place s s') ∨
        (out.exit = 1 ∨ out.exit = 2) ∧ s.Keeps (fun _ => True) s') := by
  unfold perform
  split
  · exact ⟨_, s, rfl, .inr ⟨.inr rfl, .refl s⟩⟩
  · have attempted : outcome (attempt (publish o.request)) s =
        (.ok (outcome (publish o.request) s).1, (outcome (publish o.request) s).2) := rfl
    rw [outcome_bind, attempted]
    rcases published : outcome (publish o.request) s with ⟨f | ⟨v, none | path⟩, s'⟩
    · exact ⟨_, s', rfl, .inr ⟨.inl rfl, keeps_of_failed published⟩⟩
    · have keeps := (keeps_of_withheld published).2
      exact ⟨_, s', rfl, .inr ⟨.inl rfl, keeps.mono fun _ => False.elim⟩⟩
    · obtain ⟨plan, place, rfl, plans, written⟩ := written_of_ends published
      exact ⟨_, s', rfl, .inl ⟨rfl, v, plan, place, plans, written⟩⟩

/-- A call exits well where it has written the document, or where it asks for help; it exits with one or
two where it has written none. Only a file for the reports that cannot be started lets a failure escape,
and nothing is written then either. -/
theorem call_ends (words : List Text) (s : Session) :
    match outcome (call words) s with
    | (.ok out, s') =>
      out.exit = 0 ∧ (∃ o, read words = .ok o ∧ Publishes o s s') ∨
      out.exit = 0 ∧ read words = .error .help ∧ s' = s ∨
      (out.exit = 1 ∨ out.exit = 2) ∧ s.space.tree.Keeps (fun _ => True) s'.logFile s'.space.tree
    | (.error f, s') => s.Keeps (fun _ => True) s' ∧ ∃ o file, read words = .ok o ∧
      o.given.logFile = some file ∧ outcome (keepReports file) s = (.error f, s') := by
  unfold call
  cases asked : read words with
  | error refused =>
    cases refused with
    | help => exact .inr (.inl ⟨rfl, rfl, rfl⟩)
    | refused name f => exact .inr (.inr ⟨.inr rfl, .refl _⟩)
  | ok o =>
    dsimp only
    rw [fulfil_eq, outcome_bind]
    rcases ready : outcome (setUp o) s with ⟨f | _, mid⟩
    · obtain ⟨file, named, failed⟩ := failed_setUp ready
      exact ⟨failed_keepReports failed, o, file, rfl, named, failed⟩
    · have started := ends_setUp ready
      obtain ⟨out, s', performed, ended⟩ := outcome_perform o mid
      dsimp only
      rw [performed]
      rcases ended with ⟨exit, v, plan, place, plans, written⟩ | ⟨exit, keeps⟩
      · exact .inl ⟨exit, o, rfl, mid, v, plan, place, ready, plans, written⟩
      · refine .inr (.inr ⟨exit, ?_⟩)
        rw [keeps.logFile]
        exact started.trans keeps.tree

/-- A folder cannot keep the reports. -/
theorem call_escapes :
    (match outcome (call ["--log-file", "proj", "web", "proj"])
        (sessionIn (.folder [("proj", .folder [])])) with
      | (.error (.file .isFolder _), _) => true
      | _ => false) = true := by
  decide +kernel

end RouteAtlas.CommandLine
