import RouteAtlas.Survey.Publication
import RouteAtlas.Proofs.Survey.Hidden
import RouteAtlas.Proofs.Tree.Writing

/-!
# Publishing again

A document that is written under its default name is no part of what the next survey reads, wherever it
lies. `publish_again` says that a second publication right after the first one gives the same survey,
makes the same reports and leaves every file as it is.
-/

namespace RouteAtlas

open Entry Traits

/-! ### Default names -/

namespace Document

variable {project folder today : Text}

theorem isDefaultName_defaultName :
    isDefaultName (defaultName project folder today) = true := by
  have starts : ("swagger-output-" : Text) <+: defaultName project folder today := by
    unfold defaultName
    simp only [List.append_assoc]
    apply List.prefix_append
  have ends : (".json" : Text) <:+ defaultName project folder today := by
    unfold defaultName
    apply List.suffix_append
  exact (Bool.and_eq_true _ _).mpr ⟨Text.startsWith_iff.mpr starts, Text.endsWith_iff.mpr ends⟩

theorem slash_notMem_defaultName (projectFree : '/' ∉ project) (folderFree : '/' ∉ folder)
    (todayFree : '/' ∉ today) : '/' ∉ defaultName project folder today := by
  have head : '/' ∉ ("swagger-output-" : Text) := by decide
  have tail : '/' ∉ (".json" : Text) := by decide
  have dash : '/' ≠ '-' := by decide
  unfold defaultName
  simp only [List.mem_append, List.mem_cons]
  rintro ((((inside | inside) | inside | inside) | inside | inside) | inside)
  · exact head inside
  · exact projectFree inside
  · exact dash inside
  · exact folderFree inside
  · exact dash inside
  · exact todayFree inside
  · exact tail inside

end Document

theorem Dialect.slash_notMem_folder (d : Dialect) : '/' ∉ d.folder := by
  cases d <;> decide

/-- The entry is a file with the name of a document. -/
def isDocument (n : Text) (e : Entry) : Bool := e.isFile && Document.isDefaultName n

theorem overlooks_isDocument : Overlooks isDocument where
  folders n es dropped := by simp [isDocument, Entry.isFile] at dropped
  files n content dropped := by simpa [isDocument, Entry.isFile] using dropped
  links n target := rfl

variable {e c : Entry} {es : List (Text × Entry)} {s : List Text} {n : Text}

theorem isDocument_of_mem_entries {q : Text × Entry} (member : q ∈ e.entries) (m : Text) :
    isDocument m e = false := by
  cases e with
  | folder es => rfl
  | _ => cases member

theorem keeps_of_get? (found : e.get? s = some c)
    (last : ∀ n, s.getLast? = some n → isDocument n c = false) : e.Keeps isDocument s := by
  induction s generalizing e with
  | nil => trivial
  | cons m s ih =>
    intro d child
    obtain ⟨d', child', rest⟩ := Option.bind_eq_some_iff.mp found
    obtain rfl := Option.some.inj (child'.symm.trans child)
    cases s with
    | nil =>
      obtain rfl := Option.some.inj rest
      exact ⟨last m rfl, trivial⟩
    | cons k s =>
      refine ⟨?_, ih rest last⟩
      obtain ⟨f, inner, _⟩ := Option.bind_eq_some_iff.mp rest
      exact isDocument_of_mem_entries (mem_of_child? inner) m

theorem isDefaultName_of_avoids {q : Text → Bool} (avoids : Avoids q) (passes : q n = true) :
    Document.isDefaultName n = false := by
  rw [← Bool.not_eq_true]
  intro document
  exact avoids n passes (getLast?_of_isDefaultName document)

theorem unprobed_isDocument (e : Entry) : Unprobed isDocument e where
  script q _ dropped := by
    obtain ⟨m, c⟩ := q
    cases c with
    | file content => rfl
    | _ => cases dropped
  router _ _ _ _ q _ r within router := by
    refine ⟨isDocument_of_mem_entries within q.1, ?_⟩
    rw [isDocument, isDefaultName_of_avoids avoids_namesRouter router, Bool.and_false]
  table _ _ _ _ folders file holds := by
    obtain ⟨content, found⟩ := holds.file
    refine keeps_of_get? found fun n last => ?_
    rw [List.getLast?_concat] at last
    obtain rfl := Option.some.inj last
    exact isDefaultName_of_avoids avoids_isScript holds.script
  settings c _ := by
    rw [isDocument, show Document.isDefaultName configName = false by decide, Bool.and_false]

/-! ### The project after a document was written -/

section Written

variable {t t' : Tree} {place : Place}

/-- A tree after a document was written in the folder that it is seen from. -/
structure Wrote (t t' : Tree) (name : Text) (content : Bytes) : Prop where
  here : t'.here = t.here
  tidy : t'.top.Each Tidy
  free : t'.top.Each Linkless
  same : t'.top.prune isDocument = t.top.prune isDocument
  there : t'.top.get? (t'.here ++ [name]) = some (.file content)

theorem wrote_of_write {content : Bytes} (tidy : t.top.Each Tidy) (free : t.top.Each Linkless)
    (document : Document.isDefaultName n = true) (noSlash : '/' ∉ n)
    (written : t.write ⟨[], [n]⟩ content = .ok t') : Wrote t t' n content := by
  have other {m : Text} (plain : Document.isDefaultName m = false) : n ≠ m := by
    rintro rfl
    rw [document] at plain
    cases plain
  obtain ⟨es, stands, named, old, rfl⟩ := Tree.write_ok free noSlash (other (by decide))
    ⟨other (by decide), other (by decide)⟩ written
  obtain ⟨es', altered, inside⟩ := alter_concat (n := n) stands (.file content)
  refine ⟨rfl, tidy_alter tidy stands named content, linkless_alter tidy free stands content, ?_, ?_⟩
  · refine prune_alter (fun _ _ => rfl) tidy stands named document fun d child => ?_
    rw [isDocument, old d child, document]
    rfl
  · show (t.top.alter _ _).get? _ = _
    rw [altered]
    exact inside

theorem Wrote.stands {content : Bytes} (wrote : Wrote t t' n content) :
    ∃ es, t'.top.get? t'.here = some (.folder es) := by
  obtain ⟨es, stands, _⟩ := folder_of_get?_concat wrote.there
  exact ⟨es, stands⟩

theorem Wrote.read {content : Bytes} (wrote : Wrote t t' n content) :
    t'.read ⟨[], [n]⟩ = .ok content := by
  obtain ⟨es, stands, child⟩ := folder_of_get?_concat wrote.there
  have here : t'.find ⟨[], []⟩ = .ok (t'.here, .folder es) := by
    rw [Tree.find_here, stands]
  have named := isName_of_get? wrote.tidy wrote.there
  rw [← get?_singleton] at child
  exact (Tree.read_below here (wrote.free.get stands) fun m member =>
    named m (List.mem_append_right _ member)).mpr child

/-- A folder shows the same project after a document was written somewhere in the tree. -/
theorem alike_of_wrote {content : Bytes} (tidy : t.top.Each Tidy) (free : t.top.Each Linkless)
    (wrote : Wrote t t' n content) (found : t.find (.absolute place) = .ok (place, e))
    (folder : e.isFolder = true) : ∃ e', Alike isDocument (.absolute place) t t' place place e e' := by
  have inside := Workspace.get?_of_find found
  have keeps : t.top.Keeps isDocument place := by
    refine keeps_of_get? inside fun n _ => ?_
    cases e with
    | folder es => rfl
    | _ => cases folder
  have pruned : (t'.top.prune isDocument).get? place = some (e.prune isDocument) := by
    rw [wrote.same, get?_prune tidy keeps, inside]
    rfl
  obtain ⟨_, e', inside', same⟩ := get?_of_prune wrote.tidy pruned
  have top : t'.find (Path.absolute []) = .ok ([], t'.top) := rfl
  have found' := Tree.find_of_get? top wrote.free (isName_of_get? tidy inside) inside'
  exact ⟨e', ⟨found, tidy.get inside, free.get inside, unprobed_isDocument e⟩,
    ⟨found', wrote.tidy.get inside', wrote.free.get inside', unprobed_isDocument e'⟩, same.symm⟩

theorem projectFilesIn_eq {root : Path} {place' : Place} {e' : Entry}
    (alike : Alike isDocument root t t' place place' e e') :
    Survey.projectFilesIn t root = Survey.projectFilesIn t' root := by
  have avoids : Avoids (Text.endsWith ".csproj") := avoids_endsWith (by decide) (by decide)
  have shown {t : Tree} {place : Place} {e : Entry} (shows : Shows isDocument t root place e) :
      Survey.projectFilesIn t root =
        ((e.prune isDocument).entries.map Prod.fst).filter (Text.endsWith ".csproj") := by
    rw [Survey.projectFilesIn, names_root shows.found, entries_prune, pruneIn_eq, List.map_map,
      List.filter_map, List.filter_map, List.filter_filter]
    refine congrArg (List.map Prod.fst) (List.filter_congr fun q _ => ?_)
    show Text.endsWith ".csproj" q.1 = (Text.endsWith ".csproj" q.1 && !isDocument q.1 q.2)
    cases project : Text.endsWith ".csproj" q.1 with
    | false => rfl
    | true => rw [isDocument, isDefaultName_of_avoids avoids project, Bool.and_false]; rfl
  rw [shown alike.first, shown alike.second, alike.same]

theorem settings_eq {w w' : Workspace} {root : Path} {place' : Place} {e' : Entry}
    (alike : Alike isDocument root w.tree w'.tree place place' e e')
    (environment : w'.environment = w.environment) (surface : Surface) (c : Config)
    (host scheme : Option Text) : Document.Settings.resolve w' root surface c host scheme =
      Document.Settings.resolve w root surface c host scheme := by
  have manifest : Manifest.load w'.tree root surface = Manifest.load w.tree root surface := by
    cases surface with
    | web =>
      have known : ("package.json" : Text) ∈ lookedAt := by decide
      rw [Manifest.load, Manifest.load, alike.readObject_eq overlooks_isDocument known]
    | dotnet =>
      have known : ("appsettings.json" : Text) ∈ lookedAt := by decide
      rw [Manifest.load, Manifest.load, alike.readObject_eq overlooks_isDocument known]
  unfold Document.Settings.resolve Workspace.valueOf?
  rw [manifest, environment]

end Written

/-! ### The course of a publication -/

namespace Survey

open Run

variable {r : Request} {s s' : Session} {v : Survey} {p : Path} {text name : Text}

def generatedRecord (p : Path) : Log.Record :=
  ⟨.info, .orchestrator, "OpenAPI spec generated: " ++ p.text⟩

def countRecord (a : Atlas) : Log.Record :=
  ⟨.info, .orchestrator, "Found " ++ Decimal.natText a.size ++ " endpoints"⟩

/-- A document is written to a path, below folders that are made if they are missing. -/
def Writes (t : Tree) (p : Path) (text : Text) (t' : Tree) : Prop :=
  ∃ mid, t.makeFolders p.parent = (mid, none) ∧ mid.write p (Text.utf8 text) = .ok t'

theorem ends_write {u : Unit} : Ends (write p text) s u s' ↔
    ∃ t, Writes s.space.tree p text t ∧ s' = s.withTree t := by
  rw [write, ends_bind]
  simp only [ends_makeFolders, ends_change]
  constructor
  · rintro ⟨_, _, ⟨mid, made, rfl⟩, t, written, rfl⟩
    exact ⟨t, ⟨mid, made, written⟩, rfl⟩
  · rintro ⟨t, ⟨mid, made, written⟩, rfl⟩
    exact ⟨(), _, ⟨mid, made, rfl⟩, t, written, rfl⟩

/-- A document that is one name is written in the folder that the tree is seen from. -/
theorem writes_here {t t' : Tree} : Writes t ⟨[], [name]⟩ text t' ↔
    (∃ es, t.top.get? t.here = some (.folder es)) ∧
      t.write ⟨[], [name]⟩ (Text.utf8 text) = .ok t' := by
  have parent : (Path.mk [] [name]).parent = ⟨[], []⟩ := rfl
  rw [Writes, parent]
  simp only [Tree.makeFolders_here]
  constructor
  · rintro ⟨_, ⟨rfl, stands⟩, written⟩
    exact ⟨stands, written⟩
  · rintro ⟨stands, written⟩
    exact ⟨t, ⟨rfl, stands⟩, written⟩

/-- A survey is about the root that it was asked for, gives the traits that are gathered there, and does
nothing but report. -/
theorem facts_of_take {root : Path} {surface : Surface} {workers : Option Int} {c : Config}
    (taken : Ends (take root surface workers (pure c)) s v s') :
    v.root = root ∧ gather (s.report (analyzingRecord root)).space.tree root = .ok v.traits ∧
      ∃ rs, s' = s.reportAll rs := by
  obtain ⟨_, mid, traits, configured, gathered, rest⟩ := ends_take.mp taken
  obtain ⟨rfl, rfl⟩ := ends_pure.mp configured
  have start (rs : List Log.Record) : (s.report (analyzingRecord root)).reportAll rs =
      s.reportAll (analyzingRecord root :: rs) := rfl
  dsimp only at rest
  rw [start] at rest
  split at rest
  · obtain ⟨_, _, _, _, _, rfl, rfl⟩ := ends_readRoutes.mp rest
    exact ⟨rfl, gathered, _, (Session.reportAll_append ..).symm⟩
  · obtain ⟨rfl, rfl⟩ := rest
    exact ⟨rfl, gathered, _, rfl⟩

/-- A publication that writes a document looks for the project and its settings, surveys it and writes
what it found. -/
theorem ends_publish (quiet : s.logFile = none) : Ends (publish r) s (v, some p) s' ↔
    ∃ root c rs rs' atlas settings t, s.space.projectRoot r.path = .ok root ∧
      Ends (configFor root) s c (s.reportAll rs) ∧
      Ends (take root r.surface r.workers (pure c)) (s.reportAll rs) v (s.reportAll (rs ++ rs')) ∧
      v.atlas? = some atlas ∧
      Document.Settings.resolve s.space root r.surface c r.host r.scheme = .ok settings ∧
      s.space.expand (target r v s.space.today) = .ok p ∧
      Writes s.space.tree p (Document.text atlas settings) t ∧
      s' = (s.withTree t).reportAll (rs ++ rs' ++ [generatedRecord p, countRecord atlas]) := by
  have final (rs qs : List Log.Record) (t : Tree) : ((s.reportAll rs).withTree t).reportAll qs =
      (s.withTree t).reportAll (rs ++ qs) := by
    rw [Session.withTree_reportAll quiet, Session.reportAll_append]
  have space (rs : List Log.Record) : (s.reportAll rs).space = s.space :=
    Session.reportAll_space_of_no_logFile quiet rs
  rw [publish]
  simp only [ends_bind, ends_look]
  constructor
  · rintro ⟨root, _, ⟨found, rfl⟩, c, _, configured, v', _, taken, ended⟩
    obtain ⟨rs, _, rfl⟩ := ends_settingsFor (show Ends (settingsFor none root) _ c _ from configured)
    obtain ⟨_, _, rs', rfl⟩ := facts_of_take taken
    rw [← Session.reportAll_append] at taken ended
    split at ended
    · split at ended
      · obtain ⟨_, _, _, ended⟩ := ends_bind.mp ended
        cases (ends_pure.mp ended).1
      · obtain ⟨_, _, _, ended⟩ := ends_bind.mp ended
        cases (ends_pure.mp ended).1
    · rename_i atlas known
      simp only [ends_bind, ends_look, ends_tell, ends_pure, ends_write] at ended
      obtain ⟨settings, _, ⟨resolved, rfl⟩, path, _, ⟨expanded, rfl⟩, _, _, ⟨t, written, rfl⟩, _, _, rfl,
        _, _, rfl, same, rfl⟩ := ended
      cases same
      rw [space] at resolved expanded written
      exact ⟨root, c, rs, rs', atlas, settings, t, found, configured, taken, known, resolved, expanded,
        written, final _ [generatedRecord p, countRecord atlas] t⟩
  · rintro ⟨root, c, rs, rs', atlas, settings, t, found, configured, taken, known, resolved,
      expanded, written, rfl⟩
    refine ⟨root, s, ⟨found, rfl⟩, c, _, configured, v, _, taken, ?_⟩
    rw [known]
    simp only [ends_bind, ends_look, ends_tell, ends_pure, ends_write]
    rw [← space (rs ++ rs')] at resolved expanded written
    exact ⟨settings, _, ⟨resolved, rfl⟩, p, _, ⟨expanded, rfl⟩, (), _, ⟨t, written, rfl⟩,
      (), _, rfl, (), _, rfl, rfl, final _ [generatedRecord p, countRecord atlas] t⟩

/-- Unless another path is given, the document is written in the folder that the tree is seen from. -/
theorem expand_target {today : Text} (unset : r.output.getD [] = []) (named : '/' ∉ v.root.name)
    (dated : '/' ∉ today) : ∃ name, Document.isDefaultName name = true ∧ '/' ∉ name ∧
      ∀ w : Workspace, w.expand (target r v today) = .ok ⟨[], [name]⟩ := by
  have noSlash := Document.slash_notMem_defaultName named v.dialect.slash_notMem_folder dated
  refine ⟨_, Document.isDefaultName_defaultName, noSlash, fun w => ?_⟩
  have target_eq : target r v today =
      .ofText (Document.defaultName v.root.name v.dialect.folder today) := by
    unfold target
    split
    · rename_i given
      rw [given] at unset
      cases unset
    · rfl
  -- The name starts with a letter, and so it does not ask for a home folder.
  have started : ∃ rest, Document.defaultName v.root.name v.dialect.folder today = 's' :: rest :=
    ⟨_, rfl⟩
  obtain ⟨rest, start⟩ := started
  rw [start] at target_eq noSlash ⊢
  have segments : Path.segmentsOf ('s' :: rest) = ['s' :: rest] := by
    rw [Path.segmentsOf, Text.split_of_notMem noSlash]
    simp
  rw [target_eq, Path.ofText, segments]
  rfl

/-- A project that is published in one session is published in another one where it is alike, if the
document can be written there. -/
theorem publish_alike {s₂ : Session} {place : Place} {e e' : Entry} {c : Config}
    {rs rs' : List Log.Record} {atlas : Atlas} {settings : Document.Settings} {t₂ : Tree}
    (quiet : s.logFile = none) (quiet₂ : s₂.logFile = none)
    (alike : Alike isDocument (.absolute place) s.space.tree s₂.space.tree place place e e')
    (tidy : s.space.tree.top.Each Tidy) (tidy₂ : s₂.space.tree.top.Each Tidy)
    (folder : e.isFolder = true) (environment : s₂.space.environment = s.space.environment)
    (resolved : s₂.space.projectRoot r.path = .ok (.absolute place))
    (configured : Ends (configFor (.absolute place)) s c (s.reportAll rs))
    (taken : Ends (take (.absolute place) r.surface r.workers (pure c)) (s.reportAll rs) v
      (s.reportAll (rs ++ rs')))
    (known : v.atlas? = some atlas)
    (settled : Document.Settings.resolve s.space (.absolute place) r.surface c r.host r.scheme =
      .ok settings)
    (expanded : s₂.space.expand (target r v s₂.space.today) = .ok p)
    (written : Writes s₂.space.tree p (Document.text atlas settings) t₂) :
    Ends (publish r) s₂ (v, some p) ((s₂.withTree t₂).reportAll
      (rs ++ rs' ++ [generatedRecord p, countRecord atlas])) := by
  have quiet₁ : (s.reportAll rs).logFile = none := (Session.reportAll_logFile s rs).trans quiet
  have quiet₂' : (s₂.reportAll rs).logFile = none := (Session.reportAll_logFile s₂ rs).trans quiet₂
  obtain ⟨qs, same, configured₂⟩ :=
    configFor_alike (Config.load_alike alike tidy tidy₂ folder) c _ configured
  obtain rfl := Session.reportAll_inj.mp same
  have alike₁ : Alike isDocument (.absolute place) (s.reportAll rs).space.tree
      (s₂.reportAll rs).space.tree place place e e' := by
    rw [Session.reportAll_space_of_no_logFile quiet, Session.reportAll_space_of_no_logFile quiet₂]
    exact alike
  have sameFiles := projectFilesIn_eq alike₁
  obtain ⟨qs, same, taken₂⟩ := take_alike quiet₁ quiet₂' alike₁ overlooks_isDocument
    (fun r => endsAlike_pure c _ _) (fun _ => sameFiles) taken
  rw [Session.reportAll_append] at same
  obtain rfl := Session.reportAll_inj.mp same
  rw [← sameFiles, ← Session.reportAll_append] at taken₂
  have unchanged : v.withProjectFiles (projectFilesIn (s.reportAll rs).space.tree (.absolute place)) =
      v := by
    obtain ⟨_, gathered, _⟩ := facts_of_take taken
    rw [Session.report_of_no_logFile quiet₁] at gathered
    have files := (gather_iff.mp gathered).projects
    rw [withProjectFiles, projectFilesIn, ← files]
  rw [unchanged] at taken₂
  exact (ends_publish quiet₂).mpr ⟨_, c, rs, rs', atlas, settings, t₂, resolved, configured₂, taken₂,
    known, (settings_eq alike environment ..).trans settled, expanded, written, rfl⟩

/-- A document that is written under its default name does not count for the next survey: a second
publication gives the same survey, makes the same reports and leaves the same files. No file may keep the
reports, for such a file would grow. -/
theorem publish_again (quiet : s.logFile = none) (tidy : s.space.tree.top.Each Tidy)
    (free : s.space.tree.top.Each Linkless) (dated : '/' ∉ s.space.today)
    (unset : r.output.getD [] = []) (published : Ends (publish r) s (v, some p) s') :
    ∃ atlas settings rs, v.atlas? = some atlas ∧
      s'.space.tree.read p = .ok (Text.utf8 (Document.text atlas settings)) ∧
      s'.log = s.log ++ rs ∧ Ends (publish r) s' (v, some p) (s'.reportAll rs) ∧
      (s'.reportAll rs).space = s'.space := by
  obtain ⟨root, c, rs, rs', atlas, settings, t', resolved, configured, taken, known, settled, expanded,
    written, rfl⟩ := (ends_publish quiet).mp published
  obtain ⟨_, _, _, _, _, stood, _⟩ := Workspace.projectRoot_iff.mp resolved
  obtain ⟨rfl, _⟩ := facts_of_take taken
  -- The path of the document is one name, and so it lies in the folder that the tree is seen from.
  obtain ⟨name, document, noSlash, target_eq⟩ :=
    expand_target unset (Tree.slash_notMem_name tidy free stood) dated
  obtain rfl := Except.ok.inj ((target_eq s.space).symm.trans expanded)
  obtain ⟨⟨es, stands⟩, written⟩ := writes_here.mp written
  have wrote := wrote_of_write tidy free document noSlash written
  obtain ⟨place, e, root, found, folder⟩ := Workspace.root_of_projectRoot tidy free stands resolved
  rw [root] at resolved configured taken settled
  obtain ⟨e', alike⟩ := alike_of_wrote tidy free wrote found folder
  let records := rs ++ rs' ++ [generatedRecord ⟨[], [name]⟩, countRecord atlas]
  let s₂ : Session := { s.withTree t' with log := s.log ++ records }
  have after : (s.withTree t').reportAll records = s₂ :=
    Session.reportAll_of_no_logFile (s := s.withTree t') quiet records
  obtain ⟨es', stands'⟩ := wrote.stands
  have quiet₂ : s₂.logFile = none := quiet
  have environment : s₂.space.environment = s.space.environment := rfl
  have resolved₂ : s₂.space.projectRoot r.path = .ok (.absolute place) :=
    Workspace.projectRoot_of_find environment wrote.here free wrote.free stands stands' resolved
      alike.second.found (alike.isFolder folder)
  have written₂ : Writes t' ⟨[], [name]⟩ (Document.text atlas settings) t' :=
    writes_here.mpr ⟨wrote.stands, Tree.write_again wrote.tidy wrote.free wrote.there⟩
  have published₂ := publish_alike quiet quiet₂ alike tidy wrote.tidy folder environment
    resolved₂ configured taken known settled (target_eq s₂.space) written₂
  rw [after]
  exact ⟨atlas, settings, records, known, wrote.read, rfl, published₂,
    Session.reportAll_space_of_no_logFile quiet₂ records⟩

theorem publish_again_shop : (sessionIn plainShop).logFile = none ∧ plainShop.Each Tidy ∧
    plainShop.Each Linkless ∧ '/' ∉ (sessionIn plainShop).space.today ∧
    ∃ v p s' rs, v.files = (["routes/users.js"] : List Text) ∧
      Ends (publish { path := "/" }) (sessionIn plainShop) (v, some p) s' ∧
      Ends (publish { path := "/" }) s' (v, some p) (s'.reportAll rs) ∧
      (s'.reportAll rs).space = s'.space := by
  have tidy : plainShop.Each Tidy := by decide
  have free : plainShop.Each Linkless := by decide
  have dated : '/' ∉ (sessionIn plainShop).space.today := by decide
  have written : endsWith (publish { path := "/" }) (sessionIn plainShop)
      (fun out => out.1.files == (["routes/users.js"] : List Text) && out.2.isSome) = true := by
    decide +kernel
  obtain ⟨⟨v, path⟩, s', ended, test⟩ := exists_of_endsWith written
  obtain ⟨files, present⟩ := (Bool.and_eq_true _ _).mp test
  obtain ⟨p, rfl⟩ := Option.isSome_iff_exists.mp present
  obtain ⟨_, _, rs, _, _, _, again, same⟩ := publish_again rfl tidy free dated rfl ended
  exact ⟨rfl, tidy, free, dated, v, p, s', rs, eq_of_beq files, ended, again, same⟩

end Survey
end RouteAtlas
