import RouteAtlas.Project.Gathering
import RouteAtlas.Proofs.Tree.Lookup
import RouteAtlas.Proofs.Tree.Walking

/-!
# What can end the gathering

The gathering of traits looks at paths that are known beforehand and at the entries of a few folders.
`Culprit` says which of these a failure can name; `gather_or_culprit` says that every other tree gives
its traits, and that only links are to blame.
-/

namespace RouteAtlas

/-! ### Steps and the paths that they blame -/

section Blame

variable {α β : Type} {P : Path → Fault → Prop}

/-- Where the step fails, the failure names a path for which `P` holds. -/
def Blames (P : Path → Fault → Prop) (step : Except Failure α) : Prop :=
  ∀ failure, step = .error failure → ∃ p f, failure = .file f p.text ∧ P p f

theorem blames_ok (a : α) : Blames P (.ok a) := by
  intro failure failed
  cases failed

theorem blames_bind {step : Except Failure α} {next : α → Except Failure β} (first : Blames P step)
    (rest : ∀ a, Blames P (next a)) : Blames P (step >>= next) := by
  intro failure failed
  cases ended : step with
  | error f =>
    rw [ended] at failed
    cases failed
    exact first failure ended
  | ok a =>
    rw [ended] at failed
    exact rest a failure failed

theorem blames_on {p : Path} {operation : Except Fault α}
    (blamed : ∀ f, operation = .error f → P p f) : Blames P (Failure.on p operation) := by
  intro failure failed
  cases operation with
  | ok a => cases failed
  | error f =>
    cases failed
    exact ⟨p, f, rfl, blamed f rfl⟩

theorem blames_filterAuxM {l : List α} {test : α → Except Failure Bool}
    (each : ∀ a ∈ l, Blames P (test a)) (done : List α) :
    Blames P (List.filterAuxM test l done) := by
  induction l generalizing done with
  | nil => exact blames_ok done
  | cons a l ih =>
    rw [List.filterAuxM]
    apply blames_bind (each a List.mem_cons_self)
    intro chosen
    exact ih (fun b hb => each b (List.mem_cons_of_mem a hb)) _

theorem blames_filterM {l : List α} {test : α → Except Failure Bool}
    (each : ∀ a ∈ l, Blames P (test a)) : Blames P (l.filterM test) :=
  blames_bind (blames_filterAuxM each []) fun kept => blames_ok kept.reverse

theorem blames_mapM {l : List α} {step : α → Except Failure β}
    (each : ∀ a ∈ l, Blames P (step a)) : Blames P (l.mapM step) := by
  induction l with
  | nil => exact blames_ok []
  | cons a l ih =>
    rw [List.mapM_cons]
    apply blames_bind (each a List.mem_cons_self)
    intro b
    apply blames_bind (ih fun c hc => each c (List.mem_cons_of_mem a hc))
    intro bs
    exact blames_ok (b :: bs)

theorem blames_findFirst {l : List α} {property : α → Except Failure Bool}
    (each : ∀ a ∈ l, Blames P (property a)) : Blames P (Traits.findFirst property l) := by
  induction l with
  | nil => exact blames_ok none
  | cons a l ih =>
    unfold Traits.findFirst
    apply blames_bind (each a List.mem_cons_self)
    intro holds
    split
    · exact blames_ok (some a)
    · exact ih fun b hb => each b (List.mem_cons_of_mem a hb)

end Blame

namespace Tree

variable {t : Tree} {p : Path} {f : Fault}

theorem find_of_test {property : Entry → Bool} (failed : t.test p property = .error f) :
    t.find p = .error .nameTooLong ∧ f = .nameTooLong := by
  unfold test at failed
  split at failed
  · cases failed
  · cases failed
    exact ⟨‹_›, rfl⟩
  · cases failed

theorem find_of_testEntry {property : Entry → Bool} (failed : t.testEntry p property = .error f) :
    t.find p = .error f ∧ f ≠ .missing := by
  unfold testEntry at failed
  split at failed
  · cases failed
  · cases failed
  · rename_i other found
    cases failed
    refine ⟨found, ?_⟩
    rintro rfl
    exact other rfl

theorem find_of_files {w : Walk} (failed : t.files p w = .error f) :
    t.find p = .error .nameTooLong ∧ f = .nameTooLong := by
  unfold files at failed
  split at failed
  · cases failed
  · rename_i h
    cases failed
    unfold find
    rw [h]
    exact ⟨rfl, rfl⟩
  · cases failed

end Tree

namespace Traits

open Entry

variable {t : Tree} {root : Path} {place : Place} {e : Entry}

/-- The paths below a root that are looked at in every project. -/
def knownPaths : List Text :=
  [] :: "Program.cs" :: "package.json" :: "manage.py" ::
    (landmarks ++ foreignKinds.map Prod.fst ++ autoFiles ++ autoFolders)

/-- The folders whose entries are looked at one by one. -/
def listedFolders (root : Path) : List Path := root :: moduleFolders.map root.sub

/-- What a failed gathering may blame: a known path that leads to a name too long to exist, or an
entry of a listed folder that leads neither to an entry nor to nothing. -/
inductive Culprit (t : Tree) (root : Path) : Path → Fault → Prop where
  | known {path : Text} (looked : path ∈ knownPaths)
    (fails : t.find (root.sub path) = .error .nameTooLong) :
    Culprit t root (root.sub path) .nameTooLong
  | script {name : Text} (listed : name ∈ t.names root)
    (fails : t.find ((root.below ⟨[], [name]⟩).sub "manage.py") = .error .nameTooLong) :
    Culprit t root ((root.below ⟨[], [name]⟩).sub "manage.py") .nameTooLong
  | listed {folder : Path} {name : Text} {f : Fault} (known : folder ∈ listedFolders root)
    (listed : name ∈ t.names folder) (fails : t.find (folder.below ⟨[], [name]⟩) = .error f)
    (astray : f ≠ .missing) : Culprit t root (folder.below ⟨[], [name]⟩) f

/-! ### Single facts -/

theorem blames_test {path : Text} (known : path ∈ knownPaths) (property : Entry → Bool) :
    Blames (Culprit t root) (Failure.on (root.sub path) (t.test (root.sub path) property)) := by
  apply blames_on
  intro f failed
  obtain ⟨fails, rfl⟩ := Tree.find_of_test failed
  exact .known known fails

theorem blames_present {path : Text} (known : path ∈ knownPaths) :
    Blames (Culprit t root) (present t root path) := blames_test known _

theorem blames_isFile {path : Text} (known : path ∈ knownPaths) :
    Blames (Culprit t root) (isFile t root path) := blames_test known _

theorem blames_walk {folder : Text} (known : folder ∈ knownPaths) (w : Tree.Walk) :
    Blames (Culprit t root) (walk t root folder w) := by
  apply blames_on
  intro f failed
  simp only [Tree.relativeFiles] at failed
  cases ended : t.files (root.sub folder) w with
  | ok files =>
    rw [ended] at failed
    cases failed
  | error f' =>
    rw [ended] at failed
    cases failed
    obtain ⟨fails, rfl⟩ := Tree.find_of_files ended
    exact .known known fails

theorem blames_testEntry {folder : Path} {name : Text} (known : folder ∈ listedFolders root)
    (listed : name ∈ t.names folder) (property : Entry → Bool) :
    Blames (Culprit t root) (Failure.on (folder.below ⟨[], [name]⟩)
      (t.testEntry (folder.below ⟨[], [name]⟩) property)) := by
  apply blames_on
  intro f failed
  obtain ⟨fails, astray⟩ := Tree.find_of_testEntry failed
  exact .listed known listed fails astray

/-! ### The gathering -/

theorem blames_readDependencies : Blames (Culprit t root) (readDependencies t root) := by
  unfold readDependencies
  apply blames_bind
  · apply blames_on
    intro f failed
    unfold Tree.readObject at failed
    cases tested : t.isFile (root.sub "package.json") with
    | ok isFile =>
      rw [tested] at failed
      cases isFile
      · cases failed
      · simp only [bind, Except.bind, if_true] at failed
        split at failed <;> cases failed
    | error f' =>
      rw [tested] at failed
      cases failed
      obtain ⟨fails, rfl⟩ := Tree.find_of_test tested
      exact .known (by decide) fails
  · intro manifest
    split
    · exact blames_ok _
    · exact blames_ok _

theorem blames_findReason (foreign : Nat) : Blames (Culprit t root) (findReason t root foreign) := by
  have manifests : ∀ kind ∈ foreignKinds, kind.1 ∈ knownPaths := by decide
  unfold findReason
  split
  · exact blames_ok _
  · apply blames_bind
    · apply blames_findFirst
      intro kind member
      exact blames_present (manifests kind member)
    · intro kind
      exact blames_ok _

theorem blames_findDjangoRoot : Blames (Culprit t root) (findDjangoRoot t root) := by
  unfold findDjangoRoot
  apply blames_bind (blames_present (by decide))
  intro isRoot
  split
  · exact blames_ok _
  · apply blames_findFirst
    intro name listed
    apply blames_bind (blames_testEntry List.mem_cons_self listed _)
    intro isFolder
    split
    · apply blames_on
      intro f failed
      obtain ⟨fails, rfl⟩ := Tree.find_of_test failed
      exact .script listed fails
    · exact blames_ok false

theorem blames_holdsRouters {folder : Path} (known : folder ∈ listedFolders root) :
    Blames (Culprit t root) (holdsRouters t folder) := by
  unfold holdsRouters
  apply blames_bind
  · apply blames_findFirst
    intro name listed
    apply blames_bind (blames_testEntry known listed _)
    intro isFolder
    split
    · exact blames_ok _
    · exact blames_ok false
  · intro found
    exact blames_ok _

theorem blames_findAutoTargets : Blames (Culprit t root) (findAutoTargets t root) := by
  have files : ∀ name ∈ autoFiles, name ∈ knownPaths := by decide
  have folders : ∀ folder ∈ autoFolders, folder ∈ knownPaths := by decide
  unfold findAutoTargets
  apply blames_bind (blames_filterM fun name member => blames_isFile (files name member))
  intro found
  apply blames_bind (blames_mapM fun folder member => blames_walk (folders folder member) _)
  intro below
  exact blames_ok _

theorem blames_programText : Blames (Culprit t root) (programText t root) := by
  unfold programText
  apply blames_bind (blames_isFile (by decide))
  intro isFile
  split
  · exact blames_ok _
  · exact blames_ok none

theorem blames_gather : Blames (Culprit t root) (gather t root) := by
  have marks : ∀ path ∈ landmarks, path ∈ knownPaths := by decide
  have listed : ∀ folder ∈ moduleFolders, root.sub folder ∈ listedFolders root := by
    intro folder member
    exact List.mem_cons_of_mem root (List.mem_map_of_mem member)
  unfold gather
  apply blames_bind (blames_filterM fun path member => blames_present (marks path member))
  intro markers
  apply blames_bind (blames_walk List.mem_cons_self _)
  intro files
  apply blames_bind blames_programText
  intro program
  apply blames_bind blames_readDependencies
  intro dependencies
  apply blames_bind (blames_findReason _)
  intro reason
  apply blames_bind blames_findDjangoRoot
  intro djangoRoot
  apply blames_bind (blames_filterM fun folder member => blames_holdsRouters (listed folder member))
  intro modules
  apply blames_bind blames_findAutoTargets
  intro targets
  apply blames_bind (blames_walk List.mem_cons_self _)
  intro controllers
  exact blames_ok _

/-! ### Links are to blame -/

theorem knownPaths_facts : ∀ path ∈ knownPaths, Path.rootOf path = [] ∧
    ∀ n ∈ Path.segmentsOf path, IsName n := by
  decide

theorem not_culprit (found : t.find root = .ok (place, e)) (tidy : e.Each Tidy)
    (free : e.Each Linkless) (p : Path) (f : Fault) : ¬Culprit t root p f := by
  have short {s : List Text} {f : Fault} (names : ∀ n ∈ s, IsName n)
      (fails : t.find (root.below ⟨[], s⟩) = .error f) : f ≠ .nameTooLong := by
    obtain ⟨_, rfl | rfl⟩ := Tree.fault_of_find found free names fails <;> exact Fault.noConfusion
  have listedNames {s : List Text} {name : Text} (names : ∀ n ∈ s, IsName n)
      (listed : name ∈ t.names (root.below ⟨[], s⟩)) :
      ∃ c, e.get? (s ++ [name]) = some c := by
    rw [Tree.names_below found free names] at listed
    cases inside : e.get? s with
    | none => simp [inside] at listed
    | some d =>
      simp only [inside, Option.map_some, Option.getD_some, List.mem_map] at listed
      obtain ⟨⟨name, c⟩, member, rfl⟩ := listed
      refine ⟨c, get?_concat inside ?_⟩
      cases tidy.get inside with
      | folder here _ => exact (child?_eq_some_iff here.ascending).mpr member
      | _ => cases member
  have here : root = root.below ⟨[], []⟩ := by simp [Path.below]
  intro culprit
  cases culprit with
  | @known path looked fails =>
    obtain ⟨relative, names⟩ := knownPaths_facts path looked
    rw [Tree.sub_relative root relative] at fails
    exact short names fails rfl
  | @script name listed fails =>
    rw [here] at listed
    obtain ⟨c, inside⟩ := listedNames (by simp) listed
    have named := isName_of_get? tidy inside
    have script : Path.segmentsOf "manage.py" = ["manage.py"] := by decide
    rw [Tree.sub_relative _ (by decide), script, Path.below_below] at fails
    refine short ?_ fails rfl
    intro n member
    rcases List.mem_cons.mp member with rfl | member
    · exact named n (by simp)
    · obtain rfl := List.mem_singleton.mp member
      decide
  | @listed folder name f known listed fails astray =>
    obtain ⟨s, rfl, names⟩ : ∃ s, folder = root.below ⟨[], s⟩ ∧ ∀ n ∈ s, IsName n := by
      rcases List.mem_cons.mp known with rfl | member
      · exact ⟨[], here, by simp⟩
      · obtain ⟨path, inside, rfl⟩ := List.mem_map.mp member
        have looked : ∀ path ∈ moduleFolders, path ∈ knownPaths := by decide
        obtain ⟨relative, names⟩ := knownPaths_facts path (looked path inside)
        exact ⟨_, Tree.sub_relative root relative, names⟩
    obtain ⟨c, inside⟩ := listedNames names listed
    have named := isName_of_get? tidy inside
    rw [Path.below_below, Tree.find_of_get? found free named inside] at fails
    cases fails

theorem exists_gather (found : t.find root = .ok (place, e)) (tidy : e.Each Tidy)
    (free : e.Each Linkless) : ∃ s, gather t root = .ok s := by
  cases ended : gather t root with
  | ok s => exact ⟨s, rfl⟩
  | error failure =>
    obtain ⟨p, f, _, culprit⟩ := blames_gather failure ended
    exact absurd culprit (not_culprit found tidy free p f)

end Traits
end RouteAtlas
