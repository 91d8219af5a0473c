import Mathlib.Data.List.Basic
import RouteAtlas.Tree.Walk
import RouteAtlas.Proofs.Text.Splitting
import RouteAtlas.Proofs.Tree.Orderly

/-!
# What a walk lists

`Lists` says which files a walk below a folder without links is to list; `mem_filesOf` and
`pairwise_filesOf` say that it lists these, each once and in the order in which an ordered tree is
searched in depth. `relativeFiles_eq` carries this over to paths.
-/

namespace RouteAtlas.Tree

open Entry

namespace Walk

variable {w : Walk} {onLink : Place → Text → Option Int → List (List Text)} {place : Place}
  {left : Option Int} {e : Entry} {s : List Text}

/-- A file below a folder that the walk is to list: no folder on the way is passed over, its name is
wanted, and it does not lie too deep. -/
structure Lists (w : Walk) (left : Option Int) (e : Entry) (folders : List Text) (name : Text) :
    Prop where
  file : ∃ content, e.get? (folders ++ [name]) = some (.file content)
  entered : ∀ f ∈ folders, w.enters f = true
  wanted : w.wanted name = true
  within : ∀ n ∈ left, (folders.length : Int) ≤ n

/-- What the walk lists at a name in a folder. -/
def filesAt (w : Walk) (onLink : Place → Text → Option Int → List (List Text)) (place : Place)
    (left : Option Int) (name : Text) : Entry → List (List Text)
  | .folder es =>
    if w.enters name then
      (w.filesOf onLink (place ++ [name]) (below left) (.folder es)).map (name :: ·)
    else []
  | .link _ => onLink place name left
  | .file _ => if w.wanted name then [[name]] else []

theorem filesIn_eq (es : List (Text × Entry)) :
    w.filesIn onLink place left es = es.flatMap fun q => w.filesAt onLink place left q.1 q.2 := by
  induction es with
  | nil => rfl
  | cons q es ih =>
    obtain ⟨name, e⟩ := q
    rw [List.flatMap_cons, ← ih]
    cases e <;> rfl

theorem lists_child {es : List (Text × Entry)} {name : Text} {folders : List Text} {n : Text}
    (ascending : (es.map Prod.fst).Pairwise (· < ·)) :
    w.Lists left (.folder es) (n :: folders) name ↔
      exhausted left = false ∧ w.enters n = true ∧
        ∃ es', (n, .folder es') ∈ es ∧ w.Lists (below left) (.folder es') folders name := by
  have bound : (∀ m ∈ left, ((n :: folders).length : Int) ≤ m) ↔
      exhausted left = false ∧ ∀ m ∈ below left, (folders.length : Int) ≤ m := by
    cases left with
    | none => simp [exhausted, below]
    | some m =>
      simp only [exhausted, below, Option.any_some, Option.map_some, Option.mem_some, forall_eq',
        decide_eq_false_iff_not, List.length_cons]
      omega
  constructor
  · rintro ⟨⟨content, found⟩, entered, wanted, within⟩
    obtain ⟨d, first, rest⟩ := Option.bind_eq_some_iff.mp found
    have shallow := bound.mp within
    obtain ⟨es', rfl⟩ : ∃ es', d = .folder es' := by
      cases folders <;>
      · obtain ⟨c, next, _⟩ := Option.bind_eq_some_iff.mp rest
        exact isFolder_of_child? next
    exact ⟨shallow.1, entered n List.mem_cons_self, es', mem_of_child? first, ⟨content, rest⟩,
      fun f hf => entered f (List.mem_cons_of_mem n hf), wanted, shallow.2⟩
  · rintro ⟨shallow, enters, es', inside, ⟨content, found⟩, entered, wanted, within⟩
    refine ⟨⟨content, ?_⟩, List.forall_mem_cons.mpr ⟨enters, entered⟩, wanted,
      bound.mpr ⟨shallow, within⟩⟩
    rw [List.cons_append, get?_cons, (child?_eq_some_iff ascending).mpr inside]
    exact found

theorem lists_here {es : List (Text × Entry)} {name : Text}
    (ascending : (es.map Prod.fst).Pairwise (· < ·)) :
    w.Lists left (.folder es) [] name ↔
      exhausted left = false ∧ w.wanted name = true ∧ ∃ content, (name, .file content) ∈ es := by
  have bound : (∀ m ∈ left, (0 : Int) ≤ m) ↔ exhausted left = false := by
    cases left <;> simp [exhausted]
  have found (content : Bytes) : (Entry.folder es).get? [name] = some (.file content) ↔
      (name, .file content) ∈ es := by
    rw [get?_singleton, child?_eq_some_iff ascending]
  constructor
  · rintro ⟨⟨content, file⟩, _, wanted, within⟩
    exact ⟨bound.mp within, wanted, content, (found content).mp file⟩
  · rintro ⟨shallow, wanted, content, inside⟩
    exact ⟨⟨content, (found content).mpr inside⟩, by simp, wanted, bound.mpr shallow⟩

/-- A walk below a folder without links lists exactly the files that it is to list. -/
theorem mem_filesOf (tidy : e.Each Tidy) (free : e.Each Linkless) {es : List (Text × Entry)}
    (folder : e = .folder es) :
    s ∈ w.filesOf onLink place left e ↔
      ∃ folders name, s = folders ++ [name] ∧ w.Lists left e folders name := by
  induction tidy generalizing s place left es with
  | file => cases folder
  | link => cases folder
  | @folder entries here below ih =>
    cases folder
    cases free with
    | folder linkless free =>
      rw [filesOf]
      by_cases shallow : exhausted left = true
      · rw [if_pos shallow]
        refine iff_of_false List.not_mem_nil ?_
        rintro ⟨folders, name, _, listed⟩
        cases folders with
        | nil => simp [((lists_here here.ascending).mp listed).1] at shallow
        | cons n folders => simp [((lists_child here.ascending).mp listed).1] at shallow
      rw [if_neg shallow, filesIn_eq, List.mem_flatMap]
      rw [Bool.not_eq_true] at shallow
      constructor
      · rintro ⟨⟨n, c⟩, inside, listed⟩
        cases c with
        | link target => cases linkless _ inside
        | file content =>
          simp only [filesAt] at listed
          split at listed
          · rename_i wanted
            exact ⟨[], n, List.mem_singleton.mp listed,
              (lists_here here.ascending).mpr ⟨shallow, wanted, content, inside⟩⟩
          · cases listed
        | folder inner =>
          simp only [filesAt] at listed
          split at listed
          · rename_i enters
            obtain ⟨more, deeper, rfl⟩ := List.mem_map.mp listed
            obtain ⟨folders, name, rfl, rest⟩ := (ih _ inside (free _ inside) rfl).mp deeper
            exact ⟨n :: folders, name, rfl,
              (lists_child here.ascending).mpr ⟨shallow, enters, inner, inside, rest⟩⟩
          · cases listed
      · rintro ⟨folders, name, rfl, listed⟩
        cases folders with
        | nil =>
          obtain ⟨_, wanted, content, inside⟩ := (lists_here here.ascending).mp listed
          exact ⟨_, inside, by simp [filesAt, wanted]⟩
        | cons n folders =>
          obtain ⟨_, enters, inner, inside, rest⟩ := (lists_child here.ascending).mp listed
          refine ⟨_, inside, ?_⟩
          simp only [filesAt, if_pos enters]
          exact List.mem_map_of_mem ((ih _ inside (free _ inside) rfl).mpr ⟨folders, name, rfl, rest⟩)

theorem eq_cons_of_mem_filesAt {name : Text} (linkless : e.isLink = false)
    (h : s ∈ w.filesAt onLink place left name e) : ∃ more, s = name :: more := by
  cases e with
  | link target => cases linkless
  | file content =>
    simp only [filesAt] at h
    split at h
    · exact ⟨[], List.mem_singleton.mp h⟩
    · cases h
  | folder es =>
    simp only [filesAt] at h
    split at h
    · obtain ⟨more, _, rfl⟩ := List.mem_map.mp h
      exact ⟨more, rfl⟩
    · cases h

/-- A walk lists files in the order of their segments: what lies in a folder stands where the folder
stands among the entries beside it. -/
theorem pairwise_filesOf (tidy : e.Each Tidy) (free : e.Each Linkless) :
    (w.filesOf onLink place left e).Pairwise (· < ·) := by
  induction tidy generalizing place left with
  | file => exact .nil
  | link => exact .nil
  | @folder es here below ih =>
    cases free with
    | folder linkless free =>
      rw [filesOf]
      split
      · exact .nil
      rw [filesIn_eq, List.pairwise_flatMap]
      constructor
      · rintro ⟨n, c⟩ inside
        cases c with
        | link target => cases linkless _ inside
        | file content =>
          simp only [filesAt]
          split
          · exact List.pairwise_singleton _ _
          · exact .nil
        | folder inner =>
          simp only [filesAt]
          split
          · refine List.Pairwise.map _ (fun a b h => ?_) (ih _ inside (free _ inside))
            exact List.cons_lt_cons_iff.mpr (.inr ⟨rfl, h⟩)
          · exact .nil
      · have ascending := List.pairwise_map.mp here.ascending
        refine ascending.imp_of_mem fun {a b} ha hb less x hx y hy => ?_
        obtain ⟨u, rfl⟩ := eq_cons_of_mem_filesAt (linkless _ ha) hx
        obtain ⟨v, rfl⟩ := eq_cons_of_mem_filesAt (linkless _ hb) hy
        exact List.cons_lt_cons_iff.mpr (.inl less)

/-- The files below a folder that holds no links. -/
def listed (w : Walk) (e : Entry) : List (List Text) := w.filesOf (fun _ _ _ => []) [] w.depth e

theorem mem_listed (tidy : e.Each Tidy) (free : e.Each Linkless) :
    s ∈ w.listed e ↔ ∃ folders name, s = folders ++ [name] ∧ w.Lists w.depth e folders name := by
  have folder {folders : List Text} {name : Text} (listed : w.Lists w.depth e folders name) :
      ∃ es, e = .folder es := by
    obtain ⟨content, file⟩ := listed.file
    cases folders <;>
    · obtain ⟨c, first, _⟩ := Option.bind_eq_some_iff.mp file
      exact isFolder_of_child? first
  cases e with
  | folder es => exact mem_filesOf tidy free rfl
  | _ =>
    refine iff_of_false List.not_mem_nil ?_
    rintro ⟨folders, name, _, listed⟩
    obtain ⟨es, same⟩ := folder listed
    cases same

/-- Neither the place of a folder nor what lies behind links matters where there are none. -/
theorem filesOf_eq (free : e.Each Linkless) :
    w.filesOf onLink place left e = w.filesOf (fun _ _ _ => []) [] left e := by
  suffices same : ∀ place', w.filesOf onLink place left e =
      w.filesOf (fun _ _ _ => []) place' left e from same []
  induction free generalizing place left with
  | file => exact fun _ => rfl
  | link => exact fun _ => rfl
  | @folder es linkless free ih =>
    intro place'
    rw [filesOf, filesOf, filesIn_eq, filesIn_eq]
    congr 1
    refine List.flatMap_congr fun q hq => ?_
    obtain ⟨n, c⟩ := q
    cases c with
    | link target => cases linkless _ hq
    | file content => rfl
    | folder inner => simp only [filesAt, ih _ hq (place' ++ [n])]

theorem filesFrom_eq (free : e.Each Linkless) (top : Entry) (depth links : Nat) :
    w.filesFrom top depth links place w.depth e = w.listed e := by
  cases depth with
  | zero => exact filesOf_eq free
  | succ depth => exact filesOf_eq free

end Walk

/-! ### Walks along paths -/

variable {t : Tree} {root : Path} {place : Place} {e : Entry}

theorem text_relative {s : List Text} (h : s ≠ []) : (Path.mk [] s).text = Text.join "/" s := by
  simp [Path.text, h]

theorem sub_relative (root : Path) {folder : Text} (relative : Path.rootOf folder = []) :
    root.sub folder = root.below ⟨[], Path.segmentsOf folder⟩ := by
  rw [Path.sub, Path.ofText, relative]

theorem relativeText_below (root : Path) (base s : List Text) :
    ((root.below ⟨[], base⟩).below ⟨[], s⟩).relativeText root = (Path.mk [] (base ++ s)).text := by
  rw [Path.below_below, Path.relativeText, Path.relativeTo?_below]
  rfl

/-- Below a folder without links, a walk lists what is below the entry at the segments, if there is
one, unless a name is too long to be looked up. -/
theorem files_below (found : t.find root = .ok (place, e)) (free : e.Each Linkless) {s : List Text}
    (straight : ∀ n ∈ s, Straight n) (noNulls : ∀ n ∈ s, '\x00' ∉ n) (short : ¬e.Exceeds s)
    (w : Walk) :
    t.files (root.below ⟨[], s⟩) w = .ok (((e.get? s).map w.listed).getD []) := by
  obtain ⟨links, arrived⟩ := arrive_of_find found
  obtain ⟨here, goes⟩ := arrive_below arrived noNulls
  rw [files, goes]
  cases inside : e.get? s with
  | some c =>
    rw [follow_found here free straight short inside]
    exact congrArg Except.ok (Walk.filesFrom_eq (free.get inside) _ _ _)
  | none =>
    rcases follow_lost here free straight short inside with ⟨_, h⟩ | h | h <;> rw [h] <;> rfl

theorem files_exceeds (found : t.find root = .ok (place, e)) (free : e.Each Linkless)
    {s : List Text} (straight : ∀ n ∈ s, Straight n) (noNulls : ∀ n ∈ s, '\x00' ∉ n)
    (exceeds : e.Exceeds s) (w : Walk) :
    t.files (root.below ⟨[], s⟩) w = .error .nameTooLong := by
  obtain ⟨links, arrived⟩ := arrive_of_find found
  obtain ⟨here, goes⟩ := arrive_below arrived noNulls
  rw [files, goes, follow_exceeds here free straight exceeds]

theorem files_null {s : List Text} (null : ¬∀ n ∈ s, '\x00' ∉ n) (w : Walk) :
    t.files (root.below ⟨[], s⟩) w = .ok [] := by
  have refused : hasNull (root.below ⟨[], s⟩) = true := by
    apply List.any_eq_true.mpr
    push Not at null
    obtain ⟨n, member, inside⟩ := null
    exact ⟨n, List.mem_append_right root.segments member, by simpa using inside⟩
  rw [files, arrive, if_pos refused]

theorem relativeFiles_of_files {folder : Text} (relative : Path.rootOf folder = []) {w : Walk}
    {listed : List (List Text)}
    (walked : t.files (root.below ⟨[], Path.segmentsOf folder⟩) w = .ok listed) :
    t.relativeFiles root folder w =
      .ok (listed.map fun s => (Path.mk [] (Path.segmentsOf folder ++ s)).text) := by
  rw [relativeFiles, sub_relative root relative, walked]
  simp only [Except.map, relativeText_below]

/-- The files of a walk below a folder of a tree without links, relative to the root. -/
theorem relativeFiles_eq (found : t.find root = .ok (place, e)) (free : e.Each Linkless)
    {folder : Text} (relative : Path.rootOf folder = [])
    (names : ∀ n ∈ Path.segmentsOf folder, IsName n) (w : Walk) :
    t.relativeFiles root folder w =
      .ok ((((e.get? (Path.segmentsOf folder)).map w.listed).getD []).map
        fun s => (Path.mk [] (Path.segmentsOf folder ++ s)).text) :=
  relativeFiles_of_files relative (files_below found free (fun n hn => (names n hn).straight)
    (fun n hn => (names n hn).noNull) (not_exceeds names) w)

end RouteAtlas.Tree
