import RouteAtlas.Proofs.Tree.Writing

/-!
# Folders in the order of their names

The entries of a folder come in any order; `arranged` puts them into the order of their names, in
which a tree keeps them, and leaves alone what stands where and what is in order already
(`arranged_of_tidy`). `files_arranged` says which files a walk lists below a folder without links, and
that it lists them in the order of their segments.
-/

namespace RouteAtlas

namespace Entry

variable {e c : Entry} {s : List Text} {n : Text}

mutual

/-- The entry with the entries of every folder in the order of their names. -/
def arranged : Entry → Entry
  | file content => file content
  | link target => link target
  | folder es => folder (arrangedIn es)

def arrangedIn : List (Text × Entry) → List (Text × Entry)
  | [] => []
  | (n, e) :: es => setEntry n (some e.arranged) (arrangedIn es)

end

/-- The entries of a folder have names that a file may have. -/
def Named (es : List (Text × Entry)) : Prop := ∀ q ∈ es, IsName q.1

instance (es : List (Text × Entry)) : Decidable (Named es) :=
  inferInstanceAs (Decidable (∀ q ∈ es, _))

theorem isLink_arranged (e : Entry) : e.arranged.isLink = e.isLink := by
  cases e with
  | folder es => rw [arranged]; rfl
  | _ => rfl

/-! ### What stands where -/

theorem child?_arranged (e : Entry) (n : Text) :
    e.arranged.child? n = (e.child? n).map arranged := by
  cases e with
  | file => rfl
  | link => rfl
  | folder es =>
    rw [arranged]
    induction es with
    | nil => rfl
    | cons q es ih =>
      obtain ⟨m, d⟩ := q
      have first : (folder ((m, d) :: es)).child? n =
          if n = m then some d else (folder es).child? n := by
        rw [child?, entries, List.lookup_cons]
        by_cases same : n = m
        · simp [same]
        · simp [same, beq_eq_false_iff_ne.mpr same, child?, entries]
      rw [arrangedIn, child?_setEntry, ih, first]
      split <;> rfl

theorem get?_arranged (e : Entry) (s : List Text) :
    e.arranged.get? s = (e.get? s).map arranged := by
  induction s generalizing e with
  | nil => rfl
  | cons n s ih =>
    rw [get?_cons, get?_cons, child?_arranged]
    cases e.child? n with
    | none => rfl
    | some d => exact ih d

theorem get?_arranged_eq_file {content : Bytes} :
    e.arranged.get? s = some (file content) ↔ e.get? s = some (file content) := by
  rw [get?_arranged]
  constructor
  · intro found
    obtain ⟨c, stands, same⟩ := Option.map_eq_some_iff.mp found
    cases c with
    | file => exact same ▸ stands
    | link => cases same
    | folder es => rw [arranged] at same; cases same
  · intro stands
    rw [stands]
    rfl

/-! ### The order -/

/-- Setting one entry after the other brings every folder to what each setting keeps. -/
theorem each_arranged {q : List (Text × Entry) → Prop} {p : Text × Entry → Prop} (start : q [])
    (step : ∀ {r es}, p r → q es → q (setEntry r.1 (some r.2.arranged) es))
    (each : e.Each fun es => ∀ r ∈ es, p r) : e.arranged.Each q := by
  induction each with
  | file content => exact .file content
  | link target => exact .link target
  | @folder es here below ih =>
    rw [arranged]
    suffices both : q (arrangedIn es) ∧ ∀ r ∈ arrangedIn es, r.2.Each q from .folder both.1 both.2
    clear below
    induction es with
    | nil => exact ⟨start, List.forall_mem_nil _⟩
    | cons r es more =>
      obtain ⟨good, later⟩ := List.forall_mem_cons.mp here
      obtain ⟨inner, others⟩ := List.forall_mem_cons.mp ih
      obtain ⟨kept, each⟩ := more later others
      refine ⟨step good kept, fun r' member => ?_⟩
      rcases mem_setEntry member with rfl | old
      · exact inner
      · exact each r' old

theorem tidy_arranged (named : e.Each Named) : e.arranged.Each Tidy :=
  each_arranged (p := fun r => IsName r.1) ⟨.nil, List.forall_mem_nil _⟩
    (fun good tidy => tidy_setEntry tidy good _) named

theorem linkless_arranged (free : e.Each Linkless) : e.arranged.Each Linkless :=
  each_arranged (p := fun r => r.2.isLink = false) (List.forall_mem_nil _)
    (fun good free => linkless_setEntry free ((isLink_arranged _).trans good)) free

/-- What is in order stays as it is. -/
theorem arranged_of_tidy (tidy : e.Each Tidy) : e.arranged = e := by
  induction tidy with
  | file => rfl
  | link => rfl
  | @folder es here below ih =>
    rw [arranged]
    refine congrArg folder ?_
    have ascending := here.ascending
    clear here below
    induction es with
    | nil => rfl
    | cons q es more =>
      obtain ⟨m, d⟩ := q
      obtain ⟨first, rest⟩ := List.pairwise_cons.mp ascending
      obtain ⟨inner, others⟩ := List.forall_mem_cons.mp ih
      rw [arrangedIn, inner, more others rest]
      cases es with
      | nil => rfl
      | cons r es =>
        have less : m < r.1 := first r.1 List.mem_cons_self
        have other : m ≠ r.1 := fun same => List.lt_irrefl m (same ▸ less)
        simp [setEntry, other, less]

end Entry

namespace Tree

open Entry

variable {t : Tree} {start : Path} {place : Place} {e : Entry}

/-- A walk lists exactly the files below the place where it starts that have a wanted name, with no
hidden folder and none of the skip list on the way and with no more folders on the way than the
depth allows. Each is listed once, in the order of the segments. The folder where the walk starts
may have any name, and the entries of the folders may come in any order. -/
theorem files_arranged (found : t.find start = .ok (place, e.arranged)) (named : e.Each Named)
    (free : e.Each Linkless) (w : Walk) :
    ∃ files, t.files start w = .ok files ∧ files.Nodup ∧ files.Pairwise (· < ·) ∧
      ∀ s, s ∈ files ↔ ∃ folders name content, s = folders ++ [name] ∧
        e.get? s = some (.file content) ∧ w.wanted name = true ∧
        (∀ f ∈ folders, f.head? ≠ some '.' ∧ f ∉ w.skip) ∧
        ∀ n ∈ w.depth, (folders.length : Int) ≤ n := by
  have tidy : e.arranged.Each Tidy := tidy_arranged named
  have linkless : e.arranged.Each Linkless := linkless_arranged free
  have ordered : (w.listed e.arranged).Pairwise (· < ·) := Walk.pairwise_filesOf tidy linkless
  have enters (f : Text) : w.enters f = true ↔ f.head? ≠ some '.' ∧ f ∉ w.skip := by
    simp [Walk.enters]
  obtain ⟨links, arrived⟩ := arrive_of_find found
  refine ⟨w.listed e.arranged, ?_, ?_, ordered, fun s => ?_⟩
  · rw [files, arrived]
    exact congrArg Except.ok (Walk.filesFrom_eq linkless _ _ _)
  · refine ordered.imp fun {a b} less => ?_
    rintro rfl
    exact List.lt_irrefl a less
  · rw [Walk.mem_listed tidy linkless]
    constructor
    · rintro ⟨folders, name, rfl, ⟨content, file⟩, entered, wanted, within⟩
      exact ⟨folders, name, content, rfl, get?_arranged_eq_file.mp file, wanted,
        fun f member => (enters f).mp (entered f member), within⟩
    · rintro ⟨folders, name, content, rfl, file, wanted, entered, within⟩
      exact ⟨folders, name, rfl, ⟨content, get?_arranged_eq_file.mpr file⟩,
        fun f member => (enters f).mpr (entered f member), wanted, within⟩

/-- A folder as it may be listed. By the texts of the paths `a-b.ts` would come before `a/z.ts`. -/
def unordered : Entry := .folder [
  ("a-b.ts", .file []),
  (".git", .folder [("c.ts", .file [])]),
  ("a", .folder [("z.ts", .file []), ("deep", .folder [("d.ts", .file [])])])]

theorem files_arranged_unordered :
    (Tree.mk unordered.arranged []).find ⟨"/", []⟩ = .ok ([], unordered.arranged) ∧
      unordered.Each Named ∧ unordered.Each Linkless ∧
      ∃ files, (Tree.mk unordered.arranged []).files ⟨"/", []⟩ { depth := some 1 } = .ok files ∧
        files.Pairwise (· < ·) ∧ (["a", "z.ts"] : List Text) ∈ files ∧
        (["a-b.ts"] : List Text) ∈ files ∧ ([".git", "c.ts"] : List Text) ∉ files ∧
        (["a", "deep", "d.ts"] : List Text) ∉ files := by
  have found : (Tree.mk unordered.arranged []).find ⟨"/", []⟩ = .ok ([], unordered.arranged) := rfl
  have named : unordered.Each Named := by decide
  have free : unordered.Each Linkless := by decide
  obtain ⟨files, listed, _, ordered, exact⟩ :=
    files_arranged found named free { depth := some 1 }
  have split {folders folders' : List Text} {n n' : Text}
      (same : folders ++ [n] = folders' ++ [n']) : folders = folders' :=
    (List.append_inj' same rfl).1
  refine ⟨found, named, free, files, listed, ordered, ?_, ?_, fun member => ?_, fun member => ?_⟩
  · exact (exact _).mpr ⟨["a"], "z.ts", [], rfl, rfl, rfl, by decide, by decide⟩
  · exact (exact _).mpr ⟨[], "a-b.ts", [], rfl, rfl, rfl, by decide, by decide⟩
  · obtain ⟨folders, name, content, whole, _, _, entered, _⟩ := (exact _).mp member
    obtain rfl : ([".git"] : List Text) = folders := split (n := "c.ts") whole
    exact (entered ".git" List.mem_cons_self).1 rfl
  · obtain ⟨folders, name, content, whole, _, _, _, within⟩ := (exact _).mp member
    obtain rfl : (["a", "deep"] : List Text) = folders := split (n := "d.ts") whole
    exact absurd (within 1 rfl) (by decide)

end Tree
end RouteAtlas
