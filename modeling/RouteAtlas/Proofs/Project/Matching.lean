import Mathlib.Data.List.Sort
import RouteAtlas.Proofs.Project.Candidates
import RouteAtlas.Proofs.Tree.Lookup

/-!
# Files that match a pattern

The files that a pattern matches are looked for below its base. `prefix_of_accepts` says that every
path that the pattern accepts lies there, and `matching_eq_filter` that nothing is lost in a tree
without links, unless the base itself cannot be looked up.
-/

namespace RouteAtlas

open Text

namespace Glob

variable {pattern path : Text}

/-- The base of a pattern and a slash stand in front of all wildcards and groups. -/
theorem base_prefix (nonempty : base pattern ≠ []) : ∃ rest,
    Tree.plain pattern = (base pattern ++ ['/']) ++ rest ∧
      ∀ c ∈ base pattern ++ ['/'], c ≠ '*' ∧ c ≠ '?' ∧ c ≠ '{' := by
  let literal (c : Char) : Bool := decide (c ≠ '*' ∧ c ≠ '?' ∧ c ≠ '{')
  let fixed := (Tree.plain pattern).takeWhile literal
  cases cut : fixed.reverse.dropWhile (· ≠ '/') with
  | nil =>
    have known : base pattern = [] := by
      unfold base
      dsimp only
      rw [cut]
    exact absurd known nonempty
  | cons slash front =>
    have known : base pattern = front.reverse := by
      unfold base
      dsimp only
      rw [cut]
    have first := List.head?_dropWhile_not (· ≠ '/') fixed.reverse
    rw [cut] at first
    obtain rfl : slash = '/' := by simpa using first
    let last := (fixed.reverse.takeWhile (· ≠ '/')).reverse
    have parts : fixed = (base pattern ++ ['/']) ++ last := by
      have whole := List.takeWhile_append_dropWhile (p := (· ≠ '/')) (l := fixed.reverse)
      rw [cut] at whole
      rw [known, ← List.reverse_reverse fixed, ← whole]
      simp [last]
    refine ⟨last ++ (Tree.plain pattern).dropWhile literal, ?_, fun c hc => ?_⟩
    · rw [← List.append_assoc, ← parts]
      exact List.takeWhile_append_dropWhile.symm
    · have inside : c ∈ fixed := parts ▸ List.mem_append_left last hc
      exact of_decide_eq_true (List.mem_takeWhile_imp (p := literal) inside)

theorem ofPattern_eq (general : ¬DecidedByName pattern) :
    Matcher.ofPattern pattern = .glob (read (Tree.plain pattern)) :=
  if_neg fun h => general ((Bool.and_eq_true _ _).mp h)

theorem prefix_of_accepts (general : ¬DecidedByName pattern) (nonempty : base pattern ≠ [])
    (accepted : (Matcher.ofPattern pattern).accepts path = true) :
    base pattern ++ ['/'] <+: Tree.plain path := by
  rw [ofPattern_eq general] at accepted
  have inside : (read (Tree.plain pattern)).Language (Tree.plain path) := accepts_iff.mp accepted
  obtain ⟨rest, whole, literal⟩ := base_prefix nonempty
  rw [whole, language_read_append literal] at inside
  obtain ⟨u, same, _⟩ := inside
  exact ⟨u, same.symm⟩

end Glob

namespace Candidates

open Entry

variable {t : Tree} {root : Path} {place : Place} {e : Entry} {s : List Text} {folder : Text}

/-! ### Walks below a base -/

/-- No path can be looked up below the entry that begins with the segments: they lead to a name that
is too long. Null characters are noticed before. -/
def Overlong (e : Entry) (s : List Text) : Prop := (∀ n ∈ s, '\x00' ∉ n) ∧ e.Exceeds s

theorem walk_below (found : t.find root = .ok (place, e)) (tidy : e.Each Tidy)
    (free : e.Each Linkless) (relative : Path.rootOf folder = [])
    (straight : ∀ n ∈ Path.segmentsOf folder, Straight n)
    (short : ¬Overlong e (Path.segmentsOf folder)) :
    Traits.walk t root folder {} =
      .ok ((filesBelow (Path.segmentsOf folder) e).map (join "/")) := by
  have listed : t.files (root.below ⟨[], Path.segmentsOf folder⟩) {} =
      .ok (((e.get? (Path.segmentsOf folder)).map ({} : Tree.Walk).listed).getD []) := by
    by_cases noNulls : ∀ n ∈ Path.segmentsOf folder, '\x00' ∉ n
    · exact Tree.files_below found free straight noNulls (fun long => short ⟨noNulls, long⟩) {}
    · have absent : e.get? (Path.segmentsOf folder) = none := by
        rw [Option.eq_none_iff_forall_ne_some]
        intro c inside
        exact noNulls fun n member => (isName_of_get? tidy inside n member).noNull
      rw [absent]
      exact Tree.files_null noNulls {}
  rw [Traits.walk, Tree.relativeFiles_of_files relative listed, filesBelow, List.map_map]
  refine congrArg Except.ok (List.map_congr_left fun u member => Tree.text_relative ?_)
  cases inside : e.get? (Path.segmentsOf folder) with
  | none => simp [inside] at member
  | some c =>
    rw [inside] at member
    obtain ⟨folders, name, rfl, _⟩ :=
      (({} : Tree.Walk).mem_listed (tidy.get inside) (free.get inside)).mp member
    simp

theorem walk_overlong (found : t.find root = .ok (place, e)) (free : e.Each Linkless)
    (relative : Path.rootOf folder = []) (straight : ∀ n ∈ Path.segmentsOf folder, Straight n)
    (long : Overlong e (Path.segmentsOf folder)) (w : Tree.Walk) :
    Traits.walk t root folder w = .error (.file .nameTooLong (root.sub folder).text) := by
  have failed := Tree.files_exceeds found free straight long.1 long.2 w
  rw [Traits.walk, Tree.relativeFiles, Tree.sub_relative root relative, failed]
  rfl

theorem walk_root (found : t.find root = .ok (place, e)) (tidy : e.Each Tidy)
    (free : e.Each Linkless) : Traits.walk t root [] {} = .ok ((filesBelow [] e).map (join "/")) :=
  walk_below found tidy free rfl (fun _ member => by cases member) fun long =>
    not_exceeds (fun _ member => by cases member) long.2

/-! ### What a base leaves out -/

/-- A segment that a walk enters as a folder. -/
def IsEntered (n : Text) : Prop :=
  n ≠ [] ∧ n.head? ≠ some '.' ∧ n ≠ ("node_modules" : Text) ∧ n ≠ ("__pycache__" : Text)

instance (n : Text) : Decidable (IsEntered n) := inferInstanceAs (Decidable (_ ∧ _))

theorem IsEntered.straight {n : Text} (entered : IsEntered n) : Straight n := by
  obtain ⟨nonempty, shown, _⟩ := entered
  refine ⟨nonempty, ?_, ?_⟩ <;>
  · rintro rfl
    exact shown rfl

/-- A folder that is empty or consists of entered segments is looked up segment by segment. -/
theorem entered_facts (entered : folder = [] ∨ ∀ n ∈ split '/' folder, IsEntered n) :
    Path.rootOf folder = [] ∧ ∀ n ∈ Path.segmentsOf folder, IsEntered n := by
  rcases entered with rfl | entered
  · exact ⟨rfl, fun n member => by cases member⟩
  · refine ⟨?_, fun n member => entered n (List.mem_filter.mp member).1⟩
    cases folder with
    | nil => rfl
    | cons c folder =>
      have first : c ≠ '/' := by
        rintro rfl
        rw [split_sep_cons] at entered
        exact (entered [] List.mem_cons_self).1 rfl
      simp [Path.rootOf, first]

theorem segmentsOf_entered (entered : ∀ n ∈ split '/' folder, IsEntered n) :
    Path.segmentsOf folder = split '/' folder := by
  rw [Path.segmentsOf, List.filter_eq_self]
  intro n member
  obtain ⟨nonempty, noDot, _⟩ := (entered n member).straight
  simp [nonempty, noDot]

/-- What lies below entered segments is also found from further up. -/
theorem filter_filesBelow (tidy : e.Each Tidy) (free : e.Each Linkless) {q : List Text → Bool}
    (entered : ∀ n ∈ s, IsEntered n)
    (below : ∀ path ∈ filesBelow [] e, q path = true → ∃ rest, rest ≠ [] ∧ path = s ++ rest) :
    (filesBelow [] e).filter q = (filesBelow s e).filter q := by
  have ascending (base : List Text) : ((filesBelow base e).filter q).Pairwise (· < ·) :=
    (pairwise_filesBelow tidy free).filter q
  have irrefl : Std.Irrefl (fun a b : List Text => a < b) := ⟨fun a => List.lt_irrefl a⟩
  refine (ascending []).eq_of_mem_iff (ascending s) fun path => ?_
  rw [List.mem_filter, List.mem_filter]
  refine and_congr_left fun accepted => ?_
  rw [mem_filesBelow tidy free, mem_filesBelow tidy free]
  constructor
  · rintro ⟨folders, name, whole, file, shown⟩
    have member : path ∈ filesBelow [] e :=
      (mem_filesBelow tidy free).mpr ⟨folders, name, whole, file, shown⟩
    obtain ⟨rest, nonempty, same⟩ := below path member accepted
    obtain ⟨inner, last, rfl⟩ := (List.eq_nil_or_concat' rest).resolve_left nonempty
    refine ⟨inner, last, same, file, fun f hf => shown f ?_⟩
    have ends : folders ++ [name] = (s ++ inner) ++ [last] := by
      rw [List.append_assoc, ← same, whole, List.nil_append]
    rw [(List.append_inj' ends rfl).1]
    exact List.mem_append_right s hf
  · rintro ⟨folders, name, whole, file, shown⟩
    refine ⟨s ++ folders, name, by rw [whole, List.nil_append, List.append_assoc], file, ?_⟩
    intro f hf
    rcases List.mem_append.mp hf with hf | hf
    · exact (entered f hf).2
    · exact shown f hf

/-! ### Patterns on listed files -/

/-- No name in a folder holds a backslash. -/
def Forward (es : List (Text × Entry)) : Prop := ∀ n ∈ es.map Prod.fst, '\\' ∉ n

instance (es : List (Text × Entry)) : Decidable (Forward es) :=
  inferInstanceAs (Decidable (∀ n ∈ es.map Prod.fst, _))

theorem forward_of_get? {c : Entry} (forward : e.Each Forward) (found : e.get? s = some c) :
    ∀ n ∈ s, '\\' ∉ n :=
  names_of_get? forward found

theorem plain_join (nonempty : s ≠ []) (names : ∀ n ∈ s, IsName n) (forward : ∀ n ∈ s, '\\' ∉ n) :
    Tree.plain (join "/" s) = join "/" s := by
  have same : swap '\\' '/' (join "/" s) = join "/" s := by
    refine (List.map_congr_left fun c hc => if_neg ?_).trans (List.map_id _)
    rintro rfl
    rcases mem_join hc with slash | ⟨n, member, inside⟩
    · cases slash
    · exact forward n member inside
  rw [Tree.plain, same, Tree.withoutDots]
  intro rest dotted
  have pieces := split_join nonempty fun n member => (names n member).noSlash
  have free : '/' ∉ (['.'] : Text) := by decide
  have dot : split '/' (join "/" s) = ['.'] :: split '/' rest := by
    rw [dotted]
    exact split_append_sep free rest
  have first : ['.'] ∈ s := by
    rw [← pieces]
    exact dot ▸ List.mem_cons_self
  exact (names _ first).noDots.1 rfl

/-- A listed file that a pattern accepts lies below the segments of its base. -/
theorem below_of_accepts {pattern : Text} (tidy : e.Each Tidy) (free : e.Each Linkless)
    (forward : e.Each Forward) (general : ¬Glob.DecidedByName pattern)
    (entered : Glob.base pattern = [] ∨ ∀ n ∈ split '/' (Glob.base pattern), IsEntered n)
    {path : List Text} (member : path ∈ filesBelow [] e)
    (accepted : (Glob.Matcher.ofPattern pattern).accepts (join "/" path) = true) :
    ∃ rest, rest ≠ [] ∧ path = Path.segmentsOf (Glob.base pattern) ++ rest := by
  obtain ⟨folders, name, whole, ⟨content, file⟩, _⟩ := (mem_filesBelow tidy free).mp member
  have some : path ≠ [] := by simp [whole]
  rcases entered with none | entered
  · rw [none]
    exact ⟨path, some, rfl⟩
  by_cases nonempty : Glob.base pattern = []
  · rw [nonempty]
    exact ⟨path, some, rfl⟩
  have names := isName_of_get? tidy file
  obtain ⟨rest, behind⟩ := Glob.prefix_of_accepts general nonempty accepted
  rw [plain_join some names (forward_of_get? forward file), List.append_assoc,
    List.singleton_append] at behind
  refine ⟨split '/' rest, split_ne_nil '/' rest, ?_⟩
  rw [segmentsOf_entered entered, ← split_append_sep_append, behind]
  exact (split_join some fun n hn => (names n hn).noSlash).symm

/-- Everything that a pattern matches lies below its base, and so looking there gives all files of a
project without links that the pattern matches, in their order. Only a base that leads to a name too
long to be looked up makes the search fail. -/
theorem matching_eq_filter {pattern : Text} (general : ¬Glob.DecidedByName pattern) :
    (∀ path, (Glob.Matcher.ofPattern pattern).accepts path = true → Glob.base pattern ≠ [] →
      Glob.base pattern ++ ['/'] <+: Tree.plain path) ∧
    ∀ (t : Tree) (root : Path) (place : Place) (e : Entry), t.find root = .ok (place, e) →
      e.Each Tidy → e.Each Linkless → e.Each Forward →
      (Glob.base pattern = [] ∨ ∀ n ∈ split '/' (Glob.base pattern), IsEntered n) →
      ∃ files, Traits.walk t root [] {} = .ok files ∧
        (¬Overlong e (Path.segmentsOf (Glob.base pattern)) → matching t root pattern =
          .ok (files.filter (Glob.Matcher.ofPattern pattern).accepts)) ∧
        (Overlong e (Path.segmentsOf (Glob.base pattern)) → matching t root pattern =
          .error (.file .nameTooLong (root.sub (Glob.base pattern)).text)) := by
  refine ⟨fun path accepted nonempty => Glob.prefix_of_accepts general nonempty accepted, ?_⟩
  intro t root place e found tidy free forward entered
  obtain ⟨relative, shown⟩ := entered_facts entered
  have straight : ∀ n ∈ Path.segmentsOf (Glob.base pattern), Straight n :=
    fun n member => (shown n member).straight
  let accepts := (Glob.Matcher.ofPattern pattern).accepts
  have kept : (filesBelow [] e).filter (accepts ∘ join "/") =
      (filesBelow (Path.segmentsOf (Glob.base pattern)) e).filter (accepts ∘ join "/") :=
    filter_filesBelow tidy free shown fun path member accepted =>
      below_of_accepts tidy free forward general entered member accepted
  refine ⟨(filesBelow [] e).map (join "/"), walk_root found tidy free, fun short => ?_,
    fun long => ?_⟩
  · rw [matching, walk_below found tidy free relative straight short, List.filter_map, kept,
      ← List.filter_map]
    rfl
  · rw [matching, walk_overlong found free relative straight long]
    rfl

theorem matching_eq_filter_shop :
    ¬Glob.DecidedByName "./app/api/\x7bold,users\x7d/**" ∧
      (Tree.mk shop []).find ⟨"/", []⟩ = .ok ([], shop) ∧ shop.Each Tidy ∧ shop.Each Linkless ∧
      shop.Each Forward ∧
      (∀ n ∈ split '/' (Glob.base "./app/api/\x7bold,users\x7d/**"), IsEntered n) ∧
      "app/api/" <+: Tree.plain ".\\app\\api\\old\\route.ts" ∧
      matching ⟨shop, []⟩ ⟨"/", []⟩ "./app/api/\x7bold,users\x7d/**" =
        .ok (["app/api/old/route.ts", "app/api/users/[id]/route.js"] : List Text) := by
  have general : ¬Glob.DecidedByName "./app/api/\x7bold,users\x7d/**" := by
    unfold Glob.DecidedByName
    decide
  have found : (Tree.mk shop []).find ⟨"/", []⟩ = .ok ([], shop) := rfl
  have tidy : shop.Each Tidy := by decide
  have free : shop.Each Linkless := by decide
  have forward : shop.Each Forward := by decide
  have entered : ∀ n ∈ split '/' (Glob.base "./app/api/\x7bold,users\x7d/**"), IsEntered n := by
    decide
  have short : ¬Overlong shop (Path.segmentsOf (Glob.base "./app/api/\x7bold,users\x7d/**")) :=
    fun long => not_exceeds (by decide) long.2
  obtain ⟨below, search⟩ := matching_eq_filter general
  obtain ⟨files, walked, ended, _⟩ :=
    search ⟨shop, []⟩ ⟨"/", []⟩ [] shop found tidy free forward (.inr entered)
  have listed : Traits.walk ⟨shop, []⟩ ⟨"/", []⟩ [] {} = .ok (["app/api/old/route.ts",
      "app/api/route.ts", "app/api/users/[id]/route.js"] : List Text) := by
    decide +kernel
  obtain rfl := Except.ok.inj (walked.symm.trans listed)
  refine ⟨general, found, tidy, free, forward, entered, ?_, (ended short).trans ?_⟩
  · exact below ".\\app\\api\\old\\route.ts" (by decide +kernel) (by decide)
  · exact congrArg Except.ok (by decide +kernel)

/-- A pattern whose base is one character too long for a name. -/
def longPattern : Text := List.replicate 256 'a' ++ "/*.ts"

def lone : Entry := .folder [("index.ts", .file [])]

/-- The search fails, although the walk through all files passes the pattern by. -/
theorem matching_longPattern :
    ¬Glob.DecidedByName longPattern ∧ (Tree.mk lone []).find ⟨"/", []⟩ = .ok ([], lone) ∧
      lone.Each Tidy ∧ lone.Each Linkless ∧ lone.Each Forward ∧
      (∀ n ∈ split '/' (Glob.base longPattern), IsEntered n) ∧
      ∃ files, Traits.walk ⟨lone, []⟩ ⟨"/", []⟩ [] {} = .ok files ∧
        matching ⟨lone, []⟩ ⟨"/", []⟩ longPattern ≠
          .ok (files.filter (Glob.Matcher.ofPattern longPattern).accepts) := by
  have general : ¬Glob.DecidedByName longPattern := by
    unfold Glob.DecidedByName
    decide +kernel
  have failed : matching ⟨lone, []⟩ ⟨"/", []⟩ longPattern =
      .error (.file .nameTooLong (List.cons '/' (List.replicate 256 'a'))) := by
    decide +kernel
  refine ⟨general, rfl, by decide, by decide, by decide, by decide +kernel, ["index.ts"],
    by decide, fun ended => ?_⟩
  rw [failed] at ended
  cases ended

end Candidates
end RouteAtlas
