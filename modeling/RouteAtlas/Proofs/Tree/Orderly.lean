import RouteAtlas.Tree.Basic

/-!
# Orderly trees

In an orderly tree the entries of every folder have names that a file may have, in ascending order.
Below a folder without links, following segments is looking them up (`follow_get?`), unless they lead
to a name that is too long (`follow_exceeds`), and a path that leads to a folder can be prolonged
segment by segment (`find_below`).
-/

namespace RouteAtlas

namespace Entry

/-- Every folder at or below the entry has entries of a kind. -/
inductive Each (p : List (Text × Entry) → Prop) : Entry → Prop where
  | file (content : Bytes) : Each p (file content)
  | link (target : Text) : Each p (link target)
  | folder {es : List (Text × Entry)} (here : p es) (below : ∀ q ∈ es, Each p q.2) :
    Each p (folder es)

/-- A name that a file may have. -/
structure IsName (n : Text) : Prop where
  nonempty : n ≠ []
  noSlash : '/' ∉ n
  noNull : '\x00' ∉ n
  noDots : n ≠ ['.'] ∧ n ≠ ['.', '.']
  short : isTooLong n = false

/-- A segment that leads to nothing but what goes by its name. -/
def Straight (n : Text) : Prop := n ≠ [] ∧ n ≠ ['.'] ∧ n ≠ ['.', '.']

theorem IsName.straight {n : Text} (name : IsName n) : Straight n := ⟨name.nonempty, name.noDots⟩

instance (n : Text) : Decidable (IsName n) :=
  decidable_of_iff
    (n ≠ [] ∧ '/' ∉ n ∧ '\x00' ∉ n ∧ (n ≠ ['.'] ∧ n ≠ ['.', '.']) ∧ isTooLong n = false)
    ⟨fun ⟨a, b, c, d, f⟩ => ⟨a, b, c, d, f⟩, fun h => ⟨h.1, h.2, h.3, h.4, h.5⟩⟩

/-- The entries of a folder as it lists them. -/
structure Tidy (es : List (Text × Entry)) : Prop where
  ascending : (es.map Prod.fst).Pairwise (· < ·)
  named : ∀ n ∈ es.map Prod.fst, IsName n

instance (es : List (Text × Entry)) : Decidable (Tidy es) :=
  decidable_of_iff (_ ∧ _) ⟨fun ⟨a, b⟩ => ⟨a, b⟩, fun h => ⟨h.ascending, h.named⟩⟩

def Linkless (es : List (Text × Entry)) : Prop := ∀ q ∈ es, q.2.isLink = false

instance (es : List (Text × Entry)) : Decidable (Linkless es) :=
  inferInstanceAs (Decidable (∀ q ∈ es, _))

variable {p : List (Text × Entry) → Prop} {e c : Entry} {s : List Text} {n : Text}

/-! ### Every folder -/

theorem each_folder {es : List (Text × Entry)} :
    (folder es).Each p ↔ p es ∧ ∀ q ∈ es, q.2.Each p := by
  constructor
  · rintro ⟨⟩
    exact ⟨‹_›, ‹_›⟩
  · rintro ⟨here, below⟩
    exact .folder here below

mutual

def decideEach (p : List (Text × Entry) → Prop) [DecidablePred p] : (e : Entry) → Decidable (e.Each p)
  | file content => isTrue (.file content)
  | link target => isTrue (.link target)
  | folder es =>
    have := decideEachIn p es
    decidable_of_iff _ each_folder.symm

def decideEachIn (p : List (Text × Entry) → Prop) [DecidablePred p] :
    (es : List (Text × Entry)) → Decidable (∀ q ∈ es, q.2.Each p)
  | [] => isTrue (List.forall_mem_nil _)
  | (n, e) :: es =>
    have := decideEach p e
    have := decideEachIn p es
    decidable_of_iff (e.Each p ∧ ∀ q ∈ es, q.2.Each p) (by rw [List.forall_mem_cons])

end

instance [DecidablePred p] (e : Entry) : Decidable (e.Each p) := decideEach p e

/-! ### Looking up -/

theorem get?_cons (e : Entry) (n : Text) (s : List Text) :
    e.get? (n :: s) = (e.child? n).bind (·.get? s) := rfl

theorem get?_singleton (e : Entry) (n : Text) : e.get? [n] = e.child? n := by
  rw [get?_cons]
  cases e.child? n <;> rfl

theorem get?_append (e : Entry) (s u : List Text) :
    e.get? (s ++ u) = (e.get? s).bind (·.get? u) := by
  induction s generalizing e with
  | nil => rfl
  | cons n s ih =>
    rw [List.cons_append, get?_cons, get?_cons]
    cases e.child? n with
    | none => rfl
    | some c => exact ih c

theorem get?_below {place : Place} {top : Entry} (here : top.get? place = some e) (n : Text) :
    top.get? (place ++ [n]) = e.child? n := by
  rw [get?_append, here, Option.bind_some, get?_singleton]

theorem get?_concat {place : Place} {top : Entry} (here : top.get? place = some e)
    (child : e.child? n = some c) : top.get? (place ++ [n]) = some c :=
  (get?_below here n).trans child

theorem mem_of_child? (h : e.child? n = some c) : (n, c) ∈ e.entries := by
  obtain ⟨before, after, whole, _⟩ := List.lookup_eq_some_iff.mp h
  rw [whole]
  exact List.mem_append_right before List.mem_cons_self

/-- Where names are in ascending order, every entry is found by its name. -/
theorem child?_eq_some_iff {es : List (Text × Entry)}
    (ascending : (es.map Prod.fst).Pairwise (· < ·)) :
    (folder es).child? n = some c ↔ (n, c) ∈ es := by
  refine ⟨mem_of_child?, fun h => ?_⟩
  obtain ⟨before, after, rfl⟩ := List.append_of_mem h
  refine List.lookup_eq_some_iff.mpr ⟨before, after, rfl, fun q hq => ?_⟩
  rw [List.map_append, List.pairwise_append] at ascending
  have less := ascending.2.2 q.1 (List.mem_map_of_mem hq) n (by simp)
  rw [bne_iff_ne]
  rintro rfl
  exact List.lt_irrefl _ less

theorem isFolder_of_child? (h : e.child? n = some c) : ∃ es, e = folder es := by
  cases e with
  | folder es => exact ⟨es, rfl⟩
  | _ => cases h

theorem isFolder_of_get? {es : List (Text × Entry)} (h : e.get? s = some (folder es)) :
    ∃ es', e = folder es' := by
  cases s with
  | nil => exact ⟨es, Option.some.inj h⟩
  | cons n s =>
    obtain ⟨d, child, _⟩ := Option.bind_eq_some_iff.mp h
    exact isFolder_of_child? child

theorem folder_of_get?_cons (found : e.get? (n :: s) = some c) :
    ∃ es d, e = folder es ∧ (folder es).child? n = some d ∧ d.get? s = some c := by
  obtain ⟨d, child, rest⟩ := Option.bind_eq_some_iff.mp found
  obtain ⟨es, rfl⟩ := isFolder_of_child? child
  exact ⟨es, d, rfl, child, rest⟩

theorem folder_of_get?_concat (found : e.get? (s ++ [n]) = some c) :
    ∃ es, e.get? s = some (folder es) ∧ (folder es).child? n = some c := by
  rw [get?_append] at found
  obtain ⟨d, stands, child⟩ := Option.bind_eq_some_iff.mp found
  rw [get?_singleton] at child
  obtain ⟨es, rfl⟩ := isFolder_of_child? child
  exact ⟨es, stands, child⟩

theorem Each.child (h : e.Each p) (found : e.child? n = some c) : c.Each p := by
  cases h with
  | folder _ below => exact below _ (mem_of_child? found)
  | _ => cases found

theorem Each.get (h : e.Each p) (found : e.get? s = some c) : c.Each p := by
  induction s generalizing e with
  | nil =>
    obtain rfl := Option.some.inj found
    exact h
  | cons n s ih =>
    obtain ⟨d, first, rest⟩ := Option.bind_eq_some_iff.mp found
    exact ih (h.child first) rest

/-- What holds of the names in every folder holds of the segments that lead to an entry. -/
theorem names_of_get? {P : Text → Prop} (h : e.Each fun es => ∀ n ∈ es.map Prod.fst, P n)
    (found : e.get? s = some c) : ∀ n ∈ s, P n := by
  induction s generalizing e with
  | nil => simp
  | cons n s ih =>
    obtain ⟨es, d, rfl, first, rest⟩ := folder_of_get?_cons found
    refine List.forall_mem_cons.mpr ⟨?_, ih (h.child first) rest⟩
    cases h with
    | folder here _ => exact here n (List.mem_map_of_mem (mem_of_child? first))

/-- The segments that lead to an entry are names. -/
theorem isName_of_get? (h : e.Each Tidy) (found : e.get? s = some c) : ∀ n ∈ s, IsName n := by
  induction s generalizing e with
  | nil => simp
  | cons n s ih =>
    obtain ⟨d, first, rest⟩ := Option.bind_eq_some_iff.mp found
    refine List.forall_mem_cons.mpr ⟨?_, ih (h.child first) rest⟩
    cases h with
    | folder here _ => exact here.named n (List.mem_map_of_mem (mem_of_child? first))
    | _ => cases first

theorem isLink_of_child? (h : e.Each Linkless) (found : e.child? n = some c) :
    c.isLink = false := by
  cases h with
  | folder here _ => exact here _ (mem_of_child? found)
  | _ => cases found

/-! ### Names that are too long -/

/-- The segments lead to a folder, and from there on to a name that is longer than a name may be. -/
def Exceeds (e : Entry) (s : List Text) : Prop :=
  ∃ (before : List Text) (n : Text) (after : List Text) (es : List (Text × Entry)),
    s = before ++ n :: after ∧ e.get? before = some (folder es) ∧ isTooLong n = true

theorem exceeds_cons : e.Exceeds (n :: s) ↔ e.isFolder = true ∧ isTooLong n = true ∨
    ∃ d, e.child? n = some d ∧ d.Exceeds s := by
  constructor
  · rintro ⟨before, m, after, es, whole, found, long⟩
    cases before with
    | nil =>
      obtain ⟨rfl, rfl⟩ := List.cons.inj whole
      obtain rfl := Option.some.inj found
      exact .inl ⟨rfl, long⟩
    | cons m before =>
      obtain ⟨rfl, rfl⟩ := List.cons.inj whole
      obtain ⟨d, child, rest⟩ := Option.bind_eq_some_iff.mp found
      exact .inr ⟨d, child, before, _, after, es, rfl, rest, long⟩
  · rintro (⟨isFolder, long⟩ | ⟨d, child, before, m, after, es, rfl, found, long⟩)
    · cases e with
      | folder es => exact ⟨[], n, s, es, rfl, rfl, long⟩
      | _ => cases isFolder
    · exact ⟨n :: before, m, after, es, rfl, Option.bind_eq_some_iff.mpr ⟨d, child, found⟩, long⟩

theorem not_exceeds (names : ∀ n ∈ s, IsName n) : ¬e.Exceeds s := by
  rintro ⟨before, n, after, es, rfl, _, long⟩
  have short := (names n (by simp)).short
  rw [long] at short
  cases short

/-! ### Following -/

section Follow

variable {top : Entry} {links left : Nat} {onLink : Place → List Text → Except Fault Arrival}
  {place stop : Place}

theorem followSegments_making (top : Entry) (making : Bool) (links : Nat)
    (onLink : Place → List Text → Except Fault Arrival) (place : Place) (n : Text)
    (s : List Text) :
    top.followSegments making links onLink place (n :: s) =
      match top.get? place with
      | none => .error .missing
      | some here =>
        if !here.isFolder then .error .notFolder
        else if n = [] ∨ n = ['.'] then top.followSegments making links onLink place s
        else if n = ['.', '.'] then top.followSegments making links onLink place.dropLast s
        else if making ∧ s = [[]] then .error .isFolder
        else if isTooLong n then .error .nameTooLong
        else
          match here.child? n with
          | none => if s = [] then .ok (.vacant (place ++ [n])) else .error .missing
          | some (link target) =>
            onLink (if Path.rootOf target = [] then place else []) (targetSegments target ++ s)
          | some _ => top.followSegments making links onLink (place ++ [n]) s := by
  rewrite [followSegments]
  cases top.get? place with
  | none => rfl
  | some here =>
    cases here.child? n with
    | none => rfl
    | some c => cases c <;> rfl

theorem followSegments_cons (top : Entry) (links : Nat)
    (onLink : Place → List Text → Except Fault Arrival) (place : Place) (n : Text)
    (s : List Text) :
    top.followSegments false links onLink place (n :: s) =
      match top.get? place with
      | none => .error .missing
      | some here =>
        if !here.isFolder then .error .notFolder
        else if n = [] ∨ n = ['.'] then top.followSegments false links onLink place s
        else if n = ['.', '.'] then top.followSegments false links onLink place.dropLast s
        else if isTooLong n then .error .nameTooLong
        else
          match here.child? n with
          | none => if s = [] then .ok (.vacant (place ++ [n])) else .error .missing
          | some (link target) =>
            onLink (if Path.rootOf target = [] then place else []) (targetSegments target ++ s)
          | some _ => top.followSegments false links onLink (place ++ [n]) s := by
  rw [followSegments_making]
  simp only [Bool.false_eq_true, false_and, if_false]

/-- What an entry that is reached is to its place, and how it goes on from there. -/
def Reached (top : Entry) (stop : Place) (e : Entry) (left : Nat)
    (go : List Text → Except Fault Arrival) : Prop :=
  top.get? stop = some e ∧ ∀ more, go more = top.follow false left stop more

theorem reached_followSegments
    (behind : ∀ place s, onLink place s = .ok (.entry stop e left) →
      Reached top stop e left fun more => onLink place (s ++ more))
    (whole : top.followSegments false links onLink = top.follow false links)
    (h : top.followSegments false links onLink place s = .ok (.entry stop e left)) :
    Reached top stop e left fun more =>
      top.followSegments false links onLink place (s ++ more) := by
  induction s generalizing place with
  | nil =>
    rw [followSegments] at h
    split at h
    · rename_i here found
      cases h
      exact ⟨found, fun more => congrFun (congrFun whole _) more⟩
    · cases h
  | cons n s ih =>
    rw [followSegments_cons] at h
    simp only [List.cons_append, followSegments_cons]
    cases found : top.get? place with
    | none => simp [found] at h
    | some here =>
      simp only [found] at h ⊢
      by_cases folder : here.isFolder = true
      · simp only [folder, Bool.not_true, Bool.false_eq_true, if_false] at h ⊢
        by_cases stay : n = [] ∨ n = ['.']
        · simp only [if_pos stay] at h ⊢
          exact ih h
        simp only [if_neg stay] at h ⊢
        by_cases up : n = ['.', '.']
        · simp only [if_pos up] at h ⊢
          exact ih h
        simp only [if_neg up] at h ⊢
        by_cases long : isTooLong n = true
        · simp [long] at h
        simp only [if_neg long] at h ⊢
        cases child : here.child? n with
        | none =>
          simp only [child] at h
          split at h <;> cases h
        | some c =>
          cases c with
          | link target =>
            simp only [child, ← List.append_assoc] at h ⊢
            exact behind _ _ h
          | _ =>
            simp only [child] at h ⊢
            exact ih h
      · simp [folder] at h

/-- Where segments lead to an entry, it is at the place that is given, and more segments are followed
from there. -/
theorem reached_follow (h : top.follow false links place s = .ok (.entry stop e left)) :
    Reached top stop e left fun more => top.follow false links place (s ++ more) := by
  -- Behind a link one link less is left, and with none left no link is followed.
  induction links generalizing place s with
  | zero => exact reached_followSegments (fun _ _ h => by cases h) rfl h
  | succ links ih => exact reached_followSegments (fun _ _ h => ih h) rfl h

/-- One segment at an entry without links in it. -/
theorem follow_straight (here : top.get? place = some e) (straight : Straight n)
    (linkless : ∀ c, e.child? n = some c → c.isLink = false) (s : List Text) :
    top.follow false links place (n :: s) =
      if !e.isFolder then .error .notFolder
      else if isTooLong n then .error .nameTooLong
      else if (e.child? n).isSome then top.follow false links (place ++ [n]) s
      else if s = [] then .ok (.vacant (place ++ [n])) else .error .missing := by
  obtain ⟨nonempty, noDot, noDots⟩ := straight
  have step (onLink : Place → List Text → Except Fault Arrival) :
      top.followSegments false links onLink place (n :: s) =
        if !e.isFolder then .error .notFolder
        else if isTooLong n then .error .nameTooLong
        else if (e.child? n).isSome then top.followSegments false links onLink (place ++ [n]) s
        else if s = [] then .ok (.vacant (place ++ [n])) else .error .missing := by
    rw [followSegments_cons]
    simp only [here, nonempty, noDot, noDots, or_self, if_false]
    cases child : e.child? n with
    | none => rfl
    | some c =>
      cases c with
      | link => cases linkless _ child
      | _ => rfl
  cases links with
  | zero => exact step _
  | succ links => exact step _

theorem follow_cons (here : top.get? place = some e) (name : IsName n) (child : e.child? n = some c)
    (linkless : c.isLink = false) (s : List Text) :
    top.follow false links place (n :: s) = top.follow false links (place ++ [n]) s := by
  obtain ⟨es, rfl⟩ := isFolder_of_child? child
  have linkless' : ∀ d, (folder es).child? n = some d → d.isLink = false := by
    intro d found
    obtain rfl := Option.some.inj (child.symm.trans found)
    exact linkless
  rw [follow_straight here name.straight linkless', name.short, child]
  rfl

/-- Below a folder without links, segments lead to the entry that is found there. -/
theorem follow_found (here : top.get? place = some e) (free : e.Each Linkless)
    (straight : ∀ n ∈ s, Straight n) (short : ¬e.Exceeds s) (found : e.get? s = some c) :
    top.follow false links place s = .ok (.entry (place ++ s) c links) := by
  induction s generalizing place e with
  | nil =>
    obtain rfl := Option.some.inj found
    cases links <;> simp [follow, followSegments, here]
  | cons n s ih =>
    obtain ⟨es, d, rfl, first, rest⟩ := folder_of_get?_cons found
    rw [exceeds_cons, not_or] at short
    have fits : isTooLong n = false := by simpa [isFolder] using short.1
    have deeper : ¬d.Exceeds s := fun exceeds => short.2 ⟨d, first, exceeds⟩
    rw [follow_straight here (straight n List.mem_cons_self) (fun _ => isLink_of_child? free), fits,
      first]
    exact (ih (get?_concat here first) (free.child first)
      (fun m hm => straight m (List.mem_cons_of_mem n hm)) deeper rest).trans (by simp)

/-- Where nothing is found below a folder without links, segments lead to no entry, and no name on
the way is to blame. -/
theorem follow_lost (here : top.get? place = some e) (free : e.Each Linkless)
    (straight : ∀ n ∈ s, Straight n) (short : ¬e.Exceeds s) (absent : e.get? s = none) :
    (∃ place', top.follow false links place s = .ok (.vacant place')) ∨
      top.follow false links place s = .error .missing ∨
        top.follow false links place s = .error .notFolder := by
  induction s generalizing place e with
  | nil => cases absent
  | cons n s ih =>
    rw [exceeds_cons, not_or] at short
    rw [follow_straight here (straight n List.mem_cons_self) (fun _ => isLink_of_child? free)]
    by_cases folder : e.isFolder = true
    · have fits : isTooLong n = false := by simpa [folder] using short.1
      simp only [folder, fits, Bool.not_true, Bool.false_eq_true, if_false]
      cases child : e.child? n with
      | some d =>
        rw [get?_cons, child] at absent
        exact ih (get?_concat here child) (free.child child)
          (fun m hm => straight m (List.mem_cons_of_mem n hm))
          (fun exceeds => short.2 ⟨d, child, exceeds⟩) absent
      | none =>
        by_cases last : s = []
        · exact .inl ⟨place ++ [n], if_pos last⟩
        · exact .inr (.inl (if_neg last))
    · exact .inr (.inr (if_pos (by simpa using folder)))

/-- A name that is too long is to blame wherever segments lead to its folder, whether or not there
is anything of that name. -/
theorem follow_exceeds (here : top.get? place = some e) (free : e.Each Linkless)
    (straight : ∀ n ∈ s, Straight n) (exceeds : e.Exceeds s) :
    top.follow false links place s = .error .nameTooLong := by
  induction s generalizing place e with
  | nil =>
    obtain ⟨before, n, after, _, whole, _⟩ := exceeds
    simp at whole
  | cons n s ih =>
    rw [follow_straight here (straight n List.mem_cons_self) (fun _ => isLink_of_child? free)]
    rcases exceeds_cons.mp exceeds with ⟨folder, long⟩ | ⟨d, child, deeper⟩
    · simp only [folder, long, Bool.not_true, Bool.false_eq_true, if_false, if_true]
    · obtain ⟨es, rfl⟩ := isFolder_of_child? child
      by_cases long : isTooLong n = true
      · simp only [isFolder, long, Bool.not_true, Bool.false_eq_true, if_false, if_true]
      · simp only [isFolder, long, child, Option.isSome_some, Bool.not_true, Bool.false_eq_true,
          if_false, if_true]
        exact ih (get?_concat here child) (free.child child)
          (fun m hm => straight m (List.mem_cons_of_mem n hm)) deeper

theorem follow_get? (here : top.get? place = some e) (free : e.Each Linkless)
    (names : ∀ n ∈ s, IsName n) (found : e.get? s = some c) :
    top.follow false links place s = .ok (.entry (place ++ s) c links) :=
  follow_found here free (fun n hn => (names n hn).straight) (not_exceeds names) found

theorem follow_get?_none (here : top.get? place = some e) (free : e.Each Linkless)
    (names : ∀ n ∈ s, IsName n) (absent : e.get? s = none) :
    (∃ place', top.follow false links place s = .ok (.vacant place')) ∨
      top.follow false links place s = .error .missing ∨
        top.follow false links place s = .error .notFolder :=
  follow_lost here free (fun n hn => (names n hn).straight) (not_exceeds names) absent

end Follow

end Entry

namespace Tree

open Entry

variable {t : Tree} {root : Path} {place : Place} {e c : Entry} {s : List Text}

/-! ### Paths in a tree -/

theorem arrive_of_find (h : t.find root = .ok (place, e)) :
    ∃ links, t.arrive false root = .ok (.entry place e links) := by
  unfold find at h
  split at h
  · cases h
    exact ⟨_, ‹_›⟩
  · cases h
  · cases h

theorem arrive_below {links : Nat} (found : t.arrive false root = .ok (.entry place e links))
    (noNulls : ∀ n ∈ s, '\x00' ∉ n) :
    t.top.get? place = some e ∧
      t.arrive false (root.below ⟨[], s⟩) = t.top.follow false links place s := by
  have noNull : hasNull root = false := by
    cases null : hasNull root with
    | true => simp [arrive, null] at found
    | false => rfl
  have noNull' : hasNull (root.below ⟨[], s⟩) = false := by
    rw [hasNull, List.any_eq_false] at noNull ⊢
    intro n hn
    rcases List.mem_append.mp hn with hn | hn
    · exact noNull n hn
    · simpa using noNulls n hn
  rw [arrive, noNull] at found
  obtain ⟨here, goes⟩ := reached_follow found
  refine ⟨here, ?_⟩
  rw [arrive, noNull', ← goes s]
  rfl

/-- A path to a folder without links is prolonged by the segments to an entry in it. -/
theorem find_below (found : t.find root = .ok (place, e)) (tidy : e.Each Tidy)
    (free : e.Each Linkless) (inside : e.get? s = some c) :
    t.find (root.below ⟨[], s⟩) = .ok (place ++ s, c) := by
  obtain ⟨links, arrived⟩ := arrive_of_find found
  have names := isName_of_get? tidy inside
  obtain ⟨here, goes⟩ := arrive_below arrived fun n hn => (names n hn).noNull
  rw [find, goes, follow_get? here free names inside]

end Tree
end RouteAtlas
