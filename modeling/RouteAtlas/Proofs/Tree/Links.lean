import RouteAtlas.Proofs.Tree.Walking

/-!
# Walks through links

A walk lists what a folder shows behind its links too. `mem_filesFrom_plain` and `mem_filesFrom_inner`
say so for one step down, and `keeps_filesFrom` that a walk for some names lists what a walk for
all names lists under these names.
-/

namespace RouteAtlas.Tree.Walk

open Entry

variable {w : Walk} {top : Entry} {depth links links' : Nat} {place place' : Place}
  {left : Option Int} {e c : Entry} {es es' : List (Text × Entry)} {name : Text} {s : List Text}
  {onLink : Place → Text → Option Int → List (List Text)}

/-- A name in a folder stands for no folder: for a file, or for a link to a file or to nothing. -/
def Plain (top : Entry) (links : Nat) (place : Place) (name : Text) : Prop :=
  match top.follow false links place [name] with
  | .ok (.entry _ e _) => e.isFolder = false
  | .ok (.vacant _) => True
  | .error f => f = .missing

/-! ### One step -/

theorem mem_filesOf_at (inside : (name, c) ∈ es) (shallow : exhausted left = false)
    (listed : s ∈ w.filesAt onLink place left name c) :
    s ∈ w.filesOf onLink place left (.folder es) := by
  rw [filesOf, shallow, if_neg Bool.false_ne_true, filesIn_eq]
  exact List.mem_flatMap.mpr ⟨(name, c), inside, listed⟩

theorem follow_child (here : top.get? place = some (.folder es)) (tidy : Tidy es)
    (inside : (name, c) ∈ es) (linkless : c.isLink = false) :
    top.follow false links place [name] = .ok (.entry (place ++ [name]) c links) := by
  have named : IsName name := tidy.named name (List.mem_map_of_mem inside)
  have child : (Entry.folder es).child? name = some c :=
    (child?_eq_some_iff tidy.ascending).mpr inside
  have inner : top.get? (place ++ [name]) = some c := get?_concat here child
  rw [follow_cons here named child linkless]
  cases links <;> simp [follow, followSegments, inner]

theorem follow_link_zero (here : top.get? place = some (.folder es)) (tidy : Tidy es)
    {target : Text} (inside : (name, .link target) ∈ es) :
    top.follow false 0 place [name] = .error .tooManyLinks := by
  have named : IsName name := tidy.named name (List.mem_map_of_mem inside)
  have child : (Entry.folder es).child? name = some (.link target) :=
    (child?_eq_some_iff tidy.ascending).mpr inside
  rw [follow, followSegments_cons]
  simp [here, Entry.isFolder, named.nonempty, named.noDots, named.short, child]

theorem mem_behindLink_plain {enter : Nat → Place → Option Int → Entry → List (List Text)}
    (plain : Plain top links place name) (wanted : w.wanted name = true) :
    [name] ∈ w.behindLink top links enter place name left := by
  unfold Plain at plain
  unfold behindLink
  split at plain
  · rename_i found
    simp [found, plain, wanted]
  · rename_i found
    simp [found, wanted]
  · rename_i found
    subst plain
    simp [found, wanted]

/-- A name that stands for no folder is listed. -/
theorem mem_filesFrom_plain (here : top.get? place = some (.folder es)) (tidy : Tidy es)
    (inside : (name, c) ∈ es) (plain : Plain top links place name)
    (shallow : exhausted left = false) (wanted : w.wanted name = true) :
    [name] ∈ w.filesFrom top depth links place left (.folder es) := by
  have step (enter : Nat → Place → Option Int → Entry → List (List Text)) :
      [name] ∈ w.filesOf (w.behindLink top links enter) place left (.folder es) := by
    apply mem_filesOf_at inside shallow
    cases c with
    | file content => simp [filesAt, wanted]
    | link target => exact mem_behindLink_plain plain wanted
    | folder inner =>
      rw [Plain, follow_child here tidy inside rfl] at plain
      cases plain
  cases depth with
  | zero => exact step _
  | succ depth => exact step _

/-- What is listed below a folder that a name leads to is listed below the name. -/
theorem mem_filesFrom_inner (here : top.get? place = some (.folder es)) (tidy : Tidy es)
    (inside : (name, c) ∈ es) (enters : w.enters name = true) (shallow : exhausted left = false)
    (leads : top.follow false links place [name] = .ok (.entry place' (.folder es') links'))
    (listed : ∀ depth, s ∈ w.filesFrom top depth links' place' (below left) (.folder es')) :
    name :: s ∈ w.filesFrom top links links place left (.folder es) := by
  cases c with
  | file content =>
    rw [follow_child here tidy inside rfl] at leads
    cases leads
  | folder inner =>
    rw [follow_child here tidy inside rfl] at leads
    cases leads
    have deeper := listed links
    cases links <;>
    · rw [filesFrom] at deeper ⊢
      apply mem_filesOf_at inside shallow
      simp only [filesAt, if_pos enters]
      exact List.mem_map_of_mem deeper
  | link target =>
    -- One link less may lie inside: with none left the name would have led nowhere.
    cases links with
    | zero =>
      rw [follow_link_zero here tidy inside] at leads
      cases leads
    | succ links =>
      rw [filesFrom]
      apply mem_filesOf_at inside shallow
      simp only [filesAt, behindLink, leads, Entry.isFolder, if_true, if_pos enters]
      exact List.mem_map_of_mem (listed links)

/-! ### Walks for some names -/

/-- What a list of files holds is not empty, and the list of the walk for some names holds it if its
last name is one of them. -/
def Keeps (wanted : Text → Bool) (all some : List (List Text)) : Prop :=
  ∀ s ∈ all, ∃ name, s.getLast? = .some name ∧ (wanted name = true → s ∈ some)

variable {wanted : Text → Bool}

theorem keeps_nil (some : List (List Text)) : Keeps wanted [] some :=
  fun _ h => absurd h List.not_mem_nil

theorem keeps_one (name : Text) : Keeps wanted [[name]] (if wanted name then [[name]] else []) := by
  intro s member
  obtain rfl := List.mem_singleton.mp member
  refine ⟨name, rfl, fun chosen => ?_⟩
  rw [if_pos chosen]
  exact List.mem_singleton_self _

theorem keeps_append {all all' some some' : List (List Text)} (first : Keeps wanted all some)
    (rest : Keeps wanted all' some') : Keeps wanted (all ++ all') (some ++ some') := by
  intro s member
  rcases List.mem_append.mp member with member | member
  · obtain ⟨name, last, kept⟩ := first s member
    exact ⟨name, last, fun chosen => List.mem_append_left _ (kept chosen)⟩
  · obtain ⟨name, last, kept⟩ := rest s member
    exact ⟨name, last, fun chosen => List.mem_append_right _ (kept chosen)⟩

theorem keeps_map {all some : List (List Text)} (folder : Text) (inner : Keeps wanted all some) :
    Keeps wanted (all.map (folder :: ·)) (some.map (folder :: ·)) := by
  intro s member
  obtain ⟨u, inside, rfl⟩ := List.mem_map.mp member
  obtain ⟨name, last, kept⟩ := inner u inside
  refine ⟨name, ?_, fun chosen => List.mem_map_of_mem (kept chosen)⟩
  rw [List.getLast?_cons, last]
  rfl

/-- The same walk for some names. -/
def restrict (w : Walk) (wanted : Text → Bool) : Walk := { w with wanted }

section Wanted

variable {onLink' : Place → Text → Option Int → List (List Text)}

mutual

theorem keeps_filesOf (every : w.wanted = fun _ => true) (links : ∀ place name left,
      Keeps wanted (onLink place name left) (onLink' place name left)) (place : Place)
    (left : Option Int) : (e : Entry) → Keeps wanted (w.filesOf onLink place left e)
      ((w.restrict wanted).filesOf onLink' place left e)
  | .file _ => keeps_nil _
  | .link _ => keeps_nil _
  | .folder es => by
    rw [filesOf, filesOf]
    split
    · exact keeps_nil _
    · exact keeps_filesIn every links place left es

theorem keeps_filesIn (every : w.wanted = fun _ => true) (links : ∀ place name left,
      Keeps wanted (onLink place name left) (onLink' place name left)) (place : Place)
    (left : Option Int) : (es : List (Text × Entry)) → Keeps wanted (w.filesIn onLink place left es)
      ((w.restrict wanted).filesIn onLink' place left es)
  | [] => keeps_nil _
  | (name, e) :: rest => by
    rw [filesIn_eq, filesIn_eq, List.flatMap_cons, List.flatMap_cons, ← filesIn_eq, ← filesIn_eq]
    apply keeps_append _ (keeps_filesIn every links place left rest)
    match e with
    | .file content =>
      simp only [filesAt, every, if_true]
      exact keeps_one name
    | .link target => exact links place name left
    | .folder es =>
      simp only [filesAt]
      show Keeps wanted (if w.enters name then _ else _) (if w.enters name then _ else _)
      split
      · exact keeps_map name (keeps_filesOf every links (place ++ [name]) (below left) (.folder es))
      · exact keeps_nil _

end

theorem keeps_behindLink (every : w.wanted = fun _ => true)
    {enter enter' : Nat → Place → Option Int → Entry → List (List Text)}
    (inner : ∀ links place left e, Keeps wanted (enter links place left e) (enter' links place left e))
    (place : Place) (name : Text) (left : Option Int) :
    Keeps wanted (w.behindLink top links enter place name left)
      ((w.restrict wanted).behindLink top links enter' place name left) := by
  unfold behindLink
  simp only [every, if_true]
  split
  · split
    · show Keeps wanted (if w.enters name then _ else _) (if w.enters name then _ else _)
      split
      · exact keeps_map name (inner _ _ _ _)
      · exact keeps_nil _
    · exact keeps_one name
  · exact keeps_one name
  · exact keeps_one name
  · exact keeps_nil _

/-- A walk for some names lists each file under one of them that the walk for all names lists. -/
theorem keeps_filesFrom (every : w.wanted = fun _ => true) (depth links : Nat) (place : Place)
    (left : Option Int) (e : Entry) : Keeps wanted (w.filesFrom top depth links place left e)
      ((w.restrict wanted).filesFrom top depth links place left e) := by
  induction depth generalizing links place left e with
  | zero => exact keeps_filesOf every (keeps_behindLink every fun _ _ _ _ => keeps_nil _) place left e
  | succ depth ih => exact keeps_filesOf every (keeps_behindLink every ih) place left e

end Wanted

end RouteAtlas.Tree.Walk
