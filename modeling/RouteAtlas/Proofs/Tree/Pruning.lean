import RouteAtlas.Proofs.Tree.Walking

/-!
# Trees without some of their entries

`prune drop` takes away the entries that `drop` names, at every depth. `get?_prune` and `get?_of_prune`
say what is then found, and `filter_filesOf_prune` that a walk does not notice entries which it would
neither enter nor list.
-/

namespace RouteAtlas.Entry

variable {drop : Text → Entry → Bool} {e c : Entry} {es : List (Text × Entry)} {n : Text}
  {s : List Text}

mutual

/-- The entry without what is dropped below it. -/
def prune (drop : Text → Entry → Bool) : Entry → Entry
  | file content => file content
  | link target => link target
  | folder es => folder (pruneIn drop es)

def pruneIn (drop : Text → Entry → Bool) : List (Text × Entry) → List (Text × Entry)
  | [] => []
  | (n, e) :: rest =>
    if drop n e then pruneIn drop rest else (n, e.prune drop) :: pruneIn drop rest

end

theorem pruneIn_eq (drop : Text → Entry → Bool) (es : List (Text × Entry)) :
    pruneIn drop es =
      (es.filter fun q => !drop q.1 q.2).map fun q => (q.1, q.2.prune drop) := by
  induction es with
  | nil => rfl
  | cons q rest ih =>
    obtain ⟨n, e⟩ := q
    rw [pruneIn, ih]
    cases dropped : drop n e <;> simp [dropped]

theorem entries_prune (drop : Text → Entry → Bool) (e : Entry) :
    (e.prune drop).entries = pruneIn drop e.entries := by
  cases e <;> rfl

theorem isFolder_prune : (e.prune drop).isFolder = e.isFolder := by
  cases e <;> rfl

theorem isFile_prune : (e.prune drop).isFile = e.isFile := by
  cases e <;> rfl

theorem isLink_prune : (e.prune drop).isLink = e.isLink := by
  cases e <;> rfl

theorem prune_eq_file {content : Bytes} : e.prune drop = file content ↔ e = file content := by
  cases e <;> simp [prune]

theorem mem_pruneIn {q : Text × Entry} :
    q ∈ pruneIn drop es ↔ ∃ c, (q.1, c) ∈ es ∧ drop q.1 c = false ∧ c.prune drop = q.2 := by
  rw [pruneIn_eq]
  simp only [List.mem_map, List.mem_filter, Bool.not_eq_true']
  constructor
  · rintro ⟨⟨n, c⟩, ⟨inside, kept⟩, rfl⟩
    exact ⟨c, inside, kept, rfl⟩
  · rintro ⟨c, inside, kept, same⟩
    exact ⟨(q.1, c), ⟨inside, kept⟩, Prod.ext rfl same⟩

/-! ### What holds of every folder -/

theorem sublist_pruneIn (drop : Text → Entry → Bool) (es : List (Text × Entry)) :
    ((pruneIn drop es).map Prod.fst).Sublist (es.map Prod.fst) := by
  have names : (pruneIn drop es).map Prod.fst =
      (es.filter fun q => !drop q.1 q.2).map Prod.fst := by
    rw [pruneIn_eq, List.map_map]
    rfl
  rw [names]
  exact List.filter_sublist.map _

theorem each_prune {p : List (Text × Entry) → Prop} (kept : ∀ es, p es → p (pruneIn drop es))
    (each : e.Each p) : (e.prune drop).Each p := by
  induction each with
  | file content => exact .file content
  | link target => exact .link target
  | folder here below ih =>
    refine .folder (kept _ here) ?_
    intro q member
    obtain ⟨c, inside, _, same⟩ := mem_pruneIn.mp member
    rw [← same]
    exact ih (q.1, c) inside

theorem tidy_pruneIn (tidy : Tidy es) : Tidy (pruneIn drop es) :=
  ⟨tidy.ascending.sublist (sublist_pruneIn drop es),
    fun n member => tidy.named n ((sublist_pruneIn drop es).subset member)⟩

theorem tidy_prune (tidy : e.Each Tidy) : (e.prune drop).Each Tidy :=
  each_prune (fun _ => tidy_pruneIn) tidy

theorem linkless_prune (free : e.Each Linkless) : (e.prune drop).Each Linkless := by
  refine each_prune (fun es here => ?_) free
  intro q member
  obtain ⟨c, inside, _, same⟩ := mem_pruneIn.mp member
  rw [← same, isLink_prune]
  exact here (q.1, c) inside

/-! ### Looking up -/

/-- Nothing on the way along segments is dropped. -/
def Keeps (drop : Text → Entry → Bool) : Entry → List Text → Prop
  | _, [] => True
  | e, n :: s => ∀ c, e.child? n = some c → drop n c = false ∧ Keeps drop c s

/-- An entry under the name is never dropped. -/
def Safe (drop : Text → Entry → Bool) (n : Text) : Prop :=
  ∀ c : Entry, c.isLink = false → drop n c = false

theorem keeps_of_safe (free : e.Each Linkless) (safe : ∀ n ∈ s, Safe drop n) : e.Keeps drop s := by
  induction s generalizing e with
  | nil => trivial
  | cons n s ih =>
    intro c child
    refine ⟨safe n List.mem_cons_self c (isLink_of_child? free child), ?_⟩
    exact ih (free.child child) fun m hm => safe m (List.mem_cons_of_mem n hm)

theorem child?_prune (tidy : e.Each Tidy) (n : Text) :
    (e.prune drop).child? n = ((e.child? n).filter (!drop n ·)).map (prune drop) := by
  cases e with
  | file content => rfl
  | link target => rfl
  | folder es =>
    have ascending := (each_folder.mp tidy).1.ascending
    have tidy' : (folder (pruneIn drop es)).Each Tidy := tidy_prune tidy
    have ascending' := (each_folder.mp tidy').1.ascending
    apply Option.ext
    intro c
    rw [show (folder es).prune drop = folder (pruneIn drop es) from rfl,
      child?_eq_some_iff ascending', mem_pruneIn]
    simp only [Option.map_eq_some_iff, Option.filter_eq_some_iff, child?_eq_some_iff ascending,
      Bool.not_eq_true']
    constructor
    · rintro ⟨d, inside, kept, same⟩
      exact ⟨d, ⟨inside, kept⟩, same⟩
    · rintro ⟨d, ⟨inside, kept⟩, same⟩
      exact ⟨d, inside, kept, same⟩

/-- Where nothing on the way is dropped, what is found is found pruned. -/
theorem get?_prune (tidy : e.Each Tidy) (keeps : e.Keeps drop s) :
    (e.prune drop).get? s = (e.get? s).map (prune drop) := by
  induction s generalizing e with
  | nil => rfl
  | cons n s ih =>
    rw [get?_cons, get?_cons, child?_prune tidy]
    cases child : e.child? n with
    | none => rfl
    | some c =>
      obtain ⟨kept, inner⟩ := keeps c child
      simp only [Option.filter_some, kept, Bool.not_false, if_true, Option.map_some,
        Option.bind_some]
      exact ih (tidy.child child) inner

/-- What is found in a pruned tree stood there before, and nothing on the way to it was dropped. -/
theorem get?_of_prune (tidy : e.Each Tidy) (found : (e.prune drop).get? s = some c) :
    e.Keeps drop s ∧ ∃ d, e.get? s = some d ∧ d.prune drop = c := by
  induction s generalizing e with
  | nil =>
    refine ⟨trivial, e, rfl, ?_⟩
    exact Option.some.inj found
  | cons n s ih =>
    rw [get?_cons, child?_prune tidy] at found
    cases child : e.child? n with
    | none => simp [child] at found
    | some d =>
      simp only [child, Option.filter_some] at found
      cases dropped : drop n d with
      | true => simp [dropped] at found
      | false =>
        simp only [dropped, Bool.not_false, if_true, Option.map_some, Option.bind_some] at found
        obtain ⟨keeps, d', inside, same⟩ := ih (tidy.child child) found
        refine ⟨?_, d', ?_, same⟩
        · intro d'' child'
          obtain rfl := Option.some.inj (child.symm.trans child')
          exact ⟨dropped, keeps⟩
        · rw [get?_cons, child]
          exact inside

end RouteAtlas.Entry

namespace RouteAtlas.Tree.Walk

open Entry

variable {drop : Text → Entry → Bool} {w : Walk}
  {onLink : Place → Text → Option Int → List (List Text)}

theorem filesIn_cons (place : Place) (left : Option Int) (q : Text × Entry)
    (es : List (Text × Entry)) : w.filesIn onLink place left (q :: es) =
      w.filesAt onLink place left q.1 q.2 ++ w.filesIn onLink place left es := by
  rw [filesIn_eq, filesIn_eq, List.flatMap_cons]

mutual

/-- Of the files that a filter lets through, a walk lists the same in the pruned tree, if no dropped
folder is entered and no dropped file comes through. -/
theorem filter_filesOf_prune
    (folders : ∀ n es, drop n (.folder es) = true → w.enters n = false)
    (links : ∀ n target, drop n (.link target) = false) (place : Place) (left : Option Int) :
    (e : Entry) → (q : List Text → Bool) →
    (∀ before n content, drop n (.file content) = true → w.wanted n = true →
      q (before ++ [n]) = false) →
    (w.filesOf onLink place left (e.prune drop)).filter q = (w.filesOf onLink place left e).filter q
  | .file _, _, _ => rfl
  | .link _, _, _ => rfl
  | .folder es, q, files => by
    rw [prune, filesOf, filesOf]
    split
    · rfl
    · exact filter_filesIn_prune folders links place left es q files

theorem filter_filesIn_prune
    (folders : ∀ n es, drop n (.folder es) = true → w.enters n = false)
    (links : ∀ n target, drop n (.link target) = false) (place : Place) (left : Option Int) :
    (es : List (Text × Entry)) → (q : List Text → Bool) →
    (∀ before n content, drop n (.file content) = true → w.wanted n = true →
      q (before ++ [n]) = false) →
    (w.filesIn onLink place left (pruneIn drop es)).filter q =
      (w.filesIn onLink place left es).filter q
  | [], _, _ => rfl
  | (n, e) :: rest, q, files => by
    have ih := filter_filesIn_prune folders links place left rest q files
    rw [pruneIn, filesIn_cons, List.filter_append, ← ih]
    split
    · rename_i dropped
      suffices unlisted : (w.filesAt onLink place left n e).filter q = [] by
        rw [unlisted, List.nil_append]
      match e with
      | .link target =>
        rw [links n target] at dropped
        cases dropped
      | .file content =>
        simp only [filesAt]
        split
        · rename_i wanted
          simpa using files [] n content dropped wanted
        · rfl
      | .folder es => simp [filesAt, folders n es dropped]
    · rw [filesIn_cons, List.filter_append]
      congr 1
      match e with
      | .link target => rfl
      | .file content => rfl
      | .folder es =>
        simp only [prune, filesAt]
        split
        · have inner := filter_filesOf_prune folders links (place ++ [n]) (below left) (.folder es)
            (fun s => q (n :: s)) fun before m content => files (n :: before) m content
          rw [prune] at inner
          rw [List.filter_map, List.filter_map]
          exact congrArg (List.map (n :: ·)) inner
        · rfl

end

end RouteAtlas.Tree.Walk
