import RouteAtlas.Proofs.Tree.Arriving
import RouteAtlas.Proofs.Tree.Writing

/-!
# What changes in a tree

Making a folder or changing a file changes what is shown at one place only: `makeFolder_ok` and
`modify_ok` say which. `makeFolders_keeps` says what is left when folders above a path are made, also
where this fails. `Keeps` is what holds of such changes one after another, and paths lead on where they
led before them (`Keeps.stays`).
-/

namespace RouteAtlas

theorem Path.segments_eq {p : Path} (nonempty : p.segments ≠ []) :
    p.segments = p.parent.segments ++ [p.name] := by
  rw [Path.name, List.getLast?_eq_some_getLast nonempty, Option.getD_some, Path.parent,
    List.dropLast_concat_getLast nonempty]

namespace Entry

variable {e c d : Entry} {es : List (Text × Entry)} {here q : Place} {n : Text}

/-- The entry without what a folder holds. -/
def shell : Entry → Entry
  | folder _ => folder []
  | e => e

theorem shell_eq_file {content : Bytes} : e.shell = file content ↔ e = file content := by
  cases e <;> simp [shell]

theorem get?_cons_of_entries (leaf : e.entries = []) (n : Text) (s : Place) :
    e.get? (n :: s) = none := by
  rw [get?_cons, child?, leaf]
  rfl

/-- An entry without entries that is put in the place of such an entry, or of nothing, changes what is
shown at its own place only. -/
theorem shell_alter (stands : e.get? here = some (folder es))
    (old : ∀ d, (folder es).child? n = some d → d.entries = []) (leaf : c.entries = []) :
    ((e.alter (fun _ => some c) (here ++ [n])).get? q).map shell =
      if q = here ++ [n] then some c.shell else (e.get? q).map shell := by
  -- Along the way to the folder the place that is asked for goes the same way, or it branches off.
  induction here generalizing e q with
  | nil =>
    obtain rfl := Option.some.inj stands
    have altered : (folder es).alter (fun _ => some c) [n] = folder (setEntry n (some c) es) := rfl
    rw [List.nil_append, altered]
    cases q with
    | nil => rfl
    | cons m s =>
      rw [get?_cons, get?_cons, child?_setEntry]
      by_cases same : m = n
      · subst same
        rw [if_pos rfl, Option.bind_some]
        cases s with
        | nil => rw [if_pos rfl]; rfl
        | cons k s =>
          rw [get?_cons_of_entries leaf, if_neg (by simp)]
          cases child : (folder es).child? m with
          | none => rfl
          | some d => rw [Option.bind_some, get?_cons_of_entries (old d child)]
      · rw [if_neg same, if_neg fun h => same (List.cons.inj h).1]
  | cons k here ih =>
    obtain ⟨es₀, d, rfl, child, rest⟩ := folder_of_get?_cons stands
    rw [alter_concat_cons child]
    cases q with
    | nil => rfl
    | cons m s =>
      rw [get?_cons, get?_cons, child?_setEntry]
      by_cases same : m = k
      · subst same
        rw [if_pos rfl, child, Option.bind_some, Option.bind_some, ih rest]
        simp only [List.cons_append, List.cons.injEq, true_and]
      · rw [if_neg same, List.cons_append, if_neg fun h => same (List.cons.inj h).1]

end Entry

namespace Tree

open Entry

variable {t t' t'' : Tree} {p : Path} {place q : Place} {c e : Entry} {f : Fault}

/-! ### What is shown -/

/-- What stands at a place, without what a folder holds. -/
def shown (t : Tree) (place : Place) : Option Entry := (t.top.get? place).map shell

theorem shown_eq_file {content : Bytes} :
    t.shown q = some (.file content) ↔ t.top.get? q = some (.file content) := by
  rw [shown]
  cases t.top.get? q with
  | none => simp
  | some e => simp [shell_eq_file]

theorem shown_eq_folder :
    t.shown q = some (.folder []) ↔ ∃ es, t.top.get? q = some (.folder es) := by
  rw [shown]
  cases t.top.get? q with
  | none => simp
  | some e => cases e <;> simp [shell]

theorem shown_eq_none : t.shown q = none ↔ t.top.get? q = none := by
  rw [shown, Option.map_eq_none_iff]

/-- A file or a folder can be put at the place: a file stands there, or nothing in a folder. -/
inductive Fits (t : Tree) : Place → Prop where
  | file {place : Place} {old : Bytes} (stands : t.top.get? place = some (.file old)) : Fits t place
  | free {here : Place} {n : Text} {es : List (Text × Entry)}
      (stands : t.top.get? here = some (.folder es)) (absent : (Entry.folder es).child? n = none) :
      Fits t (here ++ [n])

theorem shown_set (fits : t.Fits place) (leaf : c.entries = []) (q : Place) :
    (t.set place (some c)).shown q = if q = place then some c.shell else t.shown q := by
  cases fits with
  | @free here n es stands absent =>
    exact shell_alter stands (fun d child => by rw [absent] at child; cases child) leaf
  | @file place old stands =>
    rcases List.eq_nil_or_concat place with rfl | ⟨here, n, rfl⟩
    · have top : t.top = .file old := Option.some.inj stands
      have altered : (t.set [] (some c)).top = c := rfl
      cases q with
      | nil => rfl
      | cons m s =>
        rw [shown, shown, altered, top, get?_cons_of_entries leaf, get?_cons_of_entries rfl,
          if_neg (by simp)]
    · rw [List.concat_eq_append] at stands ⊢
      obtain ⟨es, folder, child⟩ := folder_of_get?_concat stands
      refine shell_alter folder (fun d found => ?_) leaf
      obtain rfl := Option.some.inj (child.symm.trans found)
      rfl

/-! ### What is kept -/

/-- What may become of what is shown at a place while no document is written: a folder may be made
where `new` holds, and the file at the place `log` may be started and may grow. -/
inductive Kept (new : Place → Prop) (log : Option Place) (place : Place) :
    Option Entry → Option Entry → Prop where
  | same (e : Option Entry) : Kept new log place e e
  | made (inside : new place) : Kept new log place none (some (.folder []))
  | started (kept : log = some place) (content : Bytes) :
      Kept new log place none (some (.file content))
  | grown (kept : log = some place) (content more : Bytes) :
      Kept new log place (some (.file content)) (some (.file (content ++ more)))

variable {new new' : Place → Prop} {log log' : Option Place}

theorem Kept.mono {a b : Option Entry} (folders : new q → new' q)
    (logs : log = some q → log' = some q) (kept : Kept new log q a b) : Kept new' log' q a b := by
  cases kept with
  | same => exact .same _
  | made inside => exact .made (folders inside)
  | started kept content => exact .started (logs kept) content
  | grown kept content more => exact .grown (logs kept) content more

theorem Kept.of_some {a : Entry} {b : Option Entry} (kept : Kept new log q (some a) b) :
    b = some a ∨
      ∃ content more, log = some q ∧ a = .file content ∧ b = some (.file (content ++ more)) := by
  cases kept with
  | same => exact .inl rfl
  | grown kept content more => exact .inr ⟨content, more, kept, rfl, rfl⟩

theorem Kept.trans {a b c : Option Entry} (first : Kept new log q a b)
    (second : Kept new log q b c) : Kept new log q a c := by
  cases first with
  | same => exact second
  | made inside =>
    cases second with
    | same => exact .made inside
  | started kept content =>
    cases second with
    | same => exact .started kept content
    | grown _ _ more => exact .started kept _
  | grown kept content more =>
    cases second with
    | same => exact .grown kept content more
    | grown _ _ more' =>
      rw [List.append_assoc]
      exact .grown kept content _

/-- What has become of a place where nothing but a file stands later. -/
theorem Kept.stood {a b : Option Entry} (kept : Kept new log q a b)
    (stands : b = none ∨ ∃ content, b = some (.file content)) :
    a = none ∨ ∃ content, a = some (.file content) := by
  cases kept with
  | same => exact stands
  | made | started => exact .inl rfl
  | grown => exact .inr ⟨_, rfl⟩

/-- Between the two trees nothing is lost, folders are made only where `new` holds, and of all files
only the one at the place `log` is started or grows. -/
structure Keeps (new : Place → Prop) (log : Option Place) (t t' : Tree) : Prop where
  here : t'.here = t.here
  places : ∀ place, Kept new log place (t.shown place) (t'.shown place)

theorem Keeps.refl (t : Tree) : Keeps new log t t := ⟨rfl, fun _ => .same _⟩

theorem Keeps.trans (first : Keeps new log t t') (second : Keeps new log t' t'') :
    Keeps new log t t'' :=
  ⟨second.here.trans first.here, fun q => (first.places q).trans (second.places q)⟩

theorem Keeps.mono (folders : ∀ q, new q → new' q) (logs : ∀ q, log = some q → log' = some q)
    (keeps : Keeps new log t t') : Keeps new' log' t t' :=
  ⟨keeps.here, fun q => (keeps.places q).mono (folders q) (logs q)⟩

/-! ### Where paths lead -/

theorem isFolder_shell (e : Entry) : e.shell.isFolder = e.isFolder := by
  cases e <;> rfl

theorem shell_eq_link {target : Text} : e.shell = .link target ↔ e = .link target := by
  cases e <;> simp [shell]

theorem stays_of_shown (same : ∀ q e, t.shown q = some e → ∃ e', t'.shown q = some e' ∧
    e'.isFolder = e.isFolder ∧ ∀ target, e' = .link target ↔ e = .link target) :
    Stays t.top t'.top := by
  intro q e stands
  obtain ⟨_, there, isFolder, links⟩ := same q e.shell (by rw [shown, stands]; rfl)
  obtain ⟨e', stands', rfl⟩ := Option.map_eq_some_iff.mp there
  refine ⟨e', stands', ?_, fun target => ?_⟩
  · rw [← isFolder_shell, isFolder, isFolder_shell]
  · rw [← shell_eq_link, links, shell_eq_link]

theorem Keeps.stays (keeps : Keeps new log t t') : Stays t.top t'.top := by
  refine stays_of_shown fun q e there => ?_
  have kept := keeps.places q
  rw [there] at kept
  rcases kept.of_some with same | ⟨content, more, _, rfl, after⟩
  · exact ⟨e, same, rfl, fun _ => Iff.rfl⟩
  · exact ⟨_, after, rfl, fun _ => ⟨nofun, nofun⟩⟩

theorem Keeps.find_file {content : Bytes} (keeps : Keeps new log t t')
    (found : t.find p = .ok (place, .file content)) :
    ∃ more, t'.find p = .ok (place, .file (content ++ more)) ∧ (log ≠ some place → more = []) := by
  obtain ⟨links, arrived⟩ := arrive_of_find found
  have stands : t.top.get? place = some (.file content) := (landed_arrive arrived).2
  have goes {after : Bytes} (there : t'.shown place = some (.file after)) :
      t'.find p = .ok (place, .file after) :=
    find_of_arrive keeps.here keeps.stays arrived (shown_eq_file.mp there) rfl
  have kept := keeps.places place
  rw [shown_eq_file.mpr stands] at kept
  rcases kept.of_some with same | ⟨_, more, logged, before, after⟩
  · refine ⟨[], goes ?_, fun _ => rfl⟩
    rw [same, List.append_nil]
  · cases before
    exact ⟨more, goes after, fun other => absurd logged other⟩

/-! ### One place -/

/-- The second tree is the first one with an entry put at a place. -/
structure Puts (t t' : Tree) (place : Place) (e : Entry) : Prop where
  here : t'.here = t.here
  shows : ∀ q, t'.shown q = if q = place then some e else t.shown q

theorem puts_set (fits : t.Fits place) (leaf : c.entries = []) :
    Puts t (t.set place (some c)) place c.shell := ⟨rfl, shown_set fits leaf⟩

theorem Puts.there (puts : Puts t t' place e) : t'.shown place = some e := by
  rw [puts.shows, if_pos rfl]

theorem Puts.keeps (puts : Puts t t' place e) (kept : Kept new log place (t.shown place) (some e)) :
    Keeps new log t t' := by
  refine ⟨puts.here, fun q => ?_⟩
  rw [puts.shows]
  split
  · rename_i same
    rw [same]
    exact kept
  · exact .same _

/-- A file that takes the place of a file, or of nothing, does not change where paths lead. -/
theorem Puts.stays {content : Bytes} (puts : Puts t t' place (.file content))
    (stood : t.shown place = none ∨ ∃ old, t.shown place = some (.file old)) :
    Stays t.top t'.top := by
  refine stays_of_shown fun q e there => ?_
  rw [puts.shows]
  split
  · rename_i same
    rw [same] at there
    rcases stood with stood | ⟨old, stood⟩
    · cases stood.symm.trans there
    · cases stood.symm.trans there
      exact ⟨_, rfl, rfl, fun _ => ⟨nofun, nofun⟩⟩
  · exact ⟨e, there, rfl, fun _ => Iff.rfl⟩

/-- A change that succeeds puts a file where the path leads then, in the place of a file or of
nothing. -/
theorem modify_ok {change : Bytes → Bytes} (changed : t.modify p change = .ok t') :
    ∃ place old, (t.shown place = some (.file old) ∨ old = [] ∧ t.shown place = none) ∧
      Puts t t' place (.file (change old)) ∧ t'.find p = .ok (place, .file (change old)) := by
  -- A file that is there and a free name end alike: the file is put where the path arrives.
  have ends {a : Arrival} {old : Bytes} (arrived : t.arrive true p = .ok a) (fits : t.Fits a.place)
      (stood : t.shown a.place = some (.file old) ∨ old = [] ∧ t.shown a.place = none)
      (same : t' = t.set a.place (some (.file (change old)))) :
      ∃ place old, (t.shown place = some (.file old) ∨ old = [] ∧ t.shown place = none) ∧
        Puts t t' place (.file (change old)) ∧ t'.find p = .ok (place, .file (change old)) := by
    have puts := puts_set (c := .file (change old)) fits rfl
    rw [← same] at puts
    have stays := puts.stays (stood.symm.imp And.right fun there => ⟨old, there⟩)
    exact ⟨a.place, old, stood, puts,
      find_of_arrive puts.here stays arrived (shown_eq_file.mp puts.there) rfl⟩
  unfold modify at changed
  split at changed
  · rename_i place old left arrived
    have stands : t.top.get? place = some (.file old) := (landed_arrive arrived).2
    exact ends arrived (.file stands) (.inl (shown_eq_file.mpr stands)) (Except.ok.inj changed).symm
  · cases changed
  · rename_i place arrived
    obtain ⟨here, n, es, rfl, stands, absent⟩ := (landed_arrive arrived).2
    have free : t.shown (here ++ [n]) = none := by
      rw [shown_eq_none, get?_below stands, absent]
    exact ends arrived (.free stands absent) (.inr ⟨rfl, free⟩) (Except.ok.inj changed).symm
  · cases changed

theorem append_ok {more : Bytes} (appended : t.append p more = .ok t') :
    ∃ place content, t'.find p = .ok (place, .file content) ∧
      Keeps (fun _ => False) (some place) t t' := by
  obtain ⟨place, old, stood, puts, found⟩ := modify_ok appended
  refine ⟨place, old ++ more, found, puts.keeps ?_⟩
  rcases stood with there | ⟨rfl, free⟩
  · rw [there]
    exact .grown rfl old more
  · rw [free]
    exact .started rfl _

/-! ### Folders -/

theorem follow_singleton {top : Entry} {links : Nat} {es : List (Text × Entry)} {n : Text}
    (stands : top.get? place = some (.folder es)) (plain : n ≠ [] ∧ n ≠ ['.'])
    (noUp : n ≠ ['.', '.']) (short : isTooLong n = false)
    (child : (Entry.folder es).child? n = some c) (linkless : c.isLink = false) :
    top.follow false links place [n] = .ok (.entry (place ++ [n]) c links) := by
  have inside := get?_concat stands child
  have step (onLink : Place → List Text → Except Fault Arrival) :
      top.followSegments false links onLink place [n] = .ok (.entry (place ++ [n]) c links) := by
    rw [followSegments_cons]
    simp only [stands, Entry.isFolder, plain, noUp, short, child, or_self, Bool.not_true,
      Bool.false_eq_true, if_false]
    cases c with
    | link => cases linkless
    | _ => rw [followSegments, inside]
  cases links with
  | zero => exact step _
  | succ links => exact step _

/-- A path leads to the entry of its name in the folder that the path above it leads to. -/
theorem find_name {es : List (Text × Entry)} (found : t.find p.parent = .ok (place, .folder es))
    (noNull : hasNull p = false) (nonempty : p.segments ≠ []) (plain : p.name ≠ [] ∧ p.name ≠ ['.'])
    (noUp : p.name ≠ ['.', '.']) (short : isTooLong p.name = false)
    (child : (Entry.folder es).child? p.name = some c) (linkless : c.isLink = false) :
    t.find p = .ok (place ++ [p.name], c) := by
  obtain ⟨links, arrived⟩ := arrive_of_find found
  rw [arrive, (landed_arrive arrived).1] at arrived
  obtain ⟨stands, goes⟩ := reached_follow arrived
  have whole : t.top.follow false mostLinks (t.origin p) p.segments =
      t.top.follow false links place [p.name] := by
    rw [Path.segments_eq nonempty]
    exact goes [p.name]
  rw [find, arrive, noNull, if_neg Bool.false_ne_true, whole,
    follow_singleton stands plain noUp short child linkless]

/-- A folder is made where nothing was, and the path leads there if its last segment does not ask for
the folder that it stands in. -/
theorem makeFolder_ok (made : t.makeFolder p = .ok t') :
    ∃ place, t.shown place = none ∧ Puts t t' place (.folder []) ∧
      ((∀ n ∈ p.segments, n ≠ [] ∧ n ≠ ['.']) → ∃ es, t'.find p = .ok (place, .folder es)) := by
  unfold makeFolder at made
  split at made
  · cases made
  rename_i noNull
  split at made
  · cases made
  rename_i here e found
  split at made
  · cases made
  rename_i folder
  split at made
  · cases made
  rename_i named
  split at made
  · cases made
  rename_i short
  split at made
  · cases made
  rename_i absent
  have same := Except.ok.inj made
  cases e with
  | folder es =>
    obtain ⟨_, arrived⟩ := arrive_of_find found
    have stands : t.top.get? here = some (.folder es) := (landed_arrive arrived).2
    have absent : (Entry.folder es).child? p.name = none := by simpa using absent
    have free : t.shown (here ++ [p.name]) = none := by
      rw [shown_eq_none, get?_below stands, absent]
    have puts := puts_set (c := .folder []) (.free stands absent) rfl
    rw [same] at puts
    refine ⟨here ++ [p.name], free, puts, fun plain => ?_⟩
    obtain ⟨nonempty, noUp⟩ := not_or.mp named
    have keeps : Keeps (fun _ => True) none t t' := puts.keeps (by rw [free]; exact .made trivial)
    obtain ⟨es', found'⟩ := find_of_stays puts.here keeps.stays found
    obtain ⟨_, arrived'⟩ := arrive_of_find found'
    have stands' : t'.top.get? here = some (.folder es') := (landed_arrive arrived').2
    obtain ⟨inner, there⟩ := shown_eq_folder.mp puts.there
    rw [get?_below stands'] at there
    have last : p.name ∈ p.segments := by
      rw [Path.segments_eq nonempty]
      exact List.mem_append_right _ List.mem_cons_self
    exact ⟨inner, find_name found' (by simpa using noNull) nonempty (plain _ last) noUp
      (by simpa using short) there rfl⟩
  | _ => cases folder rfl

/-- No segment asks for the folder that it stands in. -/
def Plain (p : Path) : Prop := ∀ n ∈ p.segments, n ≠ [] ∧ n ≠ ['.']

theorem Plain.parent (plain : Plain p) : Plain p.parent := fun n member =>
  plain n (List.dropLast_subset _ member)

/-- At the place stands a folder that the beginning of a path leads to. -/
def Above (t : Tree) (p : Path) (q : Place) : Prop :=
  ∃ s, s <+: p.segments ∧ ∃ es, t.find ⟨p.root, s⟩ = .ok (q, .folder es)

theorem Above.stays (above : t.Above p q) (here : t'.here = t.here) (stays : Stays t.top t'.top) :
    t'.Above p q := by
  obtain ⟨s, beginning, es, found⟩ := above
  exact ⟨s, beginning, find_of_stays here stays found⟩

theorem Above.of_parent (above : t.Above p.parent q) : t.Above p q := by
  obtain ⟨s, beginning, found⟩ := above
  exact ⟨s, beginning.trans (List.dropLast_prefix _), found⟩

theorem makeFolder_keeps (plain : Plain p) (made : t.makeFolder p = .ok t') :
    Keeps (t'.Above p) log t t' := by
  obtain ⟨place, free, puts, found⟩ := makeFolder_ok made
  refine puts.keeps ?_
  rw [free]
  exact .made ⟨p.segments, List.prefix_rfl, found plain⟩

theorem acceptPresent_fst (t : Tree) (p : Path) (f : Fault) : (t.acceptPresent p f).1 = t := by
  unfold acceptPresent
  split
  · rfl
  · split <;> rfl

/-- Whether or not all folders of a path can be made, nothing but some of them is made. -/
theorem makeFoldersGo_keeps {fuel : Nat} (plain : Plain p) :
    Keeps ((makeFoldersGo fuel t p).1.Above p) log t (makeFoldersGo fuel t p).1 := by
  induction fuel generalizing t p with
  | zero =>
    unfold makeFoldersGo
    split
    · exact makeFolder_keeps plain ‹_›
    · exact .refl t
    · rw [acceptPresent_fst]
      exact .refl t
  | succ fuel ih =>
    -- The folder above is made first, and then the folder itself is tried again.
    have above := (@ih t p.parent plain.parent).mono (fun q => Above.of_parent) fun _ => id
    unfold makeFoldersGo
    split
    · exact makeFolder_keeps plain ‹_›
    · dsimp only
      split
      · rename_i upper
        rw [upper] at above
        exact above
      · rename_i upper
        rw [upper] at above
        split
        · rename_i made
          have own : Keeps _ log _ _ := makeFolder_keeps plain made
          exact (above.mono (fun q above => above.stays own.here own.stays) fun _ => id).trans own
        · exact above
        · rw [acceptPresent_fst]
          exact above
    · rw [acceptPresent_fst]
      exact .refl t

theorem makeFolders_keeps (plain : Plain p) :
    Keeps ((t.makeFolders p).1.Above p) log t (t.makeFolders p).1 := makeFoldersGo_keeps plain

end Tree
end RouteAtlas
