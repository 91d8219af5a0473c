import Mathlib.Data.List.Sort
import RouteAtlas.Tree.Write
import RouteAtlas.Proofs.Tree.Lookup
import RouteAtlas.Proofs.Tree.Pruning

/-!
# Writing without links

A file that is written into a folder is found there, the tree stays orderly and without links, and a
pruned tree does not show it if it is dropped there (`prune_alter`). Writing it once more changes
nothing.
-/

namespace RouteAtlas

namespace Entry

variable {drop : Text → Entry → Bool} {p : List (Text × Entry) → Prop} {e c d : Entry}
  {es es' : List (Text × Entry)} {m n : Text} {here : Place} {s : List Text}

/-! ### One folder -/

theorem eq_of_child? (tidy : Tidy es) (tidy' : Tidy es')
    (same : ∀ n, (folder es).child? n = (folder es').child? n) : es = es' := by
  let before (q r : Text × Entry) : Prop := q.1 < r.1
  have irrefl : Std.Irrefl before := ⟨fun q => List.lt_irrefl q.1⟩
  have ascending : es.Pairwise before := List.pairwise_map.mp tidy.ascending
  have ascending' : es'.Pairwise before := List.pairwise_map.mp tidy'.ascending
  refine ascending.eq_of_mem_iff ascending' fun q => ?_
  rw [← child?_eq_some_iff tidy.ascending, ← child?_eq_some_iff tidy'.ascending, same]

theorem child?_setEntry (n m : Text) (c : Entry) (es : List (Text × Entry)) :
    (folder (setEntry n (some c) es)).child? m =
      if m = n then some c else (folder es).child? m := by
  split
  · rename_i same
    rw [same]
    exact lookup_setEntry_self n c es
  · rename_i other
    exact lookup_setEntry_of_ne other (some c) es

theorem mem_setEntry {q : Text × Entry} (member : q ∈ setEntry n (some c) es) :
    q = (n, c) ∨ q ∈ es := by
  induction es with
  | nil => exact .inl (List.mem_singleton.mp member)
  | cons r es ih =>
    obtain ⟨m, d⟩ := r
    rw [setEntry] at member
    split at member
    · rcases List.mem_cons.mp member with same | inside
      · exact .inl same
      · exact .inr (List.mem_cons_of_mem _ inside)
    · split at member
      · rcases List.mem_cons.mp member with same | inside
        · exact .inl same
        · exact .inr inside
      · rcases List.mem_cons.mp member with rfl | inside
        · exact .inr List.mem_cons_self
        · rcases ih inside with same | inside
          · exact .inl same
          · exact .inr (List.mem_cons_of_mem _ inside)

theorem tidy_setEntry (tidy : Tidy es) (named : IsName n) (c : Entry) :
    Tidy (setEntry n (some c) es) := by
  refine ⟨?_, fun m member => ?_⟩
  · have ascending := tidy.ascending
    clear tidy
    induction es with
    | nil => exact List.pairwise_singleton _ _
    | cons r es ih =>
      obtain ⟨m, d⟩ := r
      obtain ⟨first, rest⟩ := List.pairwise_cons.mp ascending
      rw [setEntry]
      split
      · rename_i same
        subst same
        exact ascending
      · rename_i other
        split
        · rename_i less
          refine List.pairwise_cons.mpr ⟨fun k member => ?_, ascending⟩
          rcases List.mem_cons.mp member with rfl | member
          · exact less
          · exact List.lt_trans less (first k member)
        · rename_i notLess
          refine List.pairwise_cons.mpr ⟨fun k member => ?_, ih rest⟩
          obtain ⟨q, inside, rfl⟩ := List.mem_map.mp member
          rcases mem_setEntry inside with rfl | inside
          · exact Std.lt_of_le_of_ne (Std.not_lt.mp notLess) (Ne.symm other)
          · exact first q.1 (List.mem_map_of_mem inside)
  · obtain ⟨q, inside, rfl⟩ := List.mem_map.mp member
    rcases mem_setEntry inside with rfl | inside
    · exact named
    · exact tidy.named q.1 (List.mem_map_of_mem inside)

theorem linkless_setEntry (free : Linkless es) (linkless : c.isLink = false) :
    Linkless (setEntry n (some c) es) := by
  intro q member
  rcases mem_setEntry member with rfl | inside
  · exact linkless
  · exact free q inside

theorem setEntry_of_child? (tidy : Tidy es) (found : (folder es).child? n = some c) :
    setEntry n (some c) es = es := by
  have named : IsName n := tidy.named n (List.mem_map_of_mem (mem_of_child? found))
  refine eq_of_child? (tidy_setEntry tidy named c) tidy fun m => ?_
  rw [child?_setEntry]
  split
  · rename_i same
    rw [same, found]
  · rfl

/-- A folder that shows the same under a name after pruning is pruned to the same. -/
theorem pruneIn_setEntry (tidy : (folder es).Each Tidy) (inner : c.Each Tidy) (named : IsName n)
    (shows : ((some c).filter (!drop n ·)).map (prune drop) =
      (((folder es).child? n).filter (!drop n ·)).map (prune drop)) :
    pruneIn drop (setEntry n (some c) es) = pruneIn drop es := by
  have here := (each_folder.mp tidy).1
  have tidy' : (folder (setEntry n (some c) es)).Each Tidy := by
    refine .folder (tidy_setEntry here named c) fun q member => ?_
    rcases mem_setEntry member with rfl | inside
    · exact inner
    · exact (each_folder.mp tidy).2 q inside
  -- Both folders are in order, and so it is enough to look up every name in them.
  refine eq_of_child? (tidy_pruneIn (tidy_setEntry here named c)) (tidy_pruneIn here) fun m => ?_
  have pruned := @child?_prune drop _ tidy m
  have pruned' := @child?_prune drop _ tidy' m
  rw [prune] at pruned pruned'
  rw [pruned, pruned', child?_setEntry]
  split
  · rename_i same
    subst same
    exact shows
  · rfl

/-! ### At a place -/

theorem alter_concat_cons {change : Option Entry → Option Entry}
    (found : (folder es).child? m = some d) : (folder es).alter change (m :: here ++ [n]) =
      folder (setEntry m (some (d.alter change (here ++ [n]))) es) := by
  have looked : es.lookup m = some d := found
  cases here <;> simp [alter, looked]

/-- A file put into a folder is in the folder, which is a folder still. -/
theorem alter_concat (stands : e.get? here = some (folder es)) (c : Entry) :
    ∃ es', e.alter (fun _ => some c) (here ++ [n]) = folder es' ∧
      (folder es').get? (here ++ [n]) = some c := by
  induction here generalizing e with
  | nil =>
    obtain rfl := Option.some.inj stands
    refine ⟨setEntry n (some c) es, rfl, ?_⟩
    rw [List.nil_append, get?_singleton, child?_setEntry, if_pos rfl]
  | cons m here ih =>
    obtain ⟨es₀, d, rfl, child, rest⟩ := folder_of_get?_cons stands
    obtain ⟨es', altered, inside⟩ := ih rest
    refine ⟨_, alter_concat_cons child, ?_⟩
    rw [List.cons_append, get?_cons, child?_setEntry, if_pos rfl, altered]
    exact inside

/-- What holds of every folder holds still, if it is kept where an entry is put. -/
theorem each_alter (ok : Text → Entry → Prop) (tidy : e.Each Tidy) (each : e.Each p)
    (stands : e.get? here = some (folder es)) (final : c.Each p) (last : ok n c)
    (inner : ∀ m es, IsName m → ok m (folder es))
    (kept : ∀ es m c, p es → ok m c → p (setEntry m (some c) es)) :
    (e.alter (fun _ => some c) (here ++ [n])).Each p := by
  have put {es : List (Text × Entry)} {m : Text} {d : Entry} (each : (folder es).Each p)
      (fits : ok m d) (inside : d.Each p) : (folder (setEntry m (some d) es)).Each p := by
    obtain ⟨here, below⟩ := each_folder.mp each
    refine .folder (kept es m d here fits) fun q member => ?_
    rcases mem_setEntry member with rfl | old
    · exact inside
    · exact below q old
  induction here generalizing e with
  | nil =>
    obtain rfl := Option.some.inj stands
    exact put each last final
  | cons m here ih =>
    obtain ⟨es₀, d, rfl, child, rest⟩ := folder_of_get?_cons stands
    -- The folder on the way is put back under the name that it has.
    have named : IsName m :=
      (each_folder.mp tidy).1.named m (List.mem_map_of_mem (mem_of_child? child))
    have below := ih (tidy.child child) (each.child child) rest
    obtain ⟨es', altered, _⟩ := alter_concat (n := n) rest c
    rw [alter_concat_cons child]
    rw [altered] at below ⊢
    exact put each (inner m es' named) below

theorem tidy_alter (tidy : e.Each Tidy) (stands : e.get? here = some (folder es)) (named : IsName n)
    (content : Bytes) : (e.alter (fun _ => some (file content)) (here ++ [n])).Each Tidy :=
  each_alter (fun m _ => IsName m) tidy tidy stands (.file content) named
    (fun _ _ named => named) fun _ _ c tidy named => tidy_setEntry tidy named c

theorem linkless_alter (tidy : e.Each Tidy) (free : e.Each Linkless)
    (stands : e.get? here = some (folder es)) (content : Bytes) :
    (e.alter (fun _ => some (file content)) (here ++ [n])).Each Linkless :=
  each_alter (fun _ c => c.isLink = false) tidy free stands (.file content) rfl
    (fun _ _ _ => rfl) fun _ _ _ => linkless_setEntry

theorem alter_of_get? (tidy : e.Each Tidy) (found : e.get? (here ++ [n]) = some c) :
    e.alter (fun _ => some c) (here ++ [n]) = e := by
  induction here generalizing e with
  | nil =>
    rw [List.nil_append, get?_singleton] at found
    obtain ⟨es, rfl⟩ := isFolder_of_child? found
    exact congrArg folder (setEntry_of_child? (each_folder.mp tidy).1 found)
  | cons m here ih =>
    obtain ⟨es, d, rfl, child, rest⟩ := folder_of_get?_cons found
    rw [alter_concat_cons child, ih (tidy.child child) rest]
    exact congrArg folder (setEntry_of_child? (each_folder.mp tidy).1 child)

/-- Where a file is dropped, a pruned tree does not show that it was put there. -/
theorem prune_alter (folders : ∀ m es, drop m (folder es) = false) (tidy : e.Each Tidy)
    (stands : e.get? here = some (folder es)) (named : IsName n) {content : Bytes}
    (dropped : drop n (file content) = true)
    (old : ∀ d, (folder es).child? n = some d → drop n d = true) :
    (e.alter (fun _ => some (file content)) (here ++ [n])).prune drop = e.prune drop := by
  induction here generalizing e with
  | nil =>
    obtain rfl := Option.some.inj stands
    refine congrArg folder (pruneIn_setEntry tidy (.file content) named ?_)
    cases child : (folder es).child? n with
    | none => simp only [Option.filter_some, dropped, Bool.not_true]; rfl
    | some d => simp only [Option.filter_some, dropped, old d child]; rfl
  | cons m here ih =>
    obtain ⟨es₀, d, rfl, child, rest⟩ := folder_of_get?_cons stands
    have same := ih (tidy.child child) rest
    have tidy' := tidy_alter (tidy.child child) rest named content
    have name : IsName m :=
      (each_folder.mp tidy).1.named m (List.mem_map_of_mem (mem_of_child? child))
    obtain ⟨es', altered, _⟩ := alter_concat (n := n) rest (file content)
    obtain ⟨es₁, rfl⟩ := isFolder_of_get? rest
    rw [alter_concat_cons child]
    rw [altered] at same tidy' ⊢
    refine congrArg folder (pruneIn_setEntry tidy tidy' name ?_)
    rw [child, Option.filter_some, Option.filter_some, folders, folders]
    exact congrArg some same

end Entry

namespace Tree

open Entry

variable {t t' : Tree} {es : List (Text × Entry)} {n : Text} {content : Bytes}

/-! ### In the folder that a tree is seen from -/

theorem folder_of_arrive {a : Arrival} (arrived : t.arrive true ⟨[], [n]⟩ = .ok a) :
    '\x00' ∉ n ∧ ∃ es, t.top.get? t.here = some (.folder es) := by
  have opened : t.top.follow true mostLinks t.here [n] =
      t.top.followSegments true mostLinks (t.top.follow true 39) t.here [n] := rfl
  have origin : t.origin ⟨[], [n]⟩ = t.here := rfl
  rw [arrive] at arrived
  split at arrived
  · cases arrived
  · rename_i noNull
    refine ⟨by simpa [hasNull] using noNull, ?_⟩
    rw [origin, opened, followSegments] at arrived
    split at arrived
    · cases arrived
    · rename_i e stands
      cases e with
      | folder es => exact ⟨es, stands⟩
      | _ => cases arrived

theorem arrive_here (free : t.top.Each Linkless) (stands : t.top.get? t.here = some (.folder es))
    (nonempty : n ≠ []) (noDots : n ≠ ['.'] ∧ n ≠ ['.', '.']) (noNull : '\x00' ∉ n) :
    t.arrive true ⟨[], [n]⟩ = if isTooLong n then .error .nameTooLong else
      match (Entry.folder es).child? n with
      | none => .ok (.vacant (t.here ++ [n]))
      | some c => .ok (.entry (t.here ++ [n]) c mostLinks) := by
  have opened : t.top.follow true mostLinks t.here [n] =
      t.top.followSegments true mostLinks (t.top.follow true 39) t.here [n] := rfl
  have null : hasNull ⟨[], [n]⟩ = false := by simpa [hasNull] using noNull
  have origin : t.origin ⟨[], [n]⟩ = t.here := rfl
  rw [arrive, null, origin, opened, followSegments, stands]
  simp only [Entry.isFolder, nonempty, noDots, Bool.not_true, Bool.false_eq_true, if_false, or_self,
    List.cons_ne_self, List.nil_eq, and_false]
  split
  · rfl
  · cases child : (Entry.folder es).child? n with
    | none => simp
    | some c =>
      have inside := get?_concat stands child
      cases c with
      | link target => cases isLink_of_child? (free.get stands) child
      | _ => simp [followSegments, inside]

/-- A file is written under a name in an existing folder, in the place of a file if of anything. -/
theorem write_ok (free : t.top.Each Linkless) (noSlash : '/' ∉ n) (nonempty : n ≠ [])
    (noDots : n ≠ ['.'] ∧ n ≠ ['.', '.']) (written : t.write ⟨[], [n]⟩ content = .ok t') :
    ∃ es, t.top.get? t.here = some (.folder es) ∧ IsName n ∧
      (∀ d, (Entry.folder es).child? n = some d → d.isFile = true) ∧
      t' = t.set (t.here ++ [n]) (some (.file content)) := by
  unfold write Tree.modify at written
  cases arrived : t.arrive true ⟨[], [n]⟩ with
  | error f => simp [arrived] at written
  | ok a =>
    obtain ⟨noNull, es, stands⟩ := folder_of_arrive arrived
    rw [arrive_here free stands nonempty noDots noNull] at written
    cases long : isTooLong n with
    | true => simp [long] at written
    | false =>
      have named : IsName n := ⟨nonempty, noSlash, noNull, noDots, long⟩
      refine ⟨es, stands, named, ?_⟩
      cases child : (Entry.folder es).child? n with
      | none =>
        simp only [long, child, Bool.false_eq_true, if_false] at written
        cases written
        exact ⟨nofun, rfl⟩
      | some c =>
        simp only [long, child, Bool.false_eq_true, if_false] at written
        cases c with
        | file old =>
          cases written
          refine ⟨fun d found => ?_, rfl⟩
          cases found
          rfl
        | _ => cases written

/-- Writing what a file holds already changes nothing. -/
theorem write_again (tidy : t.top.Each Tidy) (free : t.top.Each Linkless)
    (there : t.top.get? (t.here ++ [n]) = some (.file content)) :
    t.write ⟨[], [n]⟩ content = .ok t := by
  have named : IsName n := isName_of_get? tidy there n (by simp)
  have same := alter_of_get? tidy there
  obtain ⟨es, stands, child⟩ := folder_of_get?_concat there
  unfold write Tree.modify
  rw [arrive_here free stands named.nonempty named.noDots named.noNull]
  simp only [named.short, child, Bool.false_eq_true, if_false, set, same]

theorem find_here (t : Tree) : t.find ⟨[], []⟩ = match t.top.get? t.here with
    | some e => .ok (t.here, e)
    | none => .error .missing := by
  have opened : t.arrive false ⟨[], []⟩ =
      t.top.followSegments false mostLinks (t.top.follow false 39) t.here [] := rfl
  rw [find, opened, followSegments]
  cases t.top.get? t.here <;> rfl

/-- No folders have to be made for a file in the folder that a tree is seen from. -/
theorem makeFolders_here : t.makeFolders ⟨[], []⟩ = (t', none) ↔
    t' = t ∧ ∃ es, t.top.get? t.here = some (.folder es) := by
  have parent : Path.parent ⟨[], []⟩ = ⟨[], []⟩ := rfl
  have tested : t.isFolder ⟨[], []⟩ = .ok ((t.top.get? t.here).any Entry.isFolder) := by
    rw [Tree.isFolder, test, find_here]
    cases t.top.get? t.here <;> rfl
  rw [makeFolders, List.length_nil]
  unfold makeFoldersGo
  rw [makeFolder, parent, find_here]
  unfold acceptPresent
  rw [tested]
  cases stands : t.top.get? t.here with
  | none => simp [hasNull]
  | some e =>
    cases e with
    | folder es => simp [hasNull, Entry.isFolder, eq_comm]
    | _ => simp [hasNull, Entry.isFolder]

end Tree
end RouteAtlas
