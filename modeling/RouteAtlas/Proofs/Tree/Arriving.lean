import RouteAtlas.Proofs.Tree.Orderly

/-!
# Where paths arrive

`Landed` says what stands where segments arrive, for looking there or for making a file there. They lead
there still when more has come into being (`stays_follow`), and so does a path (`find_of_arrive`).
-/

namespace RouteAtlas

def Arrival.place : Arrival → Place
  | .entry place _ _ => place
  | .vacant place => place

namespace Entry

variable {top top' : Entry} {making : Bool} {links : Nat} {place : Place} {s : List Text}
  {a : Arrival} {onLink onLink' : Place → List Text → Except Fault Arrival}

/-! ### One step -/

/-- One step on the way of a path that arrives: it stays, goes up, goes into an entry, goes on behind a
link, or ends at a free name. -/
theorem step_of_followSegments {n : Text}
    (arrived : top.followSegments making links onLink place (n :: s) = .ok a) :
    ∃ es, top.get? place = some (folder es) ∧
      ((n = [] ∨ n = ['.']) ∧ top.followSegments making links onLink place s = .ok a ∨
      n ≠ [] ∧ n ≠ ['.'] ∧ (
        n = ['.', '.'] ∧ top.followSegments making links onLink place.dropLast s = .ok a ∨
        n ≠ ['.', '.'] ∧ isTooLong n = false ∧ (
          (∃ c, (folder es).child? n = some c ∧ c.isLink = false ∧
            top.followSegments making links onLink (place ++ [n]) s = .ok a) ∨
          (∃ target, (folder es).child? n = some (link target) ∧
            onLink (if Path.rootOf target = [] then place else []) (targetSegments target ++ s) = .ok a) ∨
          (folder es).child? n = none ∧ s = [] ∧ a = .vacant (place ++ [n])))) := by
  rw [followSegments_making] at arrived
  split at arrived
  · cases arrived
  rename_i d here
  cases d with
  | file => cases arrived
  | link => cases arrived
  | folder es =>
    refine ⟨es, here, ?_⟩
    simp only [Entry.isFolder, Bool.not_true, Bool.false_eq_true, if_false] at arrived
    split at arrived
    · exact .inl ⟨‹_›, arrived⟩
    rename_i stay
    obtain ⟨nonempty, noDot⟩ := not_or.mp stay
    refine .inr ⟨nonempty, noDot, ?_⟩
    split at arrived
    · exact .inl ⟨‹_›, arrived⟩
    rename_i up
    split at arrived
    · cases arrived
    split at arrived
    · cases arrived
    rename_i short
    refine .inr ⟨up, by simpa using short, ?_⟩
    cases child : (folder es).child? n with
    | none =>
      simp only [child] at arrived
      split at arrived
      · exact .inr (.inr ⟨rfl, ‹_›, (Except.ok.inj arrived).symm⟩)
      · cases arrived
    | some c =>
      simp only [child] at arrived
      cases c with
      | link target => exact .inr (.inl ⟨target, rfl, arrived⟩)
      | _ => exact .inl ⟨_, rfl, rfl, arrived⟩

/-! ### Where segments arrive -/

/-- What stands where a path arrives: an entry, or nothing in a folder. -/
def Landed (top : Entry) : Arrival → Prop
  | .entry place e _ => top.get? place = some e
  | .vacant place => ∃ here n es, place = here ++ [n] ∧ top.get? here = some (folder es) ∧
      (folder es).child? n = none

theorem landed_followSegments (behind : ∀ place s, onLink place s = .ok a → Landed top a)
    (arrived : top.followSegments making links onLink place s = .ok a) : Landed top a := by
  induction s generalizing place with
  | nil =>
    rw [followSegments] at arrived
    split at arrived
    · cases arrived
      assumption
    · cases arrived
  | cons n s ih =>
    obtain ⟨es, here, step⟩ := step_of_followSegments arrived
    rcases step with ⟨_, rest⟩ | ⟨_, _, ⟨_, rest⟩ | ⟨_, _, step⟩⟩
    · exact ih rest
    · exact ih rest
    · rcases step with ⟨_, _, _, rest⟩ | ⟨_, _, rest⟩ | ⟨absent, _, rfl⟩
      · exact ih rest
      · exact behind _ _ rest
      · exact ⟨place, n, es, rfl, here, absent⟩

theorem landed_follow (arrived : top.follow making links place s = .ok a) : Landed top a := by
  induction links generalizing place s with
  | zero => exact landed_followSegments (fun _ _ failed => by cases failed) arrived
  | succ links ih => exact landed_followSegments (fun _ _ => ih) arrived

/-! ### In a tree that has grown -/

/-- Whatever stands somewhere in the first tree stands there in the second, as a folder, a file or the
same link. -/
def Stays (top top' : Entry) : Prop :=
  ∀ place e, top.get? place = some e → ∃ e', top'.get? place = some e' ∧
    e'.isFolder = e.isFolder ∧ ∀ target, e' = .link target ↔ e = .link target

/-- Segments that arrive somewhere lead there also after more has come into being, if no link stands
there. -/
theorem stays_followSegments {e : Entry} (stays : Stays top top')
    (there : top'.get? a.place = some e) (linkless : e.isLink = false)
    (behind : ∀ place s, onLink place s = .ok a → ∃ left, onLink' place s = .ok (.entry a.place e left))
    (arrived : top.followSegments making links onLink place s = .ok a) :
    ∃ left, top'.followSegments false links onLink' place s = .ok (.entry a.place e left) := by
  induction s generalizing place with
  | nil =>
    rw [followSegments] at arrived ⊢
    split at arrived
    · cases arrived
      rw [Arrival.place] at there
      exact ⟨links, by rw [there]; rfl⟩
    · cases arrived
  | cons n s ih =>
    obtain ⟨es, here, step⟩ := step_of_followSegments arrived
    obtain ⟨d, here', isFolder, _⟩ := stays place _ here
    cases d with
    | file => cases isFolder
    | link => cases isFolder
    | folder es' =>
      rw [followSegments_cons, here']
      simp only [Entry.isFolder, Bool.not_true, Bool.false_eq_true, if_false]
      rcases step with ⟨stay, rest⟩ | ⟨nonempty, noDot, step⟩
      · rw [if_pos stay]
        exact ih rest
      rw [if_neg (not_or.mpr ⟨nonempty, noDot⟩)]
      rcases step with ⟨up, rest⟩ | ⟨noUp, short, step⟩
      · rw [if_pos up]
        exact ih rest
      rw [if_neg noUp, short, if_neg Bool.false_ne_true]
      -- What the folder holds under the name, the other folder holds too.
      have same {c : Entry} (child : (folder es).child? n = some c) :
          ∃ c', (folder es').child? n = some c' ∧
            ∀ target, c' = .link target ↔ c = .link target := by
        obtain ⟨c', inside, _, links⟩ := stays _ _ (get?_concat here child)
        rw [get?_below here'] at inside
        exact ⟨c', inside, links⟩
      rcases step with ⟨c, child, plain, rest⟩ | ⟨target, child, rest⟩ | ⟨_, rfl, rfl⟩
      · obtain ⟨c', child', links⟩ := same child
        rw [child']
        cases c' with
        | link target =>
          rw [(links target).mp rfl] at plain
          cases plain
        | _ => exact ih rest
      · obtain ⟨c', child', links⟩ := same child
        rw [child', (links target).mpr rfl]
        exact behind _ _ rest
      · rw [Arrival.place] at there ⊢
        have inside : (folder es').child? n = some e := by
          rw [← get?_below here' n, there]
        have ended : top'.followSegments false links onLink' (place ++ [n]) [] =
            .ok (.entry (place ++ [n]) e links) := by
          rw [followSegments, there]
        rw [inside]
        cases e with
        | link => cases linkless
        | _ => exact ⟨links, ended⟩

theorem stays_follow {e : Entry} (stays : Stays top top') (there : top'.get? a.place = some e)
    (linkless : e.isLink = false) (arrived : top.follow making links place s = .ok a) :
    ∃ left, top'.follow false links place s = .ok (.entry a.place e left) := by
  induction links generalizing place s with
  | zero =>
    exact stays_followSegments stays there linkless (fun _ _ failed => by cases failed) arrived
  | succ links ih => exact stays_followSegments stays there linkless (fun _ _ => ih) arrived

end Entry

namespace Tree

open Entry

variable {t t' : Tree} {making : Bool} {p : Path} {a : Arrival} {place : Place} {e : Entry}

theorem landed_arrive (arrived : t.arrive making p = .ok a) : hasNull p = false ∧ Landed t.top a := by
  rw [arrive] at arrived
  split at arrived
  · cases arrived
  · rename_i noNull
    exact ⟨by simpa using noNull, landed_follow arrived⟩

theorem find_of_arrive (here : t'.here = t.here) (stays : Stays t.top t'.top)
    (arrived : t.arrive making p = .ok a) (there : t'.top.get? a.place = some e)
    (linkless : e.isLink = false) : t'.find p = .ok (a.place, e) := by
  have noNull := (landed_arrive arrived).1
  have origin : t'.origin p = t.origin p := by rw [Tree.origin, Tree.origin, here]
  rw [arrive, noNull] at arrived
  obtain ⟨left, goes⟩ := stays_follow stays there linkless arrived
  rw [find, arrive, noNull, origin, if_neg Bool.false_ne_true, goes]

/-- A path to a folder leads there still. -/
theorem find_of_stays {es : List (Text × Entry)} (here : t'.here = t.here)
    (stays : Stays t.top t'.top) (found : t.find p = .ok (place, .folder es)) :
    ∃ es', t'.find p = .ok (place, .folder es') := by
  obtain ⟨links, arrived⟩ := arrive_of_find found
  obtain ⟨e, there, isFolder, _⟩ := stays place _ (landed_arrive arrived).2
  cases e with
  | folder es' => exact ⟨es', find_of_arrive here stays arrived there rfl⟩
  | _ => cases isFolder

end Tree
end RouteAtlas
