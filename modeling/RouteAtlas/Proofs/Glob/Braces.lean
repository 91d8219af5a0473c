import RouteAtlas.Glob.Pattern
import RouteAtlas.Proofs.Text.Splitting

/-!
# Groups in patterns

`Balanced` and `Part` say how braces and commas nest in a pattern. `closing?_eq_some_iff` finds the
brace that closes a group, and `alternatives_join` finds the parts that stand between its commas:
both count the open groups, and on balanced text they agree.
-/

namespace RouteAtlas.Glob

/-- Every brace that opens is closed further on, and every brace that closes has been opened. -/
inductive Balanced : Text → Prop where
  | nil : Balanced []
  | plain {c : Char} {t : Text} (other : c ≠ '{' ∧ c ≠ '}') (rest : Balanced t) : Balanced (c :: t)
  | group {t u : Text} (inner : Balanced t) (rest : Balanced u) : Balanced ('{' :: (t ++ '}' :: u))

/-- A balanced text whose commas all stand in groups. -/
inductive Part : Text → Prop where
  | nil : Part []
  | plain {c : Char} {t : Text} (other : c ≠ '{' ∧ c ≠ '}' ∧ c ≠ ',') (rest : Part t) :
      Part (c :: t)
  | group {t u : Text} (inner : Balanced t) (rest : Part u) : Part ('{' :: (t ++ '}' :: u))

theorem balanced_append {t u : Text} (ht : Balanced t) (hu : Balanced u) : Balanced (t ++ u) := by
  induction ht with
  | nil => exact hu
  | plain other _ ih => exact .plain other ih
  | group inner _ _ ih => simpa using Balanced.group inner ih

/-! ### The end of a group -/

theorem closing?_append {t : Text} (h : Balanced t) (depth : Nat) (r : Text) :
    closing? depth (t ++ r) = (closing? depth r).map fun p => (t ++ p.1, p.2) := by
  induction h generalizing depth r with
  | nil => simp
  | plain other _ ih =>
    simp only [List.cons_append, closing?, other, if_false, ih, Option.map_map]
    rfl
  | group _ _ inner rest =>
    have up : '{' ≠ '}' := by decide
    simp only [List.cons_append, List.append_assoc, closing?, up, if_false, if_true, inner, rest,
      Option.map_map]
    rfl

/-- The text closes the `depth` groups that are open and opens none that it does not close. -/
def Closes : Nat → Text → Prop
  | 0, t => Balanced t
  | depth + 1, t => ∃ u v, Balanced u ∧ t = u ++ '}' :: v ∧ Closes depth v

theorem closes_append {depth : Nat} {t u : Text} (ht : Balanced t) (hu : Closes depth u) :
    Closes depth (t ++ u) := by
  cases depth with
  | zero => exact balanced_append ht hu
  | succ depth =>
    obtain ⟨v, w, hv, rfl, hw⟩ := hu
    exact ⟨t ++ v, w, balanced_append ht hv, by simp, hw⟩

theorem closes_of_closing? {depth : Nat} {t body rest : Text}
    (h : closing? depth t = some (body, rest)) : Closes depth body ∧ t = body ++ '}' :: rest := by
  induction t generalizing depth body rest with
  | nil => cases h
  | cons c t ih =>
    unfold closing? at h
    split at h
    · rename_i close
      subst close
      cases depth with
      | zero =>
        obtain ⟨rfl, rfl⟩ := Prod.mk.inj (Option.some.inj h)
        exact ⟨.nil, rfl⟩
      | succ depth =>
        obtain ⟨⟨inner, rest'⟩, found, same⟩ := Option.map_eq_some_iff.mp h
        obtain ⟨rfl, rfl⟩ := Prod.mk.inj same
        obtain ⟨closes, rfl⟩ := ih found
        exact ⟨⟨[], inner, .nil, rfl, closes⟩, rfl⟩
    · rename_i other
      obtain ⟨⟨inner, rest'⟩, found, same⟩ := Option.map_eq_some_iff.mp h
      obtain ⟨rfl, rfl⟩ := Prod.mk.inj same
      obtain ⟨closes, rfl⟩ := ih found
      refine ⟨?_, rfl⟩
      -- An opening brace makes a group with the first text that `closes` cuts off.
      split at closes
      · rename_i opening
        subst opening
        obtain ⟨u, v, hu, rfl, hv⟩ := closes
        have group := closes_append (.group hu .nil) hv
        simpa using group
      · rename_i same
        exact closes_append (.plain ⟨same, other⟩ .nil) closes

/-- The end of a group is the brace before which the group's text is balanced. -/
theorem closing?_eq_some_iff {t body rest : Text} :
    closing? 0 t = some (body, rest) ↔ Balanced body ∧ t = body ++ '}' :: rest := by
  refine ⟨closes_of_closing?, ?_⟩
  rintro ⟨balanced, rfl⟩
  rw [closing?_append balanced]
  simp [closing?]

/-! ### The parts of a group -/

/-- The parts with `t` in front of the first one. -/
def ahead (t : Text) : List Text → List Text
  | part :: parts => (t ++ part) :: parts
  | [] => [t]

theorem ahead_nil {parts : List Text} (h : parts ≠ []) : ahead [] parts = parts := by
  cases parts with
  | nil => exact absurd rfl h
  | cons part parts => rfl

theorem ahead_ahead (t u : Text) (parts : List Text) :
    ahead t (ahead u parts) = ahead (t ++ u) parts := by
  cases parts <;> simp [ahead]

theorem join_ahead (t : Text) {parts : List Text} (h : parts ≠ []) :
    Text.join "," (ahead t parts) = t ++ Text.join "," parts := by
  cases parts with
  | nil => exact absurd rfl h
  | cons part parts =>
    cases parts <;> simp [ahead, Text.join]

theorem alternatives_ne_nil (depth : Nat) (t : Text) : alternatives depth t ≠ [] := by
  cases t with
  | nil => simp [alternatives]
  | cons c t =>
    rw [alternatives]
    split
    · simp
    · split <;> simp

theorem alternatives_cons {depth : Nat} {c : Char} (inside : c = ',' → depth ≠ 0) (t : Text) :
    alternatives depth (c :: t) = ahead [c] (alternatives
      (if c = '{' then depth + 1 else if c = '}' then depth - 1 else depth) t) := by
  rw [alternatives, if_neg fun h => inside h.1 h.2]
  split <;> rename_i found <;> rw [found] <;> rfl

theorem alternatives_comma (t : Text) : alternatives 0 (',' :: t) = [] :: alternatives 0 t := by
  rw [alternatives, if_pos ⟨rfl, rfl⟩]

/-- Nothing that stands in a group ends a part. -/
theorem alternatives_balanced {t : Text} (h : Balanced t) (depth : Nat) (r : Text) :
    alternatives (depth + 1) (t ++ r) = ahead t (alternatives (depth + 1) r) := by
  induction h generalizing depth r with
  | nil => exact (ahead_nil (alternatives_ne_nil _ _)).symm
  | plain other _ ih =>
    rw [List.cons_append, alternatives_cons (fun _ => Nat.succ_ne_zero depth), if_neg other.1,
      if_neg other.2, ih, ahead_ahead]
    rfl
  | @group t u _ _ inner rest =>
    have shape : '{' :: (t ++ '}' :: u) ++ r = '{' :: (t ++ '}' :: (u ++ r)) := by simp
    rw [shape, alternatives_cons (by simp), if_pos rfl, inner, alternatives_cons (by simp),
      if_neg (by decide), if_pos rfl, Nat.add_sub_cancel, rest, ahead_ahead, ahead_ahead,
      ahead_ahead]
    simp

theorem alternatives_part {t : Text} (h : Part t) (r : Text) :
    alternatives 0 (t ++ r) = ahead t (alternatives 0 r) := by
  induction h generalizing r with
  | nil => exact (ahead_nil (alternatives_ne_nil _ _)).symm
  | plain other _ ih =>
    rw [List.cons_append, alternatives_cons (fun e => absurd e other.2.2), if_neg other.1,
      if_neg other.2.1, ih, ahead_ahead]
    rfl
  | @group t u inner _ rest =>
    have shape : '{' :: (t ++ '}' :: u) ++ r = '{' :: (t ++ '}' :: (u ++ r)) := by simp
    rw [shape, alternatives_cons (by simp), if_pos rfl, alternatives_balanced inner,
      alternatives_cons (by simp), if_neg (by decide), if_pos rfl, Nat.add_sub_cancel, rest,
      ahead_ahead, ahead_ahead, ahead_ahead]
    simp

/-- Parts that were joined by commas are found again. -/
theorem alternatives_join {parts : List Text} (nonempty : parts ≠ []) (h : ∀ t ∈ parts, Part t) :
    alternatives 0 (Text.join "," parts) = parts := by
  induction parts with
  | nil => exact absurd rfl nonempty
  | cons part parts ih =>
    have first := alternatives_part (h part List.mem_cons_self)
    cases parts with
    | nil =>
      have alone := first []
      rw [List.append_nil] at alone
      rw [Text.join, alone]
      simp [alternatives, ahead]
    | cons next parts =>
      have rest := ih (List.cons_ne_nil next parts) fun t ht => h t (List.mem_cons_of_mem part ht)
      have comma : alternatives 0 ("," ++ Text.join "," (next :: parts)) = [] :: next :: parts :=
        (alternatives_comma _).trans (congrArg ([] :: ·) rest)
      rw [Text.join_cons_cons, first, comma]
      simp [ahead]

/-- A balanced text is made of parts with commas between. -/
theorem exists_parts {t : Text} (h : Balanced t) :
    ∃ parts ≠ [], (∀ u ∈ parts, Part u) ∧ t = Text.join "," parts := by
  -- What comes in front of a text goes into its first part.
  have grow {w : Text} {parts : List Text} (nonempty : parts ≠ []) (all : ∀ u ∈ parts, Part u)
      (front : ∀ u, Part u → Part (w ++ u)) : ahead w parts ≠ [] ∧ ∀ u ∈ ahead w parts, Part u := by
    cases parts with
    | nil => exact absurd rfl nonempty
    | cons part parts =>
      refine ⟨List.cons_ne_nil _ _, List.forall_mem_cons.mpr ⟨front part ?_, ?_⟩⟩
      · exact all part List.mem_cons_self
      · exact fun u hu => all u (List.mem_cons_of_mem part hu)
  induction h with
  | nil => exact ⟨[[]], by simp, by simpa using Part.nil, rfl⟩
  | @plain c t other _ ih =>
    obtain ⟨parts, nonempty, all, rfl⟩ := ih
    by_cases comma : c = ','
    · subst comma
      refine ⟨[] :: parts, by simp, List.forall_mem_cons.mpr ⟨.nil, all⟩, ?_⟩
      cases parts with
      | nil => exact absurd rfl nonempty
      | cons part parts => rw [Text.join_cons_cons]; rfl
    · obtain ⟨nonempty', all'⟩ := grow (w := [c]) nonempty all
        fun u hu => .plain ⟨other.1, other.2, comma⟩ hu
      exact ⟨_, nonempty', all', (join_ahead [c] nonempty).symm⟩
  | @group t u inner _ _ ih =>
    obtain ⟨parts, nonempty, all, rfl⟩ := ih
    obtain ⟨nonempty', all'⟩ := grow (w := '{' :: (t ++ ['}'])) nonempty all
      fun u hu => by simpa using Part.group inner hu
    refine ⟨_, nonempty', all', ?_⟩
    rw [join_ahead _ nonempty]
    simp

theorem length_le_of_mem {parts : List Text} {t : Text} (h : t ∈ parts) :
    t.length ≤ (Text.join "," parts).length := by
  induction parts with
  | nil => cases h
  | cons part parts ih =>
    cases parts with
    | nil =>
      obtain rfl := List.mem_singleton.mp h
      exact Nat.le_refl _
    | cons next parts =>
      rw [Text.join_cons_cons, List.length_append, List.length_append]
      rcases List.mem_cons.mp h with rfl | h
      · omega
      · have := ih h
        omega

end RouteAtlas.Glob
