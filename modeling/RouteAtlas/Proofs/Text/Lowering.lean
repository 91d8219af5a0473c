import RouteAtlas.Proofs.Text.Splitting
import RouteAtlas.Text.Case

/-!
# Lower case

What lower case keeps: a text that is not empty stays so (`lower_ne_nil`), and neither a blank nor a
slash comes from another character (`lower_notBlank`, `slash_notMem_lower`).
-/

namespace RouteAtlas.Text

/-- The code points of blanks, and that of the slash. No other character becomes one of these. -/
def markCodes : List Nat :=
  List.range' 9 5 ++ List.range' 28 5 ++ [0x2F, 0x85, 0xA0, 0x1680] ++ List.range' 0x2000 11
    ++ [0x2028, 0x2029, 0x202F, 0x205F, 0x3000]

theorem notBlank_of_code {x : Char} (other : x.toNat ∉ markCodes) : isBlank x = false := by
  refine Bool.eq_false_iff.mpr fun blank => other ?_
  rw [isBlank] at blank
  simp only [markCodes, List.mem_append, List.mem_range'_1, List.mem_cons, List.not_mem_nil,
    or_false]
  by_cases small : x.toNat < 128
  · simp only [small, if_true, decide_eq_true_eq] at blank
    omega
  · simp only [small, if_false, Bool.or_eq_true, beq_iff_eq, decide_eq_true_eq] at blank
    omega

theorem ne_slash_of_code {x : Char} (other : x.toNat ∉ markCodes) : x ≠ '/' := by
  rintro rfl
  exact other (by decide)

theorem code_ofNat {n : Nat} (other : n ∉ markCodes) : (Char.ofNat n).toNat ∉ markCodes := by
  by_cases valid : n.isValidChar
  · have same : Char.ofNat n = Char.ofNatAux n valid := dif_pos valid
    exact same ▸ other
  · have zero : Char.ofNat n = '\x00' := dif_neg valid
    rw [zero]
    decide

/-! ### The tables -/

theorem lowerSpecial_codes :
    ∀ e ∈ lowerSpecial, e.2 ≠ [] ∧ ∀ n ∈ e.2, n ∉ markCodes := by decide

theorem lowerRuns_codes : ∀ r ∈ lowerRuns, ∀ m ∈ markCodes,
    (m : Int) - r.shift < r.first ∨ (r.last : Int) < m - r.shift := by
  decide +kernel

theorem mem_of_lookup {codes : List Nat} {n : Nat} {table : List (Nat × List Nat)}
    (found : table.lookup n = some codes) : (n, codes) ∈ table := by
  induction table with
  | nil => cases found
  | cons e table ih =>
    obtain ⟨m, more⟩ := e
    rw [List.lookup_cons] at found
    split at found
    · rename_i same
      obtain rfl := Option.some.inj found
      rw [eq_of_beq same]
      exact List.mem_cons_self
    · exact List.mem_cons_of_mem _ (ih found)

/-- A character stays or becomes others, none of them a blank or a slash. -/
theorem mapped_cases (c : Char) : mapped lowerSpecial lowerRuns c = [c] ∨
    mapped lowerSpecial lowerRuns c ≠ [] ∧
      ∀ x ∈ mapped lowerSpecial lowerRuns c, x.toNat ∉ markCodes := by
  unfold mapped
  cases special : lowerSpecial.lookup c.toNat with
  | some codes =>
    obtain ⟨nonempty, other⟩ := lowerSpecial_codes _ (mem_of_lookup special)
    refine .inr ⟨by simpa using nonempty, fun x inside => ?_⟩
    obtain ⟨n, member, rfl⟩ := List.mem_map.mp inside
    exact code_ofNat (other n member)
  | none =>
    dsimp only
    split
    · rename_i d shifted
      refine .inr ⟨List.cons_ne_nil _ _, fun x inside => ?_⟩
      obtain rfl := List.mem_singleton.mp inside
      refine code_ofNat fun mark => ?_
      obtain ⟨r, found, rfl⟩ := Option.map_eq_some_iff.mp shifted
      have inRun : r.first ≤ c.toNat ∧ c.toNat ≤ r.last ∧ (c.toNat - r.first) % r.step = 0 := by
        simpa using List.find?_some found
      have apart := lowerRuns_codes r (List.mem_of_find?_eq_some found) _ mark
      have positive : (c.toNat + r.shift).toNat ≠ 0 := fun zero => by
        rw [zero] at mark
        revert mark
        decide
      omega
    · exact .inl rfl

theorem lowerChar_cases (c : Char) :
    lowerChar c = [c] ∨ lowerChar c ≠ [] ∧ ∀ x ∈ lowerChar c, x.toNat ∉ markCodes := by
  unfold lowerChar
  split
  · split
    · rename_i capital
      refine .inr ⟨List.cons_ne_nil _ _, fun x inside => ?_⟩
      obtain rfl := List.mem_singleton.mp inside
      have low : 65 ≤ c.toNat := capital.1
      have high : c.toNat ≤ 90 := capital.2
      have small : ∀ n ∈ List.range' 65 26, n + 32 ∉ markCodes := by decide
      exact code_ofNat (small c.toNat (by simp; omega))
    · exact .inl rfl
  · exact mapped_cases c

/-! ### Whole texts -/

variable {t : Text}

/-- A property of all characters but blanks and slashes passes on to the lower case. -/
theorem forall_lowerGo {p : Char → Prop} (others : ∀ x : Char, x.toNat ∉ markCodes → p x)
    {passed : Text} (h : ∀ x ∈ t, p x) : ∀ x ∈ lowerGo passed t, p x := by
  induction t generalizing passed with
  | nil => exact List.forall_mem_nil p
  | cons c t ih =>
    obtain ⟨first, more⟩ := List.forall_mem_cons.mp h
    refine List.forall_mem_append.mpr ⟨fun x inside => ?_, ih more⟩
    split at inside
    · obtain rfl := List.mem_singleton.mp inside
      split <;> exact others _ (by decide)
    · rcases lowerChar_cases c with same | ⟨_, other⟩
      · rw [same, List.mem_singleton] at inside
        exact inside ▸ first
      · exact others x (other x inside)

theorem lower_notBlank (plain : ∀ x ∈ t, isBlank x = false) : ∀ x ∈ lower t, isBlank x = false :=
  forall_lowerGo (fun _ => notBlank_of_code) plain

theorem slash_notMem_lower (free : '/' ∉ t) : '/' ∉ lower t := fun inside =>
  forall_lowerGo (fun _ => ne_slash_of_code) (fun _ h e => free (e ▸ h)) '/' inside rfl

theorem lower_ne_nil (nonempty : t ≠ []) : lower t ≠ [] := by
  cases t with
  | nil => exact absurd rfl nonempty
  | cons c t =>
    rw [lower, lowerGo]
    refine List.append_ne_nil_of_left_ne_nil ?_ _
    split
    · exact List.cons_ne_nil _ _
    · rcases lowerChar_cases c with same | ⟨nonempty, _⟩
      · exact same ▸ List.cons_ne_nil c []
      · exact nonempty

end RouteAtlas.Text
