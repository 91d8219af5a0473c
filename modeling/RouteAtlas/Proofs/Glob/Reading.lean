import RouteAtlas.Proofs.Glob.Braces

/-!
# Reading a pattern from the left

Each beginning of a pattern has an equation for `read`. `pattern_induction` goes through the
beginnings, the parts of a group included, so that nothing else has to look at how patterns are
read.
-/

namespace RouteAtlas.Glob

/-- No group starts in front of the text. -/
def Unclosed (p : Text) : Prop := ∀ body rest, Balanced body → p ≠ body ++ '}' :: rest

theorem closing?_eq_none_iff {p : Text} : closing? 0 p = none ↔ Unclosed p := by
  rw [Option.eq_none_iff_forall_ne_some]
  constructor
  · intro h body rest balanced same
    exact h (body, rest) (closing?_eq_some_iff.mpr ⟨balanced, same⟩)
  · rintro h ⟨body, rest⟩ found
    obtain ⟨balanced, same⟩ := closing?_eq_some_iff.mp found
    exact h body rest balanced same

theorem balanced_join {parts : List Text} (all : ∀ q ∈ parts, Part q) :
    Balanced (Text.join "," parts) := by
  have balanced {q : Text} (h : Part q) : Balanced q := by
    induction h with
    | nil => exact .nil
    | plain other _ ih => exact .plain ⟨other.1, other.2.1⟩ ih
    | group inner _ ih => exact .group inner ih
  induction parts with
  | nil => exact .nil
  | cons part parts ih =>
    have rest := ih fun q hq => all q (List.mem_cons_of_mem part hq)
    have first := balanced (all part List.mem_cons_self)
    cases parts with
    | nil => exact first
    | cons next parts =>
      rw [Text.join_cons_cons]
      exact balanced_append first (.plain (by decide) rest)

theorem closing?_join {parts : List Text} (all : ∀ q ∈ parts, Part q) (p : Text) :
    closing? 0 (Text.join "," parts ++ '}' :: p) = some (Text.join "," parts, p) :=
  closing?_eq_some_iff.mpr ⟨balanced_join all, rfl⟩

/-! ### Beginnings of patterns -/

/-- A pattern is empty, or it begins with a wildcard, a group, a brace that is not closed or a
character that stands for itself. -/
theorem pattern_induction {motive : Text → Prop} (nil : motive [])
    (directories : ∀ p, motive p → motive ('*' :: '*' :: '/' :: p))
    (span : ∀ p, p.head? ≠ some '/' → motive p → motive ('*' :: '*' :: p))
    (segment : ∀ p, p.head? ≠ some '*' → motive p → motive ('*' :: p))
    (one : ∀ p, motive p → motive ('?' :: p))
    (choice : ∀ parts p, parts ≠ [] → (∀ q ∈ parts, Part q) → (∀ q ∈ parts, motive q) → motive p →
      motive ('{' :: (Text.join "," parts ++ '}' :: p)))
    (unclosed : ∀ p, Unclosed p → motive ('{' :: p))
    (same : ∀ c p, c ≠ '*' ∧ c ≠ '?' ∧ c ≠ '{' → motive p → motive (c :: p)) (p : Text) :
    motive p := by
  -- The parts of a group are no suffixes of the pattern, so the induction is on its length.
  induction length : p.length using Nat.strongRecOn generalizing p with
  | _ n ih =>
    have shorter (q : Text) (h : q.length < n) : motive q := ih q.length h q rfl
    subst length
    cases p with
    | nil => exact nil
    | cons c p =>
      by_cases star : c = '*'
      · subst star
        by_cases single : p.head? = some '*'
        · obtain ⟨q, rfl⟩ := List.head?_eq_some_iff.mp single
          by_cases bare : q.head? = some '/'
          · obtain ⟨r, rfl⟩ := List.head?_eq_some_iff.mp bare
            exact directories r (shorter r (by simp only [List.length_cons]; omega))
          · exact span q bare (shorter q (by simp only [List.length_cons]; omega))
        · exact segment p single (shorter p (by simp))
      by_cases mark : c = '?'
      · subst mark
        exact one p (shorter p (by simp))
      by_cases brace : c = '{'
      · subst brace
        cases found : closing? 0 p with
        | none => exact unclosed p (closing?_eq_none_iff.mp found)
        | some ends =>
          obtain ⟨body, rest⟩ := ends
          obtain ⟨balanced, rfl⟩ := closing?_eq_some_iff.mp found
          obtain ⟨parts, nonempty, all, rfl⟩ := exists_parts balanced
          refine choice parts rest nonempty all (fun q hq => shorter q ?_) (shorter rest ?_)
          · have := length_le_of_mem hq
            simp only [List.length_cons, List.length_append]
            omega
          · simp only [List.length_cons, List.length_append]
            omega
      · exact same c p ⟨star, mark, brace⟩ (shorter p (by simp))

section Fuel

variable {fuel : Nat} {p : Text}

theorem readGo_span (bare : p.head? ≠ some '/') :
    readGo (fuel + 1) ('*' :: '*' :: p) = seq .span (readGo fuel p) := by
  rw [readGo]
  rintro p rfl
  exact bare rfl

theorem readGo_segment (single : p.head? ≠ some '*') :
    readGo (fuel + 1) ('*' :: p) = seq .segment (readGo fuel p) := by
  rw [readGo]
  · rintro p rfl
    exact single rfl
  · rintro p rfl
    exact single rfl

theorem readGo_choice {parts : List Text} (nonempty : parts ≠ []) (all : ∀ q ∈ parts, Part q) :
    readGo (fuel + 1) ('{' :: (Text.join "," parts ++ '}' :: p)) =
      seq (anyOf (parts.map (readGo fuel))) (readGo fuel p) := by
  rw [readGo, closing?_join all]
  simp only [alternatives_join nonempty all]

theorem readGo_unclosed (h : Unclosed p) :
    readGo (fuel + 1) ('{' :: p) = seqAll (('{' :: p).map char) := by
  rw [readGo, closing?_eq_none_iff.mpr h]

theorem readGo_same {c : Char} (literal : c ≠ '*' ∧ c ≠ '?' ∧ c ≠ '{') :
    readGo (fuel + 1) (c :: p) = seq (.char c) (readGo fuel p) := by
  rw [readGo] <;> simp [literal]

end Fuel

/-- One step more changes nothing where the steps exceed the length of the pattern. -/
theorem readGo_succ {fuel : Nat} {p : Text} (enough : p.length < fuel) :
    readGo (fuel + 1) p = readGo fuel p := by
  induction p using pattern_induction generalizing fuel with
  | nil =>
    obtain ⟨fuel, rfl⟩ := Nat.exists_eq_add_one_of_ne_zero (Nat.ne_zero_of_lt enough)
    rfl
  | directories p ih =>
    obtain ⟨fuel, rfl⟩ := Nat.exists_eq_add_one_of_ne_zero (Nat.ne_zero_of_lt enough)
    simp only [List.length_cons] at enough
    exact congrArg (seq .directories) (ih (by omega))
  | span p bare ih =>
    obtain ⟨fuel, rfl⟩ := Nat.exists_eq_add_one_of_ne_zero (Nat.ne_zero_of_lt enough)
    simp only [List.length_cons] at enough
    rw [readGo_span bare, readGo_span bare, ih (by omega)]
  | segment p single ih =>
    obtain ⟨fuel, rfl⟩ := Nat.exists_eq_add_one_of_ne_zero (Nat.ne_zero_of_lt enough)
    rw [readGo_segment single, readGo_segment single, ih (Nat.lt_of_succ_lt_succ enough)]
  | one p ih =>
    obtain ⟨fuel, rfl⟩ := Nat.exists_eq_add_one_of_ne_zero (Nat.ne_zero_of_lt enough)
    exact congrArg (seq .inSegment) (ih (Nat.lt_of_succ_lt_succ enough))
  | choice parts p nonempty all inner ih =>
    obtain ⟨fuel, rfl⟩ := Nat.exists_eq_add_one_of_ne_zero (Nat.ne_zero_of_lt enough)
    simp only [List.length_cons, List.length_append] at enough
    have parts_same : parts.map (readGo (fuel + 1)) = parts.map (readGo fuel) := by
      refine List.map_congr_left fun q hq => inner q hq ?_
      have := length_le_of_mem hq
      omega
    rw [readGo_choice nonempty all, readGo_choice nonempty all, parts_same, ih (by omega)]
  | unclosed p never =>
    obtain ⟨fuel, rfl⟩ := Nat.exists_eq_add_one_of_ne_zero (Nat.ne_zero_of_lt enough)
    rw [readGo_unclosed never, readGo_unclosed never]
  | same c p literal ih =>
    obtain ⟨fuel, rfl⟩ := Nat.exists_eq_add_one_of_ne_zero (Nat.ne_zero_of_lt enough)
    rw [readGo_same literal, readGo_same literal, ih (Nat.lt_of_succ_lt_succ enough)]

theorem readGo_eq_read {fuel : Nat} {p : Text} (enough : p.length < fuel) :
    readGo fuel p = read p := by
  obtain ⟨more, rfl⟩ := Nat.exists_eq_add_of_lt enough
  clear enough
  induction more with
  | zero => rfl
  | succ more ih => exact (readGo_succ (by omega)).trans ih

section

variable {p : Text}

theorem read_directories : read ('*' :: '*' :: '/' :: p) = seq .directories (read p) :=
  congrArg (seq .directories) (readGo_eq_read (by simp only [List.length_cons]; omega))

theorem read_span (bare : p.head? ≠ some '/') : read ('*' :: '*' :: p) = seq .span (read p) := by
  rw [read, readGo_span bare, readGo_eq_read (by simp only [List.length_cons]; omega)]

theorem read_segment (single : p.head? ≠ some '*') : read ('*' :: p) = seq .segment (read p) := by
  rw [read, readGo_segment single, readGo_eq_read (by simp)]

theorem read_one : read ('?' :: p) = seq .inSegment (read p) :=
  congrArg (seq .inSegment) (readGo_eq_read (by simp))

theorem read_choice {parts : List Text} (nonempty : parts ≠ []) (all : ∀ q ∈ parts, Part q) :
    read ('{' :: (Text.join "," parts ++ '}' :: p)) = seq (anyOf (parts.map read)) (read p) := by
  have parts_same : parts.map (readGo ('{' :: (Text.join "," parts ++ '}' :: p)).length) =
      parts.map read := by
    refine List.map_congr_left fun q hq => readGo_eq_read ?_
    have := length_le_of_mem hq
    simp only [List.length_cons, List.length_append]
    omega
  rw [read, readGo_choice nonempty all, parts_same, readGo_eq_read]
  simp only [List.length_cons, List.length_append]
  omega

theorem read_unclosed (h : Unclosed p) : read ('{' :: p) = seqAll (('{' :: p).map char) :=
  readGo_unclosed h

theorem read_same {c : Char} (literal : c ≠ '*' ∧ c ≠ '?' ∧ c ≠ '{') :
    read (c :: p) = seq (.char c) (read p) := by
  rw [read, readGo_same literal, readGo_eq_read (by simp)]

end

end RouteAtlas.Glob
