import RouteAtlas.Proofs.Glob.Reading

/-!
# What a pattern covers

`Covers` reads a pattern from left to right beside a path, without globs between them.
`accepts_ofPattern_iff` says that a matcher decides it, except for the patterns of route files,
which are decided by name.
-/

namespace RouteAtlas.Glob

/-- The pattern covers the path. `**` covers a run within a line, `*` and `?` stay between slashes,
`**/` covers nothing or a run and a slash; a group covers what one of its parts does, and a brace
that is not closed makes the rest literal. -/
inductive Covers : Text → Text → Prop where
  | nil : Covers [] []
  | skip {p t : Text} (rest : Covers p t) : Covers ('*' :: '*' :: '/' :: p) t
  | descend {p t u : Text} (line : '\n' ∉ u) (rest : Covers p t) :
      Covers ('*' :: '*' :: '/' :: p) (u ++ '/' :: t)
  | span {p t u : Text} (bare : p.head? ≠ some '/') (line : '\n' ∉ u) (rest : Covers p t) :
      Covers ('*' :: '*' :: p) (u ++ t)
  | segment {p t u : Text} (single : p.head? ≠ some '*') (inside : '/' ∉ u) (rest : Covers p t) :
      Covers ('*' :: p) (u ++ t)
  | one {p t : Text} {c : Char} (inside : c ≠ '/') (rest : Covers p t) : Covers ('?' :: p) (c :: t)
  | choice {parts : List Text} {part p t u : Text} (all : ∀ q ∈ parts, Part q)
      (member : part ∈ parts) (chosen : Covers part u) (rest : Covers p t) :
      Covers ('{' :: (Text.join "," parts ++ '}' :: p)) (u ++ t)
  | unclosed {p : Text} (never : Unclosed p) : Covers ('{' :: p) ('{' :: p)
  | same {p t : Text} {c : Char} (literal : c ≠ '*' ∧ c ≠ '?' ∧ c ≠ '{') (rest : Covers p t) :
      Covers (c :: p) (c :: t)

/-! ### The languages of composed globs -/

theorem language_anyOf {gs : List Glob} (nonempty : gs ≠ []) {t : Text} :
    (anyOf gs).Language t ↔ ∃ g ∈ gs, g.Language t := by
  induction gs with
  | nil => exact absurd rfl nonempty
  | cons g gs ih =>
    cases gs with
    | nil => simp [anyOf]
    | cons g' gs =>
      rw [anyOf, Language, ih (List.cons_ne_nil g' gs)]
      · simp
      · exact List.cons_ne_nil g' gs

theorem language_literal {p t : Text} : (seqAll (p.map char)).Language t ↔ t = p := by
  induction p generalizing t with
  | nil => rfl
  | cons c p ih =>
    have first : (seqAll ((c :: p).map char)).Language t ↔
        ∃ u v, t = u ++ v ∧ u = [c] ∧ (seqAll (p.map char)).Language v := Iff.rfl
    rw [first]
    constructor
    · rintro ⟨_, v, rfl, rfl, rest⟩
      rw [ih.mp rest, List.singleton_append]
    · rintro rfl
      exact ⟨[c], p, rfl, rfl, ih.mpr rfl⟩

/-! ### Reading gives what is covered -/

theorem language_of_covers {p t : Text} (h : Covers p t) : (read p).Language t := by
  induction h with
  | nil => rfl
  | @skip p t _ ih =>
    rw [read_directories]
    exact ⟨[], t, rfl, .inl rfl, ih⟩
  | @descend p t u line _ ih =>
    rw [read_directories]
    exact ⟨u ++ ['/'], t, by simp, .inr ⟨u, fun c hc e => line (e ▸ hc), rfl⟩, ih⟩
  | @span p t u bare line _ ih =>
    rw [read_span bare]
    exact ⟨u, t, rfl, fun c hc e => line (e ▸ hc), ih⟩
  | @segment p t u single inside _ ih =>
    rw [read_segment single]
    exact ⟨u, t, rfl, fun c hc e => inside (e ▸ hc), ih⟩
  | @one p t c inside _ ih =>
    rw [read_one]
    exact ⟨[c], t, rfl, ⟨c, inside, rfl⟩, ih⟩
  | @choice parts part p t u all member _ _ chosen rest =>
    have nonempty := List.ne_nil_of_mem member
    rw [read_choice nonempty all]
    refine ⟨u, t, rfl, ?_, rest⟩
    rw [language_anyOf (by simpa using nonempty)]
    exact ⟨read part, List.mem_map_of_mem member, chosen⟩
  | unclosed never =>
    rw [read_unclosed never]
    exact language_literal.mpr rfl
  | @same p t c literal _ ih =>
    rw [read_same literal]
    exact ⟨[c], t, rfl, rfl, ih⟩

theorem covers_of_language {p t : Text} (h : (read p).Language t) : Covers p t := by
  induction p using pattern_induction generalizing t with
  | nil =>
    obtain rfl : t = [] := h
    exact .nil
  | directories p ih =>
    rw [read_directories] at h
    obtain ⟨_, t, rfl, rfl | ⟨u, line, rfl⟩, rest⟩ := h
    · exact .skip (ih rest)
    · rw [List.append_assoc]
      exact .descend (fun hc => line _ hc rfl) (ih rest)
  | span p bare ih =>
    rw [read_span bare] at h
    obtain ⟨u, t, rfl, line, rest⟩ := h
    exact .span bare (fun hc => line _ hc rfl) (ih rest)
  | segment p single ih =>
    rw [read_segment single] at h
    obtain ⟨u, t, rfl, inside, rest⟩ := h
    exact .segment single (fun hc => inside _ hc rfl) (ih rest)
  | one p ih =>
    rw [read_one] at h
    obtain ⟨_, t, rfl, ⟨c, inside, rfl⟩, rest⟩ := h
    exact .one inside (ih rest)
  | choice parts p nonempty all inner ih =>
    rw [read_choice nonempty all] at h
    obtain ⟨u, t, rfl, chosen, rest⟩ := h
    obtain ⟨_, found, chosen⟩ := (language_anyOf (by simpa using nonempty)).mp chosen
    obtain ⟨part, member, rfl⟩ := List.mem_map.mp found
    exact .choice all member (inner part member chosen) (ih rest)
  | unclosed p never =>
    rw [read_unclosed never] at h
    obtain rfl := language_literal.mp h
    exact .unclosed never
  | same c p literal ih =>
    rw [read_same literal] at h
    obtain ⟨_, t, rfl, rfl, rest⟩ := h
    exact .same literal (ih rest)

theorem language_read_iff {p t : Text} : (read p).Language t ↔ Covers p t :=
  ⟨covers_of_language, language_of_covers⟩

/-- The pattern is decided by the name of the file alone. -/
def DecidedByName (pattern : Text) : Prop :=
  Text.endsWith "route.\x7bts,js\x7d" (Tree.plain pattern) ∧
    Text.holds "app/api" (Tree.plain pattern)

/-- A pattern that is not decided by name accepts exactly the paths that it covers, both without
backslashes and leading `./`. -/
theorem accepts_ofPattern_iff {pattern : Text} (general : ¬DecidedByName pattern) (path : Text) :
    (Matcher.ofPattern pattern).accepts path ↔ Covers (Tree.plain pattern) (Tree.plain path) := by
  have glob : Matcher.ofPattern pattern = .glob (read (Tree.plain pattern)) :=
    if_neg fun h => general ((Bool.and_eq_true _ _).mp h)
  rw [glob, ← language_read_iff, ← accepts_iff]
  rfl

theorem accepts_ofPattern_iff_nestedGroups :
    ¬DecidedByName "./src/**/?*.\x7bts\x7b,x\x7d,js\x7d" ∧
      Covers "src/**/?*.\x7bts\x7b,x\x7d,js\x7d" "src/api/v1/users.tsx" ∧
      ¬Covers "src/**/?*.\x7bts\x7b,x\x7d,js\x7d" "src/api/v1/users.jsx" := by
  have general : ¬DecidedByName "./src/**/?*.\x7bts\x7b,x\x7d,js\x7d" := by
    unfold DecidedByName
    decide
  refine ⟨general, ?_, ?_⟩
  · exact (accepts_ofPattern_iff general ".\\src\\api\\v1\\users.tsx").mp (by decide +kernel)
  · exact fun h => absurd ((accepts_ofPattern_iff general "src/api/v1/users.jsx").mpr h)
      (by decide +kernel)

end RouteAtlas.Glob
