import RouteAtlas.Proofs.Route.Shapes
import RouteAtlas.Proofs.Route.Slashes
import RouteAtlas.Proofs.Scanner.Replacing

/-!
# What becomes of a placeholder

A placeholder that one pass of `unify` has written stays through the later passes and through the
settling of the slashes, so its name is a name of the template (`mem_parameterNames`). From this it
follows for each notation that what can be read in a path that is free of the other notations is
named in the template of the path.
-/

namespace RouteAtlas.Route

open Scanner

variable {form : Scanner Text} {n : Identifier} {t : Text}

/-! ### One pass -/

def pass (form : Scanner Text) (t : Text) : Text := (placeholder <$> form).substitute t

theorem unify_eq_passes (t : Text) : unify t = pass catchAllNamed (pass colonMarked (pass braced
    (pass (angled anyConverter) (pass Route.dollar (pass bracketed t))))) := unify_eq t

theorem pass_of_notMem {x : Char} (opens : Opens form x) (free : x ∉ t) : pass form t = t := by
  have pieces := piecesAt_pass (b := none) (opens_map (g := placeholder) opens)
    (fun y hy e => free (e ▸ hy)) []
  rw [List.append_nil, piecesAt_end, List.append_nil] at pieces
  rw [pass, substitute_eq_spelled, pieces_eq_piecesAt, pieces, spelled_plain]

/-- What a form finds is an identifier. -/
def Names (form : Scanner Text) : Prop := Gives form fun a => ∃ n : Identifier, a = n.text

theorem notMem_placeholder {x : Char} (other : Text.isIdentifier x = false)
    (braces : x ≠ '{' ∧ x ≠ '}') : x ∉ placeholder n.text := by
  simp [placeholder, n.notMem other, braces]

theorem notMem_pass {x : Char} (consumes : Consumes form) (names : Names form)
    (other : Text.isIdentifier x = false) (braces : x ≠ '{' ∧ x ≠ '}') (free : x ∉ t) :
    x ∉ pass form t := by
  intro h
  rcases mem_spelled h with plain | ⟨a, found, inside⟩
  · exact free (mem_of_plain (consumes_map consumes) plain)
  · rw [pieces_eq_piecesAt, finds_map consumes] at found
    obtain ⟨name, member, rfl⟩ := List.mem_map.mp found
    obtain ⟨n, rfl⟩ := gives_findAll names member
    exact notMem_placeholder other braces inside

theorem infix_pass_of_mem_findAll {a : Text} (consumes : Consumes form) (h : a ∈ form.findAll t) :
    placeholder a <:+: pass form t := by
  apply infix_spelled_of_mem_finds
  rw [pieces_eq_piecesAt, finds_map consumes]
  exact List.mem_map_of_mem h

theorem infix_pass_of_avoids {x y : Char} {w : Text} (consumes : Consumes form)
    (opens : Opens form x) (avoids : Avoids form y) (free : x ∉ y :: w) (h : y :: w <:+: t) :
    y :: w <:+: pass form t :=
  infix_spelled_of_avoids (consumes_map consumes) (opens_map opens) (avoids_map avoids) free h

/-! ### The forms -/

theorem names_dollar : Names Route.dollar := fun _ _ _ found =>
  let ⟨n, _, name, _⟩ := dollar_shape found
  ⟨n, name⟩

theorem names_angled {convertible : Scanner Unit} (reads : ReadsName convertible) :
    Names (angled convertible) := fun _ _ _ found =>
  let ⟨n, _, name, _⟩ := angled_shape reads found
  ⟨n, name⟩

theorem names_braced : Names braced := fun _ _ _ found =>
  let ⟨n, _, _, _, name, _⟩ := braced_shape found
  ⟨n, name⟩

theorem names_colonMarked : Names colonMarked := fun _ _ _ found =>
  let ⟨n, _, name, _⟩ := colonMarked_shape found
  ⟨n, name⟩

theorem catchAllNamed_shape {b : Option Char} {r a : Text} {c' : Cursor}
    (found : catchAllNamed ⟨b, r⟩ = some (a, c')) :
    a = "path" ∧ ∃ w : Text, (w = "(.*)" ∨ w = "(.+)") ∧ r = w ++ c'.rest := by
  obtain ⟨_, mid, read, same⟩ := bind_eq_some.mp found
  obtain ⟨rfl, rfl⟩ := Prod.mk.inj (Option.some.inj same)
  exact ⟨rfl, catchAll_shape read⟩

/-- The mark behind a colon placeholder is optional. -/
theorem fitsAt_colonMarked_iff {b : Option Char} {a : Text} :
    FitsAt colonMarked b t a ↔ FitsAt colon b t a := by
  constructor
  · refine fitsAt_mono fun c c' found => ?_
    obtain ⟨_, mid, read, found⟩ := bind_eq_some.mp found
    obtain ⟨_, _, _, same⟩ := bind_eq_some.mp found
    obtain ⟨rfl, _⟩ := Prod.mk.inj (Option.some.inj same)
    exact ⟨mid, read⟩
  · refine fitsAt_mono fun c c' found => ?_
    obtain ⟨o, c'', mark⟩ := exists_option (literal "?") c'
    exact ⟨c'', bind_eq_some.mpr ⟨a, c', found, bind_eq_some.mpr ⟨o, c'', mark, rfl⟩⟩⟩

/-- The name of a catch-all. -/
def pathName : Identifier := ⟨'p', "ath", by decide, List.all_eq_true.mp (by decide)⟩

theorem names_catchAllNamed : Names catchAllNamed := fun _ _ _ found =>
  ⟨pathName, (catchAllNamed_shape found).1⟩

theorem avoids_colonMarked {y : Char} (other : Text.isIdentifier y = false)
    (marks : y ≠ ':' ∧ y ≠ '?') : Avoids colonMarked y := by
  intro c a c' found
  obtain ⟨n, mark, _, question, text⟩ := colonMarked_shape found
  refine ⟨':' :: (n.text ++ mark), ?_, by rw [text]; simp⟩
  rcases question with rfl | rfl <;> simp [n.notMem other, marks]

theorem avoids_catchAllNamed {y : Char} (other : y ∉ ("(.*+)" : Text)) :
    Avoids catchAllNamed y := by
  intro c a c' found
  obtain ⟨_, w, known, text⟩ := catchAllNamed_shape found
  refine ⟨w, fun inside => other ?_, text⟩
  rcases known with rfl | rfl <;> simp_all

/-! ### Later passes -/

theorem infix_last_passes (h : placeholder n.text <:+: t) :
    placeholder n.text <:+: pass catchAllNamed (pass colonMarked t) := by
  have colon : ':' ∉ placeholder n.text := notMem_placeholder (by decide) (by decide)
  have paren : '(' ∉ placeholder n.text := notMem_placeholder (by decide) (by decide)
  exact infix_pass_of_avoids consumes_catchAllNamed opens_catchAllNamed
    (avoids_catchAllNamed (by decide)) paren
    (infix_pass_of_avoids consumes_colonMarked opens_colonMarked
      (avoids_colonMarked (by decide) (by decide)) colon h)

theorem braced_plain (b : Option Char) (n : Identifier) (rest : Text) :
    braced ⟨b, '{' :: (n.text ++ '}' :: rest)⟩ = some (n.text, ⟨some '}', rest⟩) :=
  braced_append [] [] [] (.inl rfl) (.inl rfl) (.inl rfl)

/-- In a text without braces a pass opens braces only around names. -/
theorem exists_name_of_pass (consumes : Consumes form) (names : Names form) (free : '{' ∉ t)
    {u r : Text} (text : pass form t = u ++ '{' :: r) :
    ∃ (n : Identifier) (rest : Text), r = n.text ++ '}' :: rest := by
  revert free u r
  refine piecesAt_induction (consumes_map (g := placeholder) consumes) (motive := fun _ t ps =>
    '{' ∉ t → ∀ {u r}, spelled ps = u ++ '{' :: r →
      ∃ (n : Identifier) (rest : Text), r = n.text ++ '}' :: rest) ?_ ?_ ?_ none t
  · intro b _ u r text
    exact absurd text (by simp [spelled])
  · intro b x t _ ih free u r text
    have text : x :: spelled _ = u ++ '{' :: r := text
    cases u with
    | nil => exact absurd ((List.cons.inj text).1 ▸ List.mem_cons_self) free
    | cons y u =>
      exact ih (fun h => free (List.mem_cons_of_mem x h)) (List.cons.inj text).2
  · intro b w a t _ found ih free u r text
    obtain ⟨name, read, rfl⟩ := map_eq_some.mp found
    obtain ⟨n, rfl⟩ := names _ _ _ read
    -- The brace is the one that this placeholder opens, or it lies behind the placeholder.
    have text : '{' :: ((n.text ++ ['}']) ++ spelled _) = u ++ '{' :: r := text
    cases u with
    | nil => exact ⟨n, _, by rw [← (List.cons.inj text).2, List.append_assoc]; rfl⟩
    | cons y u =>
      have closed : '{' ∉ n.text ++ ['}'] := by simp [n.notMem (y := '{') (by decide)]
      obtain ⟨u', _, rest⟩ := beyond_of_notMem closed (List.cons.inj text).2 rfl
      exact ih (fun h => free (List.mem_append_right w h)) rest

/-- The pass of the braces keeps what an earlier pass has made of a text without braces. -/
theorem pass_braced (consumes : Consumes form) (names : Names form) (free : '{' ∉ t) :
    pass braced (pass form t) = pass form t := by
  refine spelled_eq_self (consumes_map consumes_braced) fun u r a c' text found => ?_
  obtain ⟨name, read, rfl⟩ := map_eq_some.mp found
  obtain ⟨r', rfl⟩ : ∃ r', r = '{' :: r' := by
    obtain ⟨_, _, _, _, _, _, _, _, shape⟩ := braced_shape read
    exact ⟨_, shape⟩
  obtain ⟨n, rest, rfl⟩ := exists_name_of_pass consumes names free text
  rw [braced_plain] at read
  obtain ⟨rfl, rfl⟩ := Prod.mk.inj (Option.some.inj read)
  exact (placeholder_append n.text rest).symm

/-! ### The names of a template -/

theorem bracedName_shape {b : Option Char} {r a : Text} {c' : Cursor}
    (found : bracedName ⟨b, r⟩ = some (a, c')) :
    '{' ∉ a ∧ r = '{' :: (a ++ '}' :: c'.rest) := by
  obtain ⟨_, opened, first, found⟩ := bind_eq_some.mp found
  obtain ⟨name, named, second, found⟩ := bind_eq_some.mp found
  obtain ⟨_, last, third, found⟩ := bind_eq_some.mp found
  obtain ⟨rfl, rfl⟩ := Prod.mk.inj (Option.some.inj found)
  obtain ⟨_, inside, text⟩ := run1_eq_some second
  refine ⟨fun h => absurd (inside _ h) (by decide), ?_⟩
  have text' : r = _ := (between_literal first).1
  rw [text', text, (between_literal third).1]
  rfl

theorem mem_parameterNames_of_infix (h : placeholder n.text <:+: t) :
    n.text ∈ parameterNames t := by
  obtain ⟨u, v, rfl⟩ := h
  refine mem_finds_of_fitsAt consumes_bracedName (x := '{') (fun u r a c' _ found => ?_)
    ⟨u, '{' :: (n.text ++ '}' :: v), ⟨some '}', v⟩, ?_, bracedName_name _ n v⟩
  · obtain ⟨free, text⟩ := bracedName_shape found
    exact ⟨a ++ ['}'], by simp [free], by rw [text]; simp⟩
  · rw [List.append_assoc, placeholder_append]

/-- A stretch without slashes is in the template exactly if the passes have left it. -/
theorem infix_canonical_iff {path w : Text} (nonempty : w ≠ []) (free : '/' ∉ w) :
    w <:+: canonical path ↔ w <:+: unify (Text.strip path) := infix_settled_iff nonempty free

theorem mem_parameterNames {path : Text} (h : placeholder n.text <:+: unify (Text.strip path)) :
    n.text ∈ parameterNames (canonical path) :=
  mem_parameterNames_of_infix <| (infix_canonical_iff (List.cons_ne_nil _ _)
    (notMem_placeholder (by decide) (by decide))).mpr h

end RouteAtlas.Route
