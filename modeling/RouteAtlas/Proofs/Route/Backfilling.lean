import RouteAtlas.Proofs.Extract.Described
import RouteAtlas.Proofs.Extract.Distinctness

/-!
# Backfilled parameters

An operation describes every placeholder of its template: those that the declared route does not
describe are put in front of its own parameters. `mem_parameterNames_iff` and `exists_placeholder` say
where the placeholders of a template stand, and `parameters_ofDeclaration` which are put in front and
in which order.
-/

namespace RouteAtlas.Route

open Scanner

variable {b : Option Char} {t n rest : Text}

/-! ### Placeholders in a template -/

/-- What may stand between the braces of a placeholder. -/
structure InBraces (n : Text) : Prop where
  nonempty : n ≠ []
  free : ∀ x ∈ n, x ≠ '{' ∧ x ≠ '}'

theorem bracedName_placeholder (h : InBraces n) (b : Option Char) (rest : Text) :
    bracedName ⟨b, placeholder n ++ rest⟩ = some (n, ⟨some '}', rest⟩) := by
  have read : run1 (fun c => c != '{' && c != '}') ⟨some '{', n ++ '}' :: rest⟩ =
      some (n, ⟨n.getLast?, '}' :: rest⟩) := by
    apply run1_append h.nonempty
    · intro x hx
      simp [h.free x hx]
    · simp [stops_cons]
  rw [placeholder_append]
  simp [bracedName, bind_apply, map_apply, read]

theorem placeholder_of_bracedName {c' : Cursor} (found : bracedName ⟨b, t⟩ = some (n, c')) :
    InBraces n ∧ t = placeholder n ++ c'.rest := by
  obtain ⟨_, opened, first, found⟩ := bind_eq_some.mp found
  obtain ⟨name, named, second, found⟩ := bind_eq_some.mp found
  obtain ⟨_, last, third, found⟩ := bind_eq_some.mp found
  obtain ⟨rfl, rfl⟩ := Prod.mk.inj (Option.some.inj found)
  obtain ⟨nonempty, inside, text⟩ := run1_eq_some second
  have text' : t = _ := (between_literal first).1
  refine ⟨⟨nonempty, fun x hx => by simpa using inside x hx⟩, ?_⟩
  rw [text', text, (between_literal third).1, placeholder_append]
  rfl

/-- A placeholder stands where it is found, and what is found before it stands before it. -/
theorem exists_placeholder {l r : List Text} (found : finds (piecesAt bracedName ⟨b, t⟩) = l ++ n :: r) :
    InBraces n ∧ ∃ u v, t = u ++ (placeholder n ++ v) ∧ finds (piecesAt bracedName ⟨b, u⟩) = l := by
  revert l
  refine piecesAt_induction consumes_bracedName (motive := fun b t ps => ∀ {l}, finds ps = l ++ n :: r →
    InBraces n ∧ ∃ u v, t = u ++ (placeholder n ++ v) ∧ finds (piecesAt bracedName ⟨b, u⟩) = l)
    ?_ ?_ ?_ b t
  · intro b l found
    cases l <;> cases found
  · intro b x t none ih l found
    obtain ⟨inside, u, v, rfl, before⟩ := ih found
    refine ⟨inside, x :: u, v, rfl, ?_⟩
    -- A placeholder that begins at `x` would be found in the longer text as well.
    have still : bracedName ⟨b, x :: u⟩ = Option.none := by
      rw [Option.eq_none_iff_forall_ne_some]
      rintro ⟨a, c'⟩ read
      obtain ⟨inside', text⟩ := placeholder_of_bracedName read
      rw [← List.cons_append, text, List.append_assoc, bracedName_placeholder inside'] at none
      cases none
    rw [finds_of_none still]
    exact before
  · intro b w a t _ read ih l found
    obtain ⟨inside, text⟩ := placeholder_of_bracedName read
    obtain rfl : w = placeholder a := List.append_cancel_right text
    cases l with
    | nil =>
      obtain ⟨rfl, _⟩ := List.cons.inj found
      exact ⟨inside, [], t, rfl, rfl⟩
    | cons a' l =>
      obtain ⟨rfl, later⟩ := List.cons.inj found
      obtain ⟨inside', u, v, rfl, before⟩ := ih later
      refine ⟨inside', placeholder a ++ u, v, (List.append_assoc _ _ _).symm, ?_⟩
      have closes : (placeholder a).getLast?.or b = some '}' := by
        rw [placeholder, List.getLast?_concat]
        rfl
      rw [closes] at before
      rw [piecesAt_of_some consumes_bracedName (bracedName_placeholder inside b u)]
      exact congrArg (a :: ·) before

/-- A name that stands in braces in the template. -/
def IsPlaceholder (template n : Text) : Prop := InBraces n ∧ placeholder n <:+: template

theorem mem_parameterNames_iff : n ∈ parameterNames t ↔ IsPlaceholder t n := by
  constructor
  · intro member
    obtain ⟨l, r, found⟩ := List.append_of_mem member
    obtain ⟨inside, u, v, rfl, _⟩ := exists_placeholder found
    exact ⟨inside, u, v, List.append_assoc u _ v⟩
  · rintro ⟨inside, u, v, rfl⟩
    rw [List.append_assoc]
    refine mem_finds_of_fitsAt consumes_bracedName (x := '{') (fun u r a c' _ found => ?_)
      ⟨u, placeholder n ++ v, _, rfl, bracedName_placeholder inside _ v⟩
    obtain ⟨free, text⟩ := bracedName_shape found
    exact ⟨a ++ ['}'], by simp [free], by rw [text]; simp⟩

/-- One placeholder stands somewhere before all those of another name. -/
def FirstBefore (template m n : Text) : Prop :=
  ∃ u v, template = u ++ (placeholder m ++ v) ∧ ¬placeholder n <:+: u

theorem firstBefore_of_split {l r : List Text} {m : Text} (split : parameterNames t = l ++ m :: r)
    (inside : InBraces n) (new : n ∉ l) : FirstBefore t m n := by
  obtain ⟨_, u, v, whole, before⟩ := exists_placeholder split
  refine ⟨u, v, whole, fun stands => new ?_⟩
  rw [← before]
  exact mem_parameterNames_iff.mpr ⟨inside, stands⟩

/-! ### Names without repetitions -/

theorem pairwise_distinctNames (seen names : List Text) :
    (distinctNames seen names).Pairwise fun m n => ∃ l r, names = l ++ m :: r ∧ n ∉ l := by
  induction names generalizing seen with
  | nil => exact .nil
  | cons k names ih =>
    have later {seen' : List Text} (known : k ∈ seen') :
        (distinctNames seen' names).Pairwise fun m n => ∃ l r, k :: names = l ++ m :: r ∧ n ∉ l := by
      refine (ih seen').imp_of_mem ?_
      rintro m n _ member ⟨l, r, rfl, new⟩
      refine ⟨k :: l, r, rfl, List.not_mem_cons_of_ne_of_not_mem ?_ new⟩
      rintro rfl
      exact (Operation.mem_distinctNames.mp member).2 known
    rw [distinctNames]
    split
    · rename_i known
      exact later (List.contains_iff_mem.mp known)
    · refine List.pairwise_cons.mpr ⟨fun n _ => ?_, later List.mem_cons_self⟩
      exact ⟨[], names, rfl, List.not_mem_nil⟩

/-! ### Operations -/

namespace Operation

/-- The parameters of an operation are the placeholders that no path parameter of the declared route
names, each once and in the order in which they first stand in the template, and then those of the
route. So parameters that are told apart stay so. -/
theorem parameters_ofDeclaration (d : Declaration) (template : Text) :
    (∃ names : List Text,
      (ofDeclaration d template).parameters =
        (names.map fun name => ⟨name, "path", true, "string"⟩) ++ d.parameters ∧
      names.Nodup ∧ names.Pairwise (FirstBefore template) ∧
      ∀ n, n ∈ names ↔ IsPlaceholder template n ∧
        ∀ p ∈ d.parameters, p.location = ("path" : Text) → p.name ≠ n) ∧
    ((d.parameters.map Parameter.key).Nodup →
      ((ofDeclaration d template).parameters.map Parameter.key).Nodup) := by
  let names := (distinctNames [] (parameterNames template)).filter
    fun n => !(pathNames d.parameters).contains n
  have whole : (ofDeclaration d template).parameters =
      names.map Parameter.inPath ++ d.parameters := rfl
  have nodup : names.Nodup := (nodup_distinctNames _ _).filter _
  have undescribed (n : Text) : n ∉ pathNames d.parameters ↔
      ∀ p ∈ d.parameters, p.location = ("path" : Text) → p.name ≠ n := by
    simp [pathNames]
  have exact (n : Text) : n ∈ names ↔ IsPlaceholder template n ∧ n ∉ pathNames d.parameters := by
    rw [List.mem_filter, mem_distinctNames, mem_parameterNames_iff]
    simp
  constructor
  · refine ⟨names, whole, nodup, ?_, fun n => ?_⟩
    · refine ((pairwise_distinctNames [] _).sublist List.filter_sublist).imp_of_mem ?_
      rintro m n _ member ⟨l, r, split, new⟩
      exact firstBefore_of_split split ((exact n).mp member).1.1 new
    · rw [exact, undescribed]
  · intro distinct
    rw [whole, List.map_append]
    refine List.nodup_append.mpr ⟨?_, distinct, ?_⟩
    · have there : ∀ p ∈ names.map Parameter.inPath, p.location = ("path" : Text) :=
        List.forall_mem_map.mpr fun _ _ => rfl
      rw [Parameter.nodup_keys_of_location there, List.map_map]
      exact (List.map_id names).symm ▸ nodup
    · rintro _ missing k described rfl
      obtain ⟨_, inside, rfl⟩ := List.mem_map.mp missing
      obtain ⟨n, member, rfl⟩ := List.mem_map.mp inside
      obtain ⟨p, declared, same⟩ := List.mem_map.mp described
      obtain ⟨name, location⟩ := Prod.mk.inj same
      exact (undescribed n).mp ((exact n).mp member).2 p declared location name

/-- A route of which a repeated placeholder is undescribed, one is described, and the query has a
parameter of the same name as the first. -/
def partlyDescribed : Declaration where
  method := "get"
  path := "/users/:id/posts/:postId/:id"
  source := "users.js"
  parameters := [.inQuery "id", .inPath "postId"]

theorem parameters_ofDeclaration_partlyDescribed :
    (partlyDescribed.parameters.map Parameter.key).Nodup ∧
      ((ofDeclaration partlyDescribed "/users/\x7bid\x7d/posts/\x7bpostId\x7d/\x7bid\x7d").parameters.map
        Parameter.key).Nodup ∧
      (ofDeclaration partlyDescribed "/users/\x7bid\x7d/posts/\x7bpostId\x7d/\x7bid\x7d").parameters =
        [.inPath "id", .inQuery "id", .inPath "postId"] := by
  have distinct : (partlyDescribed.parameters.map Parameter.key).Nodup := by decide
  exact ⟨distinct, (parameters_ofDeclaration partlyDescribed _).2 distinct, by decide⟩

end Operation
end RouteAtlas.Route
