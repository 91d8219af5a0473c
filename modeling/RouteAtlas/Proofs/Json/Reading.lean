import RouteAtlas.Proofs.Json.Strings
import RouteAtlas.Proofs.OrderedMap
import RouteAtlas.Proofs.Text.Splitting

/-!
# Reading what was printed

A value without numbers is read back from its text: `readValue_render` says so of a value in a text,
by induction on the value, and `parse?_print` of a whole text. The text holds only printable ASCII and
line feeds (`written_render`).
-/

namespace RouteAtlas.Json

open Text

/-- A value without numbers in which the members of every object have distinct names. -/
inductive Plain : Json → Prop where
  | null : Plain null
  | bool (b : Bool) : Plain (bool b)
  | string (t : Text) : Plain (string t)
  | array {items : List Json} (each : ∀ j ∈ items, Plain j) : Plain (array items)
  | object {members : List (Text × Json)} (distinct : (members.map Prod.fst).Nodup)
    (each : ∀ m ∈ members, Plain m.2) : Plain (object members)

variable {fuel level : Nat} {j item value : Json} {items : List Json} {name t rest more : Text}
  {members : List (Text × Json)}

/-! ### Blanks -/

theorem skip_newline (level : Nat) (t : Text) : skip (newline level ++ t) = skip t := by
  refine List.dropWhile_append_of_pos fun c hc => ?_
  rcases List.mem_cons.mp hc with rfl | hc
  · rfl
  · rw [List.eq_of_mem_replicate hc]
    rfl

theorem skip_space (t : Text) : skip (' ' :: t) = skip t := rfl

theorem skip_quoted (t rest : Text) : skip (quoted t ++ rest) = quoted t ++ rest := rfl

theorem skip_colon (t : Text) : skip ((": " : Text) ++ t) = ':' :: ' ' :: t := rfl

theorem render_head (plain : j.Plain) (level : Nat) :
    ∃ c ∈ ['n', 't', 'f', '"', '[', '{'], ∃ t, render level j = c :: t := by
  cases plain with
  | null => exact ⟨'n', by simp, _, rfl⟩
  | bool b =>
    cases b
    · exact ⟨'f', by simp, _, rfl⟩
    · exact ⟨'t', by simp, _, rfl⟩
  | string t => exact ⟨'"', by simp, _, rfl⟩
  | @array items _ => cases items <;> exact ⟨'[', by simp, _, rfl⟩
  | @object members _ _ => cases members <;> exact ⟨'{', by simp, _, rfl⟩

theorem skip_render (plain : j.Plain) (level : Nat) (rest : Text) :
    skip (render level j ++ rest) = render level j ++ rest := by
  obtain ⟨c, known, t, whole⟩ := render_head plain level
  rw [whole]
  simp only [List.mem_cons, List.not_mem_nil, or_false] at known
  rcases known with rfl | rfl | rfl | rfl | rfl | rfl <;> rfl

theorem render_ne_close (plain : j.Plain) (level : Nat) (rest more : Text) :
    render level j ++ rest ≠ ']' :: more := by
  obtain ⟨c, known, t, whole⟩ := render_head plain level
  rw [whole, List.cons_append]
  rintro same
  obtain rfl := (List.cons.inj same).1
  simp at known

/-! ### Steps -/

theorem readValue_null (rest : Text) :
    readValue (fuel + 1) ('n' :: 'u' :: 'l' :: 'l' :: rest) = some (null, rest) := by
  simp only [readValue]
  rfl

theorem readValue_true (rest : Text) :
    readValue (fuel + 1) ('t' :: 'r' :: 'u' :: 'e' :: rest) = some (bool true, rest) := by
  simp only [readValue]
  rfl

theorem readValue_false (rest : Text) :
    readValue (fuel + 1) ('f' :: 'a' :: 'l' :: 's' :: 'e' :: rest) = some (bool false, rest) := by
  simp only [readValue]
  rfl

theorem readValue_string (t rest : Text) :
    readValue (fuel + 1) (quoted t ++ rest) = some (string t, rest) := by
  rw [quoted_append]
  simp only [readValue, readString_quoted, Option.map_some]

theorem readValue_array (skipped : skip t = more) (other : ∀ u, more ≠ ']' :: u)
    (read : readItems fuel more = some (items, rest)) :
    readValue (fuel + 1) ('[' :: t) = some (array items, rest) := by
  subst skipped
  simp only [readValue, read, Option.map_some]

theorem readItems_last (read : readValue fuel t = some (item, rest))
    (ends : skip rest = ']' :: more) : readItems (fuel + 1) t = some ([item], more) := by
  simp only [readItems, read, Option.bind_eq_bind, Option.bind_some, ends]
  rfl

theorem readItems_next {after : Text} (read : readValue fuel t = some (item, rest))
    (next : skip rest = ',' :: more) (others : readItems fuel (skip more) = some (items, after)) :
    readItems (fuel + 1) t = some (item :: items, after) := by
  simp only [readItems, read, Option.bind_eq_bind, Option.bind_some, next, others]
  rfl

theorem readValue_object (distinct : (members.map Prod.fst).Nodup) (skipped : skip t = more)
    (other : ∀ u, more ≠ '}' :: u) (read : readMembers fuel more = some (members, rest)) :
    readValue (fuel + 1) ('{' :: t) = some (object members, rest) := by
  subst skipped
  simp only [readValue, read, Option.map_some, ofPairs, OrderedMap.toList_ofList distinct]

theorem readMembers_last {colon after : Text} (start : readString t = some (name, rest))
    (middle : skip rest = ':' :: colon) (read : readValue fuel (skip colon) = some (value, after))
    (ends : skip after = '}' :: more) :
    readMembers (fuel + 1) ('"' :: t) = some ([(name, value)], more) := by
  simp only [readMembers, start, middle, read, Option.bind_eq_bind, Option.bind_some, ends]
  rfl

theorem readMembers_next {colon after last : Text} (start : readString t = some (name, rest))
    (middle : skip rest = ':' :: colon) (read : readValue fuel (skip colon) = some (value, after))
    (next : skip after = ',' :: more)
    (others : readMembers fuel (skip more) = some (members, last)) :
    readMembers (fuel + 1) ('"' :: t) = some ((name, value) :: members, last) := by
  simp only [readMembers, start, middle, read, Option.bind_eq_bind, Option.bind_some, next, others]
  rfl

/-! ### Values -/

/-- A value that is read back wherever its text stands. -/
def ReadsBack (level : Nat) (j : Json) : Prop :=
  ∀ fuel rest, (render level j).length ≤ fuel →
    readValue fuel (render level j ++ rest) = some (j, rest)

theorem readItems_render (plain : ∀ j ∈ item :: items, j.Plain)
    (each : ∀ j ∈ item :: items, ReadsBack level j) (outer : Nat) (rest : Text)
    (enough : (render level item ++ renderItems level items).length < fuel) :
    readItems fuel (render level item ++ (renderItems level items ++
      (newline outer ++ ']' :: rest))) = some (item :: items, rest) := by
  induction items generalizing item fuel with
  | nil =>
    obtain ⟨fuel, rfl⟩ := Nat.exists_eq_add_one_of_ne_zero (Nat.ne_zero_of_lt enough)
    rw [List.length_append] at enough
    refine readItems_last (each item List.mem_cons_self fuel _ (by omega)) ?_
    exact skip_newline outer (']' :: rest)
  | cons next items ih =>
    obtain ⟨fuel, rfl⟩ := Nat.exists_eq_add_one_of_ne_zero (Nat.ne_zero_of_lt enough)
    obtain ⟨here, back⟩ := List.forall_mem_cons.mp each
    have others := List.forall_mem_cons.mp plain |>.2
    -- The comma pays for the step from one item to the next.
    simp only [renderItems, List.length_append, List.length_cons, List.cons_append,
      List.append_assoc] at enough ⊢
    refine readItems_next (here fuel _ (by omega)) rfl ?_
    rw [skip_newline, skip_render (others next List.mem_cons_self)]
    exact ih others back (by rw [List.length_append]; omega)

theorem ReadsBack.spaced (back : ReadsBack level value) (plain : value.Plain) (fuel : Nat)
    (more : Text) (enough : (render level value).length ≤ fuel) :
    readValue fuel (skip (' ' :: (render level value ++ more))) = some (value, more) := by
  rw [skip_space, skip_render plain]
  exact back fuel more enough

theorem readMembers_render (plain : ∀ m ∈ (name, value) :: members, m.2.Plain)
    (each : ∀ m ∈ (name, value) :: members, ReadsBack level m.2) (outer : Nat) (rest : Text)
    (enough : (quoted name ++ render level value ++ renderMembers level members).length < fuel) :
    readMembers fuel (quoted name ++ (": " ++ (render level value ++ (renderMembers level members ++
      (newline outer ++ '}' :: rest))))) = some ((name, value) :: members, rest) := by
  induction members generalizing name value fuel with
  | nil =>
    obtain ⟨fuel, rfl⟩ := Nat.exists_eq_add_one_of_ne_zero (Nat.ne_zero_of_lt enough)
    simp only [List.length_append] at enough
    rw [quoted_append]
    have back : ReadsBack level value := each _ List.mem_cons_self
    have plainValue : value.Plain := plain _ List.mem_cons_self
    exact readMembers_last (readString_quoted name _) (skip_colon _)
      (back.spaced plainValue fuel _ (by omega)) (skip_newline outer ('}' :: rest))
  | cons next members ih =>
    obtain ⟨fuel, rfl⟩ := Nat.exists_eq_add_one_of_ne_zero (Nat.ne_zero_of_lt enough)
    obtain ⟨other, inner⟩ := next
    obtain ⟨(here : ReadsBack level value), back⟩ := List.forall_mem_cons.mp each
    obtain ⟨(plainHere : value.Plain), others⟩ := List.forall_mem_cons.mp plain
    simp only [renderMembers, List.length_append, List.length_cons, List.cons_append,
      List.append_assoc] at enough ⊢
    rw [quoted_append]
    refine readMembers_next (readString_quoted name _) (skip_colon _)
      (here.spaced plainHere fuel _ (by omega)) rfl ?_
    rw [skip_newline, skip_quoted]
    exact ih others back (by simp only [List.length_append]; omega)

/-- No value has an empty text, so that reading one takes at least a step. -/
theorem readsBack_of_succ (plain : j.Plain) (back : ∀ fuel rest,
    (render level j).length ≤ fuel + 1 →
      readValue (fuel + 1) (render level j ++ rest) = some (j, rest)) : ReadsBack level j := by
  intro fuel rest enough
  obtain ⟨c, _, t, whole⟩ := render_head plain level
  have longer : 0 < (render level j).length := by simp [whole]
  obtain ⟨fuel, rfl⟩ := Nat.exists_eq_add_one_of_ne_zero (by omega : fuel ≠ 0)
  exact back fuel rest enough

/-- A value is read back, whatever follows its text. -/
theorem readValue_render (plain : j.Plain) (level : Nat) : ReadsBack level j := by
  induction plain generalizing level with
  | null => exact readsBack_of_succ .null fun fuel rest _ => readValue_null rest
  | bool b =>
    refine readsBack_of_succ (.bool b) fun fuel rest _ => ?_
    cases b
    · exact readValue_false rest
    · exact readValue_true rest
  | string t => exact readsBack_of_succ (.string t) fun fuel rest _ => readValue_string t rest
  | @array items plain ih =>
    refine readsBack_of_succ (.array plain) fun fuel rest enough => ?_
    cases items with
    | nil => rfl
    | cons item items =>
      have whole : render level (array (item :: items)) ++ rest =
          '[' :: (newline (level + 1) ++ (render (level + 1) item ++
            (renderItems (level + 1) items ++ (newline level ++ ']' :: rest)))) := by
        simp [render]
      rw [whole]
      have here := plain item List.mem_cons_self
      refine readValue_array ((skip_newline _ _).trans (skip_render here _ _))
        (render_ne_close here _ _) ?_
      -- The line breaks around the items pay for the step that the array takes.
      refine readItems_render plain (fun j hj => ih j hj (level + 1)) level rest ?_
      simp only [render, List.cons_append, List.append_assoc, List.length_cons,
        List.length_append] at enough ⊢
      have line : 0 < (newline level).length := Nat.succ_pos _
      omega
  | @object members distinct plain ih =>
    refine readsBack_of_succ (.object distinct plain) fun fuel rest enough => ?_
    cases members with
    | nil => rfl
    | cons m members =>
      obtain ⟨name, value⟩ := m
      have whole : render level (object ((name, value) :: members)) ++ rest =
          '{' :: (newline (level + 1) ++ (quoted name ++ (": " ++ (render (level + 1) value ++
            (renderMembers (level + 1) members ++ (newline level ++ '}' :: rest)))))) := by
        simp [render]
      rw [whole]
      refine readValue_object distinct ((skip_newline _ _).trans (skip_quoted _ _))
        (fun u same => by cases same) ?_
      refine readMembers_render plain (fun m hm => ih m hm (level + 1)) level rest ?_
      simp only [render, List.cons_append, List.append_assoc, List.length_cons,
        List.length_append] at enough ⊢
      have line : 0 < (newline level).length := Nat.succ_pos _
      omega

/-- A whole text is read back. -/
theorem parse?_print (plain : j.Plain) : parse? j.print = some j := by
  have skipped : skip j.print = j.print := by
    have skipped := skip_render plain 0 []
    rwa [List.append_nil] at skipped
  have read : readValue (2 * j.print.length + 1) j.print = some (j, []) := by
    have read := readValue_render plain 0 (2 * j.print.length + 1) [] (by rw [print]; omega)
    rwa [List.append_nil] at read
  simp only [parse?, skipped, read]
  rfl

/-! ### Characters -/

/-- The characters of a printed text. -/
def IsWritten (c : Char) : Prop := IsShown c ∨ c = '\n'

instance (c : Char) : Decidable (IsWritten c) := inferInstanceAs (Decidable (_ ∨ _))

theorem written_newline (level : Nat) : ∀ c ∈ newline level, IsWritten c := by
  intro c hc
  rcases List.mem_cons.mp hc with rfl | hc
  · decide
  · rw [List.eq_of_mem_replicate hc]
    decide

theorem written_quoted (t : Text) : ∀ c ∈ quoted t, IsWritten c :=
  fun c hc => .inl (shown_quoted c hc)

theorem written_renderItems (each : ∀ j ∈ items, ∀ c ∈ render level j, IsWritten c) :
    ∀ c ∈ renderItems level items, IsWritten c := by
  induction items with
  | nil => simp [renderItems]
  | cons item items ih =>
    obtain ⟨here, each⟩ := List.forall_mem_cons.mp each
    simp only [renderItems, List.forall_mem_append, List.forall_mem_cons, and_assoc]
    exact ⟨by decide, written_newline level, here, ih each⟩

theorem written_renderMembers (each : ∀ m ∈ members, ∀ c ∈ render level m.2, IsWritten c) :
    ∀ c ∈ renderMembers level members, IsWritten c := by
  induction members with
  | nil => simp [renderMembers]
  | cons m members ih =>
    obtain ⟨here, each⟩ := List.forall_mem_cons.mp each
    simp only [renderMembers, List.forall_mem_append, List.forall_mem_cons, and_assoc]
    exact ⟨by decide, written_newline level, written_quoted m.1, forall_of_all (by decide), here,
      ih each⟩

/-- A printed text holds nothing but printable ASCII and line feeds. -/
theorem written_render (plain : j.Plain) (level : Nat) : ∀ c ∈ render level j, IsWritten c := by
  induction plain generalizing level with
  | null =>
    rw [render]
    exact forall_of_all (by decide)
  | bool b =>
    rw [render]
    cases b
    · exact forall_of_all (by decide)
    · exact forall_of_all (by decide)
  | string t => exact written_quoted t
  | @array items _ ih =>
    cases items with
    | nil =>
      rw [render]
      exact forall_of_all (by decide)
    | cons item items =>
      obtain ⟨here, each⟩ := List.forall_mem_cons.mp ih
      simp only [render, List.forall_mem_append, List.forall_mem_cons, and_assoc]
      exact ⟨by decide, written_newline _, here _, written_renderItems fun j hj => each j hj _,
        written_newline _, forall_of_all (by decide)⟩
  | @object members _ _ ih =>
    cases members with
    | nil =>
      rw [render]
      exact forall_of_all (by decide)
    | cons m members =>
      obtain ⟨here, each⟩ := List.forall_mem_cons.mp ih
      simp only [render, List.forall_mem_append, List.forall_mem_cons, and_assoc]
      exact ⟨by decide, written_newline _, written_quoted m.1, forall_of_all (by decide), here _,
        written_renderMembers fun m hm => each m hm _, written_newline _, forall_of_all (by decide)⟩

end RouteAtlas.Json
