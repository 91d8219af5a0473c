import Mathlib.Data.List.Infix
import RouteAtlas.Proofs.Extract.Members

/-!
# Parameter lists of actions

`balanced_append` says that the parameter list of an action ends with the parenthesis that closes it,
whatever balanced text it holds, and `balanced_shortest` where it ends in any text. In a list of
parameters with at most one attribute each, the query names and the body are found as they are
written (`query_signature`, `body_signature`).
-/

namespace RouteAtlas.Extract

open Scanner

variable {α : Type} {s : Scanner α} {b : Option Char} {t rest opening : Text}

/-! ### Balanced texts -/

/-- As many parentheses are closed as are opened, and none before it is opened. -/
structure Balanced (t : Text) : Prop where
  total : t.count ')' = t.count '('
  started : ∀ u, u <+: t → u.count ')' ≤ u.count '('

instance (t : Text) : Decidable (Balanced t) :=
  decidable_of_iff (t.count ')' = t.count '(' ∧ ∀ u ∈ t.inits, u.count ')' ≤ u.count '(')
    ⟨fun h => ⟨h.1, fun u front => h.2 u ((List.mem_inits u t).mpr front)⟩,
      fun h => ⟨h.total, fun u front => h.started u ((List.mem_inits u t).mp front)⟩⟩

theorem balanced_of_free (opening : '(' ∉ t) (closing : ')' ∉ t) : Balanced t where
  total := by rw [List.count_eq_zero.mpr opening, List.count_eq_zero.mpr closing]
  started u h := by
    rw [List.count_eq_zero.mpr fun inside => closing (h.subset inside)]
    exact Nat.zero_le _

/-- A stretch that does not close the last open parenthesis is passed over. -/
theorem balancedGo_append {depth : Nat}
    (open_ : ∀ u, u <+: t → u.count ')' < u.count '(' + depth) (rest : Text) :
    balancedGo depth (t ++ rest) =
      t ++ balancedGo (depth + t.count '(' - t.count ')') rest := by
  induction t generalizing depth with
  | nil => simp
  | cons x t ih =>
    have later (u : Text) (h : u <+: t) := open_ (x :: u) (List.cons_prefix_cons.mpr ⟨rfl, h⟩)
    rw [List.cons_append, balancedGo]
    split
    · rename_i opens
      subst opens
      have deeper (u : Text) (h : u <+: t) : u.count ')' < u.count '(' + (depth + 1) := by
        have := later u h
        simp at this
        omega
      rw [ih deeper]
      simp [Nat.add_assoc, Nat.add_comm 1]
    · split
      · rename_i closes
        subst closes
        have two := later [] List.nil_prefix
        have higher (u : Text) (h : u <+: t) : u.count ')' < u.count '(' + (depth - 1) := by
          have := later u h
          simp at this
          omega
        simp at two
        rw [if_neg (by omega), ih higher]
        have same : depth - 1 + t.count '(' - t.count ')' =
            depth + t.count '(' - (t.count ')' + 1) := by omega
        simp [same]
      · rename_i opens closes
        have same (u : Text) (h : u <+: t) : u.count ')' < u.count '(' + depth := by
          have := later u h
          rwa [List.count_cons_of_ne closes, List.count_cons_of_ne opens] at this
        rw [ih same, List.count_cons_of_ne opens, List.count_cons_of_ne closes, List.cons_append]

/-- The parameter list of an action goes on to the parenthesis that closes it. -/
theorem balanced_append (h : Balanced t) (rest : Text) :
    balanced ('(' :: (t ++ ')' :: rest)) = '(' :: (t ++ [')']) := by
  have inside : balancedGo 1 (t ++ ')' :: rest) = t ++ balancedGo 1 (')' :: rest) := by
    rw [balancedGo_append fun u front => Nat.lt_succ_of_le (h.started u front), h.total,
      Nat.add_sub_cancel]
  exact congrArg ('(' :: ·) inside

/-! ### The end of a parameter list -/

/-- As many parentheses are closed as are opened. -/
def Level (u : Text) : Prop := u.count ')' = u.count '('

instance (u : Text) : Decidable (Level u) := inferInstanceAs (Decidable (_ = _))

/-- The text is the shortest beginning that is level, the empty one apart. -/
structure ShortestLevel (t u : Text) : Prop where
  front : u <+: t
  nonempty : u ≠ []
  level : Level u
  least : ∀ v, v <+: t → v ≠ [] → Level v → u.length ≤ v.length

/-- Either a parenthesis closes one that was opened before the text, or no beginning closes more
than it opens. -/
theorem exists_closing (t : Text) :
    (∃ u v, t = u ++ ')' :: v ∧ Balanced u) ∨ ∀ u, u <+: t → u.count ')' ≤ u.count '(' := by
  -- From the end, so that all beginnings but the whole text are known already.
  induction t using List.reverseRecOn with
  | nil =>
    right
    intro u front
    rw [List.prefix_nil.mp front]
    exact Nat.le_refl 0
  | append_singleton t x ih =>
    rcases ih with ⟨u, v, rfl, balanced⟩ | started
    · exact .inl ⟨u, v ++ [x], List.append_assoc u (')' :: v) [x], balanced⟩
    by_cases closes : x = ')' ∧ Level t
    · obtain ⟨rfl, level⟩ := closes
      exact .inl ⟨t, [], rfl, level, started⟩
    right
    intro u front
    rcases List.prefix_concat_iff.mp front with rfl | shorter
    · have whole := started t List.prefix_rfl
      rw [List.count_append, List.count_append, List.count_singleton, List.count_singleton]
      rw [Level] at closes
      grind
    · exact started u shorter

theorem count_lt_of_open {w : Text} (started : ∀ u, u <+: t → u.count ')' ≤ u.count '(')
    (begins : w <+: '(' :: t) (nonempty : w ≠ []) : w.count ')' < w.count '(' := by
  rcases List.prefix_cons_iff.mp begins with rfl | ⟨u, rfl, front⟩
  · exact absurd rfl nonempty
  · have := started u front
    simp
    omega

theorem count_lt_of_balanced {w : Text} (h : Balanced t) (begins : w <+: '(' :: (t ++ [')']))
    (nonempty : w ≠ []) (other : w ≠ '(' :: (t ++ [')'])) : w.count ')' < w.count '(' := by
  rw [← List.cons_append] at begins other
  have shorter : w <+: '(' :: t := (List.prefix_concat_iff.mp begins).resolve_left other
  exact count_lt_of_open h.started shorter nonempty

theorem shortestLevel_append (h : Balanced t) (rest : Text) :
    ShortestLevel ('(' :: (t ++ ')' :: rest)) ('(' :: (t ++ [')'])) := by
  have front : '(' :: (t ++ [')']) <+: '(' :: (t ++ ')' :: rest) := ⟨rest, by simp⟩
  refine ⟨front, List.cons_ne_nil _ _, ?_, fun v begins nonempty level => ?_⟩
  · unfold Level
    simp [h.total]
  · by_contra less
    have shorter : v <+: '(' :: (t ++ [')']) :=
      List.prefix_of_prefix_length_le begins front (by omega)
    have other : v ≠ '(' :: (t ++ [')']) := by
      rintro rfl
      exact less (Nat.le_refl _)
    exact absurd level (Nat.ne_of_lt (count_lt_of_balanced h shorter nonempty other))

theorem balanced_of_open (started : ∀ u, u <+: t → u.count ')' ≤ u.count '(') :
    balanced ('(' :: t) = '(' :: t := by
  have inside : balancedGo 1 (t ++ []) = t ++ balancedGo (1 + t.count '(' - t.count ')') [] :=
    balancedGo_append (fun u front => Nat.lt_succ_of_le (started u front)) []
  rw [List.append_nil, balancedGo, List.append_nil] at inside
  exact congrArg ('(' :: ·) inside

/-- The parameter list of an action is the shortest level beginning of the text from its parenthesis
on; before its end something is still open. Where nothing is level it is the whole text. -/
theorem balanced_shortest {text : Text} {start : Nat} (opens : text[start]? = some '(') :
    ((∃ u, u <+: text.drop start ∧ u ≠ [] ∧ Level u) →
      ShortestLevel (text.drop start) (balanced (text.drop start)) ∧
      (balanced (text.drop start)).getLast? = some ')' ∧
      ∀ u, u <+: balanced (text.drop start) → u ≠ [] → u ≠ balanced (text.drop start) →
        u.count ')' < u.count '(') ∧
    ((¬∃ u, u <+: text.drop start ∧ u ≠ [] ∧ Level u) →
      balanced (text.drop start) = text.drop start) := by
  obtain ⟨t, whole⟩ : ∃ t, text.drop start = '(' :: t := by
    rw [← List.head?_drop] at opens
    exact List.head?_eq_some_iff.mp opens
  rw [whole]
  rcases exists_closing t with ⟨list, rest, rfl, h⟩ | started
  · have shortest := shortestLevel_append h rest
    rw [balanced_append h rest]
    constructor
    · intro _
      refine ⟨shortest, ?_, fun u => count_lt_of_balanced h⟩
      rw [← List.cons_append, List.getLast?_concat]
    · intro none
      exact absurd ⟨_, shortest.front, shortest.nonempty, shortest.level⟩ none
  · constructor
    · rintro ⟨u, front, nonempty, level⟩
      exact absurd level (Nat.ne_of_lt (count_lt_of_open started front nonempty))
    · intro _
      exact balanced_of_open started

theorem balanced_shortest_nested :
    ("Save(Page p = Next(1), int n) { }" : Text)[4]? = some '(' ∧
      ShortestLevel "(Page p = Next(1), int n) { }" "(Page p = Next(1), int n)" ∧
      ("Save(Page p = Next(1" : Text)[4]? = some '(' ∧
      balanced (("Save(Page p = Next(1" : Text).drop 4) = "(Page p = Next(1" := by
  have opens : ("Save(Page p = Next(1), int n) { }" : Text)[4]? = some '(' := by decide
  have opens' : ("Save(Page p = Next(1" : Text)[4]? = some '(' := by decide
  have text : ("Save(Page p = Next(1), int n) { }" : Text).drop 4 = "(Page p = Next(1), int n) { }" := by
    decide
  have ends : balanced "(Page p = Next(1), int n) { }" = "(Page p = Next(1), int n)" := by decide
  have front : ("(Page p = Next(1), int n)" : Text) <+: "(Page p = Next(1), int n) { }" := by decide
  refine ⟨opens, ?_, opens', ?_⟩
  · have shortest := (balanced_shortest opens).1
    rw [text, ends] at shortest
    exact (shortest ⟨_, front, by decide, by decide⟩).1
  · refine (balanced_shortest opens').2 ?_
    rintro ⟨u, front, nonempty, level⟩
    have none : ∀ u ∈ ("(Page p = Next(1" : Text).inits, u ≠ [] → ¬Level u := by decide
    exact none u ((List.mem_inits u _).mpr front) nonempty level

/-! ### Parameters with at most one attribute -/

/-- Where the value of a parameter is said to come from. -/
inductive Source where
  | query
  | body
  | unsaid
deriving DecidableEq

def Source.mark : Source → Text
  | query => "[FromQuery] "
  | body => "[FromBody] "
  | unsaid => []

/-- A parameter of an action: an attribute or none, a type and a name. -/
structure ActionParameter where
  source : Source
  type : Word
  name : Word

namespace ActionParameter

variable (p : ActionParameter)

def declared : Text := p.type.text ++ ' ' :: p.name.text

def text : Text := p.source.mark ++ p.declared

theorem notMem_declared {x : Char} (other : Text.isWord x = false) (space : x ≠ ' ') :
    x ∉ p.declared :=
  List.not_mem_append (p.type.notMem other)
    (List.not_mem_cons_of_ne_of_not_mem space (p.name.notMem other))

theorem notMem_text {x : Char} (other : Text.isWord x = false)
    (outside : ∀ source : Source, x ∉ source.mark) : x ∉ p.text :=
  List.not_mem_append (outside p.source) (p.notMem_declared other fun space => by
    exact absurd space fun e => outside .query (e ▸ by decide))

theorem shuns_declared (first : opening.head? = some '[') : Shuns opening p.declared :=
  shuns_of_head_notMem first (p.notMem_declared (by decide) (by decide))

theorem shuns_text (first : opening.head? = some '[') (mark : Shuns opening p.source.mark) :
    Shuns opening p.text := mark.append (p.shuns_declared first)

end ActionParameter

/-- Parameters with commas between them. -/
def listed (ps : List ActionParameter) : Text := Text.join ", " (ps.map ActionParameter.text)

def signature (ps : List ActionParameter) : Text := '(' :: (listed ps ++ [')'])

theorem join_cons (sep w : Text) (ws : List Text) :
    Text.join sep (w :: ws) = w ++ ws.flatMap (sep ++ ·) := by
  induction ws generalizing w with
  | nil => simp [Text.join]
  | cons v ws ih =>
    rw [Text.join, ih, List.flatMap_cons, List.append_assoc, List.append_assoc]
    · exact fun h => absurd h (by simp)

theorem listed_cons (p : ActionParameter) (ps : List ActionParameter) :
    listed (p :: ps) = p.text ++ (ps.map ActionParameter.text).flatMap ((", " : Text) ++ ·) := by
  rw [listed, List.map_cons, join_cons]

theorem listed_free {x : Char} (word : Text.isWord x = false) (comma : x ∉ (", " : Text))
    (marks : ∀ source : Source, x ∉ source.mark) (ps : List ActionParameter) : x ∉ listed ps := by
  have single (p : ActionParameter) : x ∉ p.text := p.notMem_text word marks
  cases ps with
  | nil => exact List.not_mem_nil
  | cons p ps =>
    rw [listed_cons]
    refine List.not_mem_append (single p) fun member => ?_
    obtain ⟨w, listed, inside⟩ := List.mem_flatMap.mp member
    obtain ⟨q, _, rfl⟩ := List.mem_map.mp listed
    exact List.not_mem_append comma (single q) inside

theorem balanced_listed (ps : List ActionParameter) : Balanced (listed ps) :=
  balanced_of_free (listed_free (by decide) (by decide) (by rintro ⟨⟩ <;> decide) ps)
    (listed_free (by decide) (by decide) (by rintro ⟨⟩ <;> decide) ps)

theorem shuns_listed (first : opening.head? = some '[')
    (marks : ∀ source : Source, Shuns opening source.mark) (ps : List ActionParameter) :
    Shuns opening (listed ps) := by
  have single (p : ActionParameter) : Shuns opening p.text := p.shuns_text first (marks p.source)
  have comma : Shuns opening ", " := shuns_of_head_notMem first (by decide)
  cases ps with
  | nil => exact shuns_nil
  | cons p ps =>
    rw [listed_cons, List.flatMap_map]
    exact (single p).append (shuns_flatMap fun q _ => comma.append (single q))

/-- Where nothing begins in the marks between parameters, nor in those of another source, what is found
in a list is what each parameter of the source gives. -/
theorem finds_signature {source : Source} {give : ActionParameter → α}
    (between : ∀ w ∈ (["(", ")", ", "] : List Text), Silent s w)
    (silent : ∀ p : ActionParameter, p.source ≠ source → Silent s p.text)
    (here : ∀ (p : ActionParameter) b rest, p.source = source → Stops Text.isWord rest →
      ∃ b', finds (piecesAt s ⟨b, p.text ++ rest⟩) = give p :: finds (piecesAt s ⟨b', rest⟩))
    (ps : List ActionParameter) :
    s.findAll (signature ps) = (ps.filter (·.source = source)).map give := by
  have single (p : ActionParameter) (ps : List ActionParameter) (b : Option Char) {rest : Text}
      (stop : Stops Text.isWord rest) (more : ∀ b, finds (piecesAt s ⟨b, rest⟩) =
        (ps.filter (·.source = source)).map give) :
      finds (piecesAt s ⟨b, p.text ++ rest⟩) = ((p :: ps).filter (·.source = source)).map give := by
    by_cases own : p.source = source
    · obtain ⟨b', found⟩ := here p b rest own stop
      rw [found, more, List.filter_cons_of_pos (by simpa using own), List.map_cons]
    · rw [finds_silent (silent p own), more, List.filter_cons_of_neg (by simpa using own)]
  have close (b : Option Char) : finds (piecesAt s ⟨b, ")"⟩) = [] :=
    finds_silent (w := ")") (between _ (by simp)) b []
  -- Behind its first parameter the list goes on with a comma or ends.
  have list (ps : List ActionParameter) (p : ActionParameter) (b : Option Char) :
      finds (piecesAt s ⟨b, p.text ++
        ((ps.map ActionParameter.text).flatMap ((", " : Text) ++ ·) ++ [')'])⟩) =
          ((p :: ps).filter (·.source = source)).map give := by
    induction ps generalizing p b with
    | nil => exact single p [] b (stops_cons.mpr (by decide)) close
    | cons q ps ih =>
      rw [List.map_cons, List.flatMap_cons, List.append_assoc, List.append_assoc]
      refine single p (q :: ps) b (stops_cons.mpr (by decide)) fun b => ?_
      rw [finds_silent (between _ (by simp)), ih]
  have opened (t : Text) : finds (piecesAt s ⟨none, "(" ++ t⟩) = finds (piecesAt s ⟨some '(', t⟩) :=
    finds_silent (between _ (by simp)) none t
  cases ps with
  | nil => exact (opened _).trans (close _)
  | cons p ps =>
    rw [signature, listed_cons, List.append_assoc]
    exact (opened _).trans (list ps p _)

/-! ### Hints -/

theorem queryAttribute_append (type name : Word) (b : Option Char) (stop : Stops Text.isWord rest) :
    queryAttribute ⟨b, "[FromQuery] " ++ (type.text ++ ' ' :: (name.text ++ rest))⟩ =
      some (name.text, ⟨name.text.getLast?, rest⟩) := by
  have typed (x : Char) (h : x ∈ type.text) :
      (Text.isWord x || ("<>[],?." : Text).contains x) = true := by
    rw [type.inside x h, Bool.true_or]
  refine (bind_of_some (literal_append "[FromQuery" b _)).trans ?_
  refine (bind_of_some (run_until List.not_mem_nil _ _)).trans ?_
  refine (bind_of_some (literal_append "]" _ _)).trans ?_
  refine (bind_of_some (blanks_space (type.stops_isBlank _) _)).trans ?_
  refine (bind_of_some (run1_append type.nonempty typed (stops_cons.mpr (by decide)))).trans ?_
  refine (bind_of_some (blanks1_space (name.stops_isBlank rest) _)).trans ?_
  exact run1_word name stop _

theorem consumes_queryAttribute : Consumes queryAttribute :=
  consumes_bind (consumes_literal (by decide)) fun _ =>
    reads_bind (reads_run _) fun _ => reads_bind (reads_literal _) fun _ =>
      reads_bind (reads_run _) fun _ => reads_bind (reads_of_consumes (consumes_run1 _)) fun _ =>
        reads_bind (reads_of_consumes (consumes_run1 _)) fun _ =>
          reads_of_consumes (consumes_run1 _)

theorem consumes_bodyAttribute : Consumes bodyAttribute :=
  consumes_bind (consumes_literal (by decide)) fun _ =>
    reads_bind (reads_run _) fun _ => reads_literal _

theorem finds_query (p : ActionParameter) (b : Option Char) (own : p.source = .query)
    (stop : Stops Text.isWord rest) : ∃ b', finds (piecesAt queryAttribute ⟨b, p.text ++ rest⟩) =
      p.name.text :: finds (piecesAt queryAttribute ⟨b', rest⟩) := by
  have read := queryAttribute_append p.type p.name b stop
  refine ⟨p.name.text.getLast?, ?_⟩
  rw [ActionParameter.text, own, ActionParameter.declared, List.append_assoc, List.append_assoc]
  exact congrArg finds (piecesAt_of_some consumes_queryAttribute read)

theorem finds_body (p : ActionParameter) (b : Option Char) (own : p.source = .body) :
    ∃ b', finds (piecesAt bodyAttribute ⟨b, p.text ++ rest⟩) =
      () :: finds (piecesAt bodyAttribute ⟨b', rest⟩) := by
  have read : bodyAttribute ⟨b, "[FromBody]" ++ (' ' :: (p.declared ++ rest))⟩ =
      some ((), ⟨some ']', ' ' :: (p.declared ++ rest)⟩) := rfl
  have behind : Silent bodyAttribute (' ' :: p.declared) :=
    silent_of_shuns (Shuns.append (u := " ") (by decide) (p.shuns_declared rfl))
  refine ⟨(' ' :: p.declared).getLast?.or (some ']'), ?_⟩
  rw [ActionParameter.text, own, ← finds_silent behind]
  exact congrArg finds (piecesAt_of_some consumes_bodyAttribute read)

theorem query_signature (ps : List ActionParameter) :
    queryAttribute.findAll (signature ps) =
      (ps.filter (·.source = .query)).map (·.name.text) := by
  have between : ∀ w ∈ (["(", ")", ", "] : List Text), Shuns "[FromQuery" w := by decide
  have others : ∀ source : Source, source ≠ .query → Shuns "[FromQuery" source.mark := by
    rintro ⟨⟩ <;> decide
  exact finds_signature (fun w member => silent_of_shuns (between w member))
    (fun p other => silent_of_shuns (p.shuns_text rfl (others _ other)))
    (fun p b _ => finds_query p b) ps

theorem body_signature (ps : List ActionParameter) :
    bodyAttribute.occursIn (signature ps) = true ↔ ∃ p ∈ ps, p.source = .body := by
  have between : ∀ w ∈ (["(", ")", ", "] : List Text), Shuns "[FromBody" w := by decide
  have others : ∀ source : Source, source ≠ .body → Shuns "[FromBody" source.mark := by
    rintro ⟨⟩ <;> decide
  have found : bodyAttribute.findAll (signature ps) = _ :=
    finds_signature (fun w member => silent_of_shuns (between w member))
      (fun p other => silent_of_shuns (p.shuns_text rfl (others _ other)))
      (fun p b _ own _ => finds_body p b own) ps
  rw [occursIn, found]
  simp

end RouteAtlas.Extract
