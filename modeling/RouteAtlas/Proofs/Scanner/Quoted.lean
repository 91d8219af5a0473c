import RouteAtlas.Extract.Basic
import RouteAtlas.Proofs.Scanner.Places

/-!
# Quoted stretches

What is read between quotation marks (`quoted_append`), and at which one place a text is cut by the
first character of a class or by the last of equal characters. `piecesAt_skip` passes over a stretch at
no place of which a scanner succeeds.
-/

namespace RouteAtlas

namespace Scanner

variable {α : Type} {s : Scanner α} {b : Option Char} {c' : Cursor} {u v body : Text}

theorem eq_none_of_forall {c : Cursor} (h : ∀ a c', s c ≠ some (a, c')) : s c = none :=
  Option.eq_none_iff_forall_ne_some.mpr fun q => h q.1 q.2

/-- A stretch is passed over if the scanner fails at every place of it. -/
theorem piecesAt_skip (fails : ∀ v w, u = v ++ w → w ≠ [] → s ⟨v.getLast?.or b, w ++ body⟩ = none) :
    piecesAt s ⟨b, u ++ body⟩ = u.map .plain ++ piecesAt s ⟨u.getLast?.or b, body⟩ := by
  induction u generalizing b with
  | nil => rfl
  | cons x u ih =>
    have here : s ⟨b, x :: (u ++ body)⟩ = none := fails [] (x :: u) rfl (List.cons_ne_nil x u)
    rw [List.cons_append, piecesAt_of_none here, getLast?_cons_or, ih]
    · rfl
    · rintro v w rfl nonempty
      have later := fails (x :: v) w rfl nonempty
      rwa [getLast?_cons_or] at later

theorem finds_skip (fails : ∀ v w, u = v ++ w → w ≠ [] → s ⟨v.getLast?.or b, w ++ body⟩ = none) :
    finds (piecesAt s ⟨b, u ++ body⟩) = finds (piecesAt s ⟨u.getLast?.or b, body⟩) := by
  rw [piecesAt_skip fails, finds_append, finds_plain, List.nil_append]

/-! ### Cuts -/

/-- The first character of a class stands at one place. -/
theorem cut_at_first {p : Char → Bool} {u' v' : Text} {x y : Char} (free : ∀ z ∈ u, p z = false)
    (free' : ∀ z ∈ u', p z = false) (mark : p x = true) (mark' : p y = true)
    (same : u ++ x :: v = u' ++ y :: v') : u = u' ∧ x = y ∧ v = v' := by
  have outside {w : Text} (free : ∀ z ∈ w, p z = false) : ∀ z ∈ w, (!p z) = true :=
    fun z member => by rw [free z member]; rfl
  have stop {z : Char} {r : Text} (mark : p z = true) : Stops (fun z => !p z) (z :: r) :=
    stops_cons.mpr (by rw [mark]; rfl)
  have front := congrArg (List.takeWhile fun z => !p z) same
  rw [takeWhile_of_stops (outside free) (stop mark),
    takeWhile_of_stops (outside free') (stop mark')] at front
  have back := congrArg (List.dropWhile fun z => !p z) same
  rw [dropWhile_of_stops (outside free) (stop mark),
    dropWhile_of_stops (outside free') (stop mark')] at back
  exact ⟨front, List.cons.inj back⟩

/-- The last of equal characters stands at one place. -/
theorem cut_at_last {u' v' : Text} {x : Char} (free : x ∉ v) (free' : x ∉ v')
    (same : u ++ x :: v = u' ++ x :: v') : u = u' ∧ v = v' := by
  have other {w : Text} (free : x ∉ w) : ∀ z ∈ w.reverse, (z == x) = false := by
    intro z member
    rw [beq_eq_false_iff_ne]
    rintro rfl
    exact free (List.mem_reverse.mp member)
  have turned : v.reverse ++ x :: u.reverse = v'.reverse ++ x :: u'.reverse := by
    simpa using congrArg List.reverse same
  obtain ⟨back, _, front⟩ :=
    cut_at_first (other free) (other free') (beq_self_eq_true x) (beq_self_eq_true x) turned
  exact ⟨List.reverse_inj.mp front, List.reverse_inj.mp back⟩

/-! ### Between marks -/

theorem consumes_quoted (q : Char → Bool) : Consumes (quoted q) :=
  consumes_bind (consumes_one q) fun _ => reads_bind (reads_run _) fun _ =>
    reads_bind (reads_of_consumes (consumes_one q)) fun _ => reads_pure _

theorem quoted_append {q : Char → Bool} {x y : Char} (opens : q x = true) (closes : q y = true)
    (free : ∀ z ∈ body, q z = false) (b : Option Char) (rest : Text) :
    quoted q ⟨b, x :: (body ++ y :: rest)⟩ = some (body, ⟨some y, rest⟩) := by
  have inside : ∀ z ∈ body, (!q z) = true := fun z member => by rw [free z member]; rfl
  have stop : Stops (fun z => !q z) (y :: rest) := stops_cons.mpr (by rw [closes]; rfl)
  rw [quoted, bind_apply, one_cons, if_pos opens, Option.bind_some, bind_apply,
    run_append inside stop, Option.bind_some, bind_apply, one_cons, if_pos closes,
    Option.bind_some, pure_apply]

theorem quoted_eq_some {q : Char → Bool} {c : Cursor} (found : quoted q c = some (body, c')) :
    ∃ x y, q x = true ∧ q y = true ∧ (∀ z ∈ body, q z = false) ∧
      c.rest = x :: (body ++ y :: c'.rest) := by
  obtain ⟨x, mid, first, found⟩ := bind_eq_some.mp found
  obtain ⟨body', mid', second, found⟩ := bind_eq_some.mp found
  obtain ⟨y, mid'', third, found⟩ := bind_eq_some.mp found
  obtain ⟨rfl, rfl⟩ := Prod.mk.inj (Option.some.inj found)
  obtain ⟨opens, text⟩ := one_eq_some first
  obtain ⟨free, _, text'⟩ := run_eq_some second
  obtain ⟨closes, text''⟩ := one_eq_some third
  refine ⟨x, y, opens, closes, fun z member => ?_, by rw [text, text', text'']⟩
  simpa using free z member

/-! ### Blanks -/

theorem blanks_none {x : Char} (other : Text.isBlank x = false) (b : Option Char) (t : Text) :
    blanks ⟨b, x :: t⟩ = some ([], ⟨b, x :: t⟩) :=
  run_append (w := []) (List.forall_mem_nil _) (stops_cons.mpr other)

theorem blanks_space {t : Text} (stop : Stops Text.isBlank t) (b : Option Char) :
    blanks ⟨b, ' ' :: t⟩ = some ([' '], ⟨some ' ', t⟩) :=
  run_append (w := [' ']) (List.forall_mem_singleton.mpr (by decide)) stop

theorem blanks1_space {t : Text} (stop : Stops Text.isBlank t) (b : Option Char) :
    blanks1 ⟨b, ' ' :: t⟩ = some ([' '], ⟨some ' ', t⟩) :=
  run1_append (w := [' ']) (List.cons_ne_nil _ _) (List.forall_mem_singleton.mpr (by decide)) stop

end Scanner

namespace Extract

open Scanner

variable {u v : Text} {x : Char}

/-- The text holds no quotation mark. -/
def Unquoted (t : Text) : Prop := ∀ x ∈ t, isQuote x = false

theorem unquoted_append : Unquoted (u ++ v) ↔ Unquoted u ∧ Unquoted v := List.forall_mem_append

theorem unquoted_cons : Unquoted (x :: u) ↔ isQuote x = false ∧ Unquoted u := List.forall_mem_cons

theorem unquoted_nil : Unquoted [] := List.forall_mem_nil _

theorem isQuote_of_isBlank (blank : Text.isBlank x = true) : isQuote x = false := by
  cases marked : isQuote x with
  | false => rfl
  | true =>
    rcases (Bool.or_eq_true _ _).mp marked with same | same
    · rw [eq_of_beq same] at blank
      exact absurd blank (by decide)
    · rw [eq_of_beq same] at blank
      exact absurd blank (by decide)

theorem notBlank_of_isQuote (mark : isQuote x = true) : Text.isBlank x = false := by
  cases blank : Text.isBlank x with
  | false => rfl
  | true =>
    rw [isQuote_of_isBlank blank] at mark
    cases mark

theorem unquoted_blanks (blanks : ∀ x ∈ u, Text.isBlank x = true) : Unquoted u :=
  fun x member => isQuote_of_isBlank (blanks x member)

theorem notMem_blanks (blanks : ∀ x ∈ u, Text.isBlank x = true) (other : Text.isBlank x = false) :
    x ∉ u := fun member => by
  rw [blanks x member] at other
  cases other

/-! ### Arguments -/

theorem argument_blanks {ws body : Text} {y : Char} (blank : ∀ z ∈ ws, Text.isBlank z = true)
    (opens : isQuote x = true) (closes : isQuote y = true) (free : Unquoted body)
    (b : Option Char) (rest : Text) :
    argument ⟨b, ws ++ x :: (body ++ y :: rest)⟩ = some (body, ⟨some y, rest⟩) := by
  have passed : blanks ⟨b, ws ++ x :: (body ++ y :: rest)⟩ =
      some (ws, ⟨ws.getLast?.or b, x :: (body ++ y :: rest)⟩) :=
    run_append blank (stops_cons.mpr (notBlank_of_isQuote opens))
  unfold argument
  rw [bind_of_some passed]
  exact quoted_append opens closes free _ rest

theorem argument_append {body : Text} {y : Char} (opens : isQuote x = true)
    (closes : isQuote y = true) (free : Unquoted body) (b : Option Char) (rest : Text) :
    argument ⟨b, x :: (body ++ y :: rest)⟩ = some (body, ⟨some y, rest⟩) := by
  have unspaced : ∀ z ∈ ([] : Text), Text.isBlank z = true := List.forall_mem_nil _
  exact argument_blanks unspaced opens closes free b rest

theorem argument_shape {body : Text} {c c' : Cursor} (found : argument c = some (body, c')) :
    ∃ ws x y, (∀ z ∈ ws, Text.isBlank z = true) ∧ isQuote x = true ∧ isQuote y = true ∧
      Unquoted body ∧ c.rest = ws ++ x :: (body ++ y :: c'.rest) := by
  obtain ⟨ws, mid, first, found⟩ := bind_eq_some.mp found
  obtain ⟨x, y, opens, closes, free, text⟩ := quoted_eq_some found
  obtain ⟨blank, _, text'⟩ := run_eq_some first
  exact ⟨ws, x, y, blank, opens, closes, free, by rw [text', text]⟩

theorem consumes_argument : Consumes argument :=
  consumes_of_reads_bind (reads_run _) fun _ => consumes_quoted isQuote

/-- An opening parenthesis with blanks around it. -/
def Parenthesis (u : Text) : Prop :=
  ∃ ws ws', (∀ z ∈ ws, Text.isBlank z = true) ∧ (∀ z ∈ ws', Text.isBlank z = true) ∧
    u = ws ++ '(' :: ws'

theorem Parenthesis.unquoted (h : Parenthesis u) : Unquoted u := by
  obtain ⟨ws, ws', blank, blank', rfl⟩ := h
  exact unquoted_append.mpr
    ⟨unquoted_blanks blank, unquoted_cons.mpr ⟨by decide, unquoted_blanks blank'⟩⟩

theorem Parenthesis.notMem (h : Parenthesis u) (visible : Text.isBlank x = false)
    (other : x ≠ '(') : x ∉ u := by
  obtain ⟨ws, ws', blank, blank', rfl⟩ := h
  exact List.not_mem_append (notMem_blanks blank visible)
    (List.not_mem_cons_of_ne_of_not_mem other (notMem_blanks blank' visible))

theorem argument_parenthesized {β : Type} {f : Text → Scanner β} {body : Text} {y : Char}
    (opens : isQuote x = true) (closes : isQuote y = true) (free : Unquoted body)
    (b : Option Char) (rest : Text) :
    (blanks >>= fun _ => literal "(" >>= fun _ => argument >>= f)
      ⟨b, '(' :: x :: (body ++ y :: rest)⟩ = f body ⟨some y, rest⟩ := by
  refine (bind_of_some (blanks_none (by decide) b _)).trans ?_
  refine (bind_of_some (literal_append "(" b _)).trans ?_
  exact bind_of_some (argument_append opens closes free _ rest)

theorem parenthesis_of_argument {β : Type} {f : Text → Scanner β} {a : β} {c c' : Cursor}
    (found : (blanks >>= fun _ => literal "(" >>= fun _ => argument >>= f) c = some (a, c')) :
    ∃ u y r, Parenthesis u ∧ isQuote y = true ∧ c.rest = u ++ y :: r := by
  obtain ⟨ws, gap, first, found⟩ := bind_eq_some.mp found
  obtain ⟨_, opened, second, found⟩ := bind_eq_some.mp found
  obtain ⟨body, closed, third, _⟩ := bind_eq_some.mp found
  obtain ⟨blank, _, text⟩ := run_eq_some first
  obtain ⟨ws', y, z, blank', mark, _, _, text₃⟩ := argument_shape third
  refine ⟨_, y, body ++ z :: closed.rest, ⟨ws, ws', blank, blank', rfl⟩, mark, ?_⟩
  rw [text, (between_literal second).1, text₃]
  simp

end Extract
end RouteAtlas
