import RouteAtlas.Extract.Controller
import RouteAtlas.Proofs.Route.Mounting
import RouteAtlas.Proofs.Scanner.Silence

/-!
# Members of a controller

Attribute lines and the first lines of public members, and what the scanners read from them:
`attributed_append` the first attribute above a member, `conventional_append` a member routed by its
name.
-/

namespace RouteAtlas

/-- A text of word characters. -/
structure Word where
  text : Text
  nonempty : text ≠ []
  inside : ∀ x ∈ text, Text.isWord x = true

namespace Word

/-- A word given by its text. -/
def ofText (t : Text) (h : t ≠ [] ∧ t.all Text.isWord = true) : Word :=
  ⟨t, h.1, List.all_eq_true.mp h.2⟩

variable (n : Word)

theorem notMem {x : Char} (other : Text.isWord x = false) : x ∉ n.text := fun h => by
  rw [n.inside x h] at other
  cases other

theorem notBlank : ∀ x ∈ n.text, Text.isBlank x = false :=
  fun x h => Route.isBlank_of_isWord (n.inside x h)

theorem stops_isBlank (t : Text) : Scanner.Stops Text.isBlank (n.text ++ t) := by
  intro x first
  rw [List.head?_append_of_ne_nil n.text n.nonempty] at first
  exact n.notBlank x (List.mem_of_head? first)

end Word

namespace Scanner

theorem run1_word (n : Word) {t : Text} (stop : Stops Text.isWord t) (b : Option Char) :
    run1 Text.isWord ⟨b, n.text ++ t⟩ = some (n.text, ⟨n.text.getLast?, t⟩) :=
  run1_append n.nonempty n.inside stop

end Scanner

namespace Extract

open Scanner

variable {α : Type} {s : Scanner α} {b : Option Char} {c c' : Cursor} {a : α} {t w rest : Text}
  {x : Char}

/-! ### Going on to later places -/

theorem fromPlace_eq_some {stop : Char → Bool}
    (found : fromPlace s stop b t = some (a, c')) :
    ∃ w mid, Between ⟨b, t⟩ w mid ∧ s mid = some (a, c') := by
  induction t generalizing b with
  | nil => exact ⟨[], ⟨b, []⟩, between_refl _, found⟩
  | cons x t ih =>
    rcases Option.or_eq_some_iff.mp found with here | ⟨_, later⟩
    · exact ⟨[], ⟨b, x :: t⟩, between_refl _, here⟩
    · split at later
      · cases later
      · obtain ⟨w, mid, between, found⟩ := ih later
        exact ⟨[x] ++ w, mid, between_trans ⟨rfl, rfl⟩ between, found⟩

theorem fromPlace_here {stop : Char → Bool} (here : s ⟨b, t⟩ = some (a, c')) :
    fromPlace s stop b t = some (a, c') := by
  cases t with
  | nil => exact here
  | cons x t => rw [fromPlace, here, Option.some_or]

/-- A stretch in which the scanner fits nowhere is passed over. -/
theorem fromPlace_skip {stop : Char → Bool} (go : ∀ x ∈ w, stop x = false)
    (fails : ∀ x ∈ w, ∀ b t, s ⟨b, x :: t⟩ = none) :
    fromPlace s stop b (w ++ t) = fromPlace s stop (w.getLast?.or b) t := by
  induction w generalizing b with
  | nil => rfl
  | cons x w ih =>
    rw [List.cons_append, fromPlace, fails x List.mem_cons_self, Option.none_or,
      if_neg (by simp [go x List.mem_cons_self]), getLast?_cons_or]
    exact ih (fun y h => go y (List.mem_cons_of_mem x h))
      fun y h => fails y (List.mem_cons_of_mem x h)

theorem fromLine_eq_some {lines : Nat} (found : fromLine s lines c = some (a, c')) :
    ∃ w mid, Between c w mid ∧ s mid = some (a, c') := by
  induction lines generalizing c with
  | zero => exact ⟨[], c, between_refl c, found⟩
  | succ lines ih =>
    rcases Option.or_eq_some_iff.mp found with here | ⟨_, later⟩
    · exact ⟨[], c, between_refl c, here⟩
    · split at later
      · rename_i y rest behind
        have first := List.head?_dropWhile_not (· ≠ '\n') c.rest
        rw [behind] at first
        obtain rfl : y = '\n' := by simpa using first
        have text : c.rest = (c.rest.takeWhile (· ≠ '\n') ++ ['\n']) ++ rest := by
          rw [List.append_assoc]
          exact (List.takeWhile_append_dropWhile.symm.trans (congrArg _ behind))
        obtain ⟨w, mid, between, found⟩ := ih later
        exact ⟨_, mid, between_trans ⟨text, by rw [getLast?_append_or]; rfl⟩ between, found⟩
      · cases later

theorem fromLine_succ (s : Scanner α) (lines : Nat) (c : Cursor) :
    fromLine s (lines + 1) c = (s c).or (match c.rest.dropWhile (· ≠ '\n') with
      | _ :: rest => fromLine s lines ⟨some '\n', rest⟩
      | [] => none) := rfl

theorem fromLine_here {lines : Nat} (here : s c = some (a, c')) :
    fromLine s lines c = some (a, c') := by
  cases lines with
  | zero => exact here
  | succ lines => rw [fromLine_succ, here, Option.some_or]

theorem fromLine_next {lines : Nat} (free : '\n' ∉ w) (fails : s ⟨b, w ++ '\n' :: t⟩ = none) :
    fromLine s (lines + 1) ⟨b, w ++ '\n' :: t⟩ = fromLine s lines ⟨some '\n', t⟩ := by
  have behind : (w ++ '\n' :: t).dropWhile (· ≠ '\n') = '\n' :: t :=
    dropWhile_of_stops (fun x h => decide_eq_true fun e => free (e ▸ h))
      (stops_cons.mpr (by decide))
  rw [fromLine_succ, fails, Option.none_or, behind]

/-- Lines on which the scanner does not fit are passed over, as many as there are. -/
theorem fromLine_skip {lines : List Text}
    (fails : ∀ l ∈ lines, '\n' ∉ l ∧ ∀ b t, s ⟨b, l ++ '\n' :: t⟩ = none)
    (here : ∀ b, s ⟨b, t⟩ = some (a, c')) (b : Option Char) :
    fromLine s ((lines.flatMap (· ++ ['\n']) ++ t).count '\n')
      ⟨b, lines.flatMap (· ++ ['\n']) ++ t⟩ = some (a, c') := by
  induction lines generalizing b with
  | nil => exact fromLine_here (here b)
  | cons l lines ih =>
    obtain ⟨free, none⟩ := fails l List.mem_cons_self
    have text : (l :: lines).flatMap (· ++ ['\n']) ++ t =
        l ++ '\n' :: (lines.flatMap (· ++ ['\n']) ++ t) := by simp
    rw [text, List.count_append, List.count_eq_zero.mpr free, Nat.zero_add, List.count_cons_self,
      fromLine_next free (none b _)]
    exact ih (fun l' member => fails l' (List.mem_cons_of_mem l member)) _

/-! ### Public members -/

theorem memberName_append (blank : Text.isBlank x = true) (n : Word) (b : Option Char)
    (rest : Text) : memberName ⟨b, x :: (n.text ++ '(' :: rest)⟩ =
      some ((n.text, '(' :: rest), ⟨some '(', rest⟩) := by
  rw [memberName, bind_apply, one_cons, if_pos blank, Option.bind_some, bind_apply,
    run1_word n (stops_cons.mpr (by decide)), Option.bind_some, bind_apply,
    blanks_none (by decide)]
  rfl

theorem memberName_none (other : Text.isBlank x = false) (b : Option Char) (t : Text) :
    memberName ⟨b, x :: t⟩ = none := by
  rw [memberName, bind_apply, one_cons, other]
  rfl

theorem memberName_eq_some {p : Text × Text} (found : memberName ⟨b, x :: t⟩ = some (p, c')) :
    (∃ n : Word, p.1 = n.text) ∧ ∃ w ≠ [], Between ⟨some x, t⟩ w c' := by
  obtain ⟨y, mid, first, found⟩ := bind_eq_some.mp found
  obtain ⟨name, mid', second, found⟩ := bind_eq_some.mp found
  obtain ⟨ws, mid'', third, found⟩ := bind_eq_some.mp found
  obtain ⟨place, _, got, found⟩ := bind_eq_some.mp found
  obtain ⟨_, rfl⟩ := Prod.mk.inj (Option.some.inj got)
  obtain ⟨_, mid₄, fourth, found⟩ := bind_eq_some.mp found
  obtain ⟨rfl, rfl⟩ := Prod.mk.inj (Option.some.inj found)
  rw [one_cons] at first
  split at first
  · obtain ⟨_, rfl⟩ := Prod.mk.inj (Option.some.inj first)
    obtain ⟨nonempty, inside, _⟩ := run1_eq_some second
    refine ⟨⟨⟨name, nonempty, inside⟩, rfl⟩, name ++ (ws ++ ['(']), by simp, ?_⟩
    exact between_trans (between_run1 second)
      (between_trans (between_run third) (between_literal fourth))
  · cases first

/-- A stretch of spaces and tabs. -/
def Indent (t : Text) : Prop := ∀ x ∈ t, x = ' ' ∨ x = '\t'

theorem Indent.notMem (h : Indent t) (space : x ≠ ' ') (tab : x ≠ '\t') : x ∉ t :=
  fun member => (h x member).elim space tab

theorem Indent.passed (h : Indent t) (b : Option Char) (space : x ≠ ' ') (tab : x ≠ '\t')
    (rest : Text) : run (fun y => y == ' ' || y == '\t') ⟨b, t ++ x :: rest⟩ =
      some (t, ⟨t.getLast?.or b, x :: rest⟩) :=
  run_append (fun y member => by simpa using h y member)
    (stops_cons.mpr (by simp [space, tab]))

theorem publicMember_append {indent : Text} (h : Indent indent) (n : Word) (b : Option Char)
    (rest : Text) :
    publicMember ⟨b, indent ++ ("public IActionResult " ++ (n.text ++ '(' :: rest))⟩ =
      some ((n.text, '(' :: rest), ⟨some '(', rest⟩) := by
  have unblank : ∀ x ∈ ("IActionResult" : Text), Text.isBlank x = false :=
    Text.forall_of_all (by decide)
  have member : fromPlace memberName (fun x => x == '\n' || x == '(') (some ' ')
      ("IActionResult" ++ ' ' :: (n.text ++ '(' :: rest)) =
        some ((n.text, '(' :: rest), ⟨some '(', rest⟩) := by
    rw [fromPlace_skip (Text.forall_of_all (by decide)) fun x inside =>
      memberName_none (unblank x inside)]
    exact fromPlace_here (memberName_append (by decide) n _ rest)
  refine (bind_of_some (h.passed b (x := 'p') (by decide) (by decide) _)).trans ?_
  refine (bind_of_some (literal_append "public" _ _)).trans ?_
  refine (bind_of_some (blanks1_space (stops_cons.mpr (by decide)) _)).trans ?_
  exact Option.or_eq_some_iff.mpr (.inl member)

/-- No member is public on a line that begins with another character than the word does. -/
theorem publicMember_none {indent : Text} (h : Indent indent) (space : x ≠ ' ') (tab : x ≠ '\t')
    (other : x ≠ 'p') (b : Option Char) (t : Text) :
    publicMember ⟨b, indent ++ x :: t⟩ = none := by
  rw [publicMember, bind_apply, h.passed b space tab t, Option.bind_some, bind_apply]
  change ((literal ('p' :: ("ublic" : Text)) _).bind _) = none
  rw [literal_cons, if_neg other.symm]
  rfl

theorem publicMember_eq_some {p : Text × Text} (found : publicMember c = some (p, c')) :
    (∃ n : Word, p.1 = n.text) ∧ ∃ w, Between c w c' := by
  obtain ⟨indent, mid, first, found⟩ := bind_eq_some.mp found
  obtain ⟨_, mid', second, found⟩ := bind_eq_some.mp found
  obtain ⟨gap, mid'', third, found⟩ := bind_eq_some.mp found
  have front := between_trans (between_run first)
    (between_trans (between_literal second) (between_run1 third))
  suffices behind : (∃ n : Word, p.1 = n.text) ∧ ∃ w, Between mid'' w c' by
    obtain ⟨name, w, between⟩ := behind
    exact ⟨name, _, between_trans front between⟩
  rcases Option.or_eq_some_iff.mp found with here | ⟨_, odd⟩
  · obtain ⟨w, ⟨b, t⟩, between, found⟩ := fromPlace_eq_some here
    cases t with
    | nil => cases found
    | cons x t =>
      obtain ⟨name, v, _, rest⟩ := memberName_eq_some found
      exact ⟨name, w ++ ([x] ++ v), between_trans between (between_trans ⟨rfl, rfl⟩ rest)⟩
  · split at odd
    · obtain ⟨name, v, nonempty, text, before⟩ := memberName_eq_some odd
      refine ⟨name, v, text, ?_⟩
      obtain ⟨y, last⟩ := Option.ne_none_iff_exists'.mp (mt List.getLast?_eq_none_iff.mp nonempty)
      rw [before, last]
      rfl
    · cases odd

/-! ### Members routed by their name -/

theorem consumes_conventional : Consumes conventional :=
  consumes_bind (consumes_literal (by decide)) fun _ =>
    reads_bind (reads_of_consumes (consumes_run1 _)) fun _ =>
    reads_bind (reads_option (reads_bind (reads_literal _) fun _ =>
      reads_bind (reads_of_consumes (consumes_run1 _)) fun _ => reads_literal _)) fun _ =>
    reads_bind (reads_of_consumes (consumes_oneOf (by decide))) fun _ =>
    reads_bind (reads_option (reads_literal _)) fun _ =>
    reads_bind (reads_of_consumes (consumes_run1 _)) fun _ =>
    reads_bind (reads_of_consumes (consumes_run1 _)) fun _ =>
    reads_bind (reads_run _) fun _ => reads_bind (reads_literal _) fun _ =>
    reads_bind (reads_run _) fun _ => reads_bind (reads_literal _) fun _ => reads_pure _

/-- A member is read with its parameters up to the first closing parenthesis. -/
theorem conventional_append {u : Text} (free : ')' ∉ u) (n : Word) (b : Option Char)
    (rest : Text) :
    conventional ⟨b, "public IActionResult " ++ (n.text ++ '(' :: (u ++ ')' :: rest))⟩ =
      some ((n.text, '(' :: u ++ [')']), ⟨some ')', rest⟩) := by
  have gap (b : Option Char) := blanks1_space (n.stops_isBlank ('(' :: (u ++ ')' :: rest))) b
  have name (b : Option Char) :=
    run1_word n (stops_cons.mpr (by decide)) b (t := '(' :: (u ++ ')' :: rest))
  have returns : oneOf ["IActionResult", "ActionResult", "ViewResult", "JsonResult", "string"]
      ⟨some ' ', "IActionResult" ++ ' ' :: (n.text ++ '(' :: (u ++ ')' :: rest))⟩ =
        some (("IActionResult" : Text),
          (⟨some 't', ' ' :: (n.text ++ '(' :: (u ++ ')' :: rest))⟩ : Cursor)) := rfl
  refine (bind_of_some (literal_append "public" _ _)).trans ?_
  refine (bind_of_some (blanks1_space (stops_cons.mpr (by decide)) _)).trans ?_
  refine (bind_of_some (option_of_none rfl)).trans ?_
  refine (bind_of_some returns).trans ?_
  refine (bind_of_some (option_of_none rfl)).trans ?_
  refine (bind_of_some (gap _)).trans ?_
  refine (bind_of_some (name _)).trans ?_
  refine (bind_of_some (blanks_none (by decide) _ _)).trans ?_
  refine (bind_of_some (literal_append "(" _ _)).trans ?_
  refine (bind_of_some (run_until free _ rest)).trans ?_
  exact bind_of_some (literal_append ")" _ rest)

theorem conventional_shape {p : Text × Text} (found : conventional c = some (p, c')) :
    ∃ x r, Text.isBlank x = true ∧ c.rest = "public" ++ x :: r := by
  obtain ⟨_, mid, first, found⟩ := bind_eq_some.mp found
  obtain ⟨ws, mid', second, _⟩ := bind_eq_some.mp found
  obtain ⟨nonempty, blanks, text⟩ := run1_eq_some second
  obtain ⟨x, ws, rfl⟩ := List.exists_cons_of_ne_nil nonempty
  exact ⟨x, ws ++ mid'.rest, blanks x List.mem_cons_self,
    by rw [(between_literal first).1, text]; rfl⟩

/-- Nothing is a member that begins in a stretch without blanks, unless its end is the beginning
of the word. -/
theorem silent_conventional {y : Char} (plain : ∀ x ∈ w ++ [y], Text.isBlank x = false)
    (final : y ∉ ("public" : Text)) : Silent conventional (w ++ [y]) := by
  rintro v ⟨u, same⟩ nonempty b rest
  refine eq_none_of_forall fun p c' found => ?_
  obtain ⟨x, r, blank, text⟩ := conventional_shape found
  have last : v.getLast? = some y := by
    rw [← List.getLast?_append_of_ne_nil u nonempty, same, List.getLast?_append]
    rfl
  rcases List.append_eq_append_iff.mp text with ⟨d, whole, _⟩ | ⟨d, whole, behind⟩
  · exact final (whole ▸ List.mem_append_left d (List.mem_of_getLast? last))
  · cases d with
    | nil =>
      rw [List.append_nil] at whole
      exact final (whole ▸ List.mem_of_getLast? last)
    | cons z d =>
      obtain rfl := (List.cons.inj behind).1
      have inside : x ∈ v := whole ▸ List.mem_append_right _ List.mem_cons_self
      rw [plain x (same ▸ List.mem_append_right u inside)] at blank
      cases blank

end Extract
end RouteAtlas
