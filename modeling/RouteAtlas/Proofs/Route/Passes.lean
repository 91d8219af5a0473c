import Mathlib.Tactic.Choose
import RouteAtlas.Proofs.Route.Chunks
import RouteAtlas.Proofs.Route.Segments

/-!
# The passes of `unify`

Each pass settles the segments of its own notation, keeps those that are settled and leaves the
others alone. `unify_spell` puts the six passes together: words between slashes become their
templates.
-/

namespace RouteAtlas.Route

open Scanner

/-! ### One pass, one stretch -/

/-- Between slashes the form turns the stretch `w` into `w'`. -/
def Turns (form : Scanner Text) (w w' : Text) : Prop :=
  ∃ ps, Cuts (placeholder <$> form) w ps ∧ spelled ps = w'

variable {form : Scanner Text} {w : Text} {b : Option Char}

theorem turns_of_free {x : Char} (opens : Opens form x) (free : x ∉ w) : Turns form w w :=
  ⟨_, cuts_of_free (opens_map opens) free, spelled_plain w⟩

theorem turns_of_find {name : Text} (consumes : Consumes form)
    (found : ∀ b rest, AfterSlash b → BeforeSlash rest →
      ∃ l, form ⟨b, w ++ rest⟩ = some (name, ⟨l, rest⟩)) :
    Turns form w (placeholder name) := by
  refine ⟨_, cuts_of_find (consumes_map consumes) fun b rest hb hr => ?_, by simp [spelled]; rfl⟩
  obtain ⟨l, here⟩ := found b rest hb hr
  exact ⟨l, by rw [map_apply, here]; rfl⟩

theorem placeholder_append (name rest : Text) :
    placeholder name ++ rest = '{' :: (name ++ '}' :: rest) := by
  simp [placeholder]

/-! ### Brackets inside a constraint -/

theorem stays_bracketed : Stays bracketed :=
  stays_bind (reads_literal _) (stays_literal (by decide)) fun _ =>
  stays_bind (reads_option (reads_literal _)) (stays_option (stays_literal (by decide))) fun _ =>
  stays_bind (reads_of_consumes (consumes_run1 _)) (stays_run1 (by decide)) fun _ =>
  stays_bind (reads_literal _) (stays_literal (by decide)) fun _ =>
  stays_bind (reads_option (reads_literal _)) (stays_option (stays_literal (by decide))) fun _ =>
  stays_pure _

theorem bracketed_before (b b' : Option Char) (t : Text) :
    bracketed ⟨b, t⟩ = bracketed ⟨b', t⟩ := by
  cases t <;> simp [bracketed, bind_apply]

theorem mem_of_mem_bracketName {x : Char} {body : Text} (h : x ∈ bracketName body) : x ∈ body := by
  unfold bracketName at h
  split at h
  · rename_i c cs found
    rw [Text.after?_eq_some_iff.mp found]
    exact List.mem_append_right _ h
  · exact h

theorem bracketed_eq_some {c c' : Cursor} {name : Text} (h : bracketed c = some (name, c')) :
    ∃ v, Between c v c' ∧ v.getLast? = some ']' ∧ ∀ x ∈ name, x ∈ v := by
  obtain ⟨v, _, text, before⟩ := consumes_bracketed c name c' h
  obtain ⟨opening, body, closing, _, closed, _, rfl, shape⟩ := bracketed_shape h
  have whole : v ++ c'.rest = (opening ++ (body ++ closing)) ++ c'.rest := by
    rw [← text, List.append_assoc, List.append_assoc]
    exact shape
  obtain rfl := List.append_cancel_right whole
  refine ⟨_, ⟨text, before⟩, ?_, fun x hx => ?_⟩
  · rcases closed with rfl | rfl <;> simp
  · simp only [List.mem_append]
    exact .inr (.inl (mem_of_mem_bracketName hx))

theorem cuts_bracketed (free : '/' ∉ w) :
    Cuts (placeholder <$> bracketed) w (piecesAt (placeholder <$> bracketed) ⟨none, w⟩) := by
  intro b rest _ hr
  have reads := reads_of_consumes consumes_bracketed
  have same : (placeholder <$> bracketed) ⟨b, w⟩ = (placeholder <$> bracketed) ⟨none, w⟩ := by
    rw [map_apply, map_apply, bracketed_before b none]
  rw [piecesAt_stays (consumes_map consumes_bracketed) (stays_map reads stays_bracketed) free hr,
    piecesAt_congr same]

/-- A stretch that ends in a bracket does not hold the end of the constraint. -/
theorem exists_behind_bracket {c v r : Text} (whole : c ++ ['>'] = v ++ r)
    (last : v.getLast? = some ']') : ∃ d, c = v ++ d ∧ r = d ++ ['>'] := by
  rcases List.append_eq_append_iff.mp whole with ⟨d, outer, rest⟩ | ⟨d, inner, rest⟩
  · cases d with
    | nil => exact ⟨[], by simpa using outer.symm, rest.symm⟩
    | cons y d =>
      obtain ⟨rfl, none⟩ := List.cons.inj rest
      obtain ⟨rfl, _⟩ := List.append_eq_nil_iff.mp none.symm
      rw [outer, List.getLast?_concat] at last
      cases last
  · exact ⟨d, inner, rest⟩

/-- Brackets inside a constraint may be rewritten, but nothing in them ends the constraint. -/
theorem spelled_bracketed {c : Text} (free : '>' ∉ c) :
    ∃ c', '>' ∉ c' ∧
      spelled (piecesAt (placeholder <$> bracketed) ⟨b, c ++ ['>']⟩) = c' ++ ['>'] := by
  induction length : c.length using Nat.strongRecOn generalizing b c with
  | _ n ih =>
    cases c with
    | nil =>
      refine ⟨[], by simp, ?_⟩
      rw [List.nil_append, piecesAt_of_none (opens_map opens_bracketed _ _ _ (by decide))]
      rfl
    | cons x c =>
      cases found : (placeholder <$> bracketed) ⟨b, x :: (c ++ ['>'])⟩ with
      | none =>
        obtain ⟨c', free', same⟩ := ih c.length (by simp [← length])
          (fun h => free (List.mem_cons_of_mem x h)) (b := some x) rfl
        refine ⟨x :: c', by simp_all, ?_⟩
        rw [List.cons_append, piecesAt_of_none found]
        exact congrArg (x :: ·) same
      | some p =>
        obtain ⟨a, mid⟩ := p
        obtain ⟨name, read, rfl⟩ := map_eq_some.mp found
        obtain ⟨v, ⟨text, before⟩, last, members⟩ := bracketed_eq_some read
        obtain ⟨d, inner, rest⟩ := exists_behind_bracket (c := x :: c) text last
        have members' : ∀ y ∈ v ++ d, y ≠ '>' := fun y hy e => free (e ▸ inner ▸ hy)
        have shorter : d.length < n := by
          have nonempty : 0 < v.length := by
            cases v with
            | nil => cases last
            | cons => exact Nat.succ_pos _
          rw [← length, inner, List.length_append]
          omega
        obtain ⟨c', free', same⟩ := ih d.length shorter
          (fun h => members' _ (List.mem_append_right v h) rfl) (b := mid.before) rfl
        refine ⟨placeholder name ++ c', ?_, ?_⟩
        · have absent : '>' ∉ name := fun h => members' _ (List.mem_append_left d (members _ h)) rfl
          simp [placeholder, absent, free']
        · have here : piecesAt (placeholder <$> bracketed) ⟨b, x :: (c ++ ['>'])⟩ = _ :=
            piecesAt_of_some (consumes_map consumes_bracketed) found
          obtain ⟨mb, mr⟩ := mid
          obtain rfl : mr = d ++ ['>'] := rest
          rw [List.cons_append, here, List.append_assoc, ← same]
          rfl

/-! ### The passes -/

variable {k : Nat} {seg : Segment}

/-- A pass settles its own segments, keeps the settled ones and passes over the others. -/
theorem turns_step {x : Char} (opens : Opens form x) (later : k + 1 < seg.order → x ∉ seg.text)
    (settled : Turns form seg.template seg.template)
    (own : seg.order = k + 1 → Turns form seg.text seg.template) :
    Turns form (seg.after k) (seg.after (k + 1)) := by
  rcases Nat.lt_trichotomy seg.order (k + 1) with lower | same | higher
  · rw [Segment.after, Segment.after, if_pos (by omega), if_pos (by omega)]
    exact settled
  · rw [Segment.after, Segment.after, if_neg (by omega), if_pos (by omega)]
    exact own same
  · rw [Segment.after, Segment.after, if_neg (by omega), if_neg (by omega)]
    exact turns_of_free opens (later higher)

theorem turns_template {x : Char} (opens : Opens form x) (identifier : Text.isIdentifier x = false)
    (plain : isPlain x = false) (braces : x ≠ '{' ∧ x ≠ '}') :
    Turns form seg.template seg.template :=
  turns_of_free opens (Segment.notMem_template identifier plain braces)

theorem turns_bracketed (seg : Segment) (own : seg.order = 1) :
    Turns bracketed seg.text seg.template := by
  cases seg with
  | named style n =>
    refine turns_of_find consumes_bracketed fun b rest _ hr => ⟨some ']', ?_⟩
    cases style with
    | bracket =>
      have read := bracketed_single (b := b) (inBrackets_name n)
        (stops_of_beforeSlash (p := (· == ']')) (by decide) hr)
      rw [bracketName_name] at read
      rw [Segment.named_append]
      exact read
    | spread =>
      have read := bracketed_single (b := b) (inBrackets_ellipsis n)
        (stops_of_beforeSlash (p := (· == ']')) (by decide) hr)
      rw [bracketName_ellipsis] at read
      rw [Segment.named_append, ← read]
      simp [Style.opening, Style.closing]
    | optionalSpread =>
      have read := @bracketed_double b rest _ (inBrackets_ellipsis n)
      rw [bracketName_ellipsis] at read
      rw [Segment.named_append, ← read]
      simp [Style.opening, Style.closing]
    | _ => cases own
  | _ => cases own

theorem turns_dollar_name (n : Identifier) :
    Turns Route.dollar (Segment.named .dollar n).text (placeholder n.text) := by
  refine turns_of_find consumes_dollar fun b rest _ hr => ⟨n.text.getLast?, ?_⟩
  rw [Segment.named_append]
  exact dollar_name (stops_of_beforeSlash (by decide) hr) (stops_of_beforeSlash (by decide) hr)

/-- The first pass leaves of `$n<c>` a text that the second pass settles. -/
theorem turns_dollar_bound (n : Identifier) {c : Text} (free : '/' ∉ c ∧ '>' ∉ c) :
    ∃ w, Turns bracketed (Segment.named (.dollarBound c free) n).text w ∧
      Turns Route.dollar w (placeholder n.text) := by
  obtain ⟨c', free', same⟩ := spelled_bracketed (b := some '<') free.2
  have slash : '/' ∉ (Segment.named (.dollarBound c free) n).text := Segment.slash_notMem_text
  refine ⟨'$' :: (n.text ++ '<' :: (c' ++ ['>'])), ⟨_, cuts_bracketed slash, ?_⟩, ?_⟩
  · have shape : (Segment.named (.dollarBound c free) n).text =
        ('$' :: (n.text ++ ['<'])) ++ (c ++ ['>']) := by
      simp [Segment.text, Style.opening, Style.closing]
    have name : '[' ∉ n.text := n.notMem (by decide)
    have pass : ∀ y ∈ '$' :: (n.text ++ ['<']), y ≠ '[' := by
      rintro y hy rfl
      simp [name] at hy
    have last : ('$' :: (n.text ++ ['<'])).getLast? = some '<' := by simp [List.getLast?_cons]
    rw [shape, piecesAt_pass (opens_map opens_bracketed) pass, last, spelled_append, spelled_plain]
    show _ ++ spelled (piecesAt _ ⟨some '<', _⟩) = _
    rw [same]
    simp
  · refine turns_of_find consumes_dollar fun b rest _ _ => ⟨some '>', ?_⟩
    rw [← dollar_bound free' b n rest]
    simp

theorem turns_brackets_dollar (seg : Segment) :
    ∃ w, Turns bracketed seg.text w ∧ Turns Route.dollar w (seg.after 2) := by
  have settled : Turns Route.dollar seg.template seg.template :=
    turns_template opens_dollar (by decide) (by decide) (by decide)
  have later (higher : 2 < seg.order) :
      ∃ w, Turns bracketed seg.text w ∧ Turns Route.dollar w (seg.after 2) := by
    have bracket := seg.notMem_text (k := 1) (by decide) (by omega) (.inr (by omega))
    have dollar := seg.notMem_text (k := 2) (by decide) higher (.inl (by decide))
    refine ⟨seg.text, turns_of_free opens_bracketed bracket, ?_⟩
    rw [Segment.after, if_neg (by omega)]
    exact turns_of_free opens_dollar dollar
  cases seg with
  | literal t nonempty plain =>
    exact ⟨t, turns_of_free opens_bracketed (Segment.notMem_of_isPlain plain (by decide)), settled⟩
  | named style n =>
    cases style with
    | bracket => exact ⟨_, turns_bracketed _ rfl, settled⟩
    | spread => exact ⟨_, turns_bracketed _ rfl, settled⟩
    | optionalSpread => exact ⟨_, turns_bracketed _ rfl, settled⟩
    | dollar =>
      have bracket : '[' ∉ (Segment.named .dollar n).text := by
        simp [Segment.text, Style.opening, Style.closing, n.notMem (y := '[') (by decide)]
      exact ⟨_, turns_of_free opens_bracketed bracket, turns_dollar_name n⟩
    | dollarBound c free => exact turns_dollar_bound n free
    | _ => exact later (by simp [Segment.order, Style.order])
  | _ => exact later (by decide)

/-- The third form: any identifier is a converter. -/
def anyConverter : Scanner Unit := do
  let _ ← identifier

/-- Any identifier counts as a converter, so a name in angle brackets is always read. -/
theorem angled_any {type : Text} (typed : type = [] ∨ ∃ t : Identifier, type = t.text ++ [':'])
    (b : Option Char) (n : Identifier) (rest : Text) :
    angled anyConverter ⟨b, '<' :: (type ++ (n.text ++ '>' :: rest))⟩ =
      some (n.text, ⟨some '>', rest⟩) := by
  rcases typed with rfl | ⟨t, rfl⟩
  · apply angled_name
    have stop : Stops Text.isIdentifier ('>' :: rest) := stops_cons.mpr (by decide)
    simp [anyConverter, bind_apply, map_apply, identifier_append n stop]
  · rw [List.append_assoc, List.singleton_append]
    apply angled_converter
    have stop : Stops Text.isIdentifier (':' :: (n.text ++ '>' :: rest)) :=
      stops_cons.mpr (by decide)
    simp [anyConverter, bind_apply, map_apply, identifier_append t stop]

theorem consumes_anyConverter : Consumes (angled anyConverter) :=
  consumes_angled (reads_bind (reads_of_consumes consumes_identifier) fun _ => reads_pure _)

theorem turns_angled (seg : Segment) : Turns (angled anyConverter) (seg.after 2) (seg.after 3) := by
  have opens := opens_angled anyConverter
  have later (higher : 3 < seg.order) : '<' ∉ seg.text :=
    Segment.notMem_text (k := 3) (by decide) higher (.inl (by decide))
  have settled : Turns (angled anyConverter) seg.template seg.template :=
    turns_template opens (by decide) (by decide) (by decide)
  refine turns_step opens later settled fun own => ?_
  cases seg with
  | named style n =>
    cases style with
    | angle =>
      refine turns_of_find consumes_anyConverter fun b rest _ _ => ⟨some '>', ?_⟩
      rw [Segment.named_append]
      exact angled_any (.inl rfl) b n rest
    | angleTyped t =>
      refine turns_of_find consumes_anyConverter fun b rest _ _ => ⟨some '>', ?_⟩
      have read := angled_any (.inr ⟨t, rfl⟩) b n rest
      rw [← read]
      simp [Segment.text, Style.opening, Style.closing]
    | _ => cases own
  | _ => cases own

theorem turns_braced (seg : Segment) : Turns braced (seg.after 3) (seg.after 4) := by
  have later (higher : 4 < seg.order) : '{' ∉ seg.text :=
    Segment.notMem_text (k := 4) (by decide) higher (.inl (by decide))
  refine turns_step opens_braced later ?_ fun own => ?_
  · -- What earlier passes have settled is found again and stays the same.
    rcases seg.template_cases with ⟨_, _, plain⟩ | ⟨n, _, same⟩
    · exact turns_of_free opens_braced (Segment.notMem_of_isPlain plain (by decide))
    · rw [same]
      refine turns_of_find consumes_braced fun b rest _ _ => ⟨some '}', ?_⟩
      rw [placeholder_append]
      exact braced_append [] [] [] (.inl rfl) (.inl rfl) (.inl rfl)
  · cases seg with
    | named style n =>
      refine turns_of_find consumes_braced fun b rest _ _ => ⟨some '}', ?_⟩
      rw [Segment.named_append]
      cases style with
      | brace =>
        exact braced_append [] [] [] (.inl rfl) (.inl rfl) (.inl rfl)
      | braceOptional =>
        exact braced_append [] ['?'] [] (.inl rfl) (.inr rfl) (.inl rfl)
      | star =>
        exact braced_append ['*'] [] [] (.inr (.inl rfl)) (.inl rfl) (.inl rfl)
      | stars =>
        exact braced_append ['*', '*'] [] [] (.inr (.inr rfl)) (.inl rfl) (.inl rfl)
      | braceBound c free =>
        have closed : '}' ∉ c := free '}' (by decide)
        have bounded := @braced_append b rest n [] [] (':' :: c) (.inl rfl) (.inl rfl)
          (.inr ⟨c, rfl, closed⟩)
        rw [← bounded]
        simp [Style.opening, Style.closing]
      | _ => cases own
    | _ => cases own

def colonMarked : Scanner Text := do
  let name ← colon
  let _ ← option (literal "?")
  return name

theorem opens_colonMarked : Opens colonMarked ':' := opens_bind opens_colon

theorem consumes_colonMarked : Consumes colonMarked :=
  consumes_bind consumes_colon fun _ => reads_bind (reads_option (reads_literal _)) fun _ =>
  reads_pure _

theorem turns_colon (seg : Segment) : Turns colonMarked (seg.after 4) (seg.after 5) := by
  have opens := opens_colonMarked
  have later (higher : 5 < seg.order) : ':' ∉ seg.text :=
    Segment.notMem_text (k := 5) (by decide) higher (.inl (by decide))
  have settled : Turns colonMarked seg.template seg.template :=
    turns_template opens (by decide) (by decide) (by decide)
  refine turns_step opens later settled fun own => ?_
  cases seg with
  | named style n =>
    refine turns_of_find consumes_colonMarked fun b rest hb hr => ?_
    have free : ∀ x ∈ b, Text.isWord x = false ∧ x ≠ '{' := by
      rintro x hx
      rcases hb with rfl | rfl
      · cases hx
      · obtain rfl := Option.some.inj hx
        decide
    rw [Segment.named_append]
    cases style with
    | colon =>
      have unmarked : literal ['?'] ⟨n.text.getLast?, rest⟩ = none :=
        literal_of_stops (stops_of_beforeSlash (by decide) hr)
      have read := colon_name (n := n) free (stops_of_beforeSlash (by decide) hr)
      refine ⟨n.text.getLast?, ?_⟩
      simp [colonMarked, bind_apply, map_apply, Style.opening, Style.closing, read,
        option_of_none unmarked]
    | colonOptional =>
      have marked : literal ['?'] ⟨n.text.getLast?, '?' :: rest⟩ =
          some ((), ⟨some '?', rest⟩) := by simp
      have read := @colon_name b ('?' :: rest) n free (stops_cons.mpr (by decide))
      refine ⟨some '?', ?_⟩
      simp [colonMarked, bind_apply, map_apply, Style.opening, Style.closing, read,
        option_of_some marked]
    | _ => cases own
  | _ => cases own

def catchAllNamed : Scanner Text := do
  catchAll
  return "path"

theorem opens_catchAllNamed : Opens catchAllNamed '(' := opens_bind opens_catchAll

theorem consumes_catchAllNamed : Consumes catchAllNamed :=
  consumes_bind consumes_catchAll fun _ => reads_pure _

theorem turns_catchAll (seg : Segment) : Turns catchAllNamed (seg.after 5) (seg.after 6) := by
  have opens := opens_catchAllNamed
  have settled : Turns catchAllNamed seg.template seg.template :=
    turns_template opens (by decide) (by decide) (by decide)
  have last : ¬6 < seg.order := Nat.not_lt.mpr seg.order_le
  refine turns_step opens (fun higher => absurd higher last) settled fun own => ?_
  cases seg with
  | anything =>
    refine turns_of_find consumes_catchAllNamed fun b rest _ _ => ⟨some ')', ?_⟩
    simp [catchAllNamed, bind_apply, pure_apply, Segment.text, catchAll_star]
  | something =>
    refine turns_of_find consumes_catchAllNamed fun b rest _ _ => ⟨some ')', ?_⟩
    simp [catchAllNamed, bind_apply, pure_apply, Segment.text, catchAll_plus]
  | named style n => cases style <;> cases own
  | literal => cases own

/-! ### Whole paths -/

/-- What a word between slashes becomes, where an empty word stays empty. -/
def spell (f : Segment → Text) (words : List (Option Segment)) : Text :=
  Text.join "/" (words.map (·.elim [] f))

theorem substitute_spell {x : Char} (opens : Opens form x) (other : x ≠ '/') {f g : Segment → Text}
    (turns : ∀ seg, Turns form (f seg) (g seg)) (words : List (Option Segment)) :
    (placeholder <$> form).substitute (spell f words) = spell g words := by
  choose ps cuts texts using turns
  have words_cut (word : Option Segment) :
      Cuts (placeholder <$> form) (word.elim [] f) (word.elim [] ps) := by
    cases word with
    | none => exact cuts_of_free (opens_map opens) List.not_mem_nil
    | some seg => exact cuts seg
  have words_spelled : spelled ∘ (fun word : Option Segment => word.elim [] ps) =
      fun word => word.elim [] g := by
    funext word
    cases word with
    | none => rfl
    | some seg => exact texts seg
  rw [substitute_eq_spelled, pieces_eq_piecesAt, spell,
    piecesAt_join (opens_map opens) other words_cut (.inl rfl), spelled_intercalate, List.map_map,
    words_spelled, spell]

theorem unify_eq (path : Text) : unify path =
    (placeholder <$> catchAllNamed).substitute ((placeholder <$> colonMarked).substitute
      ((placeholder <$> braced).substitute ((placeholder <$> angled anyConverter).substitute
        ((placeholder <$> Route.dollar).substitute
          ((placeholder <$> bracketed).substitute path))))) := by
  unfold unify forms
  simp only [List.foldl_cons, List.foldl_nil]
  rfl

theorem unify_spell (words : List (Option Segment)) :
    unify (spell Segment.text words) = spell Segment.template words := by
  choose inner first second using turns_brackets_dollar
  have settled : Segment.after 6 = Segment.template := funext fun seg => if_pos seg.order_le
  rw [unify_eq, substitute_spell opens_bracketed (by decide) first,
    substitute_spell opens_dollar (by decide) second,
    substitute_spell (opens_angled _) (by decide) turns_angled,
    substitute_spell opens_braced (by decide) turns_braced,
    substitute_spell opens_colonMarked (by decide) turns_colon,
    substitute_spell opens_catchAllNamed (by decide) turns_catchAll, settled]

end RouteAtlas.Route
