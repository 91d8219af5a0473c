import RouteAtlas.Route.Template
import RouteAtlas.Proofs.Scanner.Identifier

/-!
# Reading placeholders

What each form of placeholder reads from a text that is written in it, with which character a find
begins, and that every form consumes what it finds.
-/

namespace RouteAtlas.Route

open Scanner

variable {b : Option Char} {rest : Text} {n t : Identifier}

theorem literal_of_stops {x : Char} {w : Text} (stop : Stops (· == x) rest) :
    literal (x :: w) ⟨b, rest⟩ = none := by
  cases rest with
  | nil => rfl
  | cons y r =>
    have different : y ≠ x := by simpa using stops_cons.mp stop
    rw [literal_cons, if_neg different.symm]

/-! ### Brackets -/

/-- The characters that may stand in brackets. -/
def InBrackets (body : Text) : Prop := body ≠ [] ∧ ∀ x ∈ body, x ≠ '[' ∧ x ≠ ']' ∧ x ≠ '/'

theorem run1_inBrackets {body : Text} (inside : InBrackets body) :
    run1 (fun c => c != '[' && c != ']' && c != '/') ⟨b, body ++ ']' :: rest⟩ =
      some (body, ⟨body.getLast?, ']' :: rest⟩) := by
  apply run1_append inside.1
  · intro x hx
    simp [inside.2 x hx]
  · simp [stops_cons]

theorem bracketed_single {body : Text} (inside : InBrackets body) (stop : Stops (· == ']') rest) :
    bracketed ⟨b, '[' :: (body ++ ']' :: rest)⟩ = some (bracketName body, ⟨some ']', rest⟩) := by
  have first : literal ['['] ⟨some '[', body ++ ']' :: rest⟩ = none := by
    apply literal_of_stops
    intro x hx
    cases body with
    | nil => exact absurd rfl inside.1
    | cons y body =>
      obtain rfl := Option.some.inj hx
      simp [inside.2 y List.mem_cons_self]
  have last : literal [']'] ⟨some ']', rest⟩ = none := literal_of_stops stop
  simp [bracketed, bind_apply, map_apply, option_of_none first, run1_inBrackets inside,
    option_of_none last]

theorem bracketed_double {body : Text} (inside : InBrackets body) :
    bracketed ⟨b, '[' :: '[' :: (body ++ ']' :: ']' :: rest)⟩ =
      some (bracketName body, ⟨some ']', rest⟩) := by
  have first : literal ['['] ⟨some '[', '[' :: (body ++ ']' :: ']' :: rest)⟩ =
      some ((), ⟨some '[', body ++ ']' :: ']' :: rest⟩) := by simp
  have last : literal [']'] ⟨some ']', ']' :: rest⟩ = some ((), ⟨some ']', rest⟩) := by simp
  simp [bracketed, bind_apply, map_apply, option_of_some first, run1_inBrackets inside,
    option_of_some last]

theorem bracketed_shape {r a : Text} {c' : Cursor}
    (found : bracketed ⟨b, r⟩ = some (a, c')) :
    ∃ opening body closing, (opening = ['['] ∨ opening = ['[', '[']) ∧
      (closing = [']'] ∨ closing = [']', ']']) ∧ body ≠ [] ∧ a = bracketName body ∧
        r = opening ++ (body ++ (closing ++ c'.rest)) := by
  obtain ⟨_, opened, first, found⟩ := bind_eq_some.mp found
  obtain ⟨_, inside, second, found⟩ := bind_eq_some.mp found
  obtain ⟨body, behind, third, found⟩ := bind_eq_some.mp found
  obtain ⟨_, closed, fourth, found⟩ := bind_eq_some.mp found
  obtain ⟨_, last, fifth, found⟩ := bind_eq_some.mp found
  obtain ⟨rfl, rfl⟩ := Prod.mk.inj (Option.some.inj found)
  have text : r = _ := (between_literal first).1
  obtain ⟨v, opening, text₂⟩ := option_literal_eq_some second
  obtain ⟨nonempty, _, text₃⟩ := run1_eq_some third
  have text₄ := (between_literal fourth).1
  obtain ⟨u, closing, text₅⟩ := option_literal_eq_some fifth
  refine ⟨'[' :: v, body, ']' :: u, ?_, ?_, nonempty, rfl, ?_⟩
  · exact opening.imp (congrArg _) (congrArg _)
  · exact closing.imp (congrArg _) (congrArg _)
  · rw [text, text₂, text₃, text₄, text₅]
    rfl

theorem inBrackets_name (n : Identifier) : InBrackets n.text :=
  ⟨n.text_ne_nil, fun _ hx => ⟨n.ne_of_mem hx (by decide), n.ne_of_mem hx (by decide),
    n.ne_of_mem hx (by decide)⟩⟩

theorem inBrackets_ellipsis (n : Identifier) : InBrackets ("..." ++ n.text) := by
  refine ⟨by simp, fun x hx => ?_⟩
  rcases List.mem_append.mp hx with dots | hx
  · have : x = '.' := by simpa using dots
    subst this
    decide
  · exact (inBrackets_name n).2 x hx

theorem bracketName_name (n : Identifier) : bracketName n.text = n.text := by
  have dot : '.' ≠ n.first := (n.first_ne (by decide)).symm
  simp [bracketName, Identifier.text, Text.after?, dot]

theorem bracketName_ellipsis (n : Identifier) : bracketName ("..." ++ n.text) = n.text := by
  rw [bracketName, Text.after?_append]
  rfl

/-! ### The other forms -/

theorem dollar_name (stop : Stops Text.isIdentifier rest) (free : Stops (· == '<') rest) :
    dollar ⟨b, '$' :: (n.text ++ rest)⟩ = some (n.text, ⟨n.text.getLast?, rest⟩) := by
  have unbound : option (do
      literal ['<']
      let _ ← run fun c => c != '>'
      literal ['>']) ⟨n.text.getLast?, rest⟩ = some (none, ⟨n.text.getLast?, rest⟩) := by
    apply option_of_none
    rw [bind_apply]
    have none := literal_of_stops (b := n.text.getLast?) (w := []) free
    simp [none]
  simp [dollar, bind_apply, map_apply, identifier_append n stop, unbound]

theorem dollar_bound {c : Text} (free : '>' ∉ c) (b : Option Char) (n : Identifier) (rest : Text) :
    dollar ⟨b, '$' :: (n.text ++ '<' :: (c ++ '>' :: rest))⟩ = some (n.text, ⟨some '>', rest⟩) := by
  have stop : Stops Text.isIdentifier ('<' :: (c ++ '>' :: rest)) := by
    rw [stops_cons]
    decide
  have bound : option (do
      literal ['<']
      let _ ← run fun c => c != '>'
      literal ['>']) ⟨n.text.getLast?, '<' :: (c ++ '>' :: rest)⟩ =
        some (some (), ⟨some '>', rest⟩) := by
    apply option_of_some
    simp [bind_apply, run_until free]
  simp [dollar, bind_apply, map_apply, identifier_append n stop, bound]

theorem angled_name {convertible : Scanner Unit}
    (absent : (convertible >>= fun _ => literal [':']) ⟨some '<', n.text ++ '>' :: rest⟩ = none) :
    angled convertible ⟨b, '<' :: (n.text ++ '>' :: rest)⟩ = some (n.text, ⟨some '>', rest⟩) := by
  have stop : Stops Text.isIdentifier ('>' :: rest) := by
    rw [stops_cons]
    decide
  simp [angled, bind_apply, map_apply, identifier_append n stop, option_of_none absent]

theorem angled_converter {convertible : Scanner Unit} {type : Text}
    (present : (convertible >>= fun _ => literal [':'])
      ⟨some '<', type ++ ':' :: (n.text ++ '>' :: rest)⟩ =
        some ((), ⟨some ':', n.text ++ '>' :: rest⟩)) :
    angled convertible ⟨b, '<' :: (type ++ ':' :: (n.text ++ '>' :: rest))⟩ =
      some (n.text, ⟨some '>', rest⟩) := by
  have stop : Stops Text.isIdentifier ('>' :: rest) := by
    rw [stops_cons]
    decide
  simp [angled, bind_apply, map_apply, identifier_append n stop, option_of_some present]

/-- A braced placeholder from its name on. -/
def bracedTail : Scanner Text := do
  let name ← identifier
  let _ ← option (literal "?")
  let _ ← option do
    literal ":"
    run fun c => c != '}'
  literal "\x7d"
  return name

theorem bracedTail_append {mark bound : Text} (marked : mark = [] ∨ mark = ['?'])
    (bounded : bound = [] ∨ ∃ c, bound = ':' :: c ∧ '}' ∉ c) :
    bracedTail ⟨b, n.text ++ (mark ++ (bound ++ '}' :: rest))⟩ =
      some (n.text, ⟨some '}', rest⟩) := by
  have stop : Stops Text.isIdentifier (mark ++ (bound ++ '}' :: rest)) := by
    rcases marked with rfl | rfl <;> rcases bounded with rfl | ⟨c, rfl, _⟩ <;>
      simp [stops_cons] <;> decide
  have constraint (l : Option Char) : ∃ found l', option (do
      literal [':']
      run fun c => c != '}') ⟨l, bound ++ '}' :: rest⟩ = some (found, ⟨l', '}' :: rest⟩) := by
    rcases bounded with rfl | ⟨c, rfl, free⟩
    · exact ⟨none, l, option_of_none (by simp [bind_apply])⟩
    · exact ⟨some c, c.getLast?.or (some ':'),
        option_of_some (by simp [bind_apply, run_until free])⟩
  have optional : ∃ found l', option (literal ['?'])
      ⟨n.text.getLast?, mark ++ (bound ++ '}' :: rest)⟩ =
        some (found, ⟨l', bound ++ '}' :: rest⟩) := by
    rcases marked with rfl | rfl
    · refine ⟨none, _, option_of_none ?_⟩
      apply literal_of_stops
      rcases bounded with rfl | ⟨c, rfl, _⟩ <;> simp [stops_cons]
    · exact ⟨some (), some '?', option_of_some (by simp)⟩
  obtain ⟨_, l, second⟩ := optional
  obtain ⟨_, l', third⟩ := constraint l
  simp [bracedTail, bind_apply, map_apply, identifier_append n stop, second, third]

theorem braced_append (stars mark bound : Text)
    (starred : stars = [] ∨ stars = ['*'] ∨ stars = ['*', '*']) (marked : mark = [] ∨ mark = ['?'])
    (bounded : bound = [] ∨ ∃ c, bound = ':' :: c ∧ '}' ∉ c) :
    braced ⟨b, '{' :: (stars ++ (n.text ++ (mark ++ (bound ++ '}' :: rest))))⟩ =
      some (n.text, ⟨some '}', rest⟩) := by
  have opened : braced = literal ['{'] >>= fun _ => option (literal ['*']) >>= fun _ =>
    option (literal ['*']) >>= fun _ => bracedTail := rfl
  have absent (l : Option Char) : option (literal ['*'])
      ⟨l, n.text ++ (mark ++ (bound ++ '}' :: rest))⟩ =
        some (none, ⟨l, n.text ++ (mark ++ (bound ++ '}' :: rest))⟩) :=
    option_of_none (literal_identifier n (by decide) [])
  have present (l : Option Char) (r : Text) : option (literal ['*']) ⟨l, '*' :: r⟩ =
      some (some (), ⟨some '*', r⟩) := option_of_some (by simp)
  rw [opened]
  rcases starred with rfl | rfl | rfl
  · simp [bind_apply, absent, bracedTail_append marked bounded]
  · simp [bind_apply, absent, present, bracedTail_append marked bounded]
  · simp [bind_apply, present, bracedTail_append marked bounded]

theorem colon_name (free : ∀ x ∈ b, Text.isWord x = false ∧ x ≠ '{')
    (stop : Stops Text.isIdentifier rest) :
    colon ⟨b, ':' :: (n.text ++ rest)⟩ = some (n.text, ⟨n.text.getLast?, rest⟩) := by
  have before : (b.any fun x => Text.isWord x || x == '{') = false := by
    cases b with
    | none => rfl
    | some x => simp [free x rfl]
  simp [colon, check, bind_apply, before, identifier_append n stop]

theorem bracedName_name (b : Option Char) (n : Identifier) (rest : Text) :
    bracedName ⟨b, '{' :: (n.text ++ '}' :: rest)⟩ = some (n.text, ⟨some '}', rest⟩) := by
  have read : run1 (fun c => c != '{' && c != '}') ⟨some '{', n.text ++ '}' :: rest⟩ =
      some (n.text, ⟨n.text.getLast?, '}' :: rest⟩) := by
    apply run1_append n.text_ne_nil
    · intro x hx
      simp [n.ne_of_mem hx (y := '{') (by decide), n.ne_of_mem hx (y := '}') (by decide)]
    · simp [stops_cons]
  simp [bracedName, bind_apply, map_apply, read]

theorem catchAll_star :
    catchAll ⟨b, '(' :: '.' :: '*' :: ')' :: rest⟩ = some ((), ⟨some ')', rest⟩) := by
  simp [catchAll, bind_apply, pure_apply, oneOf]

theorem catchAll_plus :
    catchAll ⟨b, '(' :: '.' :: '+' :: ')' :: rest⟩ = some ((), ⟨some ')', rest⟩) := by
  simp [catchAll, bind_apply, pure_apply, oneOf]

/-! ### Where finds begin, and that they are not empty -/

theorem opens_bracketed : Opens bracketed '[' := opens_bind (opens_literal '[' [])

theorem opens_dollar : Opens dollar '$' := opens_bind (opens_literal '$' [])

theorem opens_angled (convertible : Scanner Unit) : Opens (angled convertible) '<' :=
  opens_bind (opens_literal '<' [])

theorem opens_braced : Opens braced '{' := opens_bind (opens_literal '{' [])

theorem opens_colon : Opens colon ':' := opens_check_bind (opens_bind (opens_literal ':' []))

theorem opens_catchAll : Opens catchAll '(' := by
  intro b x r different
  simp [catchAll, bind_apply, oneOf, different.symm]

theorem opens_bracedName : Opens bracedName '{' := opens_bind (opens_literal '{' [])

theorem consumes_bracketed : Consumes bracketed :=
  consumes_bind (consumes_literal (by decide)) fun _ =>
  reads_bind (reads_option (reads_literal _)) fun _ =>
  reads_bind (reads_of_consumes (consumes_run1 _)) fun _ =>
  reads_bind (reads_literal _) fun _ =>
  reads_bind (reads_option (reads_literal _)) fun _ => reads_pure _

theorem consumes_dollar : Consumes dollar :=
  consumes_bind (consumes_literal (by decide)) fun _ =>
  reads_bind (reads_of_consumes consumes_identifier) fun _ =>
  reads_bind (reads_option (reads_bind (reads_literal _) fun _ =>
    reads_bind (reads_run _) fun _ => reads_literal _)) fun _ => reads_pure _

theorem consumes_angled {convertible : Scanner Unit} (h : Reads convertible) :
    Consumes (angled convertible) :=
  consumes_bind (consumes_literal (by decide)) fun _ =>
  reads_bind (reads_option (reads_bind h fun _ => reads_literal _)) fun _ =>
  reads_bind (reads_of_consumes consumes_identifier) fun _ =>
  reads_bind (reads_literal _) fun _ => reads_pure _

theorem consumes_braced : Consumes braced :=
  consumes_bind (consumes_literal (by decide)) fun _ =>
  reads_bind (reads_option (reads_literal _)) fun _ =>
  reads_bind (reads_option (reads_literal _)) fun _ =>
  reads_bind (reads_of_consumes consumes_identifier) fun _ =>
  reads_bind (reads_option (reads_literal _)) fun _ =>
  reads_bind (reads_option (reads_bind (reads_literal _) fun _ => reads_run _)) fun _ =>
  reads_bind (reads_literal _) fun _ => reads_pure _

theorem consumes_colon : Consumes colon :=
  consumes_of_reads_bind (reads_check _) fun _ =>
  consumes_bind (consumes_literal (by decide)) fun _ => reads_of_consumes consumes_identifier

theorem consumes_catchAll : Consumes catchAll :=
  consumes_bind (consumes_oneOf (by decide)) fun _ => reads_pure _

theorem consumes_bracedName : Consumes bracedName :=
  consumes_bind (consumes_literal (by decide)) fun _ =>
  reads_bind (reads_of_consumes (consumes_run1 _)) fun _ =>
  reads_bind (reads_literal _) fun _ => reads_pure _

end RouteAtlas.Route
