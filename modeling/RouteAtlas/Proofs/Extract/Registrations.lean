import RouteAtlas.Extract.MinimalApi
import RouteAtlas.Proofs.Extract.Attributes
import RouteAtlas.Proofs.Extract.Names
import RouteAtlas.Proofs.Scanner.Sequences

/-!
# Files of endpoint registrations

In a file of statements `app.MapVerb("route", …);` and `group.MapVerb("route", …);` the extractor reads
the statements on `app` and no others (`extract_endpoints`). The placeholders of their routes may
combine stars, a question mark and a constraint, also where `SingleForm` does not
(`extract_combined`).
-/

namespace RouteAtlas.Extract

open Scanner Route

variable {b : Option Char} {c' : Cursor} {r t : Text}

/-! ### Statements -/

/-- The object on which an endpoint is mapped. -/
inductive Builder where
  | app
  | group
deriving DecidableEq

def Builder.text : Builder → Text
  | .app => "app"
  | .group => "group"

/-- A statement that maps an endpoint: the object, the verb, the route and the other arguments. -/
structure Endpoint where
  builder : Builder
  verb : Text
  route : Text
  rest : Text
  verb_known : verb ∈ (["Get", "Post", "Put", "Delete", "Patch"] : List Text)
  route_unquoted : Unquoted route
  rest_unquoted : Unquoted rest
  route_grouped : builder = .group → ¬ ("app.Map" : Text) <:+: route

namespace Endpoint

variable (e : Endpoint)

/-- What follows the comma behind the route, up to the end of the line. -/
def closing : Text := ' ' :: (e.rest ++ ");\n")

def text : Text :=
  e.builder.text ++ (".Map" ++ (e.verb ++ ("(\"" ++ (e.route ++ ("\"," ++ e.closing)))))

/-- The route that a statement declares in a file. -/
def declaration (file : Text) : Declaration where
  method := Text.lower e.verb
  path := rooted e.route
  source := file
  parameters := (braced.findAll e.route).eraseDups.map Parameter.inPath
  responses := Responses.ofMinimal

end Endpoint

/-! ### Reading statements -/

theorem opens_registration : Opens registration 'a' :=
  opens_check_bind (opens_bind (opens_literal 'a' _))

theorem consumes_registration : Consumes registration :=
  consumes_of_reads_bind (reads_check _) fun _ =>
  consumes_bind (consumes_literal (by decide)) fun _ =>
  reads_bind (reads_of_consumes (consumes_oneOf (by decide))) fun _ =>
  reads_bind (reads_run _) fun _ =>
  reads_bind (reads_literal _) fun _ =>
  reads_bind (reads_of_consumes consumes_argument) fun _ =>
  reads_bind (reads_run _) fun _ =>
  reads_bind (reads_literal _) fun _ => reads_pure _

theorem registration_append {verb route : Text} (known : verb ∈ pascalMethods)
    (unquoted : Unquoted route) (outside : ∀ x ∈ b, Text.isWord x = false) (t : Text) :
    registration ⟨b, "app.Map" ++ (verb ++ '(' :: '"' :: (route ++ '"' :: ',' :: t))⟩ =
      some ((verb, route), ⟨some ',', t⟩) := by
  unfold registration
  refine (bind_of_some (boundary_word outside (x := 'a') (by decide) _)).trans ?_
  refine (bind_of_some (literal_append "app.Map" _ _)).trans ?_
  refine (bind_of_some (oneOf_verb known _ _)).trans ?_
  refine (argument_parenthesized (x := '"') (by decide) (by decide) unquoted _ _).trans ?_
  refine (bind_of_some (blanks_none (x := ',') (by decide) _ _)).trans ?_
  exact bind_of_some (literal_append "," _ _)

/-- What is read has a parenthesis before its first quotation mark, and closes none there. -/
theorem registration_shape {found : Text × Text} (read : registration ⟨b, r⟩ = some (found, c')) :
    ∃ u y t, ')' ∉ u ∧ isQuote y = true ∧ r = u ++ y :: t := by
  obtain ⟨_, _, edge, entered⟩ := bind_eq_some.mp read
  obtain ⟨rfl, _⟩ := boundary_eq_some edge
  obtain ⟨_, mapped, first, named⟩ := bind_eq_some.mp entered
  obtain ⟨verb, called, second, argued⟩ := bind_eq_some.mp named
  obtain ⟨u, y, t, parenthesis, mark, text⟩ := parenthesis_of_argument argued
  have verbs : ∀ v ∈ pascalMethods, ')' ∉ v := by decide
  have whole : r = "app.Map" ++ mapped.rest := (between_literal first).1
  rw [(between_oneOf second).1, text] at whole
  refine ⟨"app.Map" ++ (verb ++ u), y, t, ?_, mark, whole.trans (by simp)⟩
  exact List.not_mem_append (by decide) (List.not_mem_append (verbs verb (mem_of_oneOf second))
    (parenthesis.notMem (by decide) (by decide)))

namespace Endpoint

variable (e : Endpoint)

theorem silent_closing : Silent registration e.closing := by
  have quiet {w : Text} (free : 'a' ∉ w) : Silent registration w :=
    silent_of_opens opens_registration free
  have rest : Silent registration (e.rest ++ [')']) :=
    silent_concat (fun _ _ _ _ => registration_shape) e.rest_unquoted (by decide)
  have whole : e.closing = " " ++ ((e.rest ++ [')']) ++ ";\n") := by
    have ending : (");\n" : Text) = [')'] ++ ";\n" := rfl
    rw [closing, ending, List.append_assoc]
    rfl
  rw [whole]
  exact (quiet (by decide)).append (rest.append (quiet (by decide)))

theorem stops_closing (b : Option Char) : ∀ x ∈ e.closing.getLast?.or b, Text.isWord x = false := by
  have last : e.closing.getLast?.or b = some '\n' := by
    rw [closing, getLast?_cons_or, getLast?_append_or]
    rfl
  rw [last]
  rintro x ⟨⟩
  decide

theorem silent_group (group : e.builder = .group) : Silent registration e.text := by
  have verbs : ∀ v ∈ pascalMethods, Shuns "app.Map" ("group.Map" ++ (v ++ "(\"")) := by decide
  have route : Shuns "app.Map" (e.route ++ ['"']) := shuns_line (e.route_grouped group) (by decide)
  have comma : Silent registration "," := silent_of_opens opens_registration (by decide)
  have whole : e.text = (("group.Map" ++ (e.verb ++ "(\"")) ++ (e.route ++ ['"'])) ++
      ("," ++ e.closing) := by
    have object : e.builder.text = "group" := by rw [group]; rfl
    have called : ("group.Map" : Text) = "group" ++ ".Map" := rfl
    have mark : ("\"," : Text) = ['"'] ++ "," := rfl
    rw [text, object, called, mark]
    simp only [List.append_assoc]
  rw [whole]
  refine Silent.append ?_ (comma.append e.silent_closing)
  exact silent_check_bind (silent_of_shuns ((verbs e.verb e.verb_known).append route))

def found : List (Text × Text) := if e.builder = .app then [(e.verb, e.route)] else []

theorem finds_endpoint (outside : ∀ x ∈ b, Text.isWord x = false) (t : Text) :
    ∃ b', (∀ x ∈ b', Text.isWord x = false) ∧ finds (piecesAt registration ⟨b, e.text ++ t⟩) =
      e.found ++ finds (piecesAt registration ⟨b', t⟩) := by
  cases built : e.builder with
  | app =>
    have whole : e.text ++ t = "app.Map" ++ (e.verb ++ '(' :: '"' ::
        (e.route ++ '"' :: ',' :: (e.closing ++ t))) := by
      have object : e.builder.text = "app" := by rw [built]; rfl
      have called : ("app.Map" : Text) = "app" ++ ".Map" := rfl
      have opening : ("(\"" : Text) = ['(', '"'] := rfl
      have mark : ("\"," : Text) = ['"', ','] := rfl
      rw [text, object, called, opening, mark]
      simp only [List.append_assoc, List.cons_append, List.nil_append]
    have read := registration_append e.verb_known e.route_unquoted outside (e.closing ++ t)
    refine ⟨_, e.stops_closing (some ','), ?_⟩
    rw [whole, piecesAt_of_some consumes_registration read, found, if_pos built]
    exact congrArg (_ :: ·) (finds_silent e.silent_closing _ t)
  | group =>
    have last : e.text.getLast?.or b = e.closing.getLast?.or (some ',') := by
      rw [text, getLast?_append_or, getLast?_append_or, getLast?_append_or, getLast?_append_or,
        getLast?_append_or, getLast?_append_or]
      rfl
    have other : e.builder ≠ .app := by
      rw [built]
      decide
    refine ⟨_, e.stops_closing (some ','), ?_⟩
    rw [finds_silent (e.silent_group built), last, found, if_neg other]
    rfl

theorem flatMap_found (es : List Endpoint) :
    es.flatMap found = (es.filter (·.builder = .app)).map fun e => (e.verb, e.route) := by
  induction es with
  | nil => rfl
  | cons e es ih =>
    rw [List.flatMap_cons, List.filter_cons, ih, found]
    by_cases app : e.builder = .app
    · rw [if_pos app, if_pos (decide_eq_true app)]
      rfl
    · rw [if_neg app, if_neg (by simpa using app)]
      rfl

end Endpoint

/-! ### From statements to declarations -/

theorem ofRegistration_endpoint (file : Text) (e : Endpoint) :
    ofRegistration file (e.verb, e.route) = e.declaration file := by
  have names : braced.findAll (rooted e.route) = braced.findAll e.route :=
    findAll_rooted opens_braced (by decide) (fun _ => rfl) e.route
  simp only [ofRegistration, Endpoint.declaration, names, allInPath_eq]

theorem extract_endpoint_statements (file : Text) (es : List Endpoint) :
    minimalEndpoints.extract file (es.flatMap Endpoint.text) =
      (es.filter (·.builder = .app)).map (·.declaration file) := by
  have start : ∀ x ∈ (none : Option Char), Text.isWord x = false := by simp
  obtain ⟨b, _, statements⟩ :=
    finds_flatMap (fun e (_ : e ∈ es) _ t outside => e.finds_endpoint outside t) start []
  have nothing : finds (piecesAt registration ⟨b, []⟩) = [] := rfl
  rw [nothing, List.append_nil, List.append_nil] at statements
  show (registration.findAll _).map (ofRegistration file) = _
  rw [findAll_eq_finds, pieces_eq_piecesAt, statements, Endpoint.flatMap_found, List.map_map]
  exact List.map_congr_left fun e _ => ofRegistration_endpoint file e

/-- What is read from a file of statements: one route for each statement on `app`, in their order. The
names of the parameters are those that the route itself writes in braces. -/
theorem extract_endpoints (file : Text) (es : List Endpoint) :
    minimalEndpoints.extract file (es.flatMap Endpoint.text) =
      (es.filter (·.builder = .app)).map (·.declaration file) ∧
    ∀ route names, NamesOf Braced route names ↔ braced.findAll route = names := by
  refine ⟨extract_endpoint_statements file es, ?_⟩
  intro route names
  exact namesOf_iff readsWritten_braced

/-! ### Combined forms -/

/-- `{name}`, `{name?}`, `{*name}`, `{**name}` or `{name:bound}`. -/
inductive SingleForm : Text → Text → Prop where
  | plain (n : Identifier) : SingleForm ('{' :: (n.text ++ ['}'])) n.text
  | optional (n : Identifier) : SingleForm ('{' :: (n.text ++ ['?', '}'])) n.text
  | star (n : Identifier) : SingleForm ('{' :: '*' :: (n.text ++ ['}'])) n.text
  | stars (n : Identifier) : SingleForm ('{' :: '*' :: '*' :: (n.text ++ ['}'])) n.text
  | bounded (n : Identifier) {bound : Text} (free : '}' ∉ bound) :
      SingleForm ('{' :: (n.text ++ ':' :: (bound ++ ['}']))) n.text

theorem get_verb : ("Get" : Text) ∈ (["Get", "Post", "Put", "Delete", "Patch"] : List Text) :=
  List.mem_cons_self

/-- A catch-all with a constraint. -/
def boundedCatchAll : Endpoint where
  builder := .app
  verb := "Get"
  route := "/{*path:alpha}"
  rest := "Send"
  verb_known := get_verb
  route_unquoted := Text.forall_of_all (by decide)
  rest_unquoted := Text.forall_of_all (by decide)
  route_grouped := by rintro ⟨⟩

theorem singleForm_boundedCatchAll (w n : Text) (form : SingleForm w n) :
    ¬ w <:+: boundedCatchAll.route := by
  intro inside
  have behind (u : Text) (h : '{' :: u <:+: boundedCatchAll.route) : u <+: "*path:alpha\x7d" := by
    simpa [boundedCatchAll, List.infix_cons_iff, List.cons_prefix_cons] using h
  have unstarred (n : Identifier) (r : Text) (h : '{' :: (n.text ++ r) <:+: boundedCatchAll.route) :
      False :=
    n.first_ne (y := '*') (by decide) (List.cons_prefix_cons.mp (behind _ h)).1
  cases form with
  | plain n => exact unstarred n _ inside
  | optional n => exact unstarred n _ inside
  | bounded n => exact unstarred n _ inside
  | star n =>
    -- The name ends before the colon, where a brace would have to stand.
    obtain ⟨r, whole⟩ := (List.cons_prefix_cons.mp (behind _ inside)).2
    have named : ∀ x ∈ ("path" : Text), Text.isIdentifier x = true := Text.forall_of_all (by decide)
    have same : n.text ++ '}' :: r = "path" ++ ':' :: "alpha\x7d" := by
      rw [← List.singleton_append, ← List.append_assoc, whole]
      rfl
    have ends := congrArg (List.dropWhile Text.isIdentifier) same
    rw [dropWhile_of_stops n.inside (stops_cons.mpr (by decide)),
      dropWhile_of_stops named (stops_cons.mpr (by decide))] at ends
    exact absurd (List.cons.inj ends).1 (by decide)
  | stars n =>
    have second := (List.cons_prefix_cons.mp (behind _ inside)).2
    exact absurd (List.cons_prefix_cons.mp second).1 (by decide)

/-- By the single forms the route has no placeholder, but a parameter is declared for it. -/
theorem extract_combined :
    NamesOf SingleForm boundedCatchAll.route [] ∧
      ¬ ∃ names, NamesOf SingleForm boundedCatchAll.route names ∧
        minimalEndpoints.extract "Program.cs" boundedCatchAll.text =
          [{ boundedCatchAll.declaration "Program.cs" with
            parameters := names.eraseDups.map Parameter.inPath }] := by
  refine ⟨(namesOf_absent singleForm_boundedCatchAll).mpr rfl, ?_⟩
  rintro ⟨names, single, extracted⟩
  obtain rfl := (namesOf_absent singleForm_boundedCatchAll).mp single
  have declared : (minimalEndpoints.extract "Program.cs" boundedCatchAll.text).map
      Declaration.parameters = [[Parameter.inPath "path"]] := by decide +kernel
  rw [extracted] at declared
  exact absurd declared (by decide)

end RouteAtlas.Extract
