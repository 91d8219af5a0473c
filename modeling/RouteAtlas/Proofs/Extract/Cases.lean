import RouteAtlas.Extract.Play
import RouteAtlas.Proofs.Extract.Patterns

/-!
# Cases of a router

In a file of lines `case VERB(p"pattern" ? q"name=$value" & …) => call` the extractor reads one route
for each line (`extract_cases`), whatever the patterns, the values and the calls hold besides what ends
them.
-/

namespace RouteAtlas.Extract

open Scanner Route

variable {b : Option Char} {t rest : Text}

/-! ### Query bindings -/

/-- `q"name=$value"`, or `q_o"name=$value"` for a parameter that may be missing. -/
structure Binding where
  required : Bool
  name : Text
  value : Text
  named : name ≠ []
  name_free : ∀ x ∈ name, x ≠ '"' ∧ x ≠ '='
  value_free : '"' ∉ value

namespace Binding

variable (q : Binding)

def kind : Text := if q.required then "q" else "q_o"

def body : Text := q.name ++ '=' :: '$' :: q.value

def text : Text := q.kind ++ '"' :: q.body ++ ['"']

def parameter : Parameter := Parameter.inQuery q.name q.required

theorem body_free : '"' ∉ q.body := by
  refine List.not_mem_append (fun inside => (q.name_free _ inside).1 rfl) ?_
  exact List.not_mem_cons_of_ne_of_not_mem (by decide)
    (List.not_mem_cons_of_ne_of_not_mem (by decide) q.value_free)

theorem text_append (rest : Text) : q.text ++ rest = q.kind ++ '"' :: (q.body ++ '"' :: rest) := by
  simp [text]

theorem oneOf_kind (b : Option Char) (rest : Text) :
    oneOf ["q_o", "q"] ⟨b, q.kind ++ '"' :: rest⟩ =
      some (q.kind, ⟨q.kind.getLast?.or b, '"' :: rest⟩) := by
  unfold kind
  cases q.required <;> rfl

theorem stops_kind (rest : Text) : Stops Text.isBlank (q.kind ++ rest) := by
  unfold kind
  cases q.required <;> exact stops_cons.mpr (by decide)

theorem bindingText_append {mark : Char} (known : mark = '?' ∨ mark = '&') (b : Option Char)
    (rest : Text) : ∃ b',
    bindingText ⟨b, ([' ', mark, ' '] ++ q.text) ++ rest⟩ = some (q.text, ⟨b', rest⟩) := by
  have visible : Text.isBlank mark = false := by
    rcases known with rfl | rfl <;> decide
  have marked : one (fun c => c == '?' || c == '&') ⟨some ' ', mark :: ' ' :: (q.text ++ rest)⟩ =
      some (mark, ⟨some mark, ' ' :: (q.text ++ rest)⟩) := by
    rcases known with rfl | rfl <;> rfl
  have opened : bindingMark ⟨b, ' ' :: mark :: ' ' :: (q.text ++ rest)⟩ =
      some (q.kind, ⟨some '"', q.body ++ '"' :: rest⟩) := by
    refine (bind_of_some (blanks_space (stops_cons.mpr visible) b)).trans ?_
    refine (bind_of_some marked).trans ?_
    rw [text_append]
    refine (bind_of_some (blanks_space (q.stops_kind _) _)).trans ?_
    refine (bind_of_some (q.oneOf_kind _ _)).trans ?_
    exact bind_of_some (literal_append "\"" _ _)
  refine ⟨some '"', ?_⟩
  refine (bind_of_some opened).trans ?_
  refine (bind_of_some (run_until q.body_free _ rest)).trans ?_
  exact bind_of_some (literal_append "\"" _ rest)

theorem queryBinding_append (b : Option Char) (rest : Text) :
    queryBinding ⟨b, q.text ++ rest⟩ = some ((q.kind, q.name), ⟨some '"', rest⟩) := by
  have inside : ∀ x ∈ q.name, (x != '"' && x != '=') = true := by
    intro x member
    obtain ⟨unquoted, unequal⟩ := q.name_free x member
    simp [unquoted, unequal]
  have split : q.body ++ '"' :: rest = q.name ++ ("=$" ++ (q.value ++ '"' :: rest)) := by
    simp [body]
  rw [text_append, split]
  refine (bind_of_some (q.oneOf_kind _ _)).trans ?_
  refine (bind_of_some (literal_append "\"" _ _)).trans ?_
  refine (bind_of_some (run1_append q.named inside (stops_cons.mpr (by decide)))).trans ?_
  refine (bind_of_some (literal_append "=$" _ _)).trans ?_
  refine (bind_of_some (run_until q.value_free _ rest)).trans ?_
  exact bind_of_some (literal_append "\"" _ rest)

end Binding

theorem reads_bindingText : Reads bindingText := by
  have mark : Reads bindingMark :=
    reads_bind (reads_run _) fun _ =>
    reads_bind (reads_of_consumes (consumes_one _)) fun _ =>
    reads_bind (reads_run _) fun _ =>
    reads_bind (reads_of_consumes (consumes_oneOf (by decide))) fun _ =>
    reads_bind (reads_literal _) fun _ => reads_pure _
  exact reads_bind mark fun _ =>
    reads_bind (reads_run _) fun _ => reads_bind (reads_literal _) fun _ => reads_pure _

theorem consumes_queryBinding : Consumes queryBinding :=
  consumes_bind (consumes_oneOf (by decide)) fun _ =>
  reads_bind (reads_literal _) fun _ =>
  reads_bind (reads_of_consumes (consumes_run1 _)) fun _ =>
  reads_bind (reads_literal _) fun _ =>
  reads_bind (reads_run _) fun _ =>
  reads_bind (reads_literal _) fun _ => reads_pure _

theorem findAll_queryBinding (qs : List Binding) :
    queryBinding.findAll (qs.map Binding.text).flatten = qs.map fun q => (q.kind, q.name) := by
  have step (q : Binding) (_ : q ∈ qs) (b : Option Char) (t : Text) : ∃ b',
      finds (piecesAt queryBinding ⟨b, q.text ++ t⟩) =
        [(q.kind, q.name)] ++ finds (piecesAt queryBinding ⟨b', t⟩) := by
    refine ⟨some '"', ?_⟩
    rw [piecesAt_of_some consumes_queryBinding (q.queryBinding_append b t)]
    rfl
  rw [← List.flatMap_def, findAll_flatMap step, List.map_eq_flatMap]

/-! ### Cases -/

/-- The bindings with their marks: a question mark for the first, an ampersand for the others. -/
def marked : List Binding → List (Char × Binding)
  | [] => []
  | q :: qs => ('?', q) :: qs.map ('&', ·)

theorem marked_snd (qs : List Binding) : (marked qs).map Prod.snd = qs := by
  cases qs with
  | nil => rfl
  | cons q qs => simp [marked, Function.comp_def]

theorem mark_of_mem {qs : List Binding} {p : Char × Binding} (member : p ∈ marked qs) :
    p.1 = '?' ∨ p.1 = '&' := by
  cases qs with
  | nil => cases member
  | cons q qs =>
    rcases List.mem_cons.mp member with rfl | later
    · exact .inl rfl
    · obtain ⟨q', _, rfl⟩ := List.mem_map.mp later
      exact .inr rfl

/-- A case: a verb, a pattern, query bindings and a call, not blank, on the rest of the line. -/
structure Case where
  verb : Text
  pattern : Text
  bindings : List Binding
  call : Text
  verb_known : verb ∈ (["GET", "POST", "PUT", "DELETE", "PATCH"] : List Text)
  pattern_nonempty : pattern ≠ []
  pattern_free : '"' ∉ pattern
  call_visible : ∃ x ∈ call, Text.isBlank x = false
  call_line : '\n' ∉ call

namespace Case

variable (c : Case)

def queries : Text := (marked c.bindings).flatMap fun p => [' ', p.1, ' '] ++ p.2.text

def text : Text :=
  "case " ++ (c.verb ++ ("(p\"" ++ (c.pattern ++ '"' :: (c.queries ++ (") => " ++ c.call)))))

/-- The route that a case declares in a file. -/
def declaration (file : Text) : Declaration where
  method := Text.lower c.verb
  path := rooted c.pattern
  source := file
  parameters := (pathBinding.findAll c.pattern).eraseDups.map Parameter.inPath ++
    c.bindings.map Binding.parameter
  description := some ("Controller: " ++ Text.strip c.call)
  responses := Responses.ofTables

def found : Text × Text × Text × Text :=
  (c.verb, c.pattern, (c.bindings.map Binding.text).flatten, c.call.dropWhile Text.isBlank)

theorem stops_verb (rest : Text) : Stops Text.isBlank (c.verb ++ rest) := by
  have known := c.verb_known
  simp only [List.mem_cons, List.not_mem_nil, or_false] at known
  rcases known with same | same | same | same | same <;> rw [same] <;>
    exact stops_cons.mpr (by decide)

theorem repeated_queries (b : Option Char) (rest : Text) : ∃ b',
    repeated bindingText ⟨b, c.queries ++ ')' :: rest⟩ =
      some (c.bindings.map Binding.text, ⟨b', ')' :: rest⟩) := by
  have nonempty (p : Char × Binding) (_ : p ∈ marked c.bindings) :
      [' ', p.1, ' '] ++ p.2.text ≠ [] := List.cons_ne_nil _ _
  have reads (p : Char × Binding) (member : p ∈ marked c.bindings) (b : Option Char) (t : Text) :=
    p.2.bindingText_append (mark_of_mem member) b t
  have stops (b : Option Char) : bindingText ⟨b, ')' :: rest⟩ = none := rfl
  have values : (marked c.bindings).map (fun p => p.2.text) = c.bindings.map Binding.text := by
    show (marked c.bindings).map (Binding.text ∘ Prod.snd) = _
    rw [← List.map_map, marked_snd]
  obtain ⟨b', read⟩ := repeated_append nonempty reads stops b
  exact ⟨b', values ▸ read⟩

theorem routerCase_append (stop : Stops (· != '\n') t) (b : Option Char) : ∃ b',
    routerCase ⟨b, c.text ++ t⟩ = some (c.found, ⟨b', t⟩) := by
  have whole : c.text ++ t = "case" ++ ' ' :: (c.verb ++ '(' :: ("p\"" ++ (c.pattern ++
      '"' :: (c.queries ++ ')' :: ' ' :: ("=>" ++ ' ' :: (c.call ++ t)))))) := by
    simp [text]
  obtain ⟨b', last⟩ :=
    lastBlankOr_append c.call_visible (bne_of_notMem c.call_line) stop (some '>')
  obtain ⟨b'', queries⟩ := c.repeated_queries (some '"') (' ' :: ("=>" ++ ' ' :: (c.call ++ t)))
  refine ⟨b', ?_⟩
  rw [whole]
  refine (bind_of_some (literal_append "case" b _)).trans ?_
  refine (bind_of_some (blanks1_space (c.stops_verb _) _)).trans ?_
  refine (bind_of_some (oneOf_append (by decide) c.verb_known _ _)).trans ?_
  refine (bind_of_some (blanks_none (x := '(') (by decide) _ _)).trans ?_
  refine (bind_of_some (literal_append "(" _ _)).trans ?_
  refine (bind_of_some (blanks_none (x := 'p') (by decide) _ _)).trans ?_
  refine (bind_of_some (literal_append "p\"" _ _)).trans ?_
  refine (bind_of_some (run1_append c.pattern_nonempty (bne_of_notMem c.pattern_free)
    (stops_cons.mpr (by decide)))).trans ?_
  refine (bind_of_some (literal_append "\"" _ _)).trans ?_
  refine (bind_of_some queries).trans ?_
  refine (bind_of_some (blanks_none (x := ')') (by decide) _ _)).trans ?_
  refine (bind_of_some (literal_append ")" _ _)).trans ?_
  refine (bind_of_some (blanks_space (stops_cons.mpr (by decide)) _)).trans ?_
  refine (bind_of_some (literal_append "=>" _ _)).trans ?_
  exact bind_of_some last

end Case

theorem consumes_routerCase : Consumes routerCase :=
  consumes_bind (consumes_literal (by decide)) fun _ =>
  reads_bind (reads_of_consumes (consumes_run1 _)) fun _ =>
  reads_bind (reads_of_consumes (consumes_oneOf (by decide))) fun _ =>
  reads_bind (reads_run _) fun _ =>
  reads_bind (reads_literal _) fun _ =>
  reads_bind (reads_run _) fun _ =>
  reads_bind (reads_literal _) fun _ =>
  reads_bind (reads_of_consumes (consumes_run1 _)) fun _ =>
  reads_bind (reads_literal _) fun _ =>
  reads_bind (reads_repeated reads_bindingText) fun _ =>
  reads_bind (reads_run _) fun _ =>
  reads_bind (reads_literal _) fun _ =>
  reads_bind (reads_run _) fun _ =>
  reads_bind (reads_literal _) fun _ =>
  reads_bind (reads_lastBlankOr _) fun _ => reads_pure _

/-! ### From cases to declarations -/

theorem readsNamed_pathBinding : ReadsNamed pathBinding "$" fun _ => True :=
  readsNamed_literal (by decide)

theorem ofCase_found (file : Text) (c : Case) : ofCase file c.found = c.declaration file := by
  have opens : Opens pathBinding '$' := opens_bind (opens_literal '$' [])
  have names : pathBinding.findAll (rooted c.pattern) = pathBinding.findAll c.pattern :=
    findAll_rooted opens (by decide) (fun _ => rfl) c.pattern
  have parameter (q : Binding) :
      Parameter.inQuery q.name (q.kind = ("q" : Text)) = q.parameter := by
    unfold Binding.parameter Binding.kind
    cases q.required <;> rfl
  have queries : c.bindings.map ((fun p => Parameter.inQuery p.2 (p.1 = ("q" : Text))) ∘
      fun q => (q.kind, q.name)) = c.bindings.map Binding.parameter :=
    List.map_congr_left fun q _ => parameter q
  simp only [ofCase, Case.found, Case.declaration, names, allInPath_eq, findAll_queryBinding,
    strip_dropWhile, List.map_map]
  rw [queries]

/-- What is read from lines of cases, with a line break between them or behind each of them: one route
for each case, in the order of the cases. The names of the path parameters are those behind the dollar
signs of the pattern. -/
theorem extract_cases (file : Text) (lines : List Case) :
    playRouter.extract file (Text.join ['\n'] (lines.map Case.text)) =
      lines.map (·.declaration file) ∧
    playRouter.extract file (lines.flatMap fun c => c.text ++ ['\n']) =
      lines.map (·.declaration file) ∧
    ∀ pattern names, Named "$" (fun _ => True) none pattern names ↔
      pathBinding.findAll pattern = names := by
  have opens : Opens routerCase 'c' := opens_bind (opens_literal 'c' _)
  have line_break : Silent routerCase ['\n'] := silent_of_opens opens (by decide)
  have step (c : Case) (_ : c ∈ lines) (b : Option Char) (t : Text) (stop : Stops (· != '\n') t) :
      ∃ b', finds (piecesAt routerCase ⟨b, c.text ++ t⟩) =
        [c.found] ++ finds (piecesAt routerCase ⟨b', t⟩) := by
    obtain ⟨b', read⟩ := c.routerCase_append stop b
    refine ⟨b', ?_⟩
    rw [piecesAt_of_some consumes_routerCase read]
    rfl
  have declared : ∀ t, routerCase.findAll t = lines.flatMap (fun c => [c.found]) →
      playRouter.extract file t = lines.map (·.declaration file) := by
    intro t found
    show (routerCase.findAll t).map (ofCase file) = _
    rw [found, ← List.map_eq_flatMap, List.map_map]
    exact List.map_congr_left fun c _ => ofCase_found file c
  obtain ⟨joined, ended⟩ := findAll_lines line_break step
  refine ⟨declared _ joined, declared _ ended, ?_⟩
  intro pattern names
  exact named_iff readsNamed_pathBinding

end RouteAtlas.Extract
