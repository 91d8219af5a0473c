import RouteAtlas.Proofs.Extract.Names
import RouteAtlas.Proofs.Route.Mounting
import RouteAtlas.Proofs.Route.Trimmed
import RouteAtlas.Proofs.Scanner.Sequences

/-!
# Lists of URL patterns

In a file whose lines are entries `path('route', view),` and `re_path(r'route', view),`, the extractor
reads every entry of the first kind once and none of the second (`extract_patterns`), whatever the
routes and views hold besides quotation marks and what ends a view.
-/

namespace RouteAtlas.Extract

open Scanner Route

variable {b : Option Char} {c' : Cursor} {r t v rest : Text}

/-! ### Texts behind blanks -/

theorem lastBlankOr_append {p : Char → Bool} (visible : ∃ x ∈ v, Text.isBlank x = false)
    (inside : ∀ x ∈ v, p x = true) (stop : Stops p rest) (b : Option Char) :
    ∃ b', lastBlankOr p ⟨b, ' ' :: (v ++ rest)⟩ = some (v.dropWhile Text.isBlank, ⟨b', rest⟩) := by
  obtain ⟨y, w, shown⟩ : ∃ y w, v.dropWhile Text.isBlank = y :: w := by
    refine List.exists_cons_of_ne_nil fun nothing => ?_
    obtain ⟨x, member, visible⟩ := visible
    rw [List.dropWhile_eq_nil_iff.mp nothing x member] at visible
    cases visible
  have first : Text.isBlank y = false := by
    have head := List.head?_dropWhile_not Text.isBlank v
    rw [shown] at head
    simpa using head
  have cut : v = v.takeWhile Text.isBlank ++ (y :: w) := by
    rw [← shown, List.takeWhile_append_dropWhile]
  have blank : ∀ x ∈ ' ' :: v.takeWhile Text.isBlank, Text.isBlank x = true :=
    List.forall_mem_cons.mpr ⟨by decide, List.all_eq_true.mp List.all_takeWhile⟩
  have inside' : ∀ x ∈ y :: w, p x = true := fun x member =>
    inside x (cut ▸ List.mem_append_right _ member)
  have whole : ' ' :: (v ++ rest) =
      (' ' :: v.takeWhile Text.isBlank) ++ ((y :: w) ++ rest) := by
    rw [List.cons_append, ← List.append_assoc, ← cut]
  have passed : blanks ⟨b, (' ' :: v.takeWhile Text.isBlank) ++ ((y :: w) ++ rest)⟩ =
      some (_, ⟨(' ' :: v.takeWhile Text.isBlank).getLast?.or b, (y :: w) ++ rest⟩) :=
    run_append blank (stops_cons.mpr first)
  refine ⟨(y :: w).getLast?.or ((' ' :: v.takeWhile Text.isBlank).getLast?.or b), ?_⟩
  rw [whole, shown, lastBlankOr, bind_of_some passed,
    bind_of_some (run_append inside' stop)]
  rfl

theorem reads_lastBlankOr (p : Char → Bool) : Reads (lastBlankOr p) := by
  unfold lastBlankOr
  refine reads_bind (reads_run _) fun skipped => reads_bind (reads_run p) fun body => ?_
  cases body with
  | nil =>
    cases (skipped.filter p).getLast? with
    | none =>
      intro c a c' found
      cases found
    | some x => exact reads_pure [x]
  | cons y w => exact reads_pure (y :: w)

/-! ### Entries -/

/-- A view: not blank, with no quotation mark and nothing that ends an argument. -/
structure View where
  text : Text
  visible : ∃ x ∈ text, Text.isBlank x = false
  unquoted : Unquoted text
  undivided : ',' ∉ text
  unclosed : ')' ∉ text

/-- The word stands in the text with no word character beside it. -/
def HoldsWord (word t : Text) : Prop :=
  ∃ u v, t = u ++ (word ++ v) ∧ (∀ x ∈ u.getLast?, Text.isWord x = false) ∧ Stops Text.isWord v

/-- A line of a list of URL patterns. -/
inductive PatternLine where
  | entry (route : Text) (view : View) (unquoted : Unquoted route)
  | expression (route : Text) (view : View) (unquoted : Unquoted route)
      (wordless : ¬ HoldsWord "path" route)

/-- The route without one slash at its end. -/
def withoutSlash (route : Text) : Text :=
  if route.getLast? = some '/' then route.dropLast else route

namespace PatternLine

def text : PatternLine → Text
  | entry route view _ => "    path('" ++ (route ++ ("', " ++ (view.text ++ "),")))
  | expression route view _ _ => "    re_path(r'" ++ (route ++ ("', " ++ (view.text ++ "),")))

/-- The routes that a line declares in a file. -/
def declarations (file : Text) : PatternLine → List Declaration
  | entry route view _ =>
    (["get", "post", "put", "patch", "delete"] : List Text).map fun method => {
      method
      path := '/' :: withoutSlash route
      source := file
      parameters := (converter.findAll route).eraseDups.map Parameter.inPath
      description := some ("View: " ++ Text.strip view.text)
      responses := Responses.ofTables }
  | expression .. => []

def found : PatternLine → List (Text × Text)
  | entry route view _ => [(route, view.text.dropWhile Text.isBlank)]
  | expression .. => []

end PatternLine

/-! ### Reading entries -/

theorem opens_patternEntry : Opens patternEntry 'p' :=
  opens_check_bind (opens_bind (opens_literal 'p' _))

theorem consumes_patternEntry : Consumes patternEntry :=
  consumes_of_reads_bind (reads_check _) fun _ =>
  consumes_bind (consumes_literal (by decide)) fun _ =>
  reads_bind (reads_run _) fun _ =>
  reads_bind (reads_literal _) fun _ =>
  reads_bind (reads_of_consumes consumes_argument) fun _ =>
  reads_bind (reads_run _) fun _ =>
  reads_bind (reads_literal _) fun _ =>
  reads_bind (reads_lastBlankOr _) fun _ => reads_pure _

theorem patternEntry_append {route : Text} (unquoted : Unquoted route) (view : View)
    (outside : ∀ x ∈ b, Text.isWord x = false) (t : Text) : ∃ b',
    patternEntry ⟨b, "path(" ++ '\'' :: (route ++ '\'' :: ',' :: ' ' :: (view.text ++ (")," ++ t)))⟩ =
      some ((route, view.text.dropWhile Text.isBlank), ⟨b', ")," ++ t⟩) := by
  have inside : ∀ x ∈ view.text, (x != ',' && x != ')') = true := by
    intro x member
    have comma : x ≠ ',' := fun e => view.undivided (e ▸ member)
    have bracket : x ≠ ')' := fun e => view.unclosed (e ▸ member)
    simp [comma, bracket]
  have stop : Stops (fun x => x != ',' && x != ')') (")," ++ t) := stops_cons.mpr (by decide)
  obtain ⟨b', last⟩ := lastBlankOr_append view.visible inside stop (some ',')
  refine ⟨b', ?_⟩
  unfold patternEntry
  refine (bind_of_some (boundary_word outside (x := 'p') (by decide) _)).trans ?_
  refine (bind_of_some (literal_append "path" _ _)).trans ?_
  refine (argument_parenthesized (x := '\'') (by decide) (by decide) unquoted _ _).trans ?_
  refine (bind_of_some (blanks_none (x := ',') (by decide) _ _)).trans ?_
  refine (bind_of_some (literal_append "," _ _)).trans ?_
  exact bind_of_some last

/-- What is read begins with the word `path`, and with a parenthesis before its first quotation mark. -/
theorem patternEntry_shape {e : Text × Text} (found : patternEntry ⟨b, r⟩ = some (e, c')) :
    (∀ x ∈ b, Text.isWord x = false) ∧ ∃ u y t, Parenthesis u ∧ isQuote y = true ∧
      r = ("path" ++ u) ++ y :: t := by
  obtain ⟨_, _, edge, entered⟩ := bind_eq_some.mp found
  obtain ⟨rfl, different⟩ := boundary_eq_some edge
  obtain ⟨_, word, first, called⟩ := bind_eq_some.mp entered
  obtain ⟨u, y, t, parenthesis, mark, text⟩ := parenthesis_of_argument called
  have whole : r = "path" ++ word.rest := (between_literal first).1
  rw [text] at whole
  constructor
  · intro x before
    subst whole
    have inside : Text.isWord 'p' = true := by decide
    rw [Option.mem_def.mp before] at different
    simpa [inside] using different
  · exact ⟨u, y, t, parenthesis, mark, whole.trans (List.append_assoc _ _ _).symm⟩

namespace PatternLine

theorem finds_entry {route : Text} (unquoted : Unquoted route) (view : View) (t : Text) : ∃ b',
    finds (piecesAt patternEntry ⟨b, (entry route view unquoted).text ++ t⟩) =
      (route, view.text.dropWhile Text.isBlank) :: finds (piecesAt patternEntry ⟨b', t⟩) := by
  have indent : Silent patternEntry "    " := silent_of_opens opens_patternEntry (by decide)
  have closing : Silent patternEntry ")," := silent_of_opens opens_patternEntry (by decide)
  have outside : ∀ x ∈ ("    " : Text).getLast?.or b, Text.isWord x = false := by
    rintro x ⟨⟩
    decide
  obtain ⟨b', read⟩ := patternEntry_append unquoted view outside t
  have whole : (entry route view unquoted).text ++ t = "    " ++
      ("path(" ++ '\'' :: (route ++ '\'' :: ',' :: ' ' :: (view.text ++ (")," ++ t)))) := by
    have opening : ("    path('" : Text) = "    " ++ ("path(" ++ ['\'']) := rfl
    have mark : ("', " : Text) = ['\'', ',', ' '] := rfl
    show ("    path('" ++ (route ++ ("', " ++ (view.text ++ "),")))) ++ t = _
    simp only [opening, mark, List.append_assoc, List.cons_append, List.nil_append]
  rw [whole, finds_silent indent, piecesAt_of_some consumes_patternEntry read]
  exact ⟨_, congrArg (_ :: ·) (finds_silent closing b' t)⟩

/-- A read in the route would take its opening parenthesis from the route, and so the word. -/
theorem patternEntry_route {route : Text} (unquoted : Unquoted route)
    (wordless : ¬ HoldsWord "path" route) (r : Text) : ∀ v w, route = v ++ w → w ≠ [] →
      patternEntry ⟨v.getLast?.or (some '\''), w ++ '\'' :: r⟩ = none := by
  rintro v w rfl nonempty
  refine eq_none_of_forall fun e c' found => wordless ?_
  obtain ⟨before, u, y, t, parenthesis, mark, same⟩ := patternEntry_shape found
  have bare : Unquoted ("path" ++ u) :=
    unquoted_append.mpr ⟨Text.forall_of_all (by decide), parenthesis.unquoted⟩
  obtain ⟨rfl, _⟩ := cut_at_first (unquoted_append.mp unquoted).2 bare (by decide) mark same
  refine ⟨v, u, rfl, ?_, ?_⟩
  · intro x last
    exact before x (by rw [Option.mem_def.mp last]; rfl)
  · obtain ⟨ws, ws', blank, _, rfl⟩ := parenthesis
    cases ws with
    | nil => exact stops_cons.mpr (by decide)
    | cons z ws => exact stops_cons.mpr (notWord_of_isBlank (blank z List.mem_cons_self))

theorem silent_view (view : View) : Silent patternEntry (view.text ++ [')']) := by
  have reaches (b : Option Char) (r : Text) (e : Text × Text) (c' : Cursor)
      (found : patternEntry ⟨b, r⟩ = some (e, c')) :
      ∃ u y t, ')' ∉ u ∧ isQuote y = true ∧ r = u ++ y :: t := by
    obtain ⟨_, u, y, t, parenthesis, mark, same⟩ := patternEntry_shape found
    exact ⟨"path" ++ u, y, t, List.not_mem_append (by decide)
      (parenthesis.notMem (by decide) (by decide)), mark, same⟩
  exact silent_concat reaches view.unquoted (by decide)

theorem finds_expression {route : Text} (unquoted : Unquoted route) (view : View)
    (wordless : ¬ HoldsWord "path" route) (t : Text) : ∃ b',
    finds (piecesAt patternEntry ⟨b, (expression route view unquoted wordless).text ++ t⟩) =
      finds (piecesAt patternEntry ⟨b', t⟩) := by
  have quiet {w : Text} (free : 'p' ∉ w) : Silent patternEntry w :=
    silent_of_opens opens_patternEntry free
  have closing : Silent patternEntry ("', " ++ ((view.text ++ [')']) ++ ",")) :=
    (quiet (by decide)).append ((silent_view view).append (quiet (by decide)))
  -- Behind the underscore no word begins.
  have inner (r : Text) : patternEntry ⟨some '_', 'p' :: r⟩ = none :=
    eq_none_of_forall fun e c' found => by
      have outside := (patternEntry_shape found).1 '_' rfl
      exact absurd outside (by decide)
  obtain ⟨r, tail⟩ : ∃ r, ("', " ++ ((view.text ++ [')']) ++ ",")) ++ t = '\'' :: r := ⟨_, rfl⟩
  have whole : (expression route view unquoted wordless).text ++ t =
      "    re_" ++ ('p' :: ("ath(r'" ++ (route ++ '\'' :: r))) := by
    have opening : ("    re_path(r'" : Text) = "    re_" ++ 'p' :: "ath(r'" := rfl
    have ending : ("),": Text) = [')'] ++ "," := rfl
    show ("    re_path(r'" ++ (route ++ ("', " ++ (view.text ++ "),")))) ++ t = _
    rw [← tail]
    simp only [opening, ending, List.append_assoc, List.cons_append]
  have last := finds_silent closing (route.getLast?.or (some '\'')) t
  rw [tail] at last
  have edge : ("    re_" : Text).getLast?.or b = some '_' := rfl
  rw [whole, finds_silent (quiet (by decide)), edge, piecesAt_of_none (inner _)]
  have opened := finds_silent (quiet (w := "ath(r'") (by decide)) (some 'p') (route ++ '\'' :: r)
  have passed := finds_skip (patternEntry_route unquoted wordless r)
  exact ⟨_, opened.trans (passed.trans last)⟩

theorem finds_line (l : PatternLine) (b : Option Char) (t : Text) : ∃ b',
    finds (piecesAt patternEntry ⟨b, l.text ++ t⟩) =
      l.found ++ finds (piecesAt patternEntry ⟨b', t⟩) := by
  cases l with
  | entry route view unquoted => exact finds_entry unquoted view t
  | expression route view unquoted wordless => exact finds_expression unquoted view wordless t

end PatternLine

/-! ### From entries to declarations -/

theorem withoutSlash_eq (route : Text) :
    (Text.before? "/" route).getD route = withoutSlash route := by
  unfold withoutSlash
  split
  · rename_i last
    obtain ⟨body, rfl⟩ := List.getLast?_eq_some_iff.mp last
    have cut : Text.before? "/" (body ++ ['/']) = some body := Text.before?_eq_some_iff.mpr rfl
    rw [cut, List.dropLast_concat]
    rfl
  · rename_i other
    have absent : Text.before? "/" route = none := by
      refine Text.before?_eq_none_iff.mpr ?_
      rintro ⟨body, rfl⟩
      exact other List.getLast?_concat
    rw [absent]
    rfl

theorem slashless_of_converted {w n : Text} (h : Converted w n) : w ≠ [] ∧ '/' ∉ w := by
  have named (n : Identifier) : '/' ∉ n.text ++ ['>'] :=
    List.not_mem_append (n.notMem (by decide)) (by decide)
  cases h with
  | bare n => exact ⟨List.cons_ne_nil _ _, List.not_mem_cons_of_ne_of_not_mem (by decide) (named n)⟩
  | typed known n =>
    have typeless : ∀ t ∈ (["str", "int", "slug", "uuid", "path"] : List Text), '/' ∉ t := by decide
    refine ⟨List.cons_ne_nil _ _, List.not_mem_cons_of_ne_of_not_mem (by decide) ?_⟩
    exact List.not_mem_append (typeless _ known)
      (List.not_mem_cons_of_ne_of_not_mem (by decide) (named n))

/-- The slash in front and the one that is dropped belong to no converter. -/
theorem converter_path (route : Text) :
    converter.findAll ('/' :: withoutSlash route) = converter.findAll route := by
  refine (findAll_slash (s := converter) (opens_angled _) (by decide) (fun _ => rfl) _).trans ?_
  unfold withoutSlash
  split
  · rename_i last
    obtain ⟨body, rfl⟩ := List.getLast?_eq_some_iff.mp last
    rw [List.dropLast_concat]
    have names := (namesOf_iff readsWritten_converter).mpr (Eq.refl (converter.findAll body))
    have longer := names.concat (x := '/') fun w n => slashless_of_converted
    exact ((namesOf_iff readsWritten_converter).mp longer).symm
  · rfl

theorem ofPatternEntry_found (file : Text) (l : PatternLine) :
    l.found.flatMap (ofPatternEntry file) = l.declarations file := by
  cases l with
  | expression => rfl
  | entry route view unquoted =>
    have shown : Text.strip view.text ≠ [] := strip_ne_nil view.visible
    simp only [PatternLine.found, PatternLine.declarations, List.flatMap_singleton, ofPatternEntry,
      withoutSlash_eq, strip_dropWhile, if_neg shown, allInPath_eq, converter_path]
    rfl

theorem extract_of_found {file t : Text} {lines : List PatternLine}
    (h : patternEntry.findAll t = lines.flatMap PatternLine.found) :
    urlPatterns.extract file t = lines.flatMap (·.declarations file) := by
  show (patternEntry.findAll t).flatMap (ofPatternEntry file) = _
  rw [h, List.flatMap_assoc]
  exact List.flatMap_congr fun l _ => ofPatternEntry_found file l

/-- What is read from lines of URL patterns, with a line break between them or behind each of them: five
routes for each entry, in the order of the entries. The names of the parameters are those that the
route itself writes as converters. -/
theorem extract_patterns (file : Text) (lines : List PatternLine) :
    urlPatterns.extract file (Text.join ['\n'] (lines.map PatternLine.text)) =
      lines.flatMap (·.declarations file) ∧
    urlPatterns.extract file (lines.flatMap fun l => l.text ++ ['\n']) =
      lines.flatMap (·.declarations file) ∧
    ∀ route names, NamesOf Converted route names ↔ converter.findAll route = names := by
  have line_break : Silent patternEntry ['\n'] := silent_of_opens opens_patternEntry (by decide)
  obtain ⟨joined, ended⟩ := findAll_lines line_break
    fun l (_ : l ∈ lines) b t _ => l.finds_line b t
  refine ⟨extract_of_found joined, extract_of_found ended, ?_⟩
  intro route names
  exact namesOf_iff readsWritten_converter

end RouteAtlas.Extract
