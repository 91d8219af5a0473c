import RouteAtlas.Proofs.Extract.Parameters
import RouteAtlas.Proofs.Scanner.Quoted

/-!
# Files of registering calls

In a file that is nothing but registering calls on `app` and `router`, `extract_calls` says that the
two extractors read every call once, as the call that it is, whatever the paths and the remaining
arguments hold besides quotation marks.
-/

namespace RouteAtlas.Extract

open Scanner Route

/-! ### Calls -/

/-- The object on which a route is registered. -/
inductive Receiver where
  | app
  | router
deriving DecidableEq

def Receiver.text : Receiver → Text
  | .app => "app"
  | .router => "router"

/-- A path is empty or starts with a slash or a star. -/
def IsPath (p : Text) : Prop := ∀ x ∈ p.head?, x = '/' ∨ x = '*'

/-- A registering call: whose method is called, the mark around its path, and what follows the
path up to the end of the statement. -/
structure Call where
  receiver : Receiver
  method : Text
  quote : Char
  path : Text
  rest : Text
  method_known : method ∈ (["get", "post", "put", "delete", "patch"] : List Text)
  quote_mark : isQuote quote = true
  path_unquoted : Unquoted path
  path_start : IsPath path
  rest_unquoted : Unquoted rest

namespace Call

variable (c : Call)

/-- `receiver.method(`. -/
def opening : Text := c.receiver.text ++ '.' :: (c.method ++ ['('])

/-- What follows the path: `, rest);` and the end of the line. -/
def closing : Text := ", " ++ (c.rest ++ ");\n")

def text : Text := c.opening ++ c.quote :: (c.path ++ c.quote :: c.closing)

/-- The route that the call declares in a file: parameters for the distinct names behind the colons of
its path, then for the other names read from the query, then for the body. -/
def declaration (anchor : Anchor) (file text : Text) : Declaration where
  method := c.method
  path := c.path
  source := file
  parameters :=
    (colon.findAll c.path).eraseDups.map Parameter.inPath ++
      ((queryRead.findAll text).filter (· ∉ colon.findAll c.path)).eraseDups.map
        (Parameter.inQuery ·) ++
      if c.method ∈ (["post", "put", "patch"] : List Text) ∧ ("req.body" : Text) <:+: text then
        [.body]
      else []
  anchor
  summary := some (Text.upper c.method ++ ' ' :: if c.path = [] then "/" else c.path)
  responses := Responses.ofRouters

theorem unquoted_closing : Unquoted c.closing :=
  unquoted_append.mpr ⟨Text.forall_of_all (by decide),
    unquoted_append.mpr ⟨c.rest_unquoted, Text.forall_of_all (by decide)⟩⟩

theorem getLast?_closing (b : Option Char) : c.closing.getLast?.or b = some '\n' := by
  rw [closing, getLast?_append_or, getLast?_append_or]
  rfl

end Call

theorem method_characters {method : Text} (known : method ∈ methods) :
    ∀ x ∈ method, isQuote x = false ∧ x ≠ '.' ∧ x ≠ '(' ∧ Text.isBlank x = false := by
  have all : (methods.all fun m => m.all fun x =>
      decide (isQuote x = false ∧ x ≠ '.' ∧ x ≠ '(' ∧ Text.isBlank x = false)) = true := by
    decide
  exact Text.forall_of_all (List.all_eq_true.mp all method known)

theorem unquoted_receiver (r : Receiver) : Unquoted r.text := by
  cases r <;> exact Text.forall_of_all (by decide)

/-- Neither receiver's name ends in the other's. -/
theorem receiver_of_suffix {r r' : Receiver} {lead : Text} (h : r.text <:+ lead ++ r'.text) :
    r' = r := by
  have own : r'.text <:+ lead ++ r'.text := List.suffix_append lead r'.text
  have either : r.text <:+ r'.text ∨ r'.text <:+ r.text := List.suffix_or_suffix_of_suffix h own
  revert either
  cases r <;> cases r' <;> decide

/-! ### What a call is read by -/

/-- `.method(`, with blanks around the bracket. -/
def Accesses (method u : Text) : Prop :=
  ∃ ws ws', (∀ x ∈ ws, Text.isBlank x = true) ∧ (∀ x ∈ ws', Text.isBlank x = true) ∧
    u = '.' :: (method ++ (ws ++ '(' :: ws'))

/-- The name that stands in front of `.method(`: one receiver's, or none where any may stand there. -/
def receiverName (only : Option Receiver) : Text := only.elim [] Receiver.text

/-- The scanner reads the paths of the calls of a method, on one receiver or on any. -/
structure ReadsCalls (s : Scanner Text) (only : Option Receiver) (method : Text) : Prop where
  consumes : Consumes s
  shape : ∀ {b r p c'}, s ⟨b, r⟩ = some (p, c') → ∃ u x y, Accesses method u ∧
    isQuote x = true ∧ isQuote y = true ∧ Unquoted p ∧ IsPath p ∧
      r = receiverName only ++ (u ++ x :: (p ++ y :: c'.rest))
  reads : ∀ {b x p} (rest : Text), (only = none ∨ ∀ y ∈ b, Text.isWord y = false) →
    isQuote x = true → Unquoted p → IsPath p →
      s ⟨b, receiverName only ++ '.' :: (method ++ '(' :: x :: (p ++ x :: rest))⟩ =
        some (p, ⟨some x, rest⟩)

theorem pathArgument_eq_some {c c' : Cursor} {p : Text} :
    pathArgument c = some (p, c') ↔ IsPath p ∧ argument c = some (p, c') := by
  rw [pathArgument, bind_eq_some]
  constructor
  · rintro ⟨q, mid, read, given⟩
    cases q with
    | nil =>
      obtain ⟨rfl, rfl⟩ := Prod.mk.inj (Option.some.inj given)
      exact ⟨fun x first => (Option.not_mem_none x first).elim, read⟩
    | cons y q =>
      dsimp only at given
      split at given
      · rename_i start
        obtain ⟨rfl, rfl⟩ := Prod.mk.inj (Option.some.inj given)
        exact ⟨fun x first => Option.some.inj first ▸ start, read⟩
      · cases given
  · rintro ⟨start, read⟩
    refine ⟨p, c', read, ?_⟩
    cases p with
    | nil => rfl
    | cons y q =>
      dsimp only
      rw [if_pos (start y rfl)]
      rfl

theorem methodCall_shape {b : Option Char} {method r p : Text} {c' : Cursor}
    (found : methodCall method ⟨b, r⟩ = some (p, c')) : ∃ u x y, Accesses method u ∧
      isQuote x = true ∧ isQuote y = true ∧ Unquoted p ∧ IsPath p ∧
        r = u ++ x :: (p ++ y :: c'.rest) := by
  obtain ⟨_, named, first, found⟩ := bind_eq_some.mp found
  obtain ⟨ws, blank, second, found⟩ := bind_eq_some.mp found
  obtain ⟨_, opened, third, found⟩ := bind_eq_some.mp found
  obtain ⟨start, found⟩ := pathArgument_eq_some.mp found
  obtain ⟨ws', x, y, blanks', opens, closes, free, text₄⟩ := argument_shape found
  obtain ⟨blanks, _, text₂⟩ := run_eq_some second
  have text₁ : r = _ := (between_literal first).1
  refine ⟨_, x, y, ⟨ws, ws', blanks, blanks', rfl⟩, opens, closes, free, start, ?_⟩
  rw [text₁, text₂, (between_literal third).1, text₄]
  simp

theorem methodCall_append {b : Option Char} {method p : Text} {x : Char} (rest : Text)
    (opens : isQuote x = true) (free : Unquoted p) (start : IsPath p) :
    methodCall method ⟨b, '.' :: (method ++ '(' :: x :: (p ++ x :: rest))⟩ =
      some (p, ⟨some x, rest⟩) := by
  have named : literal ('.' :: method) ⟨b, '.' :: (method ++ '(' :: x :: (p ++ x :: rest))⟩ =
      some ((), ⟨method.getLast?.or (some '.'), '(' :: x :: (p ++ x :: rest)⟩) :=
    literal_eq_some.mpr ⟨_, rfl, by rw [Cursor.past, getLast?_cons_or]⟩
  refine bind_eq_some.mpr ⟨_, _, named, bind_eq_some.mpr ⟨_, _, blanks_none (by decide) _ _,
    bind_eq_some.mpr ⟨(), ⟨some '(', x :: (p ++ x :: rest)⟩, ?_, ?_⟩⟩⟩
  · exact literal_eq_some.mpr ⟨_, rfl, rfl⟩
  · exact pathArgument_eq_some.mpr ⟨start,
      argument_append opens opens free _ rest⟩

theorem consumes_methodCall (method : Text) : Consumes (methodCall method) := by
  have path : Reads pathArgument := fun c p c' found =>
    reads_of_consumes consumes_argument c p c' (pathArgument_eq_some.mp found).2
  exact consumes_bind (consumes_literal (List.cons_ne_nil '.' method)) fun _ =>
    reads_bind (reads_run _) fun _ => reads_bind (reads_literal _) fun _ => path

theorem readsCalls_methodCall (method : Text) : ReadsCalls (methodCall method) none method where
  consumes := consumes_methodCall method
  shape := methodCall_shape
  reads rest _ := methodCall_append rest

theorem readsCalls_appCall (method : Text) : ReadsCalls (appCall method) (some .app) method where
  consumes := consumes_of_reads_bind (reads_check _) fun _ =>
    consumes_bind (consumes_literal (by decide)) fun _ =>
      reads_of_consumes (consumes_methodCall method)
  shape := by
    intro b r p c' found
    obtain ⟨_, mid, first, found⟩ := bind_eq_some.mp found
    obtain ⟨_, ⟨b', r'⟩, second, found⟩ := bind_eq_some.mp found
    obtain ⟨u, x, y, access, opens, closes, free, start, text⟩ := methodCall_shape found
    refine ⟨u, x, y, access, opens, closes, free, start, ?_⟩
    rw [boundary, check] at first
    split at first
    · obtain ⟨_, rfl⟩ := Prod.mk.inj (Option.some.inj first)
      have text' : r = _ := (between_literal second).1
      rw [text', ← text]
      rfl
    · cases first
  reads := by
    intro b x p rest edge opens free start
    have outside : ∀ y ∈ b, Text.isWord y = false := by
      rcases edge with none | edge
      · cases none
      · exact edge
    refine bind_eq_some.mpr ⟨(), _, boundary_word outside (by decide) _,
      bind_eq_some.mpr ⟨(), ⟨some 'p', _⟩, ?_, methodCall_append rest opens free start⟩⟩
    exact literal_eq_some.mpr ⟨_, rfl, rfl⟩

/-! ### Where calls are read -/

section

variable {s : Scanner Text} {only : Option Receiver} {method : Text} {b : Option Char}
  {w v front body p : Text} {x : Char} {c' : Cursor}

theorem unquoted_access (known : method ∈ methods) (only : Option Receiver) {u : Text}
    (access : Accesses method u) : Unquoted (receiverName only ++ u) := by
  obtain ⟨ws, ws', blanks, blanks', rfl⟩ := access
  refine unquoted_append.mpr ⟨?_, unquoted_cons.mpr ⟨by decide, unquoted_append.mpr
    ⟨fun y member => (method_characters known y member).1, unquoted_append.mpr
      ⟨unquoted_blanks blanks, unquoted_cons.mpr ⟨by decide, unquoted_blanks blanks'⟩⟩⟩⟩⟩
  cases only with
  | none => exact unquoted_nil
  | some r => exact unquoted_receiver r

/-- What is read begins with an access that ends at the first quotation mark. -/
theorem read_shape (reads : ReadsCalls s only method) (known : method ∈ methods)
    (free : Unquoted w) (mark : isQuote x = true)
    (found : s ⟨b, w ++ x :: body⟩ = some (p, c')) :
    ∃ u y, Accesses method u ∧ w = receiverName only ++ u ∧ isQuote y = true ∧ IsPath p ∧
      body = p ++ y :: c'.rest := by
  obtain ⟨u, x', y, access, mark', closes, _, start, text⟩ := reads.shape found
  rw [← List.append_assoc] at text
  obtain ⟨front, _, rest⟩ := cut_at_first free (unquoted_access known only access) mark mark' text
  exact ⟨u, y, access, front, closes, start, rest⟩

theorem fails_unquoted (reads : ReadsCalls s only method) (free : Unquoted w) :
    s ⟨b, w⟩ = none := eq_none_of_forall fun p c' found => by
  obtain ⟨u, x, y, _, mark, _, _, _, text⟩ := reads.shape found
  have inside : x ∈ w := by simp [text]
  rw [free x inside] at mark
  cases mark

theorem fails_at_quote (reads : ReadsCalls s only method) (known : method ∈ methods)
    (mark : isQuote x = true) : s ⟨b, x :: body⟩ = none := eq_none_of_forall fun p c' found => by
  obtain ⟨_, _, ⟨_, _, _, _, rfl⟩, empty, _⟩ := read_shape reads known unquoted_nil mark found
  simp at empty

/-- No path starts with the comma behind a closing mark. -/
theorem fails_before_comma (reads : ReadsCalls s only method) (known : method ∈ methods)
    (free : Unquoted w) (mark : isQuote x = true) : s ⟨b, w ++ x :: ',' :: body⟩ = none :=
  eq_none_of_forall fun p c' found => by
    obtain ⟨_, y, _, _, closes, start, text⟩ := read_shape reads known free mark found
    cases p with
    | nil =>
      obtain ⟨rfl, _⟩ := List.cons.inj text
      exact absurd closes (by decide)
    | cons z p =>
      obtain ⟨rfl, _⟩ := List.cons.inj text
      exact absurd (start ',' rfl) (by decide)

/-- The method ends at the bracket, since no blank belongs to it. -/
theorem method_eq_of_access {method' ws ws' : Text} (known : method ∈ methods)
    (known' : method' ∈ methods) (blanks : ∀ x ∈ ws, Text.isBlank x = true)
    (same : method' ++ ['('] = method ++ (ws ++ '(' :: ws')) : method' = method := by
  have other {t : Text} (outside : '(' ∉ t) : ∀ y ∈ t, (y == '(') = false :=
    fun y member => beq_eq_false_iff_ne.mpr fun e => outside (e ▸ member)
  have unbracketed {m : Text} (known : m ∈ methods) : '(' ∉ m :=
    fun h => (method_characters known '(' h).2.2.1 rfl
  have front : '(' ∉ method ++ ws :=
    List.not_mem_append (unbracketed known) (notMem_blanks blanks (by decide))
  rw [← List.append_assoc] at same
  obtain ⟨whole, _⟩ := cut_at_first (other (unbracketed known')) (other front)
    (beq_self_eq_true '(') (beq_self_eq_true '(') same
  cases ws with
  | nil => rw [whole, List.append_nil]
  | cons y ws =>
    have inside : y ∈ method' := whole ▸ List.mem_append_right method List.mem_cons_self
    have blank := blanks y List.mem_cons_self
    rw [(method_characters known' y inside).2.2.2] at blank
    cases blank

/-- What is read before the path of a call is the end of that call's own opening. -/
theorem opening_of_read (reads : ReadsCalls s only method) (known : method ∈ methods) (c : Call)
    (whole : front ++ '.' :: (c.method ++ ['(']) = v ++ w) (free : Unquoted w)
    (mark : isQuote x = true) (found : s ⟨b, w ++ x :: body⟩ = some (p, c')) :
    front = v ++ receiverName only ∧ c.method = method := by
  obtain ⟨_, _, ⟨ws, ws', blanks, blanks', rfl⟩, rfl, _⟩ := read_shape reads known free mark found
  have undotted {m : Text} (known : m ∈ methods) : '.' ∉ m :=
    fun h => (method_characters known '.' h).2.1 rfl
  have unblank {t : Text} (blanks : ∀ x ∈ t, Text.isBlank x = true) : '.' ∉ t :=
    notMem_blanks blanks (by decide)
  have free : '.' ∉ c.method ++ ['('] :=
    List.not_mem_append (undotted c.method_known) (by decide)
  have free' : '.' ∉ method ++ (ws ++ '(' :: ws') :=
    List.not_mem_append (undotted known) (List.not_mem_append (unblank blanks)
      (List.not_mem_cons_of_ne_of_not_mem (by decide) (unblank blanks')))
  rw [← List.append_assoc] at whole
  obtain ⟨before, after⟩ := cut_at_last free free' whole
  exact ⟨before, method_eq_of_access known c.method_known blanks after⟩

/-! ### A file of calls -/

/-- A call is chosen by a method and perhaps by a receiver. -/
def Call.Chosen (c : Call) (only : Option Receiver) (method : Text) : Prop :=
  c.method = method ∧ ∀ r ∈ only, c.receiver = r

theorem chosen_of_read (reads : ReadsCalls s only method) (known : method ∈ methods) (c : Call)
    {lead : Text} (whole : lead ++ c.opening = v ++ w) (free : Unquoted w)
    (mark : isQuote x = true) (found : s ⟨b, w ++ x :: body⟩ = some (p, c')) :
    c.Chosen only method ∧ lead ++ c.receiver.text = v ++ receiverName only := by
  rw [Call.opening, ← List.append_assoc] at whole
  obtain ⟨front, same⟩ := opening_of_read reads known c whole free mark found
  refine ⟨⟨same, ?_⟩, front⟩
  rintro r rfl
  exact receiver_of_suffix (front ▸ List.suffix_append v r.text)

theorem unquoted_opening (c : Call) : Unquoted c.opening :=
  unquoted_append.mpr ⟨unquoted_receiver c.receiver, unquoted_cons.mpr ⟨by decide,
    unquoted_append.mpr ⟨fun x inside => (method_characters c.method_known x inside).1,
      Text.forall_of_all (by decide)⟩⟩⟩

/-- A chosen call is found, and nothing before it. -/
theorem finds_chosen (reads : ReadsCalls s only method) (known : method ∈ methods) (c : Call)
    (chosen : c.Chosen only method) {lead : Text} (free : Unquoted lead)
    (edge : ∀ y ∈ lead.getLast?.or b, Text.isWord y = false) (tail : Text) :
    finds (piecesAt s ⟨b, lead ++ (c.text ++ tail)⟩) =
      c.path :: finds (piecesAt s ⟨some c.quote, c.closing ++ tail⟩) := by
  obtain ⟨rfl, receiver⟩ := chosen
  obtain ⟨before, split, outside⟩ : ∃ before : Text,
      c.receiver.text = before ++ receiverName only ∧
        (only = none ∨ ∀ y ∈ (lead ++ before).getLast?.or b, Text.isWord y = false) := by
    cases only with
    | none => exact ⟨c.receiver.text, (List.append_nil _).symm, .inl rfl⟩
    | some r =>
      obtain rfl := receiver r rfl
      exact ⟨[], rfl, .inr (by rwa [List.append_nil])⟩
  have text : lead ++ (c.text ++ tail) = (lead ++ before) ++ (receiverName only ++
      '.' :: (c.method ++ '(' :: c.quote :: (c.path ++ c.quote :: (c.closing ++ tail)))) := by
    simp [Call.text, Call.opening, split]
  have read := reads.reads (c.closing ++ tail) outside c.quote_mark c.path_unquoted c.path_start
  rw [text, finds_skip, piecesAt_of_some reads.consumes read]
  · rfl
  · -- What is read earlier would end in the same opening.
    intro v w stretch nonempty
    have whole : lead ++ c.opening =
        v ++ (w ++ (receiverName only ++ '.' :: (c.method ++ ['(']))) := by
      rw [Call.opening, split, ← List.append_assoc v, ← stretch]
      simp
    have rest : w ++ (receiverName only ++
        '.' :: (c.method ++ '(' :: c.quote :: (c.path ++ c.quote :: (c.closing ++ tail)))) =
        (w ++ (receiverName only ++ '.' :: (c.method ++ ['(']))) ++
          c.quote :: (c.path ++ c.quote :: (c.closing ++ tail)) := by
      simp
    have unquoted := unquoted_append.mpr ⟨free, unquoted_opening c⟩
    rw [whole] at unquoted
    refine eq_none_of_forall fun p c' found => nonempty ?_
    rw [rest] at found
    obtain ⟨_, same⟩ :=
      chosen_of_read reads known c whole (unquoted_append.mp unquoted).2 c.quote_mark found
    rw [split, ← List.append_assoc] at same
    have empty : v ++ w = v ++ [] := by
      rw [← stretch, List.append_nil, List.append_cancel_right same]
    exact List.append_cancel_left empty

/-- A call that is not chosen is passed over. -/
theorem finds_other (reads : ReadsCalls s only method) (known : method ∈ methods) (c : Call)
    (other : ¬c.Chosen only method) {lead : Text} (free : Unquoted lead) (tail : Text) :
    finds (piecesAt s ⟨b, lead ++ (c.text ++ tail)⟩) =
      finds (piecesAt s ⟨some c.quote, c.closing ++ tail⟩) := by
  have text : lead ++ (c.text ++ tail) = (lead ++ c.opening) ++
      ((c.quote :: c.path) ++ (c.quote :: (c.closing ++ tail))) := by
    simp [Call.text]
  rw [text, finds_skip, finds_skip, piecesAt_of_none (fails_at_quote reads known c.quote_mark)]
  · rfl
  · -- From the path on, nothing is read up to its closing mark.
    intro v w stretch nonempty
    cases v with
    | nil =>
      obtain rfl : c.quote :: c.path = w := stretch
      exact fails_at_quote reads known c.quote_mark
    | cons y v =>
      have path : c.path = v ++ w := (List.cons.inj stretch).2
      have unquoted := c.path_unquoted
      rw [path] at unquoted
      exact fails_before_comma reads known (unquoted_append.mp unquoted).2 c.quote_mark
  · -- A read in the opening would choose the call.
    intro v w stretch nonempty
    have unquoted := unquoted_append.mpr ⟨free, unquoted_opening c⟩
    rw [stretch] at unquoted
    exact eq_none_of_forall fun p c' found => other
      (chosen_of_read reads known c stretch (unquoted_append.mp unquoted).2 c.quote_mark found).1

instance (c : Call) (only : Option Receiver) (method : Text) :
    Decidable (c.Chosen only method) := inferInstanceAs (Decidable (_ ∧ _))

/-- In a file of calls the chosen ones are found, in their order. -/
theorem finds_calls (reads : ReadsCalls s only method) (known : method ∈ methods)
    (calls : List Call) (lead : Text) (free : Unquoted lead)
    (edge : ∀ y ∈ lead.getLast?.or b, Text.isWord y = false) :
    finds (piecesAt s ⟨b, lead ++ calls.flatMap Call.text⟩) =
      (calls.filter (·.Chosen only method)).map Call.path := by
  induction calls generalizing lead b with
  | nil =>
    rw [List.flatMap_nil, finds_skip]
    · rfl
    · intro v w stretch _
      rw [stretch] at free
      rw [List.append_nil]
      exact fails_unquoted reads (unquoted_append.mp free).2
  | cons c calls ih =>
    have edge' : ∀ y ∈ c.closing.getLast?.or (some c.quote), Text.isWord y = false := by
      rw [c.getLast?_closing]
      rintro y ⟨⟩
      decide
    have later := ih (b := some c.quote) c.closing c.unquoted_closing edge'
    rw [List.flatMap_cons]
    by_cases chosen : c.Chosen only method
    · rw [finds_chosen reads known c chosen free edge, later, List.filter_cons_of_pos (by simpa),
        List.map_cons]
    · rw [finds_other reads known c chosen free, later, List.filter_cons_of_neg (by simpa)]

end

/-! ### Both extractors -/

theorem callParameters_call (c : Call) (anchor : Anchor) (file text : Text) :
    callParameters c.method c.path (queryRead.findAll text) (Text.holds "req.body" text) =
      (c.declaration anchor file text).parameters := by
  rw [callParameters_eq]
  simp only [Text.holds_iff]
  rfl

theorem callsWith_calls {call : Text → Scanner Text} {only : Option Receiver}
    (reads : ∀ method, ReadsCalls (call method) only method) (anchor : Anchor) (file : Text)
    (calls : List Call) :
    callsWith call anchor file (calls.flatMap Call.text) = methods.flatMap fun method =>
      (calls.filter (·.Chosen only method)).map
        (·.declaration anchor file (calls.flatMap Call.text)) := by
  refine List.flatMap_congr fun method known => ?_
  have found : (call method).findAll (calls.flatMap Call.text) =
      (calls.filter (·.Chosen only method)).map Call.path :=
    finds_calls (reads method) known calls [] unquoted_nil (by simp)
  rw [found, List.map_map]
  refine List.map_congr_left fun c member => ?_
  obtain ⟨rfl, _⟩ : c.Chosen only method := by simpa using (List.mem_filter.mp member).2
  have parameters := callParameters_call c anchor file (calls.flatMap Call.text)
  dsimp only [Function.comp]
  rw [parameters]
  rfl

/-- What the two extractors read from a file of calls: the declarations of all calls, or of those on
`app`, method by method and then in the order of the text. The names are those behind `req.query.`
in the file and behind a colon of the path, where no word character and no opening brace stands before
the colon. -/
theorem extract_calls (file : Text) (calls : List Call) :
    let text := calls.flatMap Call.text
    let verbs : List Text := ["get", "post", "put", "delete", "patch"]
    routerCalls.extract file text = verbs.flatMap (fun verb =>
      (calls.filter (·.method = verb)).map (·.declaration .router file text)) ∧
    appCalls.extract file text = verbs.flatMap (fun verb =>
      (calls.filter fun c => c.method = verb ∧ c.receiver = .app).map
        (·.declaration .absolute file text)) ∧
    Named "req.query." (fun _ => True) none text (queryRead.findAll text) ∧
    ∀ c ∈ calls, Named ":" (fun b => ∀ x ∈ b, Text.isWord x = false ∧ x ≠ '{') none c.path
      (colon.findAll c.path) := by
  refine ⟨?_, ?_, named_finds readsNamed_queryRead _ _,
    fun c _ => named_finds readsNamed_colon _ _⟩
  · refine (callsWith_calls readsCalls_methodCall .router file calls).trans ?_
    simp [Call.Chosen, methods]
  · refine (callsWith_calls readsCalls_appCall .absolute file calls).trans ?_
    simp [Call.Chosen, methods]

end RouteAtlas.Extract
