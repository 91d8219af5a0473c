import Mathlib.Data.List.Forall2
import RouteAtlas.Extract.Handlers
import RouteAtlas.Proofs.Extract.Names
import RouteAtlas.Proofs.Scanner.Silence

/-!
# Files of exported functions

A file that is a sequence of exported functions has one route for each request method that is the
name of a function, in letters of any case. `exported_function` reads the head of one function;
`finds_functions` goes through a file, in which nothing else is read as an export.
-/

namespace RouteAtlas.Extract

open Scanner Route

variable {b : Option Char} {c c' : Cursor} {word w t rest method : Text} {x letter : Char}
  {u : Unit}

/-! ### Letters of any case -/

def Spelled (word w : Text) : Prop :=
  List.Forall₂ (fun letter c => sameLetter letter c = true) word w

theorem sameLetter_lower (h : Text.lowerChar x = [letter]) : sameLetter letter x = true := by
  simp [sameLetter, h]

theorem spelled_self (word : Text) : Spelled word word :=
  List.forall₂_same.mpr fun _ _ => by simp [sameLetter]

theorem Spelled.exists_letter (h : Spelled word w) (member : x ∈ w) :
    ∃ letter ∈ word, sameLetter letter x = true := by
  induction h with
  | nil => cases member
  | cons same _ ih =>
    rcases List.mem_cons.mp member with rfl | member
    · exact ⟨_, List.mem_cons_self, same⟩
    · obtain ⟨letter, known, same⟩ := ih member
      exact ⟨letter, List.mem_cons_of_mem _ known, same⟩

theorem Spelled.notMem (h : Spelled word w) (other : ∀ l ∈ word, sameLetter l x = false) :
    x ∉ w := by
  intro member
  obtain ⟨letter, known, same⟩ := h.exists_letter member
  rw [other letter known] at same
  cases same

theorem anyCase_append (h : Spelled word w) (b : Option Char) (rest : Text) :
    anyCase word ⟨b, w ++ rest⟩ = some ((), ⟨w.getLast?.or b, rest⟩) := by
  induction h generalizing b with
  | nil => rfl
  | @cons letter x word w same _ ih =>
    have first : one (sameLetter letter) ⟨b, x :: (w ++ rest)⟩ = some (x, ⟨some x, w ++ rest⟩) := by
      rw [one_cons, if_pos same]
    rw [anyCase, List.cons_append, bind_of_some first, ih, getLast?_cons_or]

theorem spelled_of_anyCase (found : anyCase word c = some (u, c')) :
    ∃ w, Spelled word w ∧ Between c w c' := by
  induction word generalizing c with
  | nil =>
    obtain ⟨_, rfl⟩ := Prod.mk.inj (Option.some.inj found)
    exact ⟨[], .nil, between_refl c⟩
  | cons letter word ih =>
    obtain ⟨x, mid, first, found⟩ := bind_eq_some.mp found
    obtain ⟨w, spelled, between⟩ := ih found
    exact ⟨x :: w, .cons (one_eq_some first).1 spelled, between_trans (between_one first) between⟩

theorem reads_anyCase (word : Text) : Reads (anyCase word) := fun _ _ _ found => by
  obtain ⟨w, _, between⟩ := spelled_of_anyCase found
  exact ⟨w, between⟩

/-- Apart from ASCII only `s` and `i` have further forms. -/
theorem lowerChar_of_sameLetter (low : Text.lowerChar letter = [letter])
    (same : sameLetter letter x = true) :
    Text.lowerChar x = [letter] ∨ (letter = 's' ∨ letter = 'i') ∧ 128 ≤ x.toNat := by
  simp only [sameLetter, Bool.or_eq_true, Bool.and_eq_true, beq_iff_eq] at same
  rcases same with ((rfl | same) | ⟨rfl, rfl⟩) | ⟨rfl, rfl | rfl⟩
  · exact .inl low
  · exact .inl same
  · exact .inr ⟨.inl rfl, by decide⟩
  · exact .inr ⟨.inr rfl, by decide⟩
  · exact .inr ⟨.inr rfl, by decide⟩

theorem spelled_lower (ascii : ∀ x ∈ w, x.toNat < 128) : Spelled (Text.lower w) w := by
  rw [Text.lower_ascii ascii]
  induction w with
  | nil => exact .nil
  | cons x w ih =>
    obtain ⟨first, more⟩ := List.forall_mem_cons.mp ascii
    obtain ⟨letter, low⟩ : ∃ letter, Text.lowerChar x = [letter] := ⟨_, if_pos first⟩
    rw [List.flatMap_cons, low]
    exact .cons (sameLetter_lower low) (ih more)

theorem lower_of_spelled (h : Spelled word w) (low : ∀ l ∈ word, Text.lowerChar l = [l])
    (ascii : ∀ x ∈ w, x.toNat < 128) : Text.lower w = word := by
  rw [Text.lower_ascii ascii]
  induction h with
  | nil => rfl
  | @cons letter x word w same _ ih =>
    obtain ⟨low, more_low⟩ := List.forall_mem_cons.mp low
    obtain ⟨first, more⟩ := List.forall_mem_cons.mp ascii
    rw [List.flatMap_cons, ih more_low more]
    rcases lowerChar_of_sameLetter low same with here | ⟨_, high⟩
    · rw [here]
      rfl
    · omega

/-! ### Texts without exports -/

/-- The letters of `export`, in any case, stand nowhere in the text, not even in a longer word. -/
def Unexported (t : Text) : Prop := ¬ ("export" : Text) <:+: Text.lower t

theorem lowerGo_append (passed v t : Text) :
    ∃ front passed', Text.lowerGo passed (v ++ t) = front ++ Text.lowerGo passed' t := by
  induction v generalizing passed with
  | nil => exact ⟨[], passed, rfl⟩
  | cons x v ih =>
    obtain ⟨front, passed', later⟩ := ih (x :: passed)
    rw [List.cons_append, Text.lowerGo, later, ← List.append_assoc]
    exact ⟨_, passed', rfl⟩

theorem lowerGo_spelled (h : Spelled word w) (plain : ∀ l ∈ word,
      Text.lowerChar l = [l] ∧ l ≠ 's' ∧ l ≠ 'i' ∧ sameLetter l 'Σ' = false) (passed t : Text) :
    ∃ passed', Text.lowerGo passed (w ++ t) = word ++ Text.lowerGo passed' t := by
  induction h generalizing passed with
  | nil => exact ⟨passed, rfl⟩
  | @cons letter x word w same _ ih =>
    obtain ⟨⟨low, not_s, not_i, not_sigma⟩, more⟩ := List.forall_mem_cons.mp plain
    have other : x ≠ 'Σ' := by
      rintro rfl
      rw [not_sigma] at same
      cases same
    have here : Text.lowerChar x = [letter] :=
      (lowerChar_of_sameLetter low same).resolve_right fun ⟨special, _⟩ =>
        special.elim not_s not_i
    obtain ⟨passed', later⟩ := ih more (x :: passed)
    refine ⟨passed', ?_⟩
    rw [List.cons_append, Text.lowerGo, if_neg other, here, later]
    rfl

theorem Unexported.absent (free : Unexported t) (h : Spelled "export" w) : ¬ w <:+: t := by
  rintro ⟨v, r, rfl⟩
  apply free
  obtain ⟨front, passed, before⟩ := lowerGo_append [] v (w ++ r)
  obtain ⟨passed', here⟩ := lowerGo_spelled h (Text.forall_of_all (by decide +kernel)) passed r
  refine ⟨front, Text.lowerGo passed' r, ?_⟩
  rw [List.append_assoc v, Text.lower, before, here, List.append_assoc]

/-! ### Exports -/

theorem consumes_exported (method : Text) : Consumes (exported method) := by
  have word : Consumes (anyCase "export") :=
    consumes_bind (consumes_one _) fun _ => reads_anyCase "xport"
  have blank : Reads blanks1 := reads_of_consumes (consumes_run1 _)
  refine consumes_bind word fun _ => reads_bind blank fun _ => ?_
  refine reads_bind (reads_anyCase _) fun _ => reads_bind blank fun _ => ?_
  refine reads_bind (reads_anyCase _) fun _ => reads_bind blank fun _ => ?_
  exact reads_bind (reads_anyCase _) fun _ => reads_check _

theorem exported_shape (found : exported method c = some (u, c')) :
    ∃ w x r, Spelled "export" w ∧ Text.isBlank x = true ∧ c.rest = w ++ x :: r := by
  obtain ⟨_, mid, first, found⟩ := bind_eq_some.mp found
  obtain ⟨ws, mid', second, _⟩ := bind_eq_some.mp found
  obtain ⟨w, spelled, text, _⟩ := spelled_of_anyCase first
  obtain ⟨nonempty, blank, text'⟩ := run1_eq_some second
  obtain ⟨x, ws, rfl⟩ := List.exists_cons_of_ne_nil nonempty
  exact ⟨w, x, ws ++ mid'.rest, spelled, blank x List.mem_cons_self, by rw [text, text']; rfl⟩

theorem letters_methods :
    ∀ m ∈ methods, ∀ l ∈ m, Text.lowerChar l = [l] ∧ sameLetter l '(' = false :=
  Text.forall_forall_of_all (by decide)

theorem isWord_before (n : Identifier) (nonempty : w ≠ []) (front : w <+: n.text) :
    (w.getLast?.or b).any Text.isWord = true := by
  obtain ⟨w, y, rfl⟩ := (List.eq_nil_or_concat w).resolve_left nonempty
  have inside := n.inside y (front.subset (by simp))
  simpa using Text.isIdentifier_isWord inside

/-- A method is read off a name exactly if it is the whole name, in letters of any case. -/
theorem method_read (known : method ∈ methods) (n : Identifier) (b : Option Char) (rest : Text) :
    (anyCase method >>= fun _ => boundary) ⟨b, n.text ++ '(' :: rest⟩ =
      if Text.lower n.text = method then some ((), ⟨n.text.getLast?.or b, '(' :: rest⟩)
      else none := by
  have letters := letters_methods method known
  have ascii : ∀ x ∈ n.text, x.toNat < 128 :=
    fun x member => Text.toNat_lt_of_isIdentifier (n.inside x member)
  split
  · rename_i same
    have word : Spelled method n.text := same ▸ spelled_lower ascii
    have inside : (n.text.getLast?.or b).any Text.isWord = true :=
      isWord_before n n.text_ne_nil (List.prefix_refl _)
    have outside : Text.isWord '(' = false := by decide
    rw [bind_of_some (anyCase_append word b _)]
    simp [boundary, check, inside, outside]
  · -- The method would go on behind the name, which no letter does, or end within the name, where
    -- there is no boundary.
    rename_i other
    refine eq_none_of_forall fun u c' found => ?_
    obtain ⟨_, mid, first, second⟩ := bind_eq_some.mp found
    obtain ⟨w, spelled, text, before⟩ := spelled_of_anyCase first
    obtain ⟨rfl, edge⟩ := boundary_eq_some second
    have short : w ≠ n.text := by
      rintro rfl
      exact other (lower_of_spelled spelled (fun l member => (letters l member).1) ascii)
    rcases List.append_eq_append_iff.mp text with ⟨d, rfl, whole⟩ | ⟨d, name, behind⟩
    · cases d with
      | nil => exact short (List.append_nil _)
      | cons y d =>
        obtain ⟨rfl, _⟩ := List.cons.inj whole
        exact spelled.notMem (x := '(') (fun l member => (letters l member).2) (by simp)
    · cases d with
      | nil => exact short (name.trans (List.append_nil w)).symm
      | cons y d =>
        have started : w ≠ [] := by
          rintro rfl
          have absent : ([] : Text) ∉ methods := by decide
          exact absent (List.forall₂_nil_right_iff.mp spelled ▸ known)
        have word : Text.isWord y = true :=
          Text.isIdentifier_isWord (n.inside y (name ▸ by simp))
        rw [before, isWord_before n started ⟨y :: d, name.symm⟩, behind] at edge
        exact edge word.symm

/-! ### Stretches without exports -/

/-- The character goes on with the word `export`, in any case. -/
def continues (x : Char) : Bool := ("xport" : Text).any (sameLetter · x)

theorem Spelled.opens (h : Spelled "export" w) :
    ∃ x v, w = x :: v ∧ sameLetter 'e' x = true ∧ ∀ y ∈ v, continues y = true := by
  have word : ("export" : Text) = 'e' :: ("xport" : Text) := rfl
  rw [Spelled, word] at h
  obtain ⟨x, v, same, more, rfl⟩ := List.forall₂_cons_left_iff.mp h
  refine ⟨x, v, rfl, same, fun y member => List.any_eq_true.mpr ?_⟩
  exact Spelled.exists_letter more member

theorem silent_exported (other : ∀ x ∈ w, sameLetter 'e' x = false) :
    Silent (exported method) w := by
  intro v inner nonempty b rest
  refine eq_none_of_forall fun u c' found => ?_
  obtain ⟨word, _, _, spelled, _, text⟩ := exported_shape found
  obtain ⟨x, _, rfl, same, _⟩ := spelled.opens
  obtain ⟨y, v, rfl⟩ := List.exists_cons_of_ne_nil nonempty
  obtain ⟨rfl, _⟩ := List.cons.inj text
  rw [other y (inner.subset List.mem_cons_self)] at same
  cases same

/-- Behind a name stands no blank but a parenthesis. -/
theorem silent_name (n : Identifier) : Silent (exported method) (n.text ++ ['(']) := by
  have apart : ∀ l ∈ ("export" : Text), sameLetter l '(' = false :=
    Text.forall_of_all (by decide)
  have reaches (b : Option Char) (r : Text) (u : Unit) (c' : Cursor)
      (found : exported method ⟨b, r⟩ = some (u, c')) :
      ∃ w x t, '(' ∉ w ∧ Text.isBlank x = true ∧ r = w ++ x :: t := by
    obtain ⟨w, x, t, spelled, blank, text⟩ := exported_shape found
    exact ⟨w, x, t, spelled.notMem apart, blank, text⟩
  have unmarked : ∀ x ∈ n.text, Text.isBlank x = false := fun x member =>
    isBlank_of_isIdentifier (n.inside x member)
  exact silent_concat reaches unmarked (by decide)

/-- A text without exports is passed over where what follows it does not complete the word. -/
theorem finds_unexported (free : Unexported t) (stop : Stops continues rest) :
    finds (piecesAt (exported method) ⟨b, t ++ rest⟩) =
      finds (piecesAt (exported method) ⟨t.getLast?.or b, rest⟩) := by
  refine finds_skip fun v w whole nonempty => eq_none_of_forall fun u c' found => ?_
  obtain ⟨word, x, r, spelled, _, text⟩ := exported_shape found
  rcases List.append_eq_append_iff.mp text with ⟨d, rfl, behind⟩ | ⟨d, inner, _⟩
  · cases d with
    | nil =>
      rw [List.append_nil] at spelled
      exact free.absent spelled ⟨v, [], by rw [whole, List.append_nil]⟩
    | cons y d =>
      obtain ⟨z, tail, split, _, more⟩ := spelled.opens
      obtain ⟨z', w, rfl⟩ := List.exists_cons_of_ne_nil nonempty
      obtain ⟨_, rfl⟩ := List.cons.inj split
      have completes := more y (by simp)
      rw [stop y (by rw [behind]; rfl)] at completes
      cases completes
  · exact free.absent spelled ⟨v, d, by rw [whole, inner, List.append_assoc]⟩

/-! ### Files -/

/-- An exported function of a file, and what stands behind it. -/
structure ExportedFunction where
  name : Identifier
  args : Text
  body : Text
  gap : Text
  args_free : Unexported args
  body_free : Unexported body
  gap_free : Unexported gap

namespace ExportedFunction

def text (f : ExportedFunction) : Text :=
  "export async function " ++ (f.name.text ++ '(' :: (f.args ++ (") \x7b " ++
    (f.body ++ (" \x7d" ++ f.gap)))))

def written (fs : List ExportedFunction) : Text := fs.flatMap text

end ExportedFunction

theorem exported_function (known : method ∈ methods) (n : Identifier) (b : Option Char)
    (rest : Text) :
    exported method ⟨b, "export async function " ++ (n.text ++ '(' :: rest)⟩ =
      if Text.lower n.text = method then
        some ((), ⟨n.text.getLast?.or (some ' '), '(' :: rest⟩) else none := by
  have head (t : Text) : ("export async function " ++ t : Text) =
      "export" ++ ' ' :: ("async" ++ ' ' :: ("function" ++ ' ' :: t)) := rfl
  have name : Stops Text.isBlank (n.text ++ '(' :: rest) :=
    stops_cons.mpr (isBlank_of_isIdentifier (n.inside _ List.mem_cons_self))
  rw [head, exported]
  refine (bind_of_some (anyCase_append (spelled_self "export") b _)).trans ?_
  refine (bind_of_some (blanks1_space (stops_cons (x := 'a').mpr (by decide)) _)).trans ?_
  refine (bind_of_some (anyCase_append (spelled_self "async") _ _)).trans ?_
  refine (bind_of_some (blanks1_space (stops_cons (x := 'f').mpr (by decide)) _)).trans ?_
  refine (bind_of_some (anyCase_append (spelled_self "function") _ _)).trans ?_
  refine (bind_of_some (blanks1_space name _)).trans ?_
  exact method_read known n _ rest

/-- The head of a function is read as a whole, or it is passed over. -/
theorem finds_head (known : method ∈ methods) (n : Identifier) (b : Option Char) (t : Text) :
    ∃ b', finds (piecesAt (exported method)
        ⟨b, "export async function " ++ (n.text ++ '(' :: t)⟩) =
      (if Text.lower n.text = method then [()] else []) ++
        finds (piecesAt (exported method) ⟨b', t⟩) := by
  have read := exported_function known n b t
  by_cases same : Text.lower n.text = method
  · rw [if_pos same] at read ⊢
    have mark : Silent (exported method) ['('] :=
      silent_exported (Text.forall_of_all (by decide))
    have passed := finds_silent mark (n.text.getLast?.or (some ' ')) t
    refine ⟨(['('] : Text).getLast?.or (n.text.getLast?.or (some ' ')), ?_⟩
    rw [piecesAt_of_some (consumes_exported method) read, ← passed]
    rfl
  · rw [if_neg same] at read ⊢
    have split : ("export async function " ++ (n.text ++ '(' :: t) : Text) =
      'e' :: ("xport async function " ++ (n.text ++ '(' :: t)) := rfl
    have word : Silent (exported method) "xport async function " :=
      silent_exported (Text.forall_of_all (by decide))
    have name (b : Option Char) : finds (piecesAt (exported method) ⟨b, n.text ++ '(' :: t⟩) =
        finds (piecesAt (exported method) ⟨(n.text ++ ['(']).getLast?.or b, t⟩) := by
      rw [← finds_silent (silent_name n) b t, List.append_assoc n.text ['('] t,
        List.singleton_append]
    rw [split] at read
    rw [split, finds_of_none read, finds_silent word, name]
    exact ⟨_, rfl⟩

theorem finds_function (known : method ∈ methods) (f : ExportedFunction) (b : Option Char)
    (stop : Stops continues rest) : ∃ b',
    finds (piecesAt (exported method) ⟨b, f.text ++ rest⟩) =
      (if Text.lower f.name.text = method then [()] else []) ++
        finds (piecesAt (exported method) ⟨b', rest⟩) := by
  have opened : Silent (exported method) ") \x7b " :=
    silent_exported (Text.forall_of_all (by decide))
  have closed : Silent (exported method) " \x7d" :=
    silent_exported (Text.forall_of_all (by decide))
  have args_end (t : Text) : Stops continues (") \x7b " ++ t) :=
    stops_cons (x := ')').mpr (by decide)
  have body_end (t : Text) : Stops continues (" \x7d" ++ t) :=
    stops_cons (x := ' ').mpr (by decide)
  have text : f.text ++ rest = ("export async function " ++ (f.name.text ++ '(' ::
      (f.args ++ (") \x7b " ++ (f.body ++ (" \x7d" ++ (f.gap ++ rest)))))) : Text) := by
    unfold ExportedFunction.text
    simp only [List.append_assoc, List.cons_append]
  obtain ⟨b', head⟩ := finds_head known f.name b
    (f.args ++ (") \x7b " ++ (f.body ++ (" \x7d" ++ (f.gap ++ rest)))))
  rw [text, head, finds_unexported f.args_free (args_end _), finds_silent opened,
    finds_unexported f.body_free (body_end _), finds_silent closed,
    finds_unexported f.gap_free stop]
  exact ⟨_, rfl⟩

theorem finds_functions (known : method ∈ methods) (fs : List ExportedFunction)
    (b : Option Char) :
    finds (piecesAt (exported method) ⟨b, fs.flatMap ExportedFunction.text⟩) =
      fs.flatMap fun f => if Text.lower f.name.text = method then [()] else [] := by
  induction fs generalizing b with
  | nil => rfl
  | cons f fs ih =>
    have stop : Stops continues (fs.flatMap ExportedFunction.text) := by
      cases fs with
      | nil => exact stops_nil continues
      | cons g fs => exact stops_cons (x := 'e').mpr (by decide)
    obtain ⟨b', here⟩ := finds_function known f b stop
    rw [List.flatMap_cons, List.flatMap_cons, here, ih]

theorem occursIn_exported (known : method ∈ methods) (fs : List ExportedFunction) :
    (exported method).occursIn (fs.flatMap ExportedFunction.text) =
      fs.any fun f => Text.lower f.name.text = method := by
  rw [occursIn, findAll_eq_finds, pieces_eq_piecesAt, finds_functions known]
  induction fs with
  | nil => rfl
  | cons f fs ih =>
    rw [List.flatMap_cons, List.any_cons, ← ih]
    by_cases same : Text.lower f.name.text = method <;> simp [same]

/-! ### Search parameters -/

/-- A quotation mark of any kind. -/
def isAnyQuote (x : Char) : Bool := isQuote x || x == '\x60'

theorem notBlank_of_isAnyQuote (mark : isAnyQuote x = true) : Text.isBlank x = false := by
  rcases (Bool.or_eq_true _ _).mp mark with mark | mark
  · exact notBlank_of_isQuote mark
  · rw [eq_of_beq mark]
    decide

/-- `searchParams.get('n')`, in quotation marks of any kind and with blanks allowed around them. -/
inductive Searched : Text → Text → Prop where
  | intro {ws n ws' : Text} {x y : Char} (blank : ∀ z ∈ ws, Text.isBlank z = true)
      (opens : isAnyQuote x = true) (nonempty : n ≠ []) (free : ∀ z ∈ n, isAnyQuote z = false)
      (closes : isAnyQuote y = true) (blank' : ∀ z ∈ ws', Text.isBlank z = true) :
      Searched ("searchParams.get(" ++ (ws ++ x :: (n ++ y :: (ws' ++ [')'])))) n

theorem consumes_searchQuery : Consumes searchQuery := by
  refine consumes_bind (consumes_literal (by decide)) fun _ => reads_bind (reads_run _) fun _ => ?_
  refine reads_bind (reads_of_consumes (consumes_quoted _)) fun n => ?_
  refine reads_bind (reads_run _) fun _ => reads_bind (reads_literal _) fun _ => ?_
  split
  · intro c a c' found
    cases found
  · exact reads_pure n

theorem readsWritten_searchQuery : ReadsWritten searchQuery Searched where
  consumes := consumes_searchQuery
  shape := by
    intro b r n c' found
    obtain ⟨_, mid, first, found⟩ := bind_eq_some.mp found
    obtain ⟨ws, mid₁, second, found⟩ := bind_eq_some.mp found
    obtain ⟨n', mid₂, third, found⟩ := bind_eq_some.mp found
    obtain ⟨ws', mid₃, fourth, found⟩ := bind_eq_some.mp found
    obtain ⟨_, mid₄, fifth, found⟩ := bind_eq_some.mp found
    obtain ⟨blank, _, text⟩ := run_eq_some second
    obtain ⟨x, y, opens, closes, free, text'⟩ := quoted_eq_some third
    obtain ⟨blank', _, text''⟩ := run_eq_some fourth
    split at found
    · cases found
    · rename_i nonempty
      obtain ⟨rfl, rfl⟩ := Prod.mk.inj (Option.some.inj found)
      have start : r = ("searchParams.get(" : Text) ++ mid.rest := (between_literal first).1
      refine ⟨_, .intro blank opens nonempty free closes blank', ?_⟩
      rw [start, text, text', text'', (between_literal fifth).1]
      simp only [List.append_assoc, List.cons_append]
      rfl
  reads := by
    intro w n b rest here
    cases here with
    | @intro ws n ws' x y blank opens nonempty free closes blank' =>
      have opening : Stops Text.isBlank (x :: (n ++ y :: (ws' ++ ')' :: rest))) :=
        stops_cons.mpr (notBlank_of_isAnyQuote opens)
      have closing : Stops Text.isBlank (')' :: rest) := stops_cons.mpr (by decide)
      have text : ("searchParams.get(" ++ (ws ++ x :: (n ++ y :: (ws' ++ [')']))) : Text) ++ rest =
          "searchParams.get(" ++ (ws ++ x :: (n ++ y :: (ws' ++ ')' :: rest))) := by
        simp only [List.append_assoc, List.cons_append, List.nil_append]
      refine ⟨some ')', ?_⟩
      rw [text, searchQuery]
      refine (bind_of_some (literal_append _ b _)).trans ?_
      refine (bind_of_some (run_append blank opening)).trans ?_
      refine (bind_of_some (quoted_append opens closes free _ _)).trans ?_
      refine (bind_of_some (run_append blank' closing)).trans ?_
      refine (bind_of_some (literal_append ")" _ _)).trans ?_
      rw [if_neg nonempty]
      rfl

/-! ### Routes of a file -/

open ExportedFunction (written)

/-- A file of exported functions has one route for each method that is the name of a function, in
letters of any case. All have the same parameters: the distinct names of the search parameters, each
required if `!` stands before it somewhere, and the body if the text reads it. -/
theorem extract_exports (file : Text) (fs : List ExportedFunction) :
    ∃ names, (∀ l, NamesOf Searched (written fs) l ↔ l = names) ∧
      handlers.extract file (written fs) =
        ((["get", "post", "put", "delete", "patch"] : List Text).filter fun method =>
          fs.any fun f => Text.lower f.name.text = method).map fun method => {
            method
            path := []
            source := file
            parameters :=
              (names.eraseDups.map fun n => Parameter.inQuery n
                (decide ('!' :: n <:+: written fs))) ++
              if "request.json()" <:+: written fs ∨
                "req.body" <:+: written fs then [.body] else []
            anchor := .file
            summary := some (Text.upper method ++ " operation")
            description := none
            responses := Responses.ofHandlers } := by
  generalize text : written fs = t
  refine ⟨searchQuery.findAll t, fun l => ?_, ?_⟩
  · rw [namesOf_iff readsWritten_searchQuery, eq_comm]
  have known : (methods.filter fun method => (exported method).occursIn t) =
      methods.filter fun method => fs.any fun f => Text.lower f.name.text = method :=
    List.filter_congr fun method known => text ▸ occursIn_exported known fs
  have parameters : handlerParameters t =
      ((searchQuery.findAll t).eraseDups.map fun n => Parameter.inQuery n
        (decide ('!' :: n <:+: t))) ++
      if "request.json()" <:+: t ∨ "req.body" <:+: t then [.body] else [] := by
    unfold handlerParameters
    rw [Parameter.distinct_map fun _ => rfl]
    simp only [← Text.holds_iff, Bool.decide_eq_true, Bool.or_eq_true]
  unfold handlers
  dsimp only
  rw [known, parameters]
  rfl

example : (handlers.extract "route.ts"
    "export async function GETTER() \x7b  \x7dexport async function Delete() \x7b  \x7d").map
      (·.method) = (["delete"] : List Text) := by
  decide +kernel

end RouteAtlas.Extract
