import Mathlib.Data.List.Infix
import RouteAtlas.Extract.Calls
import RouteAtlas.Proofs.Route.Shapes
import RouteAtlas.Proofs.Scanner.Quoted
import RouteAtlas.Proofs.Text.Splitting

/-!
# Parameters of a registered route

`Named` lists the identifiers that stand behind a mark, in the order of the text. What `colon` finds in
a path and `queryRead` in a file is listed so, and `callParameters_eq` says what becomes of the names.
-/

namespace RouteAtlas

open Scanner

namespace Route.Parameter

/-- Distinct parameters that differ in their names only are those of the distinct names. -/
theorem distinctFrom_map {f : Text → Parameter} (named : ∀ n, (f n).name = n)
    (seen names : List Text) :
    distinctFrom seen (names.map f) =
      (names.filter fun n => !seen.contains n).eraseDups.map f := by
  induction names generalizing seen with
  | nil => rfl
  | cons n names ih =>
    rw [List.map_cons, distinctFrom, named, List.filter_cons]
    cases old : seen.contains n with
    | true => exact ih seen
    | false =>
      have fresh : names.filter (fun m => !(n :: seen).contains m) =
          (names.filter fun m => !seen.contains m).filter fun m => !m == n := by
        rw [List.filter_filter]
        exact List.filter_congr fun m _ => by rw [List.contains_cons, Bool.not_or]
      simp only [Bool.not_false, Bool.false_eq_true, ↓reduceIte]
      rw [List.eraseDups_cons, List.map_cons, ih, fresh]

theorem distinct_map {f : Text → Parameter} (named : ∀ n, (f n).name = n) (names : List Text) :
    distinct (names.map f) = names.eraseDups.map f := by
  have all : names.filter (fun n => !([] : List Text).contains n) = names :=
    List.filter_eq_self.mpr fun _ _ => rfl
  rw [distinct, distinctFrom_map named, all]

end Route.Parameter

theorem Text.holds_iff {part t : Text} : Text.holds part t = true ↔ part <:+: t := by
  induction t with
  | nil => simp [Text.holds]
  | cons x t ih => rw [Text.holds, Bool.or_eq_true, startsWith_iff, ih, List.infix_cons_iff]

namespace Extract

open Route

variable {mark : Text} {allowed : Option Char → Prop} {s : Scanner Text}

/-! ### Names behind a mark -/

/-- The names behind a mark in a text that itself stands behind a character. The mark counts where
`allowed` holds of the character before it, and a name goes as far as it can. -/
inductive Named (mark : Text) (allowed : Option Char → Prop) :
    Option Char → Text → List Text → Prop where
  | stop (b : Option Char) : Named mark allowed b [] []
  | name {b : Option Char} {t : Text} {names : List Text} (n : Identifier) (free : allowed b)
      (ends : Stops Text.isIdentifier t) (more : Named mark allowed n.text.getLast? t names) :
      Named mark allowed b (mark ++ (n.text ++ t)) (n.text :: names)
  | other {b : Option Char} {x : Char} {t : Text} {names : List Text}
      (none : allowed b → ∀ n : Identifier, ¬ mark ++ n.text <+: x :: t)
      (more : Named mark allowed (some x) t names) : Named mark allowed b (x :: t) names

/-- The scanner reads a name behind a mark. -/
structure ReadsNamed (s : Scanner Text) (mark : Text) (allowed : Option Char → Prop) : Prop where
  consumes : Consumes s
  shape : ∀ {b r a c'}, s ⟨b, r⟩ = some (a, c') → ∃ n : Identifier, a = n.text ∧ allowed b ∧
    Stops Text.isIdentifier c'.rest ∧ r = mark ++ (n.text ++ c'.rest)
  reads : ∀ {b rest} (n : Identifier), allowed b → Stops Text.isIdentifier rest →
    s ⟨b, mark ++ (n.text ++ rest)⟩ = some (n.text, ⟨n.text.getLast?, rest⟩)

/-- An identifier at the front of a text goes on to the first character that is not its own. -/
theorem exists_longest (n : Identifier) (r : Text) :
    ∃ (m : Identifier) (rest : Text), n.text ++ r = m.text ++ rest ∧
      Stops Text.isIdentifier rest := by
  have inside : ∀ x ∈ n.more ++ r.takeWhile Text.isIdentifier, Text.isIdentifier x = true :=
    List.forall_mem_append.mpr ⟨n.more_inside, List.all_eq_true.mp List.all_takeWhile⟩
  refine ⟨⟨n.first, n.more ++ r.takeWhile Text.isIdentifier, n.first_start, inside⟩,
    r.dropWhile Text.isIdentifier, ?_, ?_⟩
  · simp [Identifier.text]
  · intro x first
    have stop := List.head?_dropWhile_not Text.isIdentifier r
    rw [Option.mem_def.mp first] at stop
    simpa using stop

theorem named_finds (reads : ReadsNamed s mark allowed) (b : Option Char) (t : Text) :
    Named mark allowed b t (finds (piecesAt s ⟨b, t⟩)) := by
  refine piecesAt_induction reads.consumes
    (motive := fun b t ps => Named mark allowed b t (finds ps)) ?_ ?_ ?_ b t
  · exact .stop
  · intro b x t none more
    refine .other ?_ more
    rintro free n ⟨r, text⟩
    obtain ⟨m, rest, longest, ends⟩ := exists_longest n r
    rw [← text, List.append_assoc, longest, reads.reads m free ends] at none
    cases none
  · intro b w a t _ found more
    obtain ⟨n, rfl, free, ends, text⟩ := reads.shape found
    rw [← List.append_assoc] at text
    obtain rfl := List.append_cancel_right text
    have last : (mark ++ n.text).getLast?.or b = n.text.getLast? := by
      rw [getLast?_append_or, Identifier.text, List.getLast?_cons]
      rfl
    rw [last] at more ⊢
    rw [List.append_assoc]
    exact .name n free ends more

theorem finds_of_named {b : Option Char} {t : Text} {names : List Text}
    (reads : ReadsNamed s mark allowed) (h : Named mark allowed b t names) :
    finds (piecesAt s ⟨b, t⟩) = names := by
  induction h with
  | stop b => rfl
  | name n free ends _ ih =>
    rw [piecesAt_of_some reads.consumes (reads.reads n free ends)]
    exact congrArg (_ :: ·) ih
  | @other b x t _ none _ ih =>
    have nothing : s ⟨b, x :: t⟩ = Option.none := eq_none_of_forall fun a c' found => by
      obtain ⟨n, _, free, _, text⟩ := reads.shape found
      exact none free n ⟨c'.rest, by rw [text, List.append_assoc]⟩
    rw [piecesAt_of_none nothing]
    exact ih

/-- A scanner that reads names behind the mark finds the names, and no others are the names. -/
theorem named_iff {t : Text} {names : List Text} (reads : ReadsNamed s mark allowed) :
    Named mark allowed none t names ↔ s.findAll t = names := by
  constructor
  · intro h
    exact finds_of_named reads h
  · intro h
    exact h ▸ named_finds reads none t

theorem readsNamed_colon :
    ReadsNamed colon ":" fun b => ∀ x ∈ b, Text.isWord x = false ∧ x ≠ '{' where
  consumes := consumes_colon
  shape := colon_shape
  reads _ free ends := colon_name free ends

/-- A name directly behind a mark that may stand anywhere. -/
theorem readsNamed_literal (nonempty : mark ≠ []) :
    ReadsNamed (literal mark >>= fun _ => identifier) mark fun _ => True where
  consumes := consumes_bind (consumes_literal nonempty) fun _ =>
    reads_of_consumes consumes_identifier
  shape := by
    intro b r a c' found
    obtain ⟨_, mid, first, second⟩ := bind_eq_some.mp found
    obtain ⟨n, rfl, text, stop⟩ := identifier_eq_some second
    have text' : r = _ := (between_literal first).1
    exact ⟨n, rfl, trivial, stop, by rw [text', text]⟩
  reads := by
    intro b rest n _ ends
    rw [bind_of_some (literal_append mark b _)]
    exact identifier_append n ends

theorem readsNamed_queryRead : ReadsNamed queryRead "req.query." fun _ => True :=
  readsNamed_literal (by decide)

/-! ### From names to parameters -/

theorem allInPath_eq (names : List Text) :
    Parameter.allInPath names = names.eraseDups.map Parameter.inPath :=
  Parameter.distinct_map (fun _ => rfl) names

theorem callParameters_eq (method path : Text) (queryNames : List Text) (hasBody : Bool) :
    callParameters method path queryNames hasBody =
      (colon.findAll path).eraseDups.map Parameter.inPath ++
        (queryNames.filter (· ∉ colon.findAll path)).eraseDups.map (Parameter.inQuery ·) ++
          if method ∈ methodsWithBody ∧ hasBody = true then [.body] else [] := by
  have names : ((colon.findAll path).eraseDups.map Parameter.inPath).map Parameter.name =
      (colon.findAll path).eraseDups := by
    rw [List.map_map]
    exact List.map_id _
  have fresh : (queryNames.filter fun n => !(colon.findAll path).eraseDups.contains n) =
      queryNames.filter (· ∉ colon.findAll path) :=
    List.filter_congr fun n _ => by simp
  simp only [callParameters]
  rw [allInPath_eq, names, Parameter.distinctFrom_map (fun _ => rfl), fresh]
  simp [and_comm]

end Extract
end RouteAtlas
