import RouteAtlas.Route.Template
import RouteAtlas.Proofs.Scanner.Identifier

/-!
# Segments

A `Segment` is what may stand between two slashes of a path: a literal, or a placeholder in one of
the notations. `notMem_text` says which opening characters no longer occur in a segment that a later
pass of `unify` settles.
-/

namespace RouteAtlas.Route

open Scanner

/-- Neither a blank nor a slash nor a part of placeholder notation. -/
def isPlain (x : Char) : Bool :=
  !Text.isBlank x && !("/[]$<>\x7b\x7d:()" : Text).contains x

/-- How a placeholder is written around its name. A constraint is any text without the characters
that its notation rules out. -/
inductive Style where
  -- [n]
  | bracket
  -- [...n]
  | spread
  -- [[...n]]
  | optionalSpread
  -- $n
  | dollar
  -- $n<c>
  | dollarBound (c : Text) (free : '/' ∉ c ∧ '>' ∉ c)
  -- <n>
  | angle
  -- <t:n>
  | angleTyped (t : Identifier)
  -- {n}
  | brace
  -- {n?}
  | braceOptional
  -- {*n}
  | star
  -- {**n}
  | stars
  -- {n:c}
  | braceBound (c : Text) (free : ∀ x ∈ ("/[]$<>\x7b\x7d" : Text), x ∉ c)
  -- :n
  | colon
  -- :n?
  | colonOptional

namespace Style

/-- What stands before the name. -/
def opening : Style → Text
  | bracket => ['[']
  | spread => ['[', '.', '.', '.']
  | optionalSpread => ['[', '[', '.', '.', '.']
  | dollar | dollarBound _ _ => ['$']
  | angle => ['<']
  | angleTyped t => '<' :: (t.text ++ [':'])
  | brace | braceOptional | braceBound _ _ => ['{']
  | star => ['{', '*']
  | stars => ['{', '*', '*']
  | colon | colonOptional => [':']

/-- What stands behind the name. -/
def closing : Style → Text
  | bracket | spread => [']']
  | optionalSpread => [']', ']']
  | dollar | colon => []
  | dollarBound c _ => '<' :: (c ++ ['>'])
  | angle | angleTyped _ => ['>']
  | brace | star | stars => ['}']
  | braceOptional => ['?', '}']
  | braceBound c _ => ':' :: (c ++ ['}'])
  | colonOptional => ['?']

/-- The pass of `unify` that settles the placeholder. -/
def order : Style → Nat
  | bracket | spread | optionalSpread => 1
  | dollar | dollarBound _ _ => 2
  | angle | angleTyped _ => 3
  | brace | braceOptional | star | stars | braceBound _ _ => 4
  | colon | colonOptional => 5

end Style

inductive Segment where
  | literal (t : Text) (nonempty : t ≠ []) (plain : ∀ x ∈ t, isPlain x = true)
  | named (style : Style) (n : Identifier)
  -- (.*)
  | anything
  -- (.+)
  | something

namespace Segment

def text : Segment → Text
  | literal t _ _ => t
  | named style n => style.opening ++ (n.text ++ style.closing)
  | anything => ['(', '.', '*', ')']
  | something => ['(', '.', '+', ')']

/-- The name that the segment gives to its placeholder, if it is one. -/
def name? : Segment → Option Text
  | literal _ _ _ => none
  | named _ n => some n.text
  | anything | something => some "path"

def template (seg : Segment) : Text :=
  match seg.name? with
  | some name => placeholder name
  | none => seg.text

/-- The pass of `unify` that settles the segment. Literals need none. -/
def order : Segment → Nat
  | literal _ _ _ => 0
  | named style _ => style.order
  | anything | something => 6

def after (k : Nat) (seg : Segment) : Text := if seg.order ≤ k then seg.template else seg.text

end Segment

/-! ### Which characters occur -/

variable {x : Char} {k : Nat}

/-- The character with which the placeholders of a pass open. -/
def opener : Nat → Char
  | 2 => '$'
  | 3 => '<'
  | 4 => '{'
  | 5 => ':'
  | _ => '['

theorem isBlank_of_isIdentifier (h : Text.isIdentifier x = true) : Text.isBlank x = false := by
  have le {a b : Char} (hab : a ≤ b) : a.toNat ≤ b.toNat := hab
  have small := Text.toNat_lt_of_isIdentifier h
  simp only [Text.isIdentifier, Text.isLetter, Text.isDigit, Bool.or_eq_true, decide_eq_true_eq,
    beq_iff_eq] at h
  have large : 32 < x.toNat := by
    rcases h with ((h | h) | h) | h
    · exact Nat.lt_of_lt_of_le (by decide) (le h.1)
    · exact Nat.lt_of_lt_of_le (by decide) (le h.1)
    · exact Nat.lt_of_lt_of_le (by decide) (le h.1)
    · subst h
      decide
  rw [Text.isBlank, if_pos small, decide_eq_false_iff_not]
  omega

namespace Style

variable {style : Style}

/-- A placeholder that a later pass settles is written without the opening character. Only brackets
may stand in the constraint of the pass after theirs. -/
theorem notMem_sides (pass : 0 < k) (later : k < style.order) (beyond : k ≠ 1 ∨ style.order ≠ 2) :
    opener k ∉ style.opening ∧ opener k ∉ style.closing := by
  have bound : style.order ≤ 5 := by cases style <;> simp [order]
  have cases : k = 1 ∨ k = 2 ∨ k = 3 ∨ k = 4 := by omega
  cases style with
  | angleTyped t =>
    have bracket : '[' ∉ t.text := t.notMem (by decide)
    have dollar : '$' ∉ t.text := t.notMem (by decide)
    rcases cases with rfl | rfl | rfl | rfl <;> simp_all [order, opening, closing, opener]
  | braceBound c free =>
    have bracket : '[' ∉ c := free '[' (by decide)
    have dollar : '$' ∉ c := free '$' (by decide)
    have angle : '<' ∉ c := free '<' (by decide)
    have bound : k < 4 := later
    rcases cases with rfl | rfl | rfl | rfl
    · simp [opening, closing, opener, bracket]
    · simp [opening, closing, opener, dollar]
    · simp [opening, closing, opener, angle]
    · exact absurd bound (by decide)
  | _ => rcases cases with rfl | rfl | rfl | rfl <;> simp_all [order, opening, closing, opener]

theorem slash_notMem : '/' ∉ style.opening ∧ '/' ∉ style.closing := by
  cases style with
  | angleTyped t =>
    have name : '/' ∉ t.text := t.notMem (by decide)
    simp [opening, closing, name]
  | dollarBound c free => simp [opening, closing, free.1]
  | braceBound c free =>
    have slash : '/' ∉ c := free '/' (by decide)
    simp [opening, closing, slash]
  | _ => simp [opening, closing]

theorem opening_ne_nil : style.opening ≠ [] := by
  cases style <;> simp [opening]

theorem isBlank_opening (h : x ∈ style.opening.head?) : Text.isBlank x = false := by
  cases style <;> obtain rfl := Option.some.inj h <;> decide

theorem isBlank_closing (h : x ∈ style.closing.getLast?) : Text.isBlank x = false := by
  cases style with
  | dollar | colon => cases h
  | dollarBound c _ =>
    obtain rfl : '>' = x := by simpa [closing, List.getLast?_cons] using h
    decide
  | braceBound c _ =>
    obtain rfl : '}' = x := by simpa [closing, List.getLast?_cons] using h
    decide
  | _ =>
    obtain rfl := Option.some.inj h
    decide

end Style

namespace Segment

variable {seg : Segment}

theorem order_le (seg : Segment) : seg.order ≤ 6 := by
  cases seg with
  | named style n => cases style <;> simp [order, Style.order]
  | _ => simp [order]

theorem named_append (style : Style) (n : Identifier) (rest : Text) :
    (named style n).text ++ rest = style.opening ++ (n.text ++ (style.closing ++ rest)) := by
  simp [text]

theorem notMem_of_isPlain {t : Text} (plain : ∀ x ∈ t, isPlain x = true) (h : isPlain x = false) :
    x ∉ t := by
  intro member
  rw [plain x member] at h
  cases h

/-- A segment that a later pass settles is written without the opening character. -/
theorem notMem_text (pass : 0 < k) (later : k < seg.order) (beyond : k ≠ 1 ∨ seg.order ≠ 2) :
    opener k ∉ seg.text := by
  have bound := seg.order_le
  have cases : k = 1 ∨ k = 2 ∨ k = 3 ∨ k = 4 ∨ k = 5 := by omega
  cases seg with
  | literal => exact absurd later (Nat.not_lt_zero k)
  | named style n =>
    obtain ⟨before, behind⟩ := style.notMem_sides pass later beyond
    have name : opener k ∉ n.text := by
      rcases cases with rfl | rfl | rfl | rfl | rfl <;> exact n.notMem (by decide)
    simp [text, before, behind, name]
  | anything | something =>
    rcases cases with rfl | rfl | rfl | rfl | rfl <;> decide

theorem template_cases (seg : Segment) :
    (seg.name? = none ∧ seg.template ≠ [] ∧ ∀ x ∈ seg.template, isPlain x = true) ∨
      ∃ n : Identifier, seg.name? = some n.text ∧ seg.template = placeholder n.text := by
  cases seg with
  | literal t nonempty plain => exact .inl ⟨rfl, nonempty, plain⟩
  | named style n => exact .inr ⟨n, rfl, rfl⟩
  | anything | something =>
    exact .inr ⟨⟨'p', ['a', 't', 'h'], by decide, List.all_eq_true.mp (by decide)⟩, rfl, rfl⟩

theorem notMem_template (identifier : Text.isIdentifier x = false) (plain : isPlain x = false)
    (braces : x ≠ '{' ∧ x ≠ '}') : x ∉ seg.template := by
  rcases seg.template_cases with ⟨_, _, all⟩ | ⟨n, _, same⟩
  · exact notMem_of_isPlain all plain
  · rw [same]
    simp [placeholder, braces, n.notMem identifier]

theorem template_ne_nil : seg.template ≠ [] := by
  rcases seg.template_cases with ⟨_, nonempty, _⟩ | ⟨n, _, same⟩
  · exact nonempty
  · rw [same]
    exact List.cons_ne_nil _ _

theorem text_ne_nil : seg.text ≠ [] := by
  cases seg with
  | literal t nonempty _ => exact nonempty
  | named style n => simp [text, style.opening_ne_nil]
  | _ => decide

theorem slash_notMem_text : '/' ∉ seg.text := by
  cases seg with
  | literal t _ plain => exact notMem_of_isPlain plain (by decide)
  | named style n =>
    obtain ⟨before, behind⟩ := style.slash_notMem
    have name : '/' ∉ n.text := n.notMem (by decide)
    simp [text, before, behind, name]
  | _ => decide

theorem isBlank_edge (h : x ∈ seg.text.head? ∨ x ∈ seg.text.getLast?) : Text.isBlank x = false := by
  cases seg with
  | literal t _ plain =>
    have member : x ∈ t := h.elim List.mem_of_head? List.mem_of_getLast?
    have := plain x member
    simp only [isPlain, Bool.and_eq_true, Bool.not_eq_true'] at this
    exact this.1
  | named style n =>
    rcases h with first | last
    · rw [text, List.head?_append, Option.mem_def, Option.or_eq_some_iff] at first
      rcases first with before | ⟨none, _⟩
      · exact style.isBlank_opening before
      · exact absurd (List.head?_eq_none_iff.mp none) style.opening_ne_nil
    · rw [text, List.getLast?_append, List.getLast?_append, Option.mem_def, Option.or_eq_some_iff,
        Option.or_eq_some_iff] at last
      rcases last with (behind | ⟨_, name⟩) | ⟨none, _⟩
      · exact style.isBlank_closing behind
      · exact isBlank_of_isIdentifier (n.inside x (List.mem_of_getLast? name))
      · exact absurd none (by simp [n.text_ne_nil])
  | anything | something =>
    rcases h with first | last
    · obtain rfl := Option.some.inj first
      decide
    · obtain rfl := Option.some.inj last
      decide

end Segment
end RouteAtlas.Route
