/-!
# Text

A text is a list of characters, and a string literal stands for one wherever a text is expected.
The operations here look only at which characters are equal. `after?_eq_some_iff` says what a text
starts with, and `join_split` that joining the pieces of a text gives it back.
-/

namespace RouteAtlas

abbrev Text := List Char

instance : Coe String Text := ⟨String.toList⟩

namespace Text

/-- What follows `head` at the start of a text, if the text starts with it. -/
def after? : Text → Text → Option Text
  | [], t => some t
  | _ :: _, [] => none
  | h :: hs, c :: cs => if h = c then after? hs cs else none

def startsWith (head t : Text) : Bool := (after? head t).isSome

def endsWith (tail t : Text) : Bool := startsWith tail.reverse t.reverse

/-- What stands before `tail` at the end of a text, if the text ends with it. -/
def before? (tail t : Text) : Option Text := (after? tail.reverse t.reverse).map List.reverse

/-- Some part of the text is `part`. -/
def holds (part : Text) : Text → Bool
  | [] => part.isEmpty
  | c :: cs => startsWith part (c :: cs) || holds part cs

def swap (old new : Char) (t : Text) : Text := t.map fun c => if c = old then new else c

/-- The pieces between the separators, of which there is one more than separators. -/
def split (sep : Char) : Text → List Text
  | [] => [[]]
  | c :: cs =>
    match split sep cs with
    | [] => [[c]]
    | word :: words => if c = sep then [] :: word :: words else (c :: word) :: words

def join (sep : Text) : List Text → Text
  | [] => []
  | [word] => word
  | word :: words => word ++ sep ++ join sep words

/-- Removes the characters of a class from both ends. -/
def trim (p : Char → Bool) (t : Text) : Text :=
  ((t.dropWhile p).reverse.dropWhile p).reverse

def replaceFirst (part new : Text) : Text → Text
  | [] => []
  | c :: cs =>
    match after? part (c :: cs) with
    | some rest => new ++ rest
    | none => c :: replaceFirst part new cs

/-- Every occurrence of `part`, read from the left without overlap, is replaced; `skip` counts the
characters of an occurrence that are still to be passed over. -/
def replaceGo (part new : Text) : Nat → Text → Text
  | _, [] => []
  | skip + 1, _ :: cs => replaceGo part new skip cs
  | 0, c :: cs =>
    if startsWith part (c :: cs) then new ++ replaceGo part new (part.length - 1) cs
    else c :: replaceGo part new 0 cs

/-- Every occurrence of a non-empty `part`, read from the left without overlap, is replaced. -/
def replace (part new t : Text) : Text := replaceGo part new 0 t

/-! ### Laws -/

theorem after?_eq_some_iff {head t rest : Text} : after? head t = some rest ↔ t = head ++ rest := by
  induction head generalizing t with
  | nil => simp [after?]
  | cons h hs ih =>
    cases t with
    | nil => simp [after?]
    | cons c cs =>
      by_cases hc : h = c
      · simp [after?, hc, ih]
      · simp [after?, hc, Ne.symm hc]

@[simp] theorem after?_append (head rest : Text) : after? head (head ++ rest) = some rest :=
  after?_eq_some_iff.2 rfl

theorem split_ne_nil (sep : Char) (t : Text) : split sep t ≠ [] := by
  cases t with
  | nil => simp [split]
  | cons c cs =>
    rw [split]
    split
    · simp
    · split <;> simp

/-- Joining the pieces with the separator gives the text back. -/
theorem join_split (sep : Char) (t : Text) : join [sep] (split sep t) = t := by
  induction t with
  | nil => rfl
  | cons c cs ih =>
    rw [split]
    split
    · rename_i h; exact absurd h (split_ne_nil sep cs)
    · rename_i word words h
      rw [h] at ih
      split
      · rename_i hc
        subst hc
        simp [join, ih]
      · cases words with
        | nil => simp [join] at ih ⊢; exact ih
        | cons w ws => simp [join] at ih ⊢; exact ih

end Text
end RouteAtlas
