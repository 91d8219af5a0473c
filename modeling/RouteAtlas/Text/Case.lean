import RouteAtlas.Text.Basic
import RouteAtlas.Text.Class
import RouteAtlas.Text.CaseTable

/-!
# Lower and upper case

Full case mapping: a character may become several, and a capital sigma at the end of a word becomes
the final form. `lower_ascii` says that on ASCII every character is mapped by itself.
-/

namespace RouteAtlas.Text

/-- The shift of the run that the code point `n` belongs to. -/
def shift? (runs : List CaseRun) (n : Nat) : Option Int :=
  (runs.find? fun r =>
    decide (r.first ≤ n ∧ n ≤ r.last ∧ (n - r.first) % r.step = 0)).map CaseRun.shift

/-- The mapping of a character above ASCII: the list of several, the shift of a run, or itself. -/
def mapped (special : List (Nat × List Nat)) (runs : List CaseRun) (c : Char) : Text :=
  match special.lookup c.toNat with
  | some codes => codes.map Char.ofNat
  | none =>
    match shift? runs c.toNat with
    | some d => [Char.ofNat (c.toNat + d).toNat]
    | none => [c]

/-- The lower case of one character, taken by itself. -/
def lowerChar (c : Char) : Text :=
  if c.toNat < 128 then [if 'A' ≤ c ∧ c ≤ 'Z' then Char.ofNat (c.toNat + 32) else c]
  else mapped lowerSpecial lowerRuns c

def upperChar (c : Char) : Text :=
  if c.toNat < 128 then [if 'a' ≤ c ∧ c ≤ 'z' then Char.ofNat (c.toNat - 32) else c]
  else mapped upperSpecial upperRuns c

def isCaseIgnorable (c : Char) : Bool :=
  if c.toNat < 128 then c == '\'' || c == '.' || c == ':' || c == '^' || c == '\x60'
  else inside ignorableEdges c.toNat

def isCased (c : Char) : Bool :=
  if c.toNat < 128 then isLetter c else inside casedEdges c.toNat

/-- The nearest character that is not passed over has case. -/
def meetsCased (t : Text) : Bool :=
  match t.dropWhile isCaseIgnorable with
  | c :: _ => isCased c
  | [] => false

/-- Lower case of `t`, where `passed` holds the characters before it in reverse. A capital sigma
after a character with case and not before one is final. -/
def lowerGo (passed : Text) : Text → Text
  | [] => []
  | c :: cs =>
    (if c = 'Σ' then [if meetsCased passed && !meetsCased cs then 'ς' else 'σ'] else lowerChar c)
      ++ lowerGo (c :: passed) cs

def lower (t : Text) : Text := lowerGo [] t

def upper (t : Text) : Text := t.flatMap upperChar

/-! ### ASCII -/

theorem lowerGo_ascii {passed t : Text} (h : ∀ c ∈ t, c.toNat < 128) :
    lowerGo passed t = t.flatMap lowerChar := by
  induction t generalizing passed with
  | nil => rfl
  | cons c cs ih =>
    have hc : c ≠ 'Σ' := fun e => absurd (h c List.mem_cons_self) (by subst e; decide)
    rw [lowerGo, if_neg hc, ih fun d hd => h d (List.mem_cons_of_mem _ hd), List.flatMap_cons]

/-- On ASCII the lower case is taken character by character. -/
theorem lower_ascii {t : Text} (h : ∀ c ∈ t, c.toNat < 128) : lower t = t.flatMap lowerChar :=
  lowerGo_ascii h

end RouteAtlas.Text
