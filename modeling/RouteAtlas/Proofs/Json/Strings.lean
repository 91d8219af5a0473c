import Mathlib.Data.List.Basic
import RouteAtlas.Json.Reading

/-!
# Strings in JSON

How the characters of a string are written: `escape_cases` tells the four forms apart. All of them are
printable ASCII (`shown_quoted`), and reading a string gives back what was written
(`readString_quoted`).
-/

namespace RouteAtlas.Json

open Text

/-- A printable character of ASCII. -/
def IsShown (c : Char) : Prop := 32 ≤ c.toNat ∧ c.toNat < 127

instance (c : Char) : Decidable (IsShown c) := inferInstanceAs (Decidable (_ ∧ _))

/-! ### Digits -/

theorem hexDigit?_hexDigit (n : Nat) : hexDigit? (hexDigit n) = some (n % 16) := by
  have all : ∀ d < 16, hexDigit? (Nat.digitChar d) = some d := by decide
  exact all (n % 16) (Nat.mod_lt n (by decide))

theorem shown_hex {width n : Nat} : ∀ x ∈ hex width n, IsShown x := by
  have all : ∀ d < 16, IsShown (Nat.digitChar d) := by decide
  induction width generalizing n with
  | zero => simp [hex]
  | succ width ih =>
    intro x hx
    rcases List.mem_append.mp hx with hx | hx
    · exact ih x hx
    · rw [List.mem_singleton.mp hx]
      exact all (n % 16) (Nat.mod_lt n (by decide))

theorem readHex4_hex {n : Nat} (small : n < 0x10000) (rest : Text) :
    readHex4 (hex 4 n ++ rest) = some (n, rest) := by
  have value : (((n / 16 / 16 / 16 % 16 * 16 + n / 16 / 16 % 16) * 16 + n / 16 % 16) * 16 + n % 16) =
      n := by
    omega
  simp [hex, readHex4, hexDigit?_hexDigit, value]

/-! ### Escapes -/

/-- A character is written as a backslash and a letter, as itself, by its number, or by the numbers of
two surrogates. -/
theorem escape_cases (c : Char) :
    (∃ e, escape c = ['\\', e] ∧ e ≠ 'u' ∧ IsShown e ∧ simpleEscape? e = some c) ∨
    (escape c = [c] ∧ IsShown c ∧ c ≠ '"' ∧ c ≠ '\\') ∨
    (escape c = '\\' :: 'u' :: hex 4 c.toNat ∧ c.toNat < 0x10000) ∨
    (escape c = '\\' :: 'u' :: (hex 4 (0xD800 + (c.toNat - 0x10000) / 0x400) ++
      '\\' :: 'u' :: hex 4 (0xDC00 + (c.toNat - 0x10000) % 0x400)) ∧ 0x10000 ≤ c.toNat) := by
  by_cases quote : c = '"'
  · subst quote
    exact .inl ⟨'"', by decide⟩
  by_cases slash : c = '\\'
  · subst slash
    exact .inl ⟨'\\', by decide⟩
  by_cases feed : c = '\n'
  · subst feed
    exact .inl ⟨'n', by decide⟩
  by_cases back : c = '\r'
  · subst back
    exact .inl ⟨'r', by decide⟩
  by_cases tab : c = '\t'
  · subst tab
    exact .inl ⟨'t', by decide⟩
  by_cases page : c = '\x0c'
  · subst page
    exact .inl ⟨'f', by decide⟩
  by_cases erase : c = '\x08'
  · subst erase
    exact .inl ⟨'b', by decide⟩
  simp only [escape, quote, slash, feed, back, tab, page, erase, if_false]
  by_cases shown : 32 ≤ c.toNat ∧ c.toNat < 127
  · exact .inr (.inl ⟨if_pos shown, shown, quote, slash⟩)
  rw [if_neg shown]
  by_cases basic : c.toNat < 0x10000
  · exact .inr (.inr (.inl ⟨if_pos basic, basic⟩))
  · rw [if_neg basic]
    exact .inr (.inr (.inr ⟨by simp, Nat.le_of_not_lt basic⟩))

theorem shown_escape {c : Char} : ∀ x ∈ escape c, IsShown x := by
  have number (n : Nat) : ∀ x ∈ '\\' :: 'u' :: hex 4 n, IsShown x :=
    List.forall_mem_cons.mpr ⟨by decide, List.forall_mem_cons.mpr ⟨by decide, shown_hex⟩⟩
  rcases escape_cases c with ⟨e, whole, _, shown, _⟩ | ⟨whole, shown, _⟩ | ⟨whole, _⟩ | ⟨whole, _⟩ <;>
    rw [whole]
  · exact List.forall_mem_cons.mpr ⟨by decide, List.forall_mem_singleton.mpr shown⟩
  · exact List.forall_mem_singleton.mpr shown
  · exact number _
  · rw [← List.cons_append, ← List.cons_append]
    exact List.forall_mem_append.mpr ⟨number _, number _⟩

theorem readUnicode_basic {n : Nat} (small : n < 0x10000) (single : n < 0xD800 ∨ 0xDFFF < n)
    (rest : Text) : readUnicode (hex 4 n ++ rest) = some (Char.ofNat n, rest) := by
  have notHigh : ¬(0xD800 ≤ n ∧ n < 0xDC00) := by omega
  have notLow : ¬(0xDC00 ≤ n ∧ n < 0xE000) := by omega
  simp only [readUnicode, readHex4_hex small, Option.bind_eq_bind, Option.bind_some,
    if_neg notHigh, if_neg notLow, Option.pure_def]

theorem readUnicode_pair {high low : Nat} (isHigh : 0xD800 ≤ high ∧ high < 0xDC00)
    (isLow : 0xDC00 ≤ low ∧ low < 0xE000) (rest : Text) :
    readUnicode (hex 4 high ++ '\\' :: 'u' :: (hex 4 low ++ rest)) =
      some (joinSurrogates high low, rest) := by
  have small : high < 0x10000 ∧ low < 0x10000 := by omega
  simp only [readUnicode, readHex4_hex small.1, readHex4_hex small.2, Option.bind_eq_bind,
    Option.bind_some, if_pos isHigh, if_pos isLow, Option.pure_def]

/-- The two surrogates of a character stand for it. -/
theorem joinSurrogates_toNat {c : Char} (large : 0x10000 ≤ c.toNat) :
    joinSurrogates (0xD800 + (c.toNat - 0x10000) / 0x400) (0xDC00 + (c.toNat - 0x10000) % 0x400) =
      c := by
  have number : 0x10000 + (0xD800 + (c.toNat - 0x10000) / 0x400 - 0xD800) * 0x400 +
      (0xDC00 + (c.toNat - 0x10000) % 0x400 - 0xDC00) = c.toNat := by
    omega
  rw [joinSurrogates, number, Char.ofNat_toNat]

/-! ### Strings -/

section

variable {fuel : Nat} {c : Char} {t more : Text}

theorem readStringGo_simple {e : Char} (other : e ≠ 'u') (known : simpleEscape? e = some c) :
    readStringGo (fuel + 1) ('\\' :: e :: more) =
      (readStringGo fuel more).map fun (t, rest) => (c :: t, rest) := by
  have mark : '\\' ≠ '"' := by decide
  simp only [readStringGo, if_neg mark, if_true, known, Option.bind_eq_bind, Option.bind_some]
  cases readStringGo fuel more <;> rfl

theorem readStringGo_unicode (read : readUnicode t = some (c, more)) :
    readStringGo (fuel + 1) ('\\' :: 'u' :: t) =
      (readStringGo fuel more).map fun (t, rest) => (c :: t, rest) := by
  have mark : '\\' ≠ '"' := by decide
  simp only [readStringGo, if_neg mark, if_true, read, Option.bind_eq_bind, Option.bind_some]
  cases readStringGo fuel more <;> rfl

theorem readStringGo_shown (shown : IsShown c) (quote : c ≠ '"') (slash : c ≠ '\\') :
    readStringGo (fuel + 1) (c :: more) =
      (readStringGo fuel more).map fun (t, rest) => (c :: t, rest) := by
  have written : ¬c.toNat < 32 := Nat.not_lt.mpr shown.1
  simp only [readStringGo, if_neg quote, if_neg slash, if_neg written]
  cases readStringGo fuel more <;> rfl

/-- The written form of a character is read as that character. -/
theorem readStringGo_escape (fuel : Nat) (c : Char) (more : Text) :
    readStringGo (fuel + 1) (escape c ++ more) =
      (readStringGo fuel more).map fun (t, rest) => (c :: t, rest) := by
  have valid : c.toNat < 0xD800 ∨ 0xDFFF < c.toNat ∧ c.toNat < 0x110000 := c.valid
  rcases escape_cases c with ⟨e, whole, other, _, known⟩ | ⟨whole, shown, quote, slash⟩ |
      ⟨whole, basic⟩ | ⟨whole, large⟩ <;>
    rw [whole]
  · exact readStringGo_simple other known
  · exact readStringGo_shown shown quote slash
  · have read := readUnicode_basic basic (valid.imp_right And.left) more
    rw [Char.ofNat_toNat] at read
    exact readStringGo_unicode read
  -- Beyond the basic plane ten bits go to each surrogate.
  · have isHigh : 0xD800 ≤ 0xD800 + (c.toNat - 0x10000) / 0x400 ∧
        0xD800 + (c.toNat - 0x10000) / 0x400 < 0xDC00 := by
      omega
    have isLow : 0xDC00 ≤ 0xDC00 + (c.toNat - 0x10000) % 0x400 ∧
        0xDC00 + (c.toNat - 0x10000) % 0x400 < 0xE000 := by
      omega
    have read := readUnicode_pair isHigh isLow more
    rw [joinSurrogates_toNat large] at read
    rw [List.cons_append, List.cons_append, List.append_assoc]
    exact readStringGo_unicode read

end

theorem readStringGo_escapes {fuel : Nat} {t rest : Text}
    (enough : (t.flatMap escape).length < fuel) :
    readStringGo fuel (t.flatMap escape ++ '"' :: rest) = some (t, rest) := by
  induction t generalizing fuel with
  | nil =>
    obtain ⟨fuel, rfl⟩ := Nat.exists_eq_add_one_of_ne_zero (Nat.ne_of_gt enough)
    simp [readStringGo]
  | cons c t ih =>
    have written : escape c ≠ [] := by
      rcases escape_cases c with ⟨e, whole, _⟩ | ⟨whole, _⟩ | ⟨whole, _⟩ | ⟨whole, _⟩ <;>
        simp [whole]
    have longer := List.length_pos_iff.mpr written
    rw [List.flatMap_cons, List.length_append] at enough
    obtain ⟨fuel, rfl⟩ := Nat.exists_eq_add_one_of_ne_zero (Nat.ne_zero_of_lt enough)
    rw [List.flatMap_cons, List.append_assoc, readStringGo_escape, ih (by omega)]
    rfl

theorem quoted_append (t rest : Text) :
    quoted t ++ rest = '"' :: (t.flatMap escape ++ '"' :: rest) := by
  simp [quoted]

/-- A string is read back, whatever follows it. -/
theorem readString_quoted (t rest : Text) :
    readString (t.flatMap escape ++ '"' :: rest) = some (t, rest) :=
  readStringGo_escapes (by rw [List.length_append]; omega)

theorem shown_quoted {t : Text} : ∀ x ∈ quoted t, IsShown x := by
  have mark : IsShown '"' := by decide
  rw [quoted, List.cons_append, List.forall_mem_cons, List.forall_mem_append]
  refine ⟨mark, fun x hx => ?_, List.forall_mem_singleton.mpr mark⟩
  obtain ⟨c, _, inside⟩ := List.mem_flatMap.mp hx
  exact shown_escape x inside

end RouteAtlas.Json
