import RouteAtlas.Proofs.Json.Strings
import RouteAtlas.Tree.Content

/-!
# Content in ASCII

ASCII is its own UTF-8: where a file holds such a text without carriage returns, its JSON value is
that of the text (`jsonOf?_utf8`).
-/

namespace RouteAtlas

namespace Text

variable {t : Text}

theorem utf8_cons {c : Char} (ascii : c.toNat < 128) (t : Text) :
    utf8 (c :: t) = UInt8.ofNat c.toNat :: utf8 t := by
  have single : String.utf8EncodeChar c = [UInt8.ofNat c.toNat] :=
    if_pos (Nat.le_of_lt_succ ascii)
  rw [utf8, List.flatMap_cons, single]
  rfl

theorem toNat_ofNat {n : Nat} (ascii : n < 128) : (UInt8.ofNat n).toNat = n := by
  rw [UInt8.toNat_ofNat']
  omega

theorem strictGo_utf8 (ascii : ∀ c ∈ t, c.toNat < 128) (position : Nat) :
    strictGo (utf8 t).length position (utf8 t) = .ok t := by
  induction t generalizing position with
  | nil => rfl
  | cons c t ih =>
    obtain ⟨here, ascii⟩ := List.forall_mem_cons.mp ascii
    have front : front (UInt8.ofNat c.toNat) (utf8 t) = .ok (c.toNat, utf8 t) := by
      simp only [front, toNat_ofNat here, if_pos here]
    rw [utf8_cons here, List.length_cons, strictGo]
    simp only [front, ih ascii, Except.map, Char.ofNat_toNat]

theorem withoutMark_utf8 (ascii : ∀ c ∈ t, c.toNat < 128) : withoutMark (utf8 t) = utf8 t := by
  cases t with
  | nil => rfl
  | cons c t =>
    have here := ascii c List.mem_cons_self
    rw [utf8_cons here, withoutMark]
    intro bytes same
    have first : c.toNat = 0xEF := by
      rw [← toNat_ofNat here, (List.cons.inj same).1]
      rfl
    omega

theorem plainLines_of_notMem (free : '\r' ∉ t) : plainLines t = t := by
  induction t with
  | nil => rfl
  | cons c t ih =>
    rw [List.mem_cons, not_or] at free
    rw [plainLines, if_neg (Ne.symm free.1), ih free.2]
    rintro cs rfl
    exact absurd rfl free.1

end Text

namespace Tree

theorem jsonOf?_utf8 {text : Text} (ascii : ∀ c ∈ text, c.toNat < 128) (free : '\r' ∉ text) :
    jsonOf? (Text.utf8 text) = Json.parse? text := by
  simp only [jsonOf?, Text.withoutMark_utf8 ascii, Text.ofUtf8, Text.strictGo_utf8 ascii,
    Text.plainLines_of_notMem free]

/-- A file that holds an object is read as this object. -/
theorem readObject_of_read {t : Tree} {p : Path} {content : Bytes} {members : List (Text × Json)}
    (written : t.read p = .ok content) (object : jsonOf? content = some (.object members)) :
    t.readObject p = .ok (.object members) := by
  have isFile : t.isFile p = .ok true := by
    unfold read at written
    simp only [Tree.isFile, test]
    split at written
    · simp [Entry.isFile, *]
    all_goals cases written
  simp only [readObject, isFile, written, bind, Except.bind, Except.toOption, Option.bind_some,
    object]
  rfl

end Tree
end RouteAtlas
