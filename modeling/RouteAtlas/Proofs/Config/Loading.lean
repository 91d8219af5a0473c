import RouteAtlas.Config.Basic
import RouteAtlas.Proofs.Tree.Lookup

/-!
# Loading a configuration

A configuration file gives settings with at least one worker, or it is invalid; `Escapes` says which
contents end otherwise, and `ofBytes_cases` that no other content does.
-/

namespace RouteAtlas.Config

open Yaml

variable {l : Loaded} {root : Path} {c : Config} {f : Failure} {content : Bytes}

/-! ### Integers that are written as text -/

/-- The settings that are texts, by section and key. -/
def textSettings : List (Text × Text) := [
  ("info", "title"),
  ("info", "description"),
  ("info", "version"),
  ("server", "host"),
  ("server", "scheme"),
  ("server", "base_path")]

/-- An integer stands where a mapping has a text: as a setting, or among the excluded paths. -/
inductive Written (l : Loaded) (whole : Value) (n : Int) : Prop where
  | setting {name key : Text} (known : (name, key) ∈ textSettings)
      (here : inSection l whole name key = some (.scalar (.integer n)))
  | item {items : List NodeId} {id : NodeId}
      (listed : l.member? whole "exclude_paths" = some (.list items)) (member : id ∈ items)
      (here : l.value id = .scalar (.integer n))

/-- The integer has more digits than are written. -/
def TooLong (n : Int) : Prop := 4300 < (Nat.toDigits 10 n.natAbs).length

theorem integerText_error {n : Int} (failed : integerText n = .error f) :
    f = .longInteger ∧ TooLong n := by
  unfold integerText at failed
  split at failed
  · cases failed
  · rename_i none
    cases failed
    unfold Decimal.integerText? at none
    split at none
    · rename_i long
      exact ⟨rfl, long⟩
    · cases none

theorem asText_error {v : Option Value} (failed : asText v = .error f) :
    f = .longInteger ∧ ∃ n, v = some (.scalar (.integer n)) ∧ TooLong n := by
  unfold asText at failed
  split at failed
  · cases failed
  · rename_i n
    cases written : integerText n with
    | ok t =>
      rw [written] at failed
      cases failed
    | error g =>
      rw [written] at failed
      cases failed
      obtain ⟨rfl, long⟩ := integerText_error written
      exact ⟨rfl, n, rfl, long⟩
  · cases failed
  · cases failed

theorem asItem_error {v : Value} (failed : asItem v = .error f) :
    f = .longInteger ∧ ∃ n, v = .scalar (.integer n) ∧ TooLong n := by
  unfold asItem at failed
  split at failed
  · cases failed
  · obtain ⟨rfl, n, same, long⟩ := asText_error failed
    exact ⟨rfl, n, Option.some.inj same, long⟩

theorem asTexts_error {v : Option Value} (failed : asTexts l v = .error f) :
    f = .longInteger ∧ ∃ items id n, v = some (.list items) ∧ id ∈ items ∧
      l.value id = .scalar (.integer n) ∧ TooLong n := by
  unfold asTexts at failed
  split at failed
  · cases failed
  · cases failed
  · rename_i items
    rcases bind_error failed with failed | ⟨texts, _, ended⟩
    · obtain ⟨id, member, failed⟩ := mapM_error failed
      obtain ⟨rfl, n, same, long⟩ := asItem_error failed
      exact ⟨rfl, items, id, n, rfl, member, same, long⟩
    · cases ended
  · cases failed

/-! ### What the values of a text give -/

theorem ofMapping_ok {whole : Value} (given : ofMapping root l whole = .ok c) : 1 ≤ c.workers := by
  -- The six texts are read first.
  iterate 6 obtain ⟨_, _, given⟩ := bind_ok given
  dsimp only at given
  split at given
  · cases given
  · rename_i enough
    obtain ⟨excluded, _, given⟩ := bind_ok given
    cases given
    cases asked : asInteger (l.member? whole "workers") with
    | none => simp
    | some n =>
      rw [asked] at enough
      simp only [Option.any_some, decide_eq_true_eq] at enough
      simp only [Option.getD_some]
      omega

theorem ofMapping_error {whole : Value} (failed : ofMapping root l whole = .error f) :
    f = .config .workers ∨ f = .longInteger ∧ ∃ n, Written l whole n ∧ TooLong n := by
  have setting {name key : Text} (known : (name, key) ∈ textSettings)
      (failed : asText (inSection l whole name key) = .error f) :
      f = .longInteger ∧ ∃ n, Written l whole n ∧ TooLong n := by
    obtain ⟨rfl, n, here, long⟩ := asText_error failed
    exact ⟨rfl, n, .setting known here, long⟩
  iterate 6
    rcases bind_error failed with failed | ⟨_, _, failed⟩
    · exact .inr (setting (by decide) failed)
  dsimp only at failed
  split at failed
  · cases failed
    exact .inl rfl
  · rcases bind_error failed with failed | ⟨_, _, ended⟩
    · obtain ⟨rfl, items, id, n, listed, member, here, long⟩ := asTexts_error failed
      exact .inr ⟨rfl, n, .item listed member here, long⟩
    · cases ended

theorem ofMapping_cases (root : Path) (l : Loaded) (whole : Value) :
    (∃ c, ofMapping root l whole = .ok c ∧ 1 ≤ c.workers) ∨
      (∃ g, ofMapping root l whole = .error (.config g)) ∨
      ofMapping root l whole = .error .longInteger ∧ ∃ n, Written l whole n ∧ TooLong n := by
  cases given : ofMapping root l whole with
  | ok c => exact .inl ⟨c, rfl, ofMapping_ok given⟩
  | error f =>
    rcases ofMapping_error given with rfl | ⟨rfl, long⟩
    · exact .inr (.inl ⟨_, rfl⟩)
    · exact .inr (.inr ⟨rfl, long⟩)

theorem not_written_empty {n : Int} : ¬Written l (.mapping []) n := by
  rintro (⟨_, here⟩ | ⟨listed, _, _⟩)
  · cases here
  · cases listed

/-- The values of a text give settings with at least one worker, or they are invalid, or an integer cannot
be written. -/
theorem ofYaml_cases (root : Path) (l : Loaded) :
    (∃ c, ofYaml root l = .ok c ∧ 1 ≤ c.workers) ∨
      (∃ g, ofYaml root l = .error (.config g)) ∨
      ofYaml root l = .error .longInteger ∧ ∃ n, Written l l.whole n ∧ TooLong n := by
  unfold ofYaml
  split
  · rcases ofMapping_cases root l (.mapping []) with settled | invalid | ⟨_, n, written, _⟩
    · exact .inl settled
    · exact .inr (.inl invalid)
    · exact absurd written not_written_empty
  · split
    · rename_i pairs whole
      rw [whole]
      exact ofMapping_cases root l (.mapping pairs)
    · exact .inr (.inl ⟨_, rfl⟩)

/-! ### What the content of a file gives -/

/-- The content ends the reading in a failure that is not an invalid configuration: it is no UTF-8, a scalar
in it has no value, or an integer has too many digits to be a text. -/
inductive Escapes (content : Bytes) : Failure → Prop where
  | encoding {fault : Text.Utf8Fault} (broken : Text.ofUtf8 content = .error fault) :
      Escapes content (.encoding fault)
  | value {text : Text} {fault : Yaml.Fault} (decoded : Text.ofUtf8 content = .ok text)
      (unread : Yaml.load (Text.plainLines text) = .error fault) (other : fault ≠ .malformed) :
      Escapes content (.yaml fault)
  | longInteger {text : Text} {l : Loaded} {n : Int} (decoded : Text.ofUtf8 content = .ok text)
      (loaded : Yaml.load (Text.plainLines text) = .ok l) (written : Written l l.whole n)
      (long : TooLong n) : Escapes content .longInteger

/-- Whatever the content of a configuration file, it gives settings with at least one worker, or it is an
invalid configuration, or it is one of the contents that escape. -/
theorem ofBytes_cases (root : Path) (name : Text) (content : Bytes) :
    (∃ c, ofBytes root name content = .ok c ∧ 1 ≤ c.workers) ∨
      (∃ g, ofBytes root name content = .error (.config g)) ∨
      ∃ f, ofBytes root name content = .error f ∧ Escapes content f := by
  cases decoded : Text.ofUtf8 content with
  | error fault =>
    refine .inr (.inr ⟨.encoding fault, ?_, .encoding decoded⟩)
    rw [ofBytes, decoded]
  | ok text =>
    have opened : ofBytes root name content = ofText root name (Text.plainLines text) := by
      rw [ofBytes, decoded]
    rw [opened, ofText]
    split
    · exact .inl ⟨_, rfl, Nat.le_refl 1⟩
    · cases loaded : Yaml.load (Text.plainLines text) with
      | error fault =>
        by_cases malformed : fault = .malformed
        · subst malformed
          exact .inr (.inl ⟨_, rfl⟩)
        · refine .inr (.inr ⟨.yaml fault, ?_, .value decoded loaded malformed⟩)
          split
          · rename_i same
            cases same
          · rename_i same
            exact absurd (Except.error.inj same) malformed
          · rename_i same
            rw [Except.error.inj same]
      | ok l =>
        rcases ofYaml_cases root l with settled | invalid | ⟨failed, n, written, long⟩
        · exact .inl settled
        · exact .inr (.inl invalid)
        · exact .inr (.inr ⟨.longInteger, failed, .longInteger decoded loaded written long⟩)

end RouteAtlas.Config
