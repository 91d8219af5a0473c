import RouteAtlas.Text.Basic

/-!
# Globs

A glob describes a set of paths. `Language` says which texts a glob stands for, and `rests` computes
what may be left of a text once the glob has read its beginning; `mem_rests` says that the two
agree, and `accepts_iff` that `accepts` decides the language.
-/

namespace RouteAtlas

/-- A set of texts, built from single characters, the wildcards, sequence and choice. -/
inductive Glob where
  | empty
  | char (c : Char)
  /-- One character that is not a slash. -/
  | inSegment
  /-- Any characters but slashes. -/
  | segment
  /-- Any characters but line feeds. -/
  | span
  /-- Nothing, or any characters but line feeds and then a slash. -/
  | directories
  | seq (first second : Glob)
  | either (left right : Glob)
deriving DecidableEq, Repr

namespace Glob

def Language : Glob → Text → Prop
  | empty, t => t = []
  | char c, t => t = [c]
  | inSegment, t => ∃ c, c ≠ '/' ∧ t = [c]
  | segment, t => ∀ c ∈ t, c ≠ '/'
  | span, t => ∀ c ∈ t, c ≠ '\n'
  | directories, t => t = [] ∨ ∃ u, (∀ c ∈ u, c ≠ '\n') ∧ t = u ++ ['/']
  | seq a b, t => ∃ u v, t = u ++ v ∧ a.Language u ∧ b.Language v
  | either a b, t => a.Language t ∨ b.Language t

/-- The ends of a text behind a beginning of characters of a class. -/
def behindRun (p : Char → Bool) : Text → List Text
  | [] => [[]]
  | c :: cs => (c :: cs) :: if p c then behindRun p cs else []

/-- What may be left of the texts once a glob has read their beginning, each rest once. -/
def rests : Glob → List Text → List Text
  | empty, ts => ts
  | char c, ts => ts.filterMap (Text.after? [c])
  | inSegment, ts => ts.filterMap fun
    | c :: cs => if c ≠ '/' then some cs else none
    | [] => none
  | segment, ts => (ts.flatMap (behindRun (· ≠ '/'))).eraseDups
  | span, ts => (ts.flatMap (behindRun (· ≠ '\n'))).eraseDups
  | directories, ts =>
    (ts ++ (ts.flatMap (behindRun (· ≠ '\n'))).filterMap (Text.after? "/")).eraseDups
  | seq a b, ts => b.rests (a.rests ts)
  | either a b, ts => (a.rests ts ++ b.rests ts).eraseDups

def accepts (g : Glob) (t : Text) : Bool := (g.rests [t]).contains []

def seqAll : List Glob → Glob := List.foldr seq empty

/-- Any of the globs; with none at hand, the empty text. -/
def anyOf : List Glob → Glob
  | [] => empty
  | [g] => g
  | g :: gs => either g (anyOf gs)

/-! ### The rests are those of the language -/

theorem mem_behindRun {p : Char → Bool} {t r : Text} :
    r ∈ behindRun p t ↔ ∃ u, (∀ c ∈ u, p c) ∧ t = u ++ r := by
  induction t with
  | nil =>
    constructor
    · intro h
      obtain rfl := List.mem_singleton.1 h
      exact ⟨[], by simp, rfl⟩
    · rintro ⟨u, -, h⟩
      simp [behindRun, (List.append_eq_nil_iff.1 h.symm).2]
  | cons c cs ih =>
    rw [behindRun, List.mem_cons]
    constructor
    · rintro (rfl | h)
      · exact ⟨[], by simp, rfl⟩
      · split at h
        · rename_i hc
          obtain ⟨u, hu, rfl⟩ := ih.1 h
          exact ⟨c :: u, by simpa [hc] using hu, rfl⟩
        · simp at h
    · rintro ⟨u, hu, h⟩
      cases u with
      | nil => exact .inl h.symm
      | cons x u =>
        obtain ⟨rfl, rfl⟩ := List.cons.inj h
        rw [if_pos (hu c List.mem_cons_self)]
        exact .inr (ih.2 ⟨u, fun d hd => hu d (List.mem_cons_of_mem _ hd), rfl⟩)

/-- A rest is what a text of the language leaves of one of the texts. -/
theorem mem_rests {g : Glob} {ts : List Text} {r : Text} :
    r ∈ g.rests ts ↔ ∃ t ∈ ts, ∃ u, g.Language u ∧ t = u ++ r := by
  induction g generalizing ts r with
  | empty => simp [rests, Language]
  | char c =>
    simp only [rests, List.mem_filterMap, Text.after?_eq_some_iff, Language]
    exact ⟨fun ⟨t, ht, h⟩ => ⟨t, ht, [c], rfl, h⟩, fun ⟨t, ht, _, rfl, h⟩ => ⟨t, ht, h⟩⟩
  | inSegment =>
    simp only [rests, List.mem_filterMap, Language]
    constructor
    · rintro ⟨t, ht, h⟩
      split at h
      · rename_i c cs
        split at h
        · rename_i hc
          obtain rfl := Option.some.inj h
          exact ⟨_, ht, [c], ⟨c, hc, rfl⟩, rfl⟩
        · simp at h
      · simp at h
    · rintro ⟨t, ht, _, ⟨c, hc, rfl⟩, rfl⟩
      exact ⟨_, ht, by simp [hc]⟩
  | segment => simp [rests, Language, mem_behindRun]
  | span => simp [rests, Language, mem_behindRun]
  | directories =>
    simp only [rests, List.mem_eraseDups, List.mem_append, List.mem_filterMap, List.mem_flatMap,
      mem_behindRun, Text.after?_eq_some_iff, Language]
    constructor
    · rintro (h | ⟨s, ⟨t, ht, u, hu, rfl⟩, rfl⟩)
      · exact ⟨r, h, [], .inl rfl, rfl⟩
      · exact ⟨_, ht, u ++ ['/'], .inr ⟨u, by simpa using hu, rfl⟩, by simp⟩
    · rintro ⟨t, ht, u, rfl | ⟨w, hw, rfl⟩, rfl⟩
      · exact .inl ht
      · exact .inr ⟨'/' :: r, ⟨_, ht, w, by simpa using hw, by simp⟩, rfl⟩
  | seq a b iha ihb =>
    simp only [rests, Language, ihb, iha]
    constructor
    · rintro ⟨s, ⟨t, ht, u, hu, rfl⟩, v, hv, rfl⟩
      exact ⟨_, ht, u ++ v, ⟨u, v, rfl, hu, hv⟩, by simp⟩
    · rintro ⟨t, ht, _, ⟨u, v, rfl, hu, hv⟩, rfl⟩
      exact ⟨v ++ r, ⟨_, ht, u, hu, by simp⟩, v, hv, rfl⟩
  | either a b iha ihb =>
    simp only [rests, Language, List.mem_eraseDups, List.mem_append, iha, ihb]
    constructor
    · rintro (⟨t, ht, u, hu, h⟩ | ⟨t, ht, u, hu, h⟩)
      · exact ⟨t, ht, u, .inl hu, h⟩
      · exact ⟨t, ht, u, .inr hu, h⟩
    · rintro ⟨t, ht, u, hu | hu, h⟩
      · exact .inl ⟨t, ht, u, hu, h⟩
      · exact .inr ⟨t, ht, u, hu, h⟩

/-- A glob accepts exactly the texts that it stands for. -/
theorem accepts_iff {g : Glob} {t : Text} : g.accepts t ↔ g.Language t := by
  simp [accepts, mem_rests]

end Glob
end RouteAtlas
