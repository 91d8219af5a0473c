import Mathlib.Data.List.TakeWhile
import RouteAtlas.Project.Gathering
import RouteAtlas.Proofs.Glob.Coverage

/-!
# Patterns that ask for a name

A pattern of a folder, `**/` and a last part without slashes accepts what lies below the folder and
has a name that the last part accepts (`language_below_iff`). Patterns whose last part fixes the last
character accept no path that ends in another (`getLast?_of_accepts`).
-/

namespace RouteAtlas

namespace Tree

variable {t u v : Text}

/-! ### The name at the end of a path -/

theorem baseName_of_notMem (free : '/' ∉ t) : baseName t = t := by
  have all : ∀ c ∈ t.reverse, decide (c ≠ '/') = true := by
    intro c hc
    rw [decide_eq_true_eq]
    rintro rfl
    exact free (List.mem_reverse.mp hc)
  rw [baseName, List.takeWhile_eq_self_iff.mpr all, List.reverse_reverse]

theorem baseName_slash (free : '/' ∉ v) : baseName (u ++ '/' :: v) = v := by
  have whole : (u ++ '/' :: v).reverse = v.reverse ++ '/' :: u.reverse := by simp
  have all : ∀ c ∈ v.reverse, decide (c ≠ '/') = true := by
    intro c hc
    rw [decide_eq_true_eq]
    rintro rfl
    exact free (List.mem_reverse.mp hc)
  rw [baseName, whole, List.takeWhile_append_of_pos all, List.takeWhile_cons_of_neg (by decide),
    List.append_nil, List.reverse_reverse]

/-- A path is its name, or its name behind a slash. -/
theorem baseName_cases (t : Text) :
    '/' ∉ baseName t ∧ (t = baseName t ∨ ∃ u, t = u ++ '/' :: baseName t) := by
  have free : '/' ∉ baseName t := by
    intro h
    rw [baseName, List.mem_reverse] at h
    have other := List.mem_takeWhile_imp h
    simp at other
  refine ⟨free, ?_⟩
  have whole : t = (t.reverse.dropWhile (· ≠ '/')).reverse ++ baseName t := by
    rw [baseName, ← List.reverse_append, List.takeWhile_append_dropWhile, List.reverse_reverse]
  cases front : t.reverse.dropWhile (· ≠ '/') with
  | nil =>
    rw [front] at whole
    exact .inl whole
  | cons c rest =>
    have first := List.head?_dropWhile_not (· ≠ '/') t.reverse
    rw [front] at first whole
    obtain rfl : c = '/' := by simpa using first
    rw [List.reverse_cons, List.append_assoc] at whole
    exact .inr ⟨_, whole⟩

end Tree

namespace Glob

open RouteAtlas.Tree

variable {g : Glob} {p q t : Text}

/-! ### Languages -/

/-- Below any directories a glob without slashes reads the name. -/
theorem language_directories_iff (free : ∀ v, g.Language v → '/' ∉ v) (line : '\n' ∉ t) :
    (seq directories g).Language t ↔ g.Language (baseName t) := by
  constructor
  · rintro ⟨_, v, rfl, rfl | ⟨u, _, rfl⟩, rest⟩
    · rwa [List.nil_append, baseName_of_notMem (free v rest)]
    · rwa [List.append_assoc, List.singleton_append, baseName_slash (free v rest)]
  · intro name
    rcases (baseName_cases t).2 with whole | ⟨u, whole⟩
    · exact ⟨[], t, rfl, .inl rfl, whole ▸ name⟩
    · refine ⟨u ++ ['/'], baseName t, ?_, .inr ⟨u, fun c hc => ?_, rfl⟩, name⟩
      · rw [List.append_assoc]
        exact whole
      · rintro rfl
        exact line (whole ▸ List.mem_append_left _ hc)

/-- What stands in front of all wildcards and groups is read as it is. -/
theorem language_read_append (literal : ∀ c ∈ p, c ≠ '*' ∧ c ≠ '?' ∧ c ≠ '{') :
    (read (p ++ q)).Language t ↔ ∃ u, t = p ++ u ∧ (read q).Language u := by
  induction p generalizing t with
  | nil => simp
  | cons c p ih =>
    have rest {v : Text} := @ih v fun d hd => literal d (List.mem_cons_of_mem c hd)
    rw [List.cons_append, read_same (literal c List.mem_cons_self)]
    constructor
    · rintro ⟨_, v, rfl, rfl, h⟩
      obtain ⟨u, rfl, behind⟩ := rest.mp h
      exact ⟨u, rfl, behind⟩
    · rintro ⟨u, rfl, h⟩
      exact ⟨[c], p ++ u, rfl, rfl, rest.mpr ⟨u, rfl, h⟩⟩

theorem language_read_literal (literal : ∀ c ∈ p, c ≠ '*' ∧ c ≠ '?' ∧ c ≠ '{') :
    (read p).Language t ↔ t = p := by
  rw [← List.append_nil p, language_read_append literal, List.append_nil]
  constructor
  · rintro ⟨_, rfl, rfl⟩
    exact List.append_nil p
  · rintro rfl
    exact ⟨[], (List.append_nil t).symm, rfl⟩

/-- A pattern of a folder, any directories and a last part. -/
def belowFolder (folder last : Text) : Text := folder ++ '/' :: '*' :: '*' :: '/' :: last

theorem language_below_iff {folder last : Text}
    (literal : ∀ c ∈ folder, c ≠ '*' ∧ c ≠ '?' ∧ c ≠ '{')
    (free : ∀ v, (read last).Language v → '/' ∉ v) (line : '\n' ∉ t) :
    (read (belowFolder folder last)).Language (folder ++ '/' :: t) ↔
      (read last).Language (baseName t) := by
  have literal' : ∀ c ∈ folder ++ ['/'], c ≠ '*' ∧ c ≠ '?' ∧ c ≠ '{' := by
    intro c hc
    rcases List.mem_append.mp hc with hc | hc
    · exact literal c hc
    · obtain rfl := List.mem_singleton.mp hc
      decide
  have pattern : belowFolder folder last = (folder ++ ['/']) ++ '*' :: '*' :: '/' :: last := by
    simp [belowFolder]
  rw [pattern, language_read_append literal', read_directories,
    ← language_directories_iff free line]
  constructor
  · rintro ⟨u, whole, h⟩
    rw [List.append_assoc, List.append_cancel_left_eq] at whole
    obtain ⟨_, rfl⟩ := List.cons.inj whole
    exact h
  · intro h
    exact ⟨t, by simp, h⟩

/-! ### Names of route files -/

/-- The last part of a pattern that ends in a group of the endings of scripts. -/
theorem language_endings : (read "\x7bts,js\x7d").Language t ↔ t = "ts" ∨ t = "js" := by
  have opened : read "\x7bts,js\x7d" = seq (either (read "ts") (read "js")) empty := by decide
  rw [opened, ← language_read_literal (p := "ts") (Text.forall_of_all (by decide)),
    ← language_read_literal (p := "js") (Text.forall_of_all (by decide))]
  constructor
  · rintro ⟨x, _, rfl, either, rfl⟩
    rwa [List.append_nil]
  · intro h
    exact ⟨t, [], (List.append_nil t).symm, h, rfl⟩

theorem language_script :
    (read "*.\x7bts,js\x7d").Language t ↔ '/' ∉ t ∧ Traits.isScript t = true := by
  have opened : read "*.\x7bts,js\x7d" = seq segment (read (['.'] ++ "\x7bts,js\x7d")) := by decide
  have script : Traits.isScript t = true ↔ (".ts" : Text) <:+ t ∨ (".js" : Text) <:+ t := by
    rw [Traits.isScript, Bool.or_eq_true, Text.endsWith_iff, Text.endsWith_iff]
  rw [opened, script]
  constructor
  · rintro ⟨u, v, rfl, inside, rest⟩
    obtain ⟨e, rfl, ending⟩ := (language_read_append (Text.forall_of_all (by decide))).mp rest
    have free : '/' ∉ u := fun h => inside _ h rfl
    rcases language_endings.mp ending with rfl | rfl
    · exact ⟨by simp [free], .inl ⟨u, rfl⟩⟩
    · exact ⟨by simp [free], .inr ⟨u, rfl⟩⟩
  · rintro ⟨free, ⟨u, rfl⟩ | ⟨u, rfl⟩⟩
    · exact ⟨u, _, rfl, fun c hc e => free (e ▸ List.mem_append_left _ hc),
        (language_read_append (Text.forall_of_all (by decide))).mpr ⟨_, rfl, language_endings.mpr (.inl rfl)⟩⟩
    · exact ⟨u, _, rfl, fun c hc e => free (e ▸ List.mem_append_left _ hc),
        (language_read_append (Text.forall_of_all (by decide))).mpr ⟨_, rfl, language_endings.mpr (.inr rfl)⟩⟩

theorem language_route :
    (read "route.\x7bts,js\x7d").Language t ↔ t = "route.ts" ∨ t = "route.js" := by
  have opened : ("route.\x7bts,js\x7d" : Text) = "route." ++ "\x7bts,js\x7d" := by decide
  rw [opened, language_read_append (Text.forall_of_all (by decide))]
  constructor
  · rintro ⟨e, rfl, ending⟩
    rcases language_endings.mp ending with rfl | rfl
    · exact .inl rfl
    · exact .inr rfl
  · rintro (rfl | rfl)
    · exact ⟨"ts", rfl, language_endings.mpr (.inl rfl)⟩
    · exact ⟨"js", rfl, language_endings.mpr (.inr rfl)⟩

/-! ### Last characters -/

/-- Every text of the glob ends in the character. -/
def endsIn (x : Char) : Glob → Bool
  | char c => c == x
  | seq a b => b.endsIn x || (b == empty && a.endsIn x)
  | either a b => a.endsIn x && b.endsIn x
  | _ => false

theorem getLast?_of_language {g : Glob} {x : Char} (ends : g.endsIn x = true)
    (inside : g.Language t) : t.getLast? = some x := by
  induction g generalizing t with
  | char c =>
    obtain rfl := eq_of_beq ends
    obtain rfl := inside
    rfl
  | seq a b iha ihb =>
    obtain ⟨u, v, rfl, first, second⟩ := inside
    rcases (Bool.or_eq_true _ _).mp ends with ends | ends
    · rw [List.getLast?_append, ihb ends second]
      rfl
    · obtain ⟨none, ends⟩ := (Bool.and_eq_true _ _).mp ends
      obtain rfl := eq_of_beq none
      obtain rfl := second
      rw [List.append_nil]
      exact iha ends first
  | either a b iha ihb =>
    obtain ⟨left, right⟩ := (Bool.and_eq_true _ _).mp ends
    rcases inside with inside | inside
    · exact iha left inside
    · exact ihb right inside
  | _ => cases ends

theorem getLast?_of_plain {x : Char} (other : x ≠ '/') (last : (Tree.plain t).getLast? = some x) :
    t.getLast? = some x := by
  have suffix (u : Text) : Tree.withoutDots u <:+ u := by
    induction u using Tree.withoutDots.induct with
    | case1 rest ih =>
      rw [Tree.withoutDots]
      exact ih.trans ((List.suffix_cons _ _).trans (List.suffix_cons _ _))
    | case2 u other =>
      have same : Tree.withoutDots u = u := by
        rw [Tree.withoutDots]
        exact other
      exact ⟨[], same⟩
  obtain ⟨front, whole⟩ := suffix (Text.swap '\\' '/' t)
  have swapped : (Text.swap '\\' '/' t).getLast? = some x := by
    rw [← whole, List.getLast?_append]
    exact congrArg (·.or front.getLast?) last
  rw [Text.swap, List.getLast?_map, Option.map_eq_some_iff] at swapped
  obtain ⟨c, final, same⟩ := swapped
  rw [final]
  split at same
  · exact absurd same.symm other
  · rw [same]

namespace Matcher

/-- Every path that is accepted ends in the character. -/
def endsIn (x : Char) : Matcher → Bool
  | glob g => g.endsIn x
  | appRoute => x == 's'

theorem getLast?_of_accepts {m : Matcher} {x : Char} (other : x ≠ '/') (ends : m.endsIn x = true)
    (accepted : m.accepts t = true) : t.getLast? = some x := by
  apply getLast?_of_plain other
  cases m with
  | glob g => exact getLast?_of_language ends (accepts_iff.mp accepted)
  | appRoute =>
    obtain rfl := eq_of_beq ends
    have named := ((Bool.and_eq_true _ _).mp accepted).2
    have suffix : Tree.baseName (Tree.plain t) <:+ Tree.plain t := by
      rcases (Tree.baseName_cases (Tree.plain t)).2 with whole | ⟨u, whole⟩
      · exact ⟨[], whole.symm⟩
      · exact ⟨u ++ ['/'], by rw [List.append_assoc]; exact whole.symm⟩
    have final : (Tree.baseName (Tree.plain t)).getLast? = some 's' := by
      rcases List.mem_cons.mp (List.contains_iff_mem.mp named) with same | named
      · rw [same]
        rfl
      · rw [List.mem_singleton.mp named]
        rfl
    obtain ⟨front, whole⟩ := suffix
    rw [← whole, List.getLast?_append, final]
    rfl

end Matcher
end Glob
end RouteAtlas
