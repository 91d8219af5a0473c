import Mathlib.Data.List.Basic
import RouteAtlas.Proofs.Route.Passes
import RouteAtlas.Proofs.Route.Slashes

/-!
# Translation

A path is translated segment by segment. `canonical_written` says what becomes of a path that is
written from segments, and which names its template has.
-/

namespace RouteAtlas.Route

open Scanner

/-! ### Written paths -/

theorem exists_words {ws : List Text} {segs : List Segment}
    (h : ws.filter (· ≠ []) = segs.map Segment.text) :
    ∃ words : List (Option Segment),
      words.map (·.elim [] Segment.text) = ws ∧ words.filterMap id = segs := by
  induction ws generalizing segs with
  | nil =>
    obtain rfl := List.map_eq_nil_iff.mp h.symm
    exact ⟨[], rfl, rfl⟩
  | cons w ws ih =>
    by_cases empty : w = []
    · subst empty
      obtain ⟨words, texts, segments⟩ := ih h
      exact ⟨none :: words, by simp [texts], segments⟩
    · rw [List.filter_cons_of_pos (by simpa using empty)] at h
      obtain ⟨seg, more, rfl, rfl, rest⟩ := List.map_eq_cons_iff.mp h.symm
      obtain ⟨words, texts, segments⟩ := ih rest.symm
      exact ⟨some seg :: words, by simp [texts], congrArg (seg :: ·) segments⟩

theorem filter_words (words : List (Option Segment)) :
    (words.map (·.elim [] Segment.template)).filter (· ≠ []) =
      (words.filterMap id).map Segment.template := by
  induction words with
  | nil => rfl
  | cons word words ih =>
    cases word with
    | none => exact ih
    | some seg => simpa [Segment.template_ne_nil] using ih

theorem strip_of_parts {path : Text} {segs : List Segment}
    (h : parts path = segs.map Segment.text) : Text.strip path = path := by
  have edge (x : Char)
      (member : x = '/' ∨ ∃ w ∈ Text.split '/' path, x ∈ w.head? ∨ x ∈ w.getLast?) :
      Text.isBlank x = false := by
    rcases member with rfl | ⟨w, inside, edge⟩
    · decide
    · have nonempty : w ≠ [] := by
        rintro rfl
        simp at edge
      have part : w ∈ parts path := List.mem_filter.mpr ⟨inside, by simpa using nonempty⟩
      rw [h] at part
      obtain ⟨seg, _, rfl⟩ := List.mem_map.mp part
      exact Segment.isBlank_edge edge
  have whole : Text.join ['/'] (Text.split '/' path) = path := Text.join_split '/' path
  apply Text.trim_of_edges
  · intro x first
    rw [← whole] at first
    rcases Text.head?_join first with rfl | ⟨w, inside, first⟩
    · exact edge _ (.inl rfl)
    · exact edge x (.inr ⟨w, inside, .inl first⟩)
  · intro x last
    rw [← whole] at last
    rcases Text.getLast?_join last with rfl | ⟨w, inside, last⟩
    · exact edge _ (.inl rfl)
    · exact edge x (.inr ⟨w, inside, .inr last⟩)

/-- A path whose parts are segments becomes their templates with one slash in front of each. -/
theorem canonical_of_parts {path : Text} {segs : List Segment}
    (h : parts path = segs.map Segment.text) :
    canonical path = '/' :: Text.join "/" (segs.map Segment.template) := by
  obtain ⟨words, texts, segments⟩ := exists_words h
  have whole : spell Segment.text words = path := by
    rw [spell, texts]
    exact Text.join_split '/' path
  have nonempty : words.map (·.elim [] Segment.template) ≠ [] := by
    intro none
    obtain rfl := List.map_eq_nil_iff.mp none
    exact Text.split_ne_nil '/' path texts.symm
  have free : ∀ w ∈ words.map (·.elim [] Segment.template), '/' ∉ w := by
    intro w member
    obtain ⟨word, _, rfl⟩ := List.mem_map.mp member
    cases word with
    | none => exact List.not_mem_nil
    | some seg => exact Segment.notMem_template (by decide) (by decide) (by decide)
  have split : Text.split '/' (spell Segment.template words) = _ := Text.split_join nonempty free
  rw [canonical_eq, strip_of_parts h, ← whole, unify_spell, parts, split, filter_words, segments]

/-- Segments one after the other, each with the number of slashes behind it; where another segment
follows there is one slash more. -/
def written : List (Segment × Nat) → Text
  | [] => []
  | [(seg, gap)] => seg.text ++ List.replicate gap '/'
  | (seg, gap) :: next :: more => seg.text ++ List.replicate (gap + 1) '/' ++ written (next :: more)

theorem parts_slashes (gap : Nat) (t : Text) : parts (List.replicate gap '/' ++ t) = parts t := by
  induction gap with
  | zero => rfl
  | succ gap ih =>
    rw [List.replicate_succ, List.cons_append, parts, Text.split_sep_cons]
    exact ih

theorem parts_append_slash {w : Text} (nonempty : w ≠ []) (free : '/' ∉ w) (t : Text) :
    parts (w ++ '/' :: t) = w :: parts t := by
  rw [parts, Text.split_append_sep free, List.filter_cons_of_pos (by simpa using nonempty)]
  rfl

theorem parts_written (segments : List (Segment × Nat)) :
    parts (written segments) = segments.map fun s => s.1.text := by
  induction segments with
  | nil => decide
  | cons s segments ih =>
    obtain ⟨seg, gap⟩ := s
    cases segments with
    | nil =>
      cases gap with
      | zero =>
        rw [written, List.replicate_zero, List.append_nil, parts,
          Text.split_of_notMem Segment.slash_notMem_text]
        simp [Segment.text_ne_nil]
      | succ gap =>
        have slashes := parts_slashes gap []
        rw [List.append_nil] at slashes
        rw [written, List.replicate_succ,
          parts_append_slash Segment.text_ne_nil Segment.slash_notMem_text, slashes]
        rfl
    | cons next more =>
      rw [written, List.replicate_succ, List.append_assoc, List.cons_append,
        parts_append_slash Segment.text_ne_nil Segment.slash_notMem_text, parts_slashes, ih]
      rfl

theorem finds_template (seg : Segment) :
    ∃ ps, Cuts bracedName seg.template ps ∧ finds ps = seg.name?.toList := by
  rcases seg.template_cases with ⟨none, _, plain⟩ | ⟨n, name, same⟩
  · have brace : '{' ∉ seg.template := Segment.notMem_of_isPlain plain (by decide)
    rw [none]
    exact ⟨_, cuts_of_free opens_bracedName brace, finds_plain _⟩
  · rw [name, same]
    refine ⟨_, cuts_of_find consumes_bracedName fun b rest _ _ => ⟨some '}', ?_⟩, rfl⟩
    rw [placeholder_append]
    exact bracedName_name b n rest

theorem parameterNames_templates (segs : List Segment) :
    parameterNames ('/' :: Text.join "/" (segs.map Segment.template)) =
      segs.filterMap Segment.name? := by
  have slash : bracedName ⟨none, '/' :: Text.join "/" (segs.map Segment.template)⟩ = none :=
    opens_bracedName _ _ _ (by decide)
  rw [parameterNames, findAll_eq_finds, pieces_eq_piecesAt, piecesAt_of_none slash]
  choose ps cuts names using finds_template
  show finds (piecesAt bracedName ⟨some '/', _⟩) = _
  rw [piecesAt_join opens_bracedName (by decide) cuts (.inr rfl), finds_intercalate,
    List.flatMap_map, List.filterMap_eq_flatMap_toList]
  exact congrArg (segs.flatMap ·) (funext names)

/-- Segments with any slashes between, before and behind them become their templates with one slash
in front of each, and the names of the placeholders are those of the segments in order. -/
theorem canonical_written (lead : Nat) (segments : List (Segment × Nat)) :
    canonical (List.replicate lead '/' ++ written segments) =
        '/' :: Text.join "/" (segments.map fun s => s.1.template) ∧
      parameterNames (canonical (List.replicate lead '/' ++ written segments)) =
        segments.filterMap fun s => s.1.name? := by
  have given : parts (List.replicate lead '/' ++ written segments) =
      (segments.map Prod.fst).map Segment.text := by
    rw [parts_slashes, parts_written, List.map_map]
    rfl
  have template := canonical_of_parts given
  rw [template, parameterNames_templates, List.map_map, List.filterMap_map]
  exact ⟨rfl, rfl⟩

end RouteAtlas.Route
