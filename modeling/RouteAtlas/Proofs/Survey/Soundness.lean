import RouteAtlas.Proofs.Atlas.Soundness
import RouteAtlas.Proofs.Survey.Steps

/-!
# Sound surveys

Whatever a survey finds is a sound atlas: `atlas_sound` says so of any tree, surface, settings and
number of workers.
-/

namespace RouteAtlas.Survey

open Run Atlas

theorem sound_routesIn {t : Tree} {root : Path} {d : Dialect} {file : Text} {p : Placed}
    (h : p ∈ routesIn t root d file) : Route.IsTemplate p.1 ∧ p.2.Sound := by
  unfold routesIn at h
  split at h
  · exact Dialect.sound_placed h
  · cases h

theorem sound_addFiles {t : Tree} {root : Path} {d : Dialect} {workers : Nat} {files : List Text}
    {read : List FileSurvey} (h : surveyFiles t root d workers files = .ok read) :
    (Collection.addFiles {} (entries read)).atlas.Sound := by
  rw [Collection.addFiles_atlas, routesOf_entries, (surveyFiles_ok h).2]
  refine sound_foldl_putPlaced sound_empty fun p member => ?_
  obtain ⟨file, _, inside⟩ := List.mem_flatMap.mp member
  exact sound_routesIn inside

/-- The atlas of a survey is sound. -/
theorem atlas_sound {path : Text} {surface : Surface} {workers : Option Int}
    {given : Option Config} {s s' : Session} {v : Survey} {a : Atlas}
    (ends : Ends (conductWith path surface workers given) s v s') (found : v.atlas? = some a) :
    a.Sound := by
  obtain ⟨collection, collected, rfl⟩ := Option.map_eq_some_iff.mp found
  have course := surveyed_of_ends ends
  split at course
  · obtain ⟨_, _, _, _, _, _, read, _, _, _, _, surveyed, whole, _⟩ := course
    obtain rfl := Option.some.inj (collected.symm.trans whole)
    exact sound_addFiles surveyed
  · rw [course] at collected
    cases collected

/-- A project of one file in a folder that stands for a parameter. -/
def parameterFolder : Session where
  space := {
    tree := {
      top := .folder [("routes", .folder [("[id]", .folder [("files.router.ts", .file (Text.utf8
        "router.get('/:name/(.*)', f)"))])])]
      here := [] }
    today := "2024-01-01" }

theorem atlas_sound_parameterFolder : ∃ v s' a,
    Ends (conductWith "/" .web (some 4) none) parameterFolder v s' ∧ v.atlas? = some a ∧
      a.keys.map String.ofList = ["/\x7bid\x7d/files/\x7bname\x7d/\x7bpath\x7d"] ∧ a.Sound := by
  have run : endsWith (conductWith "/" .web (some 4) none) parameterFolder (fun v =>
      v.atlas?.any fun a => a.keys.map String.ofList =
        ["/\x7bid\x7d/files/\x7bname\x7d/\x7bpath\x7d"]) = true := by decide +kernel
  obtain ⟨v, s', ends, facts⟩ := exists_of_endsWith run
  obtain ⟨a, found, keys⟩ := (Option.any_eq_true _ _).mp facts
  exact ⟨v, s', a, ends, found, of_decide_eq_true keys, atlas_sound ends found⟩

end RouteAtlas.Survey
