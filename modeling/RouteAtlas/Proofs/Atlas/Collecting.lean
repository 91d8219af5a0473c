import RouteAtlas.Proofs.Atlas.Overlay

/-!
# Collecting file by file

`addFiles` adds the routes of one file after another to a collection. Each step lays a contribution
over the atlas and counts what it replaces; `addFiles_split` says that the outcome is that of all
routes added as those of one file, so their division into files leaves no trace.
-/

namespace RouteAtlas.Collection

open Atlas

def addFiles (c : Collection) (files : List (Text × List Placed)) : Collection :=
  files.foldl (fun c (source, placed) => (c.add source placed).2) c

def routesOf (files : List (Text × List Placed)) : List Placed := files.flatMap Prod.snd

/-! ### One file -/

theorem add_atlas (c : Collection) (source : Text) (placed : List Placed) :
    (c.add source placed).2.atlas = placed.foldl putPlaced c.atlas := by
  show (c.atlas.merge (ofPlaced placed).1 (some source)).1 = _
  rw [merge_fst, ofPlaced_fst, overlay_foldl_putPlaced, overlay_empty]

/-- What a file adds to the overrides: those within it, then those across files. -/
theorem add_overrides (c : Collection) (source : Text) (placed : List Placed) :
    (c.add source placed).2.overrides =
      c.overrides ++ ((ofPlaced placed).2 ++
        (c.atlas.merge (ofPlaced placed).1 (some source)).2) :=
  List.append_assoc ..

def tally (c : Collection) : Nat := c.collisions + c.atlas.endpoints

/-- Every route of a file is an entry or has been replaced. -/
theorem add_tally (c : Collection) (source : Text) (placed : List Placed) :
    (c.add source placed).2.tally = c.tally + placed.length := by
  have within := tally_addAll (.empty, []) placed
  have across := tally_merge c.atlas (ofPlaced placed).1 (some source)
  change (ofPlaced placed).1.endpoints + (ofPlaced placed).2.length = 0 + placed.length at within
  change (c.add source placed).2.atlas.endpoints + _ = _ at across
  rw [tally, collisions, add_overrides, List.length_append, List.length_append, tally, collisions]
  omega

/-! ### All files -/

theorem addFiles_atlas (c : Collection) (files : List (Text × List Placed)) :
    (c.addFiles files).atlas = (routesOf files).foldl putPlaced c.atlas := by
  unfold addFiles routesOf
  induction files generalizing c with
  | nil => rfl
  | cons f files ih =>
    rw [List.foldl_cons, ih, add_atlas, List.flatMap_cons, List.foldl_append]

theorem addFiles_tally (c : Collection) (files : List (Text × List Placed)) :
    (c.addFiles files).tally = c.tally + (routesOf files).length := by
  unfold addFiles routesOf
  induction files generalizing c with
  | nil => rfl
  | cons f files ih =>
    rw [List.foldl_cons, ih, add_tally, List.flatMap_cons, List.length_append]
    omega

/-- How routes are divided into files changes neither the atlas, its order included, nor the number
of collisions. -/
theorem addFiles_split (files : List (Text × List Placed)) :
    (addFiles {} files).atlas = (ofPlaced (routesOf files)).1 ∧
      (addFiles {} files).collisions = (ofPlaced (routesOf files)).2.length := by
  have same : (addFiles {} files).atlas = (ofPlaced (routesOf files)).1 := by
    rw [addFiles_atlas, ofPlaced_fst]
  refine ⟨same, ?_⟩
  have split := addFiles_tally {} files
  have whole := tally_addAll (.empty, []) (routesOf files)
  change (addFiles {} files).collisions + (addFiles {} files).atlas.endpoints =
    0 + (routesOf files).length at split
  change (ofPlaced (routesOf files)).1.endpoints + (ofPlaced (routesOf files)).2.length =
    0 + (routesOf files).length at whole
  rw [same] at split
  omega

end RouteAtlas.Collection
