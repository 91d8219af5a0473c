import RouteAtlas.Document.Basic
import RouteAtlas.Proofs.Json.Reading
import RouteAtlas.Proofs.Tree.Content

/-!
# Documents that are read back

What a reader of documents makes of one: `atlas?` decodes the paths of a document part by part, and
each part comes back as it was encoded. `atlas?_text` puts this together with printing and reading.
-/

namespace RouteAtlas

namespace Json

def text? : Json → Option Text
  | string t => some t
  | _ => none

def flag? : Json → Option Bool
  | bool b => some b
  | _ => none

def items? : Json → Option (List Json)
  | array items => some items
  | _ => none

def members? : Json → Option (List (Text × Json))
  | object members => some members
  | _ => none

/-- The map that an object describes, whose values are decoded one by one. -/
def map? {α : Type} (value? : Json → Option α) (j : Json) : Option (OrderedMap Text α) := do
  let pairs ← (← j.members?).mapM fun (name, value) => (value? value).map (name, ·)
  return .ofList pairs

end Json

namespace Document

open Route Json

/-- An operation as a document shows it, where an empty description counts as none. -/
def shown (o : Operation) : Operation :=
  { o with description := o.description.filter fun t => !t.isEmpty }

/-! ### Decoding -/

def parameter? (j : Json) : Option Parameter := do
  let name ← (← j.member? "name").text?
  let location ← (← j.member? "in").text?
  let required ← (← j.member? "required").flag?
  let schema ← (← (← j.member? "schema").member? "type").text?
  return { name, location, required, schema }

def response? (j : Json) : Option Text := do (← j.member? "description").text?

def operation? (j : Json) : Option Operation := do
  let summary ← (← j.member? "summary").text?
  let description := (j.member? "description").bind text?
  let parameters ← (← (← j.member? "parameters").items?).mapM parameter?
  let responses ← (← j.member? "responses").map? response?
  return { summary, description, parameters, responses }

/-- The atlas that the paths of a document describe. -/
def atlas? (j : Json) : Option Atlas := j.map? (Json.map? operation?)

theorem mapM_map_some {α β γ : Type} {encode : α → β} {decode? : β → Option γ} {result : α → γ}
    {l : List α} (each : ∀ a ∈ l, decode? (encode a) = some (result a)) :
    (l.map encode).mapM decode? = some (l.map result) := by
  induction l with
  | nil => rfl
  | cons a l ih =>
    obtain ⟨here, each⟩ := List.forall_mem_cons.mp each
    simp [here, ih each]

/-- A map is decoded where its values are. -/
theorem map?_object {α β : Type} {encode : α → Json} {value? : Json → Option β} {result : α → β}
    (m : OrderedMap Text α) (each : ∀ a, value? (encode a) = some (result a)) :
    (object (m.mapValues encode).toList).map? value? = some (m.mapValues result) := by
  have pairs : (m.mapValues encode).toList.mapM (fun (name, value) => (value? value).map (name, ·)) =
      some (m.mapValues result).toList :=
    mapM_map_some fun p _ => congrArg (Option.map (p.1, ·)) (each p.2)
  simp only [Json.map?, members?, Option.bind_eq_bind, Option.bind_some, pairs,
    OrderedMap.ofList_toList, Option.pure_def]

theorem parameter?_ofParameter (p : Parameter) : parameter? (ofParameter p) = some p := rfl

theorem map?_ofResponses (responses : OrderedMap Text Text) :
    (ofResponses responses).map? response? = some responses := by
  have each (t : Text) : response? (object [("description", string t)]) = some (id t) := rfl
  have whole : responses.mapValues id = responses := OrderedMap.ext (List.map_id' responses.toList)
  exact (map?_object responses each).trans (congrArg some whole)

theorem operation?_ofOperation (o : Operation) : operation? (ofOperation o) = some (shown o) := by
  obtain ⟨summary, description, ps, responses⟩ := o
  have parameters : (ps.map ofParameter).mapM parameter? = some ps := by
    rw [mapM_map_some fun p _ => parameter?_ofParameter p, List.map_id']
  have rest (given : Option Text) : (do
      let parameters ← (ps.map ofParameter).mapM parameter?
      let responses ← (ofResponses responses).map? response?
      return (⟨summary, given, parameters, responses⟩ : Operation)) =
        some ⟨summary, given, ps, responses⟩ := by
    rw [parameters, map?_ofResponses]
    rfl
  -- No description and an empty one are both left out.
  rcases description with _ | _ | ⟨c, cs⟩
  · exact rest none
  · exact rest none
  · exact rest (some (c :: cs))

theorem atlas?_ofAtlas (a : Atlas) :
    atlas? (ofAtlas a) = some (a.mapValues (·.mapValues shown)) :=
  map?_object a fun methods => map?_object methods operation?_ofOperation

/-! ### Encoded values -/

theorem plain_mapValues {α : Type} {encode : α → Json} (m : OrderedMap Text α)
    (each : ∀ a, (encode a).Plain) : (object (m.mapValues encode).toList).Plain := by
  refine .object (m.mapValues encode).nodup_keys fun p hp => ?_
  obtain ⟨q, _, rfl⟩ := List.mem_map.mp hp
  exact each q.2

theorem plain_record {members : List (Text × Json)} (names : List Text)
    (named : members.map Prod.fst = names) (distinct : names.Nodup)
    (each : ∀ m ∈ members, m.2.Plain) : (object members).Plain := .object (named ▸ distinct) each

theorem plain_ofParameter (p : Parameter) : (ofParameter p).Plain := by
  have schema : (object [("type", string p.schema)]).Plain :=
    plain_record ["type"] rfl (by decide) (List.forall_mem_singleton.mpr (.string p.schema))
  refine plain_record ["name", "in", "required", "schema"] rfl (by decide) ?_
  simp only [List.forall_mem_cons]
  exact ⟨.string p.name, .string p.location, .bool p.required, schema, List.forall_mem_nil _⟩

theorem plain_ofResponses (responses : OrderedMap Text Text) : (ofResponses responses).Plain := by
  have each (t : Text) : (object [("description", string t)]).Plain :=
    plain_record ["description"] rfl (by decide) (List.forall_mem_singleton.mpr (.string t))
  exact plain_mapValues responses each

theorem plain_ofOperation (o : Operation) : (ofOperation o).Plain := by
  obtain ⟨summary, description, ps, responses⟩ := o
  have parameters : (array (ps.map ofParameter)).Plain :=
    .array (List.forall_mem_map.mpr fun p _ => plain_ofParameter p)
  have last : ∀ m ∈ [(("parameters" : Text), array (ps.map ofParameter)),
      ("responses", ofResponses responses)], m.2.Plain :=
    List.forall_mem_cons.mpr ⟨parameters, List.forall_mem_singleton.mpr (plain_ofResponses responses)⟩
  rcases description with _ | _ | ⟨c, cs⟩
  · exact plain_record ["summary", "parameters", "responses"] rfl (by decide)
      (List.forall_mem_cons.mpr ⟨.string summary, last⟩)
  · exact plain_record ["summary", "parameters", "responses"] rfl (by decide)
      (List.forall_mem_cons.mpr ⟨.string summary, last⟩)
  · exact plain_record ["summary", "description", "parameters", "responses"] rfl (by decide)
      (List.forall_mem_cons.mpr ⟨.string summary, List.forall_mem_cons.mpr ⟨.string (c :: cs), last⟩⟩)

theorem plain_ofAtlas (a : Atlas) : (ofAtlas a).Plain :=
  plain_mapValues a fun methods => plain_mapValues methods plain_ofOperation

theorem plain_build (a : Atlas) (s : Settings) : (build a s).Plain := by
  have info : (object [("title", string s.title), ("description", string s.description),
      ("version", string s.version)]).Plain := by
    refine plain_record ["title", "description", "version"] rfl (by decide) ?_
    simp only [List.forall_mem_cons]
    exact ⟨.string s.title, .string s.description, .string s.version, List.forall_mem_nil _⟩
  have server : (object [("url", string s.serverUrl)]).Plain :=
    plain_record ["url"] rfl (by decide) (List.forall_mem_singleton.mpr (.string s.serverUrl))
  have components : (object [("schemas", object [])]).Plain :=
    plain_record ["schemas"] rfl (by decide)
      (List.forall_mem_singleton.mpr (.object List.nodup_nil (List.forall_mem_nil _)))
  refine plain_record ["openapi", "info", "servers", "paths", "components"] rfl (by decide) ?_
  simp only [List.forall_mem_cons]
  exact ⟨.string formatVersion, info, .array (List.forall_mem_singleton.mpr server), plain_ofAtlas a,
    components, List.forall_mem_nil _⟩

/-! ### Documents -/

/-- The text of a document is ASCII, and reading it gives its parts in order and the atlas that it was
made from. Where a file holds the text, the object in the file is read. -/
theorem atlas?_text (a : Atlas) (s : Settings) :
    (∀ c ∈ text a s, c.toNat < 128) ∧
    ∃ members, Json.parse? (text a s) = some (.object members) ∧
      (∀ (t : Tree) (p : Path), t.read p = .ok (Text.utf8 (text a s)) →
        t.readObject p = .ok (.object members)) ∧
      members.map Prod.fst = ["openapi", "info", "servers", "paths", "components"] ∧
      ((Json.object members).member? "paths").bind atlas? =
        some (a.mapValues (·.mapValues shown)) := by
  have plain := plain_build a s
  have written := written_render plain 0
  have ascii : ∀ c ∈ text a s, c.toNat < 128 := by
    intro c hc
    rcases written c hc with shown | rfl
    · exact Nat.lt_succ_of_lt shown.2
    · decide
  have free : '\r' ∉ text a s := fun h => absurd (written '\r' h) (by decide)
  have parsed : Json.parse? (text a s) = some (build a s) := parse?_print plain
  refine ⟨ascii, _, parsed, fun t p read => ?_, rfl, atlas?_ofAtlas a⟩
  exact Tree.readObject_of_read read ((Tree.jsonOf?_utf8 ascii free).trans parsed)

/-- An operation with an empty description and characters that have to be escaped. -/
def petOperation : Operation where
  summary := "List \"pets\"\n😀é"
  description := some []
  parameters := [.inPath "id"]
  responses := .ofList [("200", "OK"), ("404", "")]

def petAtlas : Atlas := Atlas.put .empty "/pets/\x7bid\x7d" "get" petOperation

def petSettings : Settings := ⟨"Pets", "", "1.0.0", "http://localhost\\api"⟩

/-- The document of the pets in the only file of a folder. -/
def petTree : Tree :=
  ⟨.folder [("pets.json", .file (Text.utf8 (text petAtlas petSettings)))], []⟩

theorem atlas?_text_pets :
    petTree.read ⟨"/", ["pets.json"]⟩ = .ok (Text.utf8 (text petAtlas petSettings)) ∧
      ∃ members, petTree.readObject ⟨"/", ["pets.json"]⟩ = .ok (.object members) ∧
        ((Json.object members).member? "paths").bind atlas? =
          some (petAtlas.mapValues (·.mapValues shown)) := by
  have written : petTree.read ⟨"/", ["pets.json"]⟩ = .ok (Text.utf8 (text petAtlas petSettings)) :=
    rfl
  obtain ⟨_, members, _, loaded, _, decoded⟩ := atlas?_text petAtlas petSettings
  exact ⟨written, members, loaded petTree _ written, decoded⟩

end Document
end RouteAtlas
