import RouteAtlas.Atlas.Basic
import RouteAtlas.Json.Basic

/-!
# Documents

The OpenAPI document of an atlas as a JSON value, and its text.
-/

namespace RouteAtlas.Document

open Route

structure Settings where
  title : Text
  description : Text
  version : Text
  serverUrl : Text
deriving DecidableEq, Repr

def formatVersion : Text := "3.0.0"

def ofParameter (p : Parameter) : Json :=
  .object [
    ("name", .string p.name),
    ("in", .string p.location),
    ("required", .bool p.required),
    ("schema", .object [("type", .string p.schema)])]

def ofResponses (responses : OrderedMap Text Text) : Json :=
  .object (responses.toList.map fun (code, text) => (code, .object [("description", .string text)]))

/-- A description. An empty one is left out. -/
def ofDescription : Option Text → List (Text × Json)
  | some (c :: cs) => [("description", .string (c :: cs))]
  | _ => []

def ofOperation (o : Operation) : Json :=
  .object (("summary", .string o.summary) :: (ofDescription o.description ++ [
    (("parameters" : Text), Json.array (o.parameters.map ofParameter)),
    ("responses", ofResponses o.responses)]))

def ofAtlas (a : Atlas) : Json :=
  .object <| a.toList.map fun (template, methods) =>
    (template, .object (methods.toList.map fun (method, o) => (method, ofOperation o)))

def build (a : Atlas) (s : Settings) : Json :=
  .object [
    ("openapi", .string formatVersion),
    ("info", .object [
      ("title", .string s.title),
      ("description", .string s.description),
      ("version", .string s.version)]),
    ("servers", .array [.object [("url", .string s.serverUrl)]]),
    ("paths", ofAtlas a),
    ("components", .object [("schemas", .object [])])]

def text (a : Atlas) (s : Settings) : Text := (build a s).print

/-- The name under which a document is written unless another is given: it tells the project, its
kind and the day. -/
def defaultName (project folder today : Text) : Text :=
  "swagger-output-" ++ project ++ '-' :: folder ++ '-' :: today ++ ".json"

end RouteAtlas.Document
