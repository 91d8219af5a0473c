import RouteAtlas.Route.Declaration
import RouteAtlas.OrderedMap
import RouteAtlas.Text.Case

/-!
# Operations

An operation is what the document says of one method of one template. `ofDeclaration` makes it from
a declared route and adds the template's placeholders that the declaration does not describe.
-/

namespace RouteAtlas.Route

def distinctNames (seen : List Text) : List Text → List Text
  | [] => []
  | n :: ns =>
    if seen.contains n then distinctNames seen ns else n :: distinctNames (n :: seen) ns

structure Operation where
  summary : Text
  description : Option Text := none
  parameters : List Parameter := []
  responses : OrderedMap Text Text := .empty

namespace Operation

/-- The placeholders of a template that no path parameter among `described` names. -/
def missing (described : List Parameter) (template : Text) : List Parameter :=
  let names := (described.filter fun p => p.location = ("path" : Text)).map Parameter.name
  ((distinctNames [] (parameterNames template)).filter fun n => !names.contains n).map
    Parameter.inPath

def ofDeclaration (d : Declaration) (template : Text) : Operation where
  summary :=
    match d.summary with
    | some (c :: cs) => c :: cs
    | _ => Text.upper d.method ++ ' ' :: template
  description := d.description
  parameters := missing d.parameters template ++ d.parameters
  responses := .ofList d.responses

end Operation
end RouteAtlas.Route
