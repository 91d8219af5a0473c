import RouteAtlas.Project.Dialect
import RouteAtlas.Log

/-!
# Traits

What is known of a project before its routes are read. `webDialect` and `dotnetDialect` choose the
dialect from it: the first rule that fits decides.
-/

namespace RouteAtlas

/-- The facts about a project that decide its dialect and where its routes lie. Paths are relative
to the root of the project. -/
structure Traits where
  /-- The marker paths that exist. -/
  markers : List Text := []
  dependencies : List Text := []
  /-- The number of files of a foreign language. -/
  foreignFiles : Nat := 0
  /-- Why the project is of no supported kind, if it is not. -/
  unsupportedReason : Option Text := none
  djangoRoot : Option Text := none
  hasPlayRouters : Bool := false
  modulesWithRouters : List Text := []
  /-- Conventional files with registering calls. -/
  autoTargets : List Text := []
  dotnetEntry : Option Text := none
  dotnetMinimalApi : Bool := false
  controllers : List Text := []
  projectFiles : List Text := []
deriving DecidableEq, Repr

namespace Traits

open Scanner

/-! ### What counts as a router -/

/-- The name is that of a router file: `name.router.ts` or `name.router.js`. -/
def namesRouter (name : Text) : Bool :=
  Text.holds ".router." name && (Text.endsWith ".ts" name || Text.endsWith ".js" name)

/-- A registering call on `app` or `router`. -/
def registeringCall : Scanner Unit := do
  boundary
  let _ ← oneOf ["app", "router"]
  literal "."
  let _ ← oneOf Extract.methods
  let _ ← blanks
  literal "("

def callsRouter (text : Text) : Bool := registeringCall.occursIn text

def mapsEndpoints (text : Text) : Bool :=
  Text.holds "app.Map" text &&
    (["MapGet", "MapPost", "MapPut", "MapDelete"] : List Text).any (Text.holds · text)

/-! ### The dialect -/

def has (s : Traits) (marker : Text) : Bool := s.markers.contains marker

def isStrapi (s : Traits) : Bool :=
  (s.has "packages/core" && s.has "lerna.json") || s.has "config/server.js"
    || s.has "config/server.ts"
    || (["@strapi/strapi", "strapi"] : List Text).any s.dependencies.contains

/-- The reason counts: it is given and not empty. -/
def isUnsupported (s : Traits) : Bool := s.unsupportedReason.any fun reason => !reason.isEmpty

/-- The dialects of web projects with the condition of each, in order of precedence. -/
def webRules (s : Traits) : List (Dialect × Bool) := [
  (.unsupported, s.isUnsupported),
  (.strapi, s.isStrapi),
  (.play, s.has "build.sbt" && s.hasPlayRouters),
  (.django, s.djangoRoot.isSome),
  (.nextjsApp, s.has "app/api"),
  (.nextjsPages, s.has "pages/api"),
  (.express, s.has "routes"),
  (.expressSrc, s.has "src/routes"),
  (.expressModules, s.modulesWithRouters.contains "src/modules"),
  (.expressBackendModules, s.modulesWithRouters.contains "backend/src/modules"),
  (.autoDetected, !s.autoTargets.isEmpty)]

def webDialect (s : Traits) : Dialect :=
  match s.webRules.find? (·.2) with
  | some (d, _) => d
  | none => .unknown

def dotnetDialect (s : Traits) : Dialect :=
  if s.dotnetEntry.any (fun entry => !entry.isEmpty) && s.dotnetMinimalApi then .dotnetMinimalApi
  else if !s.controllers.isEmpty then .dotnetWebApi
  else if !s.projectFiles.isEmpty then .dotnetProject
  else .unknown

def dialectLog (s : Traits) : List Log.Record :=
  if s.webDialect = .unsupported then
    [⟨.info, .classifier, "Unsupported project type: " ++ s.unsupportedReason.getD []⟩]
  else []

end Traits
end RouteAtlas
