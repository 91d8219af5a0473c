import RouteAtlas.Extract.Handlers
import RouteAtlas.Extract.Calls
import RouteAtlas.Extract.Strapi
import RouteAtlas.Extract.Django
import RouteAtlas.Extract.Play
import RouteAtlas.Extract.Controller

/-!
# Dialects

The conventions by which a project declares its routes, and the extractors that read them. A dialect
goes by its name (`ofName?_name`).
-/

namespace RouteAtlas

/-- The convention that a project follows. -/
inductive Dialect where
  | nextjsApp
  | nextjsPages
  | express
  | expressSrc
  | expressModules
  | expressBackendModules
  | django
  | play
  | strapi
  | autoDetected
  | dotnetWebApi
  | dotnetMinimalApi
  | dotnetProject
  | unsupported
  | unknown
deriving DecidableEq, Repr

namespace Dialect

def all : List Dialect := [nextjsApp, nextjsPages, express, expressSrc, expressModules,
  expressBackendModules, django, play, strapi, autoDetected, dotnetWebApi, dotnetMinimalApi,
  dotnetProject, unsupported, unknown]

def name : Dialect → Text
  | nextjsApp => "nextjs-app"
  | nextjsPages => "nextjs-pages"
  | express => "express"
  | expressSrc => "express-src"
  | expressModules => "express-modules"
  | expressBackendModules => "express-backend-modules"
  | django => "django"
  | play => "play-framework"
  | strapi => "strapi"
  | autoDetected => "auto-detected"
  | dotnetWebApi => "dotnet-web-api"
  | dotnetMinimalApi => "dotnet-minimal-api"
  | dotnetProject => "dotnet-project"
  | unsupported => "unsupported"
  | unknown => "unknown"

def ofName? (t : Text) : Option Dialect := all.find? fun d => d.name = t

/-- Every dialect is found by its name. -/
theorem ofName?_name (d : Dialect) : ofName? d.name = some d := by cases d <;> decide

/-- A document can be made for projects of the dialect. -/
def isSupported (d : Dialect) : Bool := d != unsupported && d != unknown

def isDotnet (d : Dialect) : Bool :=
  d == dotnetWebApi || d == dotnetMinimalApi || d == dotnetProject

/-- The kind of project that the default name of a document mentions. -/
def folder : Dialect → Text
  | dotnetWebApi | dotnetMinimalApi | dotnetProject => "dotnet"
  | expressBackendModules => "backend"
  | nextjsApp | nextjsPages => "frontend"
  | express | expressSrc | django | play => "api"
  | _ => "unknown"

def scriptExtractors : List Extractor := [Extract.handlers, Extract.routerCalls, Extract.appCalls]

/-- The extractors for a file of a project, in the order in which they run. -/
def extractors (d : Dialect) (file : Text) : List Extractor :=
  match d with
  | nextjsApp | nextjsPages | express | expressSrc | expressModules | expressBackendModules
  | autoDetected => scriptExtractors
  | strapi => scriptExtractors ++ [Extract.routeObjects]
  | django => [Extract.urlPatterns]
  | play => [Extract.playRouter]
  | dotnetMinimalApi => [Extract.minimalEndpoints]
  | dotnetWebApi => [Extract.controller]
  | dotnetProject =>
    if Text.endsWith "Controller.cs" file then [Extract.controller]
    else if Text.endsWith "Program.cs" file then [Extract.minimalEndpoints]
    else []
  | unsupported | unknown => []

def allExtractors : List Extractor := scriptExtractors ++ [Extract.routeObjects,
  Extract.urlPatterns, Extract.playRouter, Extract.minimalEndpoints, Extract.controller]

/-- The routes of a file with their templates, extractor by extractor. -/
def placed (d : Dialect) (file text : Text) : List (Text × Route.Declaration) :=
  (d.extractors file).flatMap fun extractor =>
    (extractor.extract file text).map fun r => (r.template file, r)

end Dialect
end RouteAtlas
