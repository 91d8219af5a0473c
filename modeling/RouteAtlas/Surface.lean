import RouteAtlas.Text.Basic

/-!
# Surfaces

A project is surveyed from one of two sides. Each has its own dialects and its own defaults for what a
document says about the project.
-/

namespace RouteAtlas

inductive Surface where
  | web
  | dotnet
deriving DecidableEq, Repr

/-- What a document says of a project where nothing else is known. -/
structure Defaults where
  title : Text
  description : Text := "Auto-generated API documentation"
  version : Text := "1.0.0"
  host : Text
  scheme : Text
  basePath : Text := "/api"

namespace Surface

def name : Surface → Text
  | web => "web"
  | dotnet => "dotnet"

def defaults : Surface → Defaults
  | web => { title := "API Documentation", host := "localhost:3000", scheme := "http" }
  | dotnet => { title := "ASP.NET Core API", host := "localhost:5000", scheme := "https" }

end Surface
end RouteAtlas
