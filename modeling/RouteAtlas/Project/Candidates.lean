import RouteAtlas.Glob.Pattern
import RouteAtlas.Route.Operation
import RouteAtlas.Project.RouteTables

/-!
# Candidate files

Which files of a project may declare routes. Every dialect has a rule: a pattern, the routers of modules,
files of a given name, tables, or facts known already. Files that the configuration leaves out are
taken away.
-/

namespace RouteAtlas.Candidates

inductive Rule where
  | glob (pattern : Text)
  /-- The files below a folder whose names are wanted. -/
  | below (folder : Text) (wanted : Text → Bool)
  | tables
  | known (files : List Text)

/-- The rule of a dialect for a project of given traits. -/
def rule? (s : Traits) : Dialect → Option Rule
  | .nextjsApp => some (.glob "app/api/**/route.\x7bts,js\x7d")
  | .nextjsPages => some (.glob "pages/api/**/*.\x7bts,js\x7d")
  | .express => some (.glob "routes/**/*.\x7bts,js\x7d")
  | .expressSrc => some (.glob "src/routes/**/*.\x7bts,js\x7d")
  | .expressModules => some (.below "src/modules" Traits.namesRouter)
  | .expressBackendModules => some (.below "backend/src/modules" Traits.namesRouter)
  | .django => some (.below (s.djangoRoot.getD []) (· == ("urls.py" : Text)))
  | .play => some (.below [] (Text.endsWith "Router.scala"))
  | .strapi => some .tables
  | .autoDetected => some (.known s.autoTargets)
  | .dotnetMinimalApi => some (.known s.dotnetEntry.toList)
  | .dotnetWebApi => some (.known s.controllers)
  | .dotnetProject => some (.known (s.dotnetEntry.toList ++ s.controllers))
  | .unsupported | .unknown => none

/-- The files that a pattern matches. They all lie below its base. -/
def matching (t : Tree) (root : Path) (pattern : Text) : Except Failure (List Text) := do
  let matcher := Glob.Matcher.ofPattern pattern
  return (← Traits.walk t root (Glob.base pattern) {}).filter matcher.accepts

def Rule.files (t : Tree) (root : Path) : Rule → Except Failure (List Text)
  | .glob pattern => matching t root pattern
  | .below folder wanted => Traits.walk t root folder { wanted }
  | .tables => RouteTables.find t root
  | .known files => .ok files

def distinct (paths : List Text) : List Text := Route.distinctNames [] paths

/-- The files of a project that may declare routes of a dialect, relative to the root and without those
that match a pattern in `excluded`, and what there is to report. -/
def find (t : Tree) (root : Path) (s : Traits) (d : Dialect) (excluded : List Text) :
    Except Failure (List Text × List Log.Record) :=
  match rule? s d with
  | none => .ok ([], [⟨.info, .discovery, "No discovery rule for dialect " ++ d.name⟩])
  | some rule => do
    let found := distinct (← rule.files t root)
    let kept := found.filter fun path => !Glob.anyMatches path excluded
    let left := found.length - kept.length
    return (kept, if left = 0 then [] else
      [⟨.debug, .discovery, "Excluded " ++ Decimal.natText left ++ " files by configuration"⟩])

end RouteAtlas.Candidates
