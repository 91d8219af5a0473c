import RouteAtlas.Atlas.Basic
import RouteAtlas.CommandLine.Arguments
import RouteAtlas.CommandLine.Outcome
import RouteAtlas.Config.Basic
import RouteAtlas.Config.Settings
import RouteAtlas.Decimal.Integer
import RouteAtlas.Decimal.Reading
import RouteAtlas.Decimal.Shortest
import RouteAtlas.Document.Basic
import RouteAtlas.Extract.Basic
import RouteAtlas.Extract.Calls
import RouteAtlas.Extract.Controller
import RouteAtlas.Extract.Django
import RouteAtlas.Extract.Handlers
import RouteAtlas.Extract.MinimalApi
import RouteAtlas.Extract.Play
import RouteAtlas.Extract.Strapi
import RouteAtlas.Failure
import RouteAtlas.Glob.Basic
import RouteAtlas.Glob.Pattern
import RouteAtlas.Json.Basic
import RouteAtlas.Json.Reading
import RouteAtlas.Log
import RouteAtlas.Main
import RouteAtlas.OrderedMap
import RouteAtlas.Project.Candidates
import RouteAtlas.Project.Dialect
import RouteAtlas.Project.Gathering
import RouteAtlas.Project.RouteTables
import RouteAtlas.Project.Traits
import RouteAtlas.Proofs.Atlas.Collecting
import RouteAtlas.Proofs.Atlas.Merging
import RouteAtlas.Proofs.Atlas.Overlay
import RouteAtlas.Proofs.Atlas.Soundness
import RouteAtlas.Proofs.CommandLine.Outcome
import RouteAtlas.Proofs.Config.Loading
import RouteAtlas.Proofs.Document.Reading
import RouteAtlas.Proofs.Extract.ActionPaths
import RouteAtlas.Proofs.Extract.Actions
import RouteAtlas.Proofs.Extract.Attributes
import RouteAtlas.Proofs.Extract.Calls
import RouteAtlas.Proofs.Extract.Cases
import RouteAtlas.Proofs.Extract.Controllers
import RouteAtlas.Proofs.Extract.Described
import RouteAtlas.Proofs.Extract.Distinctness
import RouteAtlas.Proofs.Extract.Exports
import RouteAtlas.Proofs.Extract.Members
import RouteAtlas.Proofs.Extract.Names
import RouteAtlas.Proofs.Extract.Objects
import RouteAtlas.Proofs.Extract.Parameters
import RouteAtlas.Proofs.Extract.Patterns
import RouteAtlas.Proofs.Extract.Recognition
import RouteAtlas.Proofs.Extract.Registrations
import RouteAtlas.Proofs.Extract.Signatures
import RouteAtlas.Proofs.Extract.Soundness
import RouteAtlas.Proofs.Glob.Braces
import RouteAtlas.Proofs.Glob.Coverage
import RouteAtlas.Proofs.Glob.Names
import RouteAtlas.Proofs.Glob.Reading
import RouteAtlas.Proofs.Json.Reading
import RouteAtlas.Proofs.Json.Strings
import RouteAtlas.Proofs.OrderedMap
import RouteAtlas.Proofs.Project.Candidates
import RouteAtlas.Proofs.Project.Detection
import RouteAtlas.Proofs.Project.Faults
import RouteAtlas.Proofs.Project.Gathering
import RouteAtlas.Proofs.Project.Matching
import RouteAtlas.Proofs.Project.Overlooked
import RouteAtlas.Proofs.Project.Presence
import RouteAtlas.Proofs.Project.RouteTables
import RouteAtlas.Proofs.Route.Backfilling
import RouteAtlas.Proofs.Route.Chunks
import RouteAtlas.Proofs.Route.Folders
import RouteAtlas.Proofs.Route.Mounting
import RouteAtlas.Proofs.Route.Naming
import RouteAtlas.Proofs.Route.Passes
import RouteAtlas.Proofs.Route.Placeholders
import RouteAtlas.Proofs.Route.Segments
import RouteAtlas.Proofs.Route.Shapes
import RouteAtlas.Proofs.Route.Slashes
import RouteAtlas.Proofs.Route.Stability
import RouteAtlas.Proofs.Route.Survival
import RouteAtlas.Proofs.Route.Thinning
import RouteAtlas.Proofs.Route.Translation
import RouteAtlas.Proofs.Route.Trimmed
import RouteAtlas.Proofs.Route.Weight
import RouteAtlas.Proofs.Scanner.Cutting
import RouteAtlas.Proofs.Scanner.Identifier
import RouteAtlas.Proofs.Scanner.Pieces
import RouteAtlas.Proofs.Scanner.Places
import RouteAtlas.Proofs.Scanner.Quoted
import RouteAtlas.Proofs.Scanner.Reading
import RouteAtlas.Proofs.Scanner.Replacing
import RouteAtlas.Proofs.Scanner.Sequences
import RouteAtlas.Proofs.Scanner.Silence
import RouteAtlas.Proofs.Session
import RouteAtlas.Proofs.Survey.Accounting
import RouteAtlas.Proofs.Survey.Configured
import RouteAtlas.Proofs.Survey.Effects
import RouteAtlas.Proofs.Survey.Hidden
import RouteAtlas.Proofs.Survey.Overlooked
import RouteAtlas.Proofs.Survey.Republishing
import RouteAtlas.Proofs.Survey.Soundness
import RouteAtlas.Proofs.Survey.Steps
import RouteAtlas.Proofs.Text.Lowering
import RouteAtlas.Proofs.Text.Replacement
import RouteAtlas.Proofs.Text.Splitting
import RouteAtlas.Proofs.Tree.Arranging
import RouteAtlas.Proofs.Tree.Arriving
import RouteAtlas.Proofs.Tree.Content
import RouteAtlas.Proofs.Tree.Effects
import RouteAtlas.Proofs.Tree.Links
import RouteAtlas.Proofs.Tree.Lookup
import RouteAtlas.Proofs.Tree.Orderly
import RouteAtlas.Proofs.Tree.Pruning
import RouteAtlas.Proofs.Tree.Resolving
import RouteAtlas.Proofs.Tree.Walking
import RouteAtlas.Proofs.Tree.Writing
import RouteAtlas.Route.Declaration
import RouteAtlas.Route.Mount
import RouteAtlas.Route.Operation
import RouteAtlas.Route.Template
import RouteAtlas.Session
import RouteAtlas.Surface
import RouteAtlas.Survey.Basic
import RouteAtlas.Survey.Publication
import RouteAtlas.Text.Base64
import RouteAtlas.Text.Basic
import RouteAtlas.Text.Case
import RouteAtlas.Text.CaseTable
import RouteAtlas.Text.Class
import RouteAtlas.Text.DigitTable
import RouteAtlas.Text.PrintableTable
import RouteAtlas.Text.Quoted
import RouteAtlas.Text.Scanner
import RouteAtlas.Text.Utf8
import RouteAtlas.Text.WordTable
import RouteAtlas.Tree.Basic
import RouteAtlas.Tree.Content
import RouteAtlas.Tree.Name
import RouteAtlas.Tree.Path
import RouteAtlas.Tree.Walk
import RouteAtlas.Tree.Write
import RouteAtlas.Workspace
import RouteAtlas.Yaml.Fault
import RouteAtlas.Yaml.Lexeme
import RouteAtlas.Yaml.Lexer
import RouteAtlas.Yaml.Node
import RouteAtlas.Yaml.Scalar
import RouteAtlas.Yaml.Tag
import RouteAtlas.Yaml.Token
import RouteAtlas.Yaml.Value
