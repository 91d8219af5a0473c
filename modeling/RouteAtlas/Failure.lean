import RouteAtlas.Yaml.Fault
import RouteAtlas.Text.Utf8
import RouteAtlas.Tree.Basic

/-!
# Failures

Everything that can end a run, with the message that is shown for it. Failures of the operations on
files name the path as it was given to the operation.
-/

namespace RouteAtlas

inductive ConfigFault where
  | unreadable (name : Text)
  | notMapping
  | workers
deriving DecidableEq, Repr

inductive Failure where
  | projectMissing (path : Text)
  | projectNotFolder (path : Text)
  | file (fault : Fault) (path : Text)
  /-- Links lead in a circle. -/
  | linkLoop (path : Text)
  | noHome
  | encoding (fault : Text.Utf8Fault)
  | config (fault : ConfigFault)
  | yaml (fault : Yaml.Fault)
  /-- An integer has too many digits to be written. -/
  | longInteger
deriving DecidableEq, Repr

def configName : Text := ".routegen.yml"

/-- The number and the words of a failed operation, if it has a number. -/
def Fault.numbered : Fault → Option (Nat × Text)
  | missing => some (2, "No such file or directory")
  | present => some (17, "File exists")
  | notFolder => some (20, "Not a directory")
  | isFolder => some (21, "Is a directory")
  | nameTooLong => some (36, "File name too long")
  | tooManyLinks => some (40, "Too many levels of symbolic links")
  | nullCharacter => none

def Fault.message (f : Fault) (path : Text) : Text :=
  match f.numbered with
  | some (n, words) =>
    "[Errno " ++ Decimal.natText n ++ "] " ++ words ++ ": " ++ Text.quote path
  | none => "embedded null byte"

def ConfigFault.message : ConfigFault → Text
  | unreadable name => "Failed to parse " ++ name
  | notMapping => configName ++ " must contain a mapping at the root"
  | workers => "workers must be a positive integer"

namespace Failure

def message : Failure → Text
  | projectMissing path => "Project path not found: " ++ path
  | projectNotFolder path => "Project path is not a directory: " ++ path
  | file f path => f.message path
  | linkLoop path => "Symlink loop from " ++ Text.quote path
  | noHome => "Could not determine home directory."
  | encoding f => f.message
  | config f => f.message
  | yaml f => f.message
  | longInteger => Yaml.limitText ++ Yaml.limitAdvice

def on {α : Type} (path : Path) (operation : Except Fault α) : Except Failure α :=
  operation.mapError fun f => file f path.text

/-- A path that leads nowhere or through something that is no folder. -/
def isPathFailure : Failure → Bool
  | projectMissing _ | projectNotFolder _ | file .missing _ | file .notFolder _ => true
  | _ => false

end Failure
end RouteAtlas
