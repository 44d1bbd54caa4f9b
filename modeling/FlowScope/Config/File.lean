import FlowScope.Config.Toml
import FlowScope.Files.Tree
/-!
Settings in a file.
-/
namespace FlowScope

/-- Why settings could not be read or written. -/
inductive ConfigError where
  | malformed
  | alreadyThere (path : String)
  | file (cause : FileError)
deriving DecidableEq, Repr

def ConfigError.message : ConfigError → String
  | malformed => "TOML parse error"
  | alreadyThere path =>
      "config already exists at " ++ path ++ " (use --force to overwrite)"
  | file cause => cause.message

namespace Config

/-- The settings of a file; none if there is no such file. -/
def load (t : FileTree) (path : String) : Except ConfigError (Option Config) :=
  if !t.exists? path then .ok none
  else
    match t.read path with
    | .error cause => .error (.file cause)
    | .ok content =>
        match ofToml? content with
        | none => .error .malformed
        | some c => .ok (some c)

/-- Write settings into a file. What is there already is replaced only when `force` is set. -/
def save (c : Config) (t : FileTree) (path : String) (force : Bool) :
    Except ConfigError FileTree :=
  if t.exists? path && !force then .error (.alreadyThere path)
  else (t.save path c.toToml).mapError .file

end Config

end FlowScope
