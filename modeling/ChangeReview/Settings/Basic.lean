import ChangeReview.Settings.EnvFile
import ChangeReview.World

/-!
# Settings

Three settings, each with a default, can be changed by a variable of the environment, or of the file
`.env` in the current directory; the environment goes before the file. The case of the names of
variables does not matter, and a value that is empty is a value.
-/

namespace ChangeReview

/-- The settings of a run. -/
structure Settings where
  /-- The commit to compare with where the command line names none. -/
  defaultCommit : String
  /-- The name of the configuration file. -/
  configFile : String
  /-- The name of the least level that is logged. -/
  logLevel : String
  deriving DecidableEq, Repr

namespace Settings

/-- The name of the file that may hold variables. -/
def envFile : Path := Path.ofString ".env"

/-- The variables in the file, if there is one, without the byte order mark that may start it. -/
def fileVariables (w : World) : Except ReadError EnvFile.Variables :=
  match w.optionalFile envFile with
  | .error e => .error e
  | .ok none => .ok []
  | .ok (some bytes) => do
    let text ← World.decodeText bytes
    let text :=
      if text.toList.head? = some '\uFEFF' then String.ofList (text.toList.drop 1) else text
    return EnvFile.read w.env text

/-- The value of a setting: of several variables whose names differ in case only, the last counts.
-/
def value (w : World) (inFile : EnvFile.Variables) (name default : String) : String :=
  let isNamed (n : String) : Bool := n.toLower == "pyright_review_" ++ name
  -- The environment goes before the file even where the file spells the name in upper case.
  match w.env.reverse.find? fun v => isNamed v.1 with
  | some v => v.2
  | none => ((inFile.reverse.find? fun v => isNamed v.1).bind (·.2)).getD default

/-- The settings that hold in a world. -/
def read (w : World) : Except ReadError Settings := do
  let inFile ← fileVariables w
  return {
    defaultCommit := value w inFile "default_commit" "main"
    configFile := value w inFile "repo_config_file" ".pyright-review.yaml"
    logLevel := value w inFile "log_level" "INFO" }

end Settings

end ChangeReview
