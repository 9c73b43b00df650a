import LineShell.Environment
import LineShell.Text.Digit
import LineShell.Text.Uppercase

namespace LineShell

/-!
# Settings

* `Settings` — what can be set about the interpreter, with its defaults;
* `Settings.integer`, `Settings.flag` — a variable read as a number, as a yes or no;
* `Settings.ofEnvironment` — the settings that an environment makes.
-/

/-- What can be set about the interpreter. -/
structure Settings where
  /-- The file that keeps the lines typed. -/
  historyFile : String
  /-- How many lines that file keeps; a negative number keeps all. -/
  historySize : Int := 1000
  useHistory : Bool := true
  /-- How many bytes a relay moves at a time. -/
  relayChunk : Int := 1024
  /-- Whether leaving the interpreter ends the background jobs. -/
  terminateOnExit : Bool := true
  logLevel : String := "WARNING"
  deriving DecidableEq, Repr

namespace Settings

/-- A variable read as a number. What is unset, empty or no number counts as the default. -/
def integer (env : Environment) (name : String) (default : Int) : Int :=
  ((env.nonempty? name).bind fun value => Text.integer? value.toList).getD default

/-- The words that mean yes. -/
def affirmations : List String := ["1", "true", "yes", "on"]

/-- A variable read as yes or no. Only an unset one counts as the default. -/
def flag (env : Environment) (name : String) (default : Bool) : Bool :=
  match env.get? name with
  | none => default
  | some value => affirmations.contains (String.ofList ((Text.trim value.toList).map Char.toLower))

/-- The settings that an environment makes. -/
def ofEnvironment (defaultHistory : String) (env : Environment) : Settings where
  historyFile := env.expandHome ((env.get? "MINISHELL_HISTORY_FILE").getD defaultHistory)
  historySize := integer env "MINISHELL_HISTORY_SIZE" 1000
  relayChunk := max 1 (integer env "MINISHELL_RELAY_CHUNK" 1024)
  terminateOnExit := flag env "MINISHELL_TERMINATE_BG" true
  logLevel := Text.upper ((env.get? "MINISHELL_LOG_LEVEL").getD "WARNING")

/-- A relay always moves at least one byte at a time. -/
theorem one_le_relayChunk_ofEnvironment (defaultHistory : String) (env : Environment) :
    1 ≤ (ofEnvironment defaultHistory env).relayChunk :=
  Int.le_max_left ..

end Settings

end LineShell
