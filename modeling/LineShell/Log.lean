import LineShell.Fault

namespace LineShell

/-!
# Log records

* `Level` — how grave a record is;
* `Level.threshold` — the gravity from which records are shown, by the name of a level;
* `Topic` — what a record is about;
* `Record` — one record and its text.
-/

/-- How grave a log record is. -/
inductive Level
  | debug
  | warning
  deriving DecidableEq, Repr

namespace Level

/-- The name of a level. -/
def name : Level → String
  | .debug => "DEBUG"
  | .warning => "WARNING"

/-- The gravity of a level as a number. -/
def gravity : Level → Nat
  | .debug => 10
  | .warning => 30

/-- The names that say from which gravity on records are shown. -/
def named : List (String × Nat) := [
  ("CRITICAL", 50), ("DEBUG", 10), ("ERROR", 40), ("FATAL", 50), ("INFO", 20), ("NOTSET", 0),
  ("WARN", 30), ("WARNING", 30)]

/-- The format that stands where a level should under the name `BASIC_FORMAT`. -/
def basicFormat : String := "%(levelname)s:%(name)s:%(message)s"

/-- The table of formats that stands where a level should under the name `_STYLES`. -/
def styles : String :=
  "\x7b'%': (<class 'logging.PercentStyle'>, '%(levelname)s:%(name)s:%(message)s'), " ++
  "'\x7b': (<class 'logging.StrFormatStyle'>, '\x7blevelname\x7d:\x7bname\x7d:\x7bmessage\x7d'), " ++
  "'$': (<class 'logging.StringTemplateStyle'>, " ++
  "'$\x7blevelname\x7d:$\x7bname\x7d:$\x7bmessage\x7d')\x7d"

/-- The gravity from which records are shown. A name that says nothing shows warnings, and two
names stand for something that is no level at all. -/
def threshold (name : String) : Except Fault Nat :=
  if name == "BASIC_FORMAT" then .error (.invalid ("Unknown level: " ++ Text.quoted basicFormat))
  else if name == "_STYLES" then
    .error (.wrongKind ("Level not an integer or a valid string: " ++ styles))
  else .ok ((named.lookup name).getD warning.gravity)

end Level

/-- What a log record is about. -/
inductive Topic
  | prompt
  | directories
  | execution
  | jobs
  | history
  deriving DecidableEq, Repr

/-- What a record about a topic is marked with. -/
def Topic.name : Topic → String
  | .prompt => "Shell.repl"
  | .directories => "Shell.builtin"
  | .execution => "Shell.executor"
  | .jobs => "Shell.job_control"
  | .history => "Shell.history"

/-- A log record: what it is about, what it says and how grave it is. -/
structure Record where
  level : Level
  topic : Topic
  text : String
  deriving DecidableEq, Repr

/-- A record as it is shown. -/
def Record.line (r : Record) : String :=
  r.level.name ++ " " ++ r.topic.name ++ ": " ++ r.text ++ "\n"

end LineShell
