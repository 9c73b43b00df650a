namespace LineShell

/-!
# Platforms

* `Platform` — the two ways of starting a program by name;
* `Platform.arguments` — what a system of each kind is handed to start a program.
-/

/-- Whether the system can start a program by name or needs a command interpreter for it. -/
inductive Platform
  | direct
  | interpreted
  deriving DecidableEq, Repr

namespace Platform

/-- The platform of a name. No name, like the empty one, is the platform the program runs on. -/
def ofName (name : Option String) : Platform := if name = some "nt" then interpreted else direct

/-- What the system is handed to start a program: its words, or one text for the command
interpreter. -/
def arguments (argv : List String) : Platform → List String
  | direct => argv
  | interpreted => ["cmd.exe", "/c", " ".intercalate argv]

end Platform

end LineShell
