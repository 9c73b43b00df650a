import LineShell.Environment
import LineShell.Path

namespace LineShell

/-!
# The prompt

* `userName` — what the prompt calls the user;
* `promptText` — the prompt of a user in a directory.
-/

/-- The variables that may hold the user's name, the first one first. -/
def userVariables : List String := ["LOGNAME", "USER", "LNAME", "USERNAME"]

/-- What the prompt calls the user: what the environment says, else the name of the account, if
there is one. -/
def userName (env : Environment) (account : Option String) : String :=
  (userVariables.findSome? env.nonempty? <|> account).getD "user"

/-- The prompt of a user in a directory. -/
def promptText (user : String) (cwd : Path) : String := user ++ "@:" ++ cwd.toString ++ "$ > "

end LineShell
