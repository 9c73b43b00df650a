namespace LineShell

/-!
# Environments

* `Environment` — the variables that a program is started with;
* `Environment.home?` — the home directory of a user;
* `Environment.expandHome` — a path whose leading `~` or `~user` stands for a home directory.
-/

/-- The variables that a program is started with. -/
structure Environment where
  bindings : List (String × String) := []
  deriving DecidableEq, Repr

namespace Environment

/-- The value of a variable. -/
def get? (env : Environment) (name : String) : Option String := env.bindings.lookup name

/-- The environment with a variable set. -/
def set (env : Environment) (name value : String) : Environment :=
  ⟨(name, value) :: env.bindings.filter (·.1 != name)⟩

/-- The environment without a variable. -/
def erase (env : Environment) (name : String) : Environment :=
  ⟨env.bindings.filter (·.1 != name)⟩

/-- The value of a variable that is set to something. -/
def nonempty? (env : Environment) (name : String) : Option String :=
  (env.get? name).filter (· != "")

/-- The home directories that the system knows by user name. -/
def accounts : List (String × String) := [("root", "/root")]

/-- The home directory of a user; the empty name stands for whoever runs the program. -/
def home? (env : Environment) (user : List Char) : Option String :=
  if user.isEmpty then env.get? "HOME" <|> accounts.lookup "root"
  else accounts.lookup (String.ofList user)

/-- A text without the slashes at its end. -/
def dropSlashes (cs : List Char) : List Char := (cs.reverse.dropWhile (· == '/')).reverse

/-- A path whose leading `~` or `~user` stands for a home directory. The path of an unknown user
stays as it is. -/
def expandHome (env : Environment) (path : String) : String :=
  match path.toList with
  | '~' :: cs =>
    match env.home? (cs.takeWhile (· != '/')) with
    | none => path
    | some home =>
      match dropSlashes home.toList ++ cs.dropWhile (· != '/') with
      | [] => "/"
      | expanded => String.ofList expanded
  | _ => path

@[simp] theorem get?_set (env : Environment) (name value : String) :
    (env.set name value).get? name = some value := by
  simp [get?, set]

end Environment

end LineShell
