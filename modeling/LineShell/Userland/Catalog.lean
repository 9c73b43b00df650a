import LineShell.Host.Step
import LineShell.Userland.Cat
import LineShell.Userland.Copy
import LineShell.Userland.Count
import LineShell.Userland.Cut
import LineShell.Userland.Format
import LineShell.Userland.Grep
import LineShell.Userland.Output
import LineShell.Userland.Repeat
import LineShell.Userland.Script.Run
import LineShell.Userland.Sed
import LineShell.Userland.Sequence
import LineShell.Userland.Sort
import LineShell.Userland.Transliterate

namespace LineShell.Userland

open Host
open Text (Bytes)

/-!
# The programs of a system

* `Tool`, `catalog` — a program with the ways of its output, and the programs by name;
* `install` — a file system with the files of these programs, and the usual devices, in it;
* `execute` — runs the file at a path, which can be a script for another program;
* `search` — finds a program by name in the directories that the environment names;
* `programs`, `host` — all of this as the programs of a host, and a host of them.
-/

/-- A program, how its output leaves it, and its end where its output takes no more. One without
such an end goes on. -/
structure Tool where
  run : Utility
  outlet : Outlet := .waiting
  refusal : Option Refusal := some {}

/-- What a tool does that is called with something. -/
def Tool.start (t : Tool) (c : Context) : Program Int :=
  (t.outlet.of (t.run c)).guarded (t.refusal.map (Refusal.program · c.name))

/-- The programs by name, but for the shell. -/
def catalog : List (String × Tool) := [
  ("cat", { run := cat, outlet := .direct }),
  ("cut", { run := cut }),
  ("echo", { run := echo }),
  ("false", { run := fun _ => return 1 }),
  ("grep", { run := grep, refusal := some { status := 2 } }),
  ("head", { run := head }),
  ("ls", { run := ls, refusal := some { status := 2 } }),
  ("printf", { run := printf }),
  ("pwd", { run := pwd }),
  ("sed", { run := sed, outlet := .patient, refusal := some {
    complaint := fun reason => ["couldn't flush stdout: " ++ reason], status := 4 } }),
  ("seq", { run := seq }),
  ("sleep", { run := sleepFor }),
  ("sort", { run := sort, refusal := some {
    complaint := fun reason =>
      ["fflush failed: 'standard output': " ++ reason, "write error"]
    status := 2 } }),
  ("tail", { run := tail }),
  ("tee", { run := tee, outlet := .direct, refusal := none }),
  ("tr", { run := tr }),
  ("true", { run := fun _ => return 0 }),
  ("uniq", { run := uniq }),
  ("wc", { run := wc, outlet := .direct, refusal := some {
    complaint := fun _ => ["write error"] } }),
  ("yes", { run := yes, outlet := .direct, refusal := some {
    complaint := fun reason => ["standard output: " ++ reason] } })]

/-- The names of the shell. -/
def shellNames : List String := ["sh", "dash"]

/-! ### Files of programs -/

/-- What the file of a program starts with. -/
def imageMark : Bytes := [0x7f, 0x45, 0x4c, 0x46]

/-- What the file of a program holds. -/
def image (name : String) : Bytes := imageMark ++ Text.encode name

/-- The program that a file's content is, if it is one. -/
def imageName? (content : Bytes) : Option String :=
  if imageMark.isPrefixOf content then Text.decode? (content.drop imageMark.length) else none

/-- The directory of the programs. -/
def programDirectory : Path := ⟨.root, ["usr", "bin"]⟩

/-- A file system with the files of the programs, and the usual devices, in it. -/
def install (files : FileSystem) : Except Nat FileSystem := do
  let (bin, files) ← files.makeDirectories FileSystem.root programDirectory.names
  let names := catalog.map (·.1) ++ shellNames
  let files := names.foldl
    (fun files name => (files.add bin name (.file (image name) true)).2) files
  let (_, files) := files.add FileSystem.root "bin" (.link "usr/bin")
  let (dev, files) ← files.makeDirectories FileSystem.root ["dev"]
  return files.addDevices dev

/-! ### Running files -/

/-- The interpreter of a script and its argument, if there is one: what stands in the script's
first line after `#!`. -/
def interpreter? (content : Bytes) : Option (String × List String) :=
  match content with
  | 35 :: 33 :: rest =>
    let line := (rest.takeWhile (· != newline)).take 253
    let trimmed := ((line.dropWhile isBlankByte).reverse.dropWhile isBlankByte).reverse
    let name := trimmed.takeWhile (!isBlankByte ·)
    let argument := (trimmed.drop name.length).dropWhile isBlankByte
    if name.isEmpty then none
    else some (Text.decodeLossy name,
      if argument.isEmpty then [] else [Text.decodeLossy argument])
  | _ => none

/-- The file of a program is no script. -/
@[simp] theorem interpreter?_image (name : String) : interpreter? (image name) = none := rfl

/-- The longest argument that the system takes, in bytes, with the mark of its end. -/
def longestArgument : Nat := 131072

/-- The name of a program's file without the directories before it. -/
def baseName (path : String) : String := ((Path.parse path).names.getLast?).getD path

mutual

/-- Runs the file at a path. Scripts may be run by scripts, up to some depth. -/
def execute (environment : Environment) :
    Nat → FileSystem → Path → String → List String → Except Nat (Program Int)
  | 0, _, _, _, _ => .error Fault.tooManyLinks
  | depth + 1, files, cwd, path, argv =>
    match files.lookup cwd true path with
    | .error e => .error e
    | .ok i =>
      match files.node? i with
      | some (.file content true) =>
        if argv.any (longestArgument ≤ ·.utf8ByteSize) then .error Fault.tooManyArguments
        else match imageName? content, interpreter? content with
        | some name, _ =>
          let c : Context := {
            name := argv.headD "", arguments := argv.tail, cwd, environment }
          if shellNames.contains name then .ok (Script.sh (finder depth) c)
          else match catalog.lookup name with
            | some tool => .ok (tool.start c)
            | none => .error Fault.notExecutable
        | none, some (interpreter, arguments) =>
          execute environment depth files cwd interpreter
            (interpreter :: arguments ++ path :: argv.tail)
        | none, none => .error Fault.notExecutable
      | _ => .error Fault.denied

/-- Finds the programs that a script calls by name. -/
def finder : Nat → Script.Finder
  | 0 => fun _ _ _ _ => .error Fault.tooManyLinks
  | depth + 1 => fun files cwd environment argv =>
    search environment depth files cwd argv

/-- Finds a program by name. A name with a slash in it is a path; any other is looked for in the
directories that the environment names. The first error counts that says more than that nothing is
there. -/
def search (environment : Environment) :
    Nat → FileSystem → Path → List String → Except Nat (Program Int)
  | 0, _, _, _ => .error Fault.tooManyLinks
  | depth + 1, files, cwd, argv =>
    let name := argv.headD ""
    let candidates := if name.contains '/' then [name]
      else ((environment.get? "PATH").getD "/bin:/usr/bin").splitOn ":" |>.map fun directory =>
        if directory == "" then name
        else if directory.endsWith "/" then directory ++ name
        else directory ++ "/" ++ name
    let attempts := candidates.map fun path => execute environment depth files cwd path argv
    let errors := attempts.filterMap fun
      | .error e => some e
      | .ok _ => none
    let telling (e : Nat) : Bool := e != Fault.noEntry && e != Fault.notDirectory
    match attempts.findSome? fun
      | .ok p => some p
      | .error _ => none with
    | some p => .ok p
    | none => .error ((errors.find? telling <|> errors.getLast?).getD Fault.noEntry)

end

/-! ### As the programs of a host -/

/-- How deep scripts may run scripts. -/
def scriptDepth : Nat := 24

/-- Finds the program for some words in a directory. -/
def find (environment : Environment) (files : FileSystem) (cwd : Path) (argv : List String) :
    Except Fault (Launch (Program Int)) :=
  if argv.any (·.contains '\x00') then .error .embeddedNul
  else match files.lookup ⟨.root, []⟩ true cwd.toString with
    | .error e => .error (.system e (some cwd.toString))
    | .ok i =>
      if !files.isDirectoryNode i then .error (.system Fault.notDirectory (some cwd.toString))
      else match search environment scriptDepth files cwd argv with
        | .error e => .error (.system e (some (argv.headD "")))
        | .ok program => .ok {
            program
            input := { capacity := some Program.pipeCapacity }
            output := { capacity := some Program.pipeCapacity } }

/-- The programs of a system, for a host. -/
def programs (environment : Environment) : Programs (Program Int) where
  find := find environment
  next := Program.next

/-- Whose turn it is where programs that were started earlier are ahead of the others: the eldest is
asked first, and each of them now and then, so that none waits for ever. -/
def eldestFirst (turn : Nat) : Nat := if turn % 64 = 63 then turn / 64 else 0

/-- A host of these programs. -/
def host (environment : Environment) : Host (Program Int) where
  programs := programs environment
  schedule := eldestFirst

end LineShell.Userland
