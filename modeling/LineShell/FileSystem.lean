import LineShell.Fault
import LineShell.Path
import LineShell.Text.Utf8

namespace LineShell

open Text (Bytes)

/-!
# File systems

A tree of numbered nodes; node 0 is the root.

* `Node` — files, directories, symbolic links and devices;
* `FileSystem` — the nodes by number;
* `FileSystem.walk` — follows names from a directory, with at most so many symbolic links, to the
  `Ending` that is asked for;
* `FileSystem.lookup`, `FileSystem.find` — where a path leads, with and without a last name that
  need not exist.

A walk answers with the error number of the system.
-/

/-- The number of a node. -/
abbrev Inode := Nat

/-- The devices. -/
inductive Device
  /-- Swallows everything and has nothing to read. -/
  | null
  /-- Swallows everything and has zeros without end. -/
  | zero
  /-- Is too full to take anything and has zeros without end. -/
  | full
  deriving DecidableEq, Repr

/-- What a name can stand for. -/
inductive Node
  | file (content : Bytes) (executable : Bool)
  | directory (parent : Inode) (entries : List (String × Inode))
  | link (target : String)
  | device (device : Device)
  deriving DecidableEq, Repr

/-- The nodes by number. A number is never used again. -/
structure FileSystem where
  nodes : Array Node
  deriving DecidableEq, Repr

namespace FileSystem

/-- The number of the root. -/
def root : Inode := 0

/-- A root directory with nothing in it. -/
def empty : FileSystem := ⟨#[.directory root []]⟩

/-- The node of a number. -/
def node? (fs : FileSystem) (i : Inode) : Option Node := fs.nodes[i]?

/-- The longest name, in bytes. -/
def maxName : Nat := 255

/-- The longest path, in bytes, with the mark of its end. -/
def maxPath : Nat := 4096

/-- The most symbolic links that one walk follows. -/
def maxLinks : Nat := 40

/-- The names of a path as the system walks them: single dots stay, and slashes at the end ask
for a directory, by a last name without a letter. -/
def steps (path : List Char) : List String :=
  let names := (Path.segments path).filter (· != [])
  (names ++ if path.getLast? = some '/' then [[]] else []).map String.ofList

/-- What becomes of the last name on a walk. -/
inductive Ending
  /-- A link is not followed. -/
  | kept
  /-- A link is followed. -/
  | followed
  /-- A link is followed, and a file is wanted: slashes at the end are refused. -/
  | written
  deriving DecidableEq, Repr

/-- Where names lead. -/
inductive Spot
  /-- To a node. -/
  | found (i : Inode)
  /-- To a name that its directory does not have. -/
  | absent (directory : Inode) (name : String)
  deriving DecidableEq, Repr

/-- Follows names from a node on, with at most `links` symbolic links on the way. What becomes of
the last name is up to `ending`. -/
def walk (fs : FileSystem) (ending : Ending) (links : Nat) (i : Inode) (names : List String) :
    Except Nat Spot :=
  match names with
  | [] => .ok (.found i)
  | name :: rest =>
    match fs.node? i with
    | some (.directory parent entries) =>
      if name = "" || name = "." then walk fs ending links i rest
      else if name = ".." then walk fs ending links parent rest
      else if ending = .written && rest = [""] then .error Fault.isDirectory
      else if maxName < name.utf8ByteSize then .error Fault.nameTooLong
      else match entries.lookup name with
        | none => if rest.isEmpty then .ok (.absent i name) else .error Fault.noEntry
        | some j =>
          match fs.node? j with
          | some (.link target) =>
            if rest.isEmpty && ending = .kept then .ok (.found j)
            else match links with
              | 0 => .error Fault.tooManyLinks
              | links + 1 =>
                let start := if Path.startsAtRoot target then root else i
                walk fs ending links start (steps target.toList ++ rest)
          | _ => walk fs ending links j rest
    | _ => .error Fault.notDirectory
termination_by (links, names.length)

/-- Where a path leads that is seen from a directory. -/
def find (fs : FileSystem) (cwd : Path) (ending : Ending) (path : String) : Except Nat Spot :=
  if path.isEmpty then .error Fault.noEntry
  else if maxPath ≤ path.utf8ByteSize then .error Fault.nameTooLong
  else
    let names := steps path.toList
    walk fs ending maxLinks root (if Path.startsAtRoot path then names else cwd.names ++ names)

/-- The node that a path leads to, its last link followed if `follow` says so. -/
def lookup (fs : FileSystem) (cwd : Path) (follow : Bool) (path : String) : Except Nat Inode :=
  match fs.find cwd (if follow then .followed else .kept) path with
  | .error e => .error e
  | .ok (.found i) => .ok i
  | .ok (.absent ..) => .error Fault.noEntry

/-- Whether a node is a directory. -/
def isDirectoryNode (fs : FileSystem) (i : Inode) : Bool :=
  match fs.node? i with
  | some (.directory ..) => true
  | _ => false

/-- The errors that mean that something is not there, rather than that looking failed. -/
def meansAbsent (e : Nat) : Bool :=
  e == Fault.noEntry || e == Fault.notDirectory || e == 9 || e == Fault.tooManyLinks

/-- Whether a path leads to a directory. An error that does not mean its absence is handed on. -/
def isDirectory (fs : FileSystem) (cwd : Path) (path : String) : Except Nat Bool :=
  match fs.lookup cwd true path with
  | .ok i => .ok (fs.isDirectoryNode i)
  | .error e => if meansAbsent e then .ok false else .error e

/-- Whether a path leads anywhere. -/
def contains (fs : FileSystem) (cwd : Path) (path : String) : Bool :=
  match fs.lookup cwd true path with
  | .ok _ => true
  | .error _ => false

/-- The bytes of a file. -/
def content? (fs : FileSystem) (i : Inode) : Option Bytes :=
  match fs.node? i with
  | some (.file content _) => some content
  | _ => none

@[simp] theorem walk_nil (fs : FileSystem) (ending : Ending) (links : Nat) (i : Inode) :
    fs.walk ending links i [] = .ok (.found i) := by
  simp [walk]

@[simp] theorem find_empty (fs : FileSystem) (cwd : Path) (ending : Ending) :
    fs.find cwd ending "" = .error Fault.noEntry := rfl

end FileSystem

end LineShell
