import LineShell.FileSystem

namespace LineShell.FileSystem

open Text (Bytes)

/-!
# Changing a file system

* `setContent`, `add`, `addDevices` — a file's new bytes, a new node, the nodes of the devices;
* `openReading`, `openWriting` — the node a path stands for, made if need be;
* `makeDirectories`, `putFile`, `putLink` — new directories, files and links;
* `remove`, `removeTree` — a name that goes, with or without all below it;
* `below` — everything below a directory.
-/

/-- The bytes of a file replaced. A node that is no file stays as it is. -/
def setContent (fs : FileSystem) (i : Inode) (content : Bytes) : FileSystem :=
  ⟨fs.nodes.modify i fun
    | .file _ executable => .file content executable
    | node => node⟩

/-- The entries of a directory changed. -/
def modifyEntries (fs : FileSystem) (i : Inode)
    (f : List (String × Inode) → List (String × Inode)) : FileSystem :=
  ⟨fs.nodes.modify i fun
    | .directory parent entries => .directory parent (f entries)
    | node => node⟩

/-- A new node under a name of a directory. -/
def add (fs : FileSystem) (directory : Inode) (name : String) (node : Node) :
    Inode × FileSystem :=
  let i := fs.nodes.size
  (i, (FileSystem.mk (fs.nodes.push node)).modifyEntries directory (· ++ [(name, i)]))

/-- The devices and their names. -/
def deviceNames : List (String × Device) := [("null", .null), ("zero", .zero), ("full", .full)]

/-- The devices put into a directory. -/
def addDevices (fs : FileSystem) (directory : Inode) : FileSystem :=
  deviceNames.foldl (fun fs (name, device) => (fs.add directory name (.device device)).2) fs

/-- The node that a path to be read leads to. -/
def openReading (fs : FileSystem) (cwd : Path) (path : String) : Except Nat Inode := do
  let i ← fs.lookup cwd true path
  if fs.isDirectoryNode i then .error Fault.isDirectory else return i

/-- The node that a path to be written leads to, which is made if it is not there, and emptied
unless it is kept. -/
def openWriting (fs : FileSystem) (cwd : Path) (path : String) (keep : Bool) :
    Except Nat (Inode × FileSystem) := do
  match ← fs.find cwd .written path with
  | .found i =>
    if fs.isDirectoryNode i then .error Fault.isDirectory
    else return (i, if keep then fs else fs.setContent i [])
  | .absent directory name => return fs.add directory name (.file [] false)

/-- The directories on a path, those that are missing made. -/
def makeDirectories (fs : FileSystem) (i : Inode) : List String → Except Nat (Inode × FileSystem)
  | [] => .ok (i, fs)
  | name :: rest => do
    match ← fs.walk .followed maxLinks i [name] with
    | .found j => fs.makeDirectories j rest
    | .absent directory name =>
      let (j, fs) := fs.add directory name (.directory directory [])
      fs.makeDirectories j rest

/-- A file of some bytes under a path. -/
def putFile (fs : FileSystem) (cwd : Path) (path : String) (content : Bytes) (executable : Bool) :
    Except Nat FileSystem := do
  let (i, fs) ← fs.openWriting cwd path false
  return ⟨(fs.setContent i content).nodes.modify i fun
    | .file content _ => .file content executable
    | node => node⟩

/-- A symbolic link under a path where nothing is yet. -/
def putLink (fs : FileSystem) (cwd : Path) (path target : String) : Except Nat FileSystem := do
  match ← fs.find cwd .kept path with
  | .found _ => .error Fault.alreadyExists
  | .absent directory name => return (fs.add directory name (.link target)).2

/-- The name a path ends in, and the directory that has it. -/
def holder (fs : FileSystem) (cwd : Path) (path : String) : Except Nat (Inode × String) := do
  let names := if Path.startsAtRoot path then (Path.parse path).names
    else cwd.names ++ (Path.parse path).names
  match names.getLast? with
  | none => .error Fault.isDirectory
  | some name =>
    match ← fs.walk .followed maxLinks root names.dropLast with
    | .found i => return (i, name)
    | .absent .. => .error Fault.noEntry

/-- A path's last name taken out of its directory. What it stood for lives on for those who have
it open. -/
def remove (fs : FileSystem) (cwd : Path) (path : String) : Except Nat FileSystem := do
  let _ ← fs.lookup cwd false path
  let (directory, name) ← fs.holder cwd path
  return fs.modifyEntries directory (·.filter (·.1 != name))

/-- Everything below a directory: the names that lead to it, and the node. The depth is bounded by
`fuel`. -/
def below (fs : FileSystem) : Nat → Inode → List (List String × Inode)
  | 0, _ => []
  | fuel + 1, i =>
    match fs.node? i with
    | some (.directory _ entries) =>
      entries.flatMap fun (name, j) =>
        ([name], j) :: (fs.below fuel j).map fun (names, k) => (name :: names, k)
    | _ => []

/-- Everything below a directory. No path in a tree is longer than the number of its nodes. -/
def contents (fs : FileSystem) (i : Inode) : List (List String × Inode) := fs.below fs.nodes.size i

@[simp] theorem content?_setContent_of_ne (fs : FileSystem) {i j : Inode} (h : i ≠ j)
    (content : Bytes) : (fs.setContent i content).content? j = fs.content? j := by
  simp [content?, node?, setContent, Array.getElem?_modify, h]

/-- A file holds what was put into it. -/
theorem content?_setContent {fs : FileSystem} {i : Inode} {old : Bytes}
    (h : fs.content? i = some old) (content : Bytes) :
    (fs.setContent i content).content? i = some content := by
  unfold content? node? at *
  simp only [setContent, Array.getElem?_modify, if_true]
  split at h
  · rename_i c e heq
    simp [heq]
  · cases h

end LineShell.FileSystem
