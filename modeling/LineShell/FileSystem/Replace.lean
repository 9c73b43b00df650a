import LineShell.FileSystem.Edit

namespace LineShell.FileSystem

open Text (Bytes)

/-!
# Replacing files

A file that is there already is replaced as a whole: its new bytes are written beside it, and the
new file then takes its place.

* `rename` — a name that moves, onto another one if need be;
* `linkText?` — what a symbolic link says;
* `replaceFile` — the file in a path's place replaced by a new one;
* `saveFile` — the bytes of a path, whether or not there is a file already.
-/

/-- What a path leads to moved to another path, in the place of what stands there. A directory does
not give its place. -/
def rename (fs : FileSystem) (cwd : Path) (source target : String) : Except Nat FileSystem := do
  let i ← fs.lookup cwd false source
  match ← fs.find cwd .kept target with
  | .found j => if fs.isDirectoryNode j then .error Fault.isDirectory
  | .absent .. => pure ()
  let (directory, name) ← fs.holder cwd target
  let fs ← fs.remove cwd source
  return fs.modifyEntries directory fun entries => entries.filter (·.1 != name) ++ [(name, i)]

/-- The text of the symbolic link that a path leads to. -/
def linkText? (fs : FileSystem) (cwd : Path) (path : String) : Option String :=
  match fs.lookup cwd false path with
  | .error _ => none
  | .ok i =>
    match fs.node? i with
    | some (.link target) => some target
    | _ => none

/-- What the name of a new file ends in while it is not yet in its place. -/
def besideEnding : String := "-00000.tmp"

/-- A file replaced by a new one with other bytes. Where the path is a symbolic link, the new file
takes the place that the link's text names as it stands, seen from where the caller is. -/
def replaceFile (fs : FileSystem) (cwd : Path) (path : String) (content : Bytes) :
    Except Nat FileSystem := do
  let place := (fs.linkText? cwd path).getD path
  let beside := place ++ besideEnding
  let (i, fs) ← fs.openWriting cwd beside false
  (fs.setContent i content).rename cwd beside place

/-- The bytes of the file that a path leads to. -/
def fileBytes? (fs : FileSystem) (cwd : Path) (path : String) : Option Bytes :=
  match fs.lookup cwd true path with
  | .error _ => none
  | .ok i => fs.content? i

/-- A path's bytes saved: a file that is there is replaced, and else the path is written to. -/
def saveFile (fs : FileSystem) (cwd : Path) (path : String) (content : Bytes) :
    Except Nat FileSystem := do
  if (fs.fileBytes? cwd path).isSome then fs.replaceFile cwd path content
  else
    let (i, fs) ← fs.openWriting cwd path false
    if fs.node? i = some (.device .full) then .error Fault.noSpace
    else return fs.setContent i content

end LineShell.FileSystem
