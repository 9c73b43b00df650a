import LineShell.FileSystem

namespace LineShell.FileSystem

/-!
# Canonical paths

The canonical path of a path has no symbolic link in it, as far as its names exist.

* `resolveLinks` — follows the links of a path one name at a time. A link that leads back to
  itself is left in place, and everything after it is taken as it stands;
* `canonical` — the path without its links. What still runs into a cycle of links is refused.
-/

/-- A path that was resolved, and whether all of it was: a link that leads back to itself ends the
resolution. -/
structure Resolved where
  path : Path
  complete : Bool
  deriving DecidableEq, Repr

/-- The text that has some parts between its slashes, seen from a path. Where that text starts with
slashes, so does what comes of it: the text `//a` stands for itself wherever it is seen from. -/
def append (path : Path) (parts : List (List Char)) : Path :=
  path.join (Path.parse (String.ofList (['/'].intercalate parts)))

/-- The symbolic link that some names lead to. -/
def linkAt? (fs : FileSystem) (names : List String) : Option String :=
  match fs.lookup ⟨.root, []⟩ false ("/" ++ "/".intercalate names) with
  | .ok i =>
    match fs.node? i with
    | some (.link target) => some target
    | _ => none
  | .error _ => none

/-- The links resolved so far, each with what came of it; `none` while that is being found out. -/
abbrev Seen := List (List String × Option (List String))

/-- Follows the links of a path's parts, seen from a directory without links. Each level of links
takes one unit of fuel. -/
def resolveLinks (fs : FileSystem) :
    Nat → List String → List (List Char) → Seen → Resolved × Seen
  | _, names, [], seen => (⟨⟨.root, names⟩, true⟩, seen)
  | fuel, names, part :: parts, seen =>
    if !Path.isName part then resolveLinks fs fuel names parts seen
    else if part = ['.', '.'] then resolveLinks fs fuel names.dropLast parts seen
    else
      let next := names ++ [String.ofList part]
      match fs.linkAt? next with
      | none => resolveLinks fs fuel next parts seen
      | some target =>
        match seen.lookup next, fuel with
        | some (some known), fuel => resolveLinks fs fuel known parts seen
        | some none, _ => (⟨append ⟨.root, next⟩ parts, false⟩, seen)
        | none, 0 => (⟨append ⟨.root, next⟩ parts, false⟩, seen)
        | none, fuel + 1 =>
          let start := if Path.startsAtRoot target then [] else names
          let (inner, seen) :=
            resolveLinks fs fuel start (Path.segments target.toList) ((next, none) :: seen)
          if inner.complete then
            resolveLinks fs (fuel + 1) inner.path.names parts
              ((next, some inner.path.names) :: seen)
          else (⟨append inner.path parts, false⟩, seen)
termination_by fuel _ parts _ => (fuel, parts.length)

/-- The absolute path without symbolic links that an absolute path leads to, as far as its names
exist. A path that still runs into a cycle of links is refused. -/
def canonical (fs : FileSystem) (path : Path) : Except Fault Path :=
  let parts := (path.names.map String.toList)
  let resolved := (fs.resolveLinks fs.nodes.size [] parts []).1
  let result := resolved.path.lexical
  match fs.lookup ⟨.root, []⟩ true result.toString with
  | .error e => if e = Fault.tooManyLinks then .error (.linkLoop result.toString) else .ok result
  | .ok _ => .ok result

@[simp] theorem resolveLinks_nil (fs : FileSystem) (fuel : Nat) (names : List String)
    (seen : Seen) : fs.resolveLinks fuel names [] seen = (⟨⟨.root, names⟩, true⟩, seen) := by
  simp [resolveLinks]

end LineShell.FileSystem
