namespace LineShell

/-!
# Paths

* `Anchor`, `Path` — where a path starts, and the names after it;
* `Path.parse` — reads a path: doubled slashes and `.` vanish, `..` stays, and exactly two leading
  slashes stay two;
* `Path.toString` — writes a path;
* `Path.join`, `Path.textFrom` — a path, or its text, taken from another path;
* `Path.parent` — the path without its last name.
-/

/-- Where a path starts. -/
inductive Anchor
  | here
  | root
  | doubleRoot
  deriving DecidableEq, Repr

/-- A start and the names after it. -/
structure Path where
  anchor : Anchor
  names : List String
  deriving DecidableEq, Repr

namespace Path

/-- The parts of a text between its slashes. -/
def segments : List Char → List (List Char)
  | [] => [[]]
  | c :: cs =>
    if c == '/' then [] :: segments cs
    else match segments cs with
      | [] => [[c]]
      | s :: ss => (c :: s) :: ss

/-- Whether a part of a path is a name: it is neither empty nor a single dot. -/
def isName (s : List Char) : Bool := s != [] && s != ['.']

/-- The names of a path's text. -/
def namesOf (cs : List Char) : List String := ((segments cs).filter isName).map String.ofList

/-- Where a path's text starts. -/
def anchorOf : List Char → Anchor
  | '/' :: '/' :: '/' :: _ => .root
  | '/' :: '/' :: _ => .doubleRoot
  | '/' :: _ => .root
  | _ => .here

/-- Reads a path. -/
def parse (s : String) : Path := ⟨anchorOf s.toList, namesOf s.toList⟩

/-- The slashes a path starts with. -/
def anchorText : Anchor → String
  | .here => ""
  | .root => "/"
  | .doubleRoot => "//"

/-- Writes a path. The path of nothing is a dot. -/
protected def toString (p : Path) : String :=
  if p.anchor = .here ∧ p.names = [] then "."
  else anchorText p.anchor ++ "/".intercalate p.names

instance : ToString Path := ⟨Path.toString⟩

/-- Whether a path's text starts at the root. -/
def startsAtRoot (s : String) : Bool := s.toList.head? == some '/'

/-- Whether a path starts at the root. -/
def isAbsolute (p : Path) : Bool := p.anchor != .here

/-- The second path as seen from the first. -/
def join (base p : Path) : Path :=
  if p.isAbsolute then p else ⟨base.anchor, base.names ++ p.names⟩

/-- A path's text as seen from a path. Slashes at its end stay. -/
def textFrom (base : Path) (s : String) : String :=
  if startsAtRoot s then s else base.toString ++ "/" ++ s

/-- A path with one more name. -/
def child (p : Path) (name : String) : Path := ⟨p.anchor, p.names ++ [name]⟩

/-- A path without its last name. -/
def parent (p : Path) : Path := ⟨p.anchor, p.names.dropLast⟩

/-- A path with its names taken literally: `..` takes away the name before it. -/
def lexical (p : Path) : Path :=
  let step (names : List String) (name : String) : List String :=
    if name != ".." then names ++ [name]
    else if names.isEmpty || names.getLast? == some ".." then
      if p.isAbsolute then names else names ++ [".."]
    else names.dropLast
  ⟨p.anchor, p.names.foldl step []⟩

/-- The path relative to a directory above it, if it is one. -/
def below? (p base : Path) : Option (List String) :=
  if base.names.isPrefixOf p.names then some (p.names.drop base.names.length) else none

@[simp] theorem join_of_isAbsolute {base p : Path} (h : p.isAbsolute = true) :
    base.join p = p := by simp [join, h]

@[simp] theorem anchor_join_of_not_isAbsolute {base p : Path} (h : p.isAbsolute = false) :
    (base.join p).anchor = base.anchor := by simp [join, h]

/-- Looking from an absolute path gives an absolute path. -/
theorem isAbsolute_join {base p : Path} (h : base.isAbsolute = true) :
    (base.join p).isAbsolute = true := by
  unfold join
  split
  · assumption
  · simpa [isAbsolute] using h

end Path

end LineShell
