import LineShell.Userland.Arguments
import LineShell.Userland.Editor.Edit

namespace LineShell.Userland.Editor

open Text (Bytes)

/-!
# Running scripts for editing

* `Style` — how files are edited, but for the script;
* `Source` — the lines that are still to come, from file after file;
* `Editing` — how far the editor has come;
* `Editing.step` — what a command does;
* `Editing.run` — edits all lines.
-/

/-- How files are edited. -/
structure Style where
  script : Script
  /-- Whether a line is written only where a command says so. -/
  silent : Bool := false
  /-- Whether each file has lines of its own numbers. -/
  separate : Bool := false
  /-- Whether files are written again with what becomes of them; the ending of the names under which
  they are kept as they were, if there is one. -/
  inPlace : Option String := none
  /-- The byte that ends lines. -/
  mark : UInt8 := newline
  /-- How wide lines are that are written in characters that can be seen. -/
  width : Nat := 70
  deriving DecidableEq, Repr

/-- The character of the byte that ends lines. -/
def Style.markChar (y : Style) : Char := Char.ofNat y.mark.toNat

/-! ### Lines to come -/

/-- The lines that are still to come. -/
structure Source where
  /-- The files that were not opened yet. -/
  waiting : List String
  /-- The descriptor of the file that is open, if one is, and its name. -/
  open? : Option Nat := none
  name : String := "-"
  /-- Lines that were read, and the start of the next. -/
  lines : List Line := []
  carry : Bytes := []
  /-- Whether there is nothing more to be read from the file. -/
  drained : Bool := false
  /-- All that was read of the file, where it may be kept. -/
  content : Bytes := []
  deriving DecidableEq, Repr

/-- What stands behind a line once it was edited. -/
inductive Appended
  | text (bytes : Bytes)
  | file (name : String)
  deriving DecidableEq, Repr

/-- How far the editor has come. -/
structure Editing where
  source : Source
  count : Nat := 0
  space : List Char := []
  /-- Whether something ends the line. -/
  ended : Bool := true
  held : List Char × Bool := ([], true)
  /-- How far the ranges of commands have come, by the commands' places. -/
  ranges : List (Nat × RangeState) := []
  appended : List Appended := []
  /-- Whether something was replaced since the last line was read. -/
  replaced : Bool := false
  /-- The pattern that was used last. -/
  before : Option Sought := none
  /-- The descriptors on which the last line lacks its end. -/
  lacking : List Nat := []
  /-- What becomes of the file, where it is written again. -/
  result : Bytes := []
  /-- The files that are written to, with their descriptors, and those that lines are read from. -/
  targets : List (String × Nat) := []
  readers : List (String × List Bytes) := []
  /-- Whether all files could be read. -/
  complete : Bool := true
  deriving DecidableEq, Repr

namespace Editing

/-- How much is read at a time. -/
def portion : Nat := 4096

/-- Reads until a line is there or the file has no more. -/
def fill (y : Style) : Nat → Editing → Program Editing
  | 0, s => pure s
  | fuel + 1, s =>
    match s.source.open? with
    | none => pure s
    | some fd =>
      if !s.source.lines.isEmpty || s.source.drained then pure s
      else do
        match ← Program.take fd portion with
        | .ok [] | .error _ =>
          let lines : List Line := if s.source.carry.isEmpty then [] else [⟨s.source.carry, []⟩]
          return { s with source := { s.source with lines, carry := [], drained := true } }
        | .ok bytes =>
          let (lines, carry) := splitLines y.mark (s.source.carry ++ bytes)
          let content := if y.inPlace.isSome then s.source.content ++ bytes else []
          fill y fuel { s with source := { s.source with
            lines := lines.map (⟨·, [y.mark]⟩), carry, content } }

/-- The name under which a file is kept as it was. An asterisk in the ending stands for the name. -/
def keptName (suffix name : String) : String :=
  if suffix.contains '*' then name.intercalate (suffix.splitOn "*") else name ++ suffix

/-- Leaves the file that is open. Where files are written again, this one is. -/
def leave (c : Context) (y : Style) (s : Editing) : Program Editing := do
  match s.source.open? with
  | none => return s
  | some fd =>
    if fd != 0 then Program.shut fd
    let write (name : String) (bytes : Bytes) : Program Unit := do
      let _ ← Program.openAs 4 (c.locate name) .write
      Program.put 4 bytes
      Program.shut 4
    match y.inPlace with
    | some suffix =>
      if fd != 0 then
        if suffix != "" then write (keptName suffix s.source.name) s.source.content
        write s.source.name s.result
    | none => pure ()
    return { s with
      source := { s.source with open? := none, drained := false, content := [] }
      result := [], lacking := if y.inPlace.isSome then [] else s.lacking }

/-- Opens the next file, if there is one. One that is not there is complained about and left out. -/
def advance (c : Context) (y : Style) : List String → Editing → Program Editing
  | [], s => return { s with source := { s.source with waiting := [] } }
  | name :: waiting, s => do
    let opened (fd : Nat) : Editing :=
      let s := { s with source := { s.source with
        waiting, open? := some fd, name, drained := false, content := [] } }
      if y.separate then { s with
        count := 0, ranges := y.script.mapIdx fun i c => (i, c.startState) }
      else s
    if name == "-" && y.inPlace.isNone then return opened 0
    match ← Program.openAs operandStream (c.locate name) .read with
    | none => return opened operandStream
    | some e =>
      if e = Fault.isDirectory then
        complain c (if y.inPlace.isSome then "couldn't edit " ++ name ++ ": not a regular file"
          else "read error on " ++ name ++ ": " ++ systemText e)
        .exit 4
      else
        complain c ("can't read " ++ bareExcuse name (systemText e))
        advance c y waiting { s with complete := false }

/-- Reads until a line is there or no file has more. -/
def ready (c : Context) (y : Style) : Nat → Editing → Program Editing
  | 0, s => pure s
  | fuel + 1, s => do
    let s ← fill y readings s
    if !s.source.lines.isEmpty then return s
    let s ← leave c y s
    if s.source.waiting.isEmpty then return s
    ready c y fuel (← advance c y s.source.waiting s)

/-- Whether the line is the last, of its file or of all. -/
def atEnd (c : Context) (y : Style) (s : Editing) : Program (Bool × Editing) := do
  let s ← if y.separate then fill y readings s else ready c y readings s
  return (s.source.lines.isEmpty, s)

/-! ### Lines written -/

/-- Writes bytes. An end that the last line lacks comes before them. -/
def put (y : Style) (fd : Nat) (bytes : Bytes) (ended : Bool) (s : Editing) : Program Editing := do
  let all := (if s.lacking.contains fd then [y.mark] else []) ++ bytes
  let others := s.lacking.filter (· != fd)
  let s := { s with lacking := if ended then others else fd :: others }
  if fd = 1 && y.inPlace.isSome then return { s with result := s.result ++ all }
  if !all.isEmpty then Program.put fd all
  return s

/-- Writes a text as a line that ends as the line that is edited does. -/
def putLine (y : Style) (fd : Nat) (cs : List Char) (s : Editing) : Program Editing :=
  put y fd (unglyph cs ++ if s.ended then [y.mark] else []) s.ended s

/-- Writes a text as it stands. -/
def putText (y : Style) (text : String) (s : Editing) : Program Editing :=
  put y 1 (Text.encode text) true s

/-- Writes what stands behind the line. -/
def flush (c : Context) (y : Style) (s : Editing) : Program Editing := do
  let one (s : Editing) : Appended → Program Editing
    | .text bytes => put y 1 bytes true s
    | .file name => do
      let fd := if name == "/dev/stdin" then 0 else 5
      let problem ← if fd = 0 then pure none else Program.openAs fd (c.locate name) .read
      match problem with
      | some _ => return s
      | none =>
        let bytes ← readAll fd
        if fd != 0 then Program.shut fd
        put y 1 bytes true s
  let s ← s.appended.foldlM one { s with appended := [] }
  return s

/-- Reads the next line. The answer tells whether there is one. -/
def nextLine (c : Context) (y : Style) (keep : Bool) (s : Editing) : Program (Bool × Editing) := do
  let s ← flush c y s
  let s ← ready c y readings s
  match s.source.lines with
  | [] => return (false, s)
  | line :: lines =>
    let cs := glyphs line.text
    return (true, { s with
      source := { s.source with lines }
      count := s.count + 1, replaced := false, ended := line.ended
      space := if keep then s.space ++ y.markChar :: cs else cs })

/-! ### Commands -/

/-- How it goes on after a command. -/
inductive Flow
  /-- With the command at a place. -/
  | go (place : Nat)
  /-- With the next line; this one is written unless only commands write. -/
  | finish
  /-- With the next line, or with this one again; it is not written. -/
  | drop
  | again
  /-- Not at all. -/
  | quit (status : Nat)
  deriving DecidableEq, Repr

/-- Ends the program because no pattern was used before. -/
def noPattern {α : Type} (c : Context) : Program α := do
  complain c "-e expression #1, char 0: no previous regular expression"
  .exit 1

/-- The descriptor of a file that is written to. -/
def target (s : Editing) (name : String) : Nat :=
  if name == "/dev/stdout" then 1
  else if name == "/dev/stderr" then 2
  else (s.targets.lookup name).getD nowhereStream
where
  /-- A descriptor that leads nowhere. -/
  nowhereStream : Nat := 9

/-- The first of the lines that a line consists of, and the others, if there are any. -/
def firstPart (y : Style) (cs : List Char) : List Char × Option (List Char) :=
  let first := cs.takeWhile (· != y.markChar)
  (first, if first.length < cs.length then some (cs.drop (first.length + 1)) else none)

/-- What a substitution does. -/
def substitute (c : Context) (y : Style) (r : Substitution) (s : Editing) : Program Editing := do
  match r.sought.resolve s.before with
  | none => noPattern c
  | some p =>
    let (space, hit) := r.apply p s.space
    let s := { s with before := some p }
    if !hit then return s
    let s := { s with space, replaced := true }
    let s ← if r.prints then putLine y 1 s.space s else pure s
    match r.target with
    | some name => putLine y (s.target name) s.space s
    | none => return s

/-- Takes the next line from a file that lines are read from. -/
def lineFrom (c : Context) (y : Style) (name : String) (s : Editing) : Program Editing := do
  let (lines, s) ← match s.readers.lookup name with
    | some lines => pure (lines, s)
    | none => do
      let fd := if name == "/dev/stdin" then 0 else 5
      let problem ← if fd = 0 then pure none else Program.openAs fd (c.locate name) .read
      match problem with
      | some _ => pure ([], s)
      | none =>
        let bytes ← readAll fd
        if fd != 0 then Program.shut fd
        pure ((linesOf bytes y.mark).map Line.asRead, s)
  let readers (rest : List Bytes) : List (String × List Bytes) :=
    (name, rest) :: s.readers.filter (·.1 != name)
  match lines with
  | [] => return { s with readers := readers [] }
  | line :: rest =>
    return { s with readers := readers rest, appended := s.appended ++ [.text line] }

/-- What a command does that is for the line. `place` is its place, and `within` tells whether its
range goes on. -/
def act (c : Context) (y : Style) (place : Nat) (within : Bool) (a : Action) (s : Editing) :
    Program (Flow × Editing) := do
  let on (s : Editing) : Program (Flow × Editing) := return (.go (place + 1), s)
  let jump (name : String) (s : Editing) : Program (Flow × Editing) :=
    return (.go ((labelPlace? y.script name).getD y.script.length), s)
  let behind (a : Appended) : Program (Flow × Editing) :=
    on { s with appended := s.appended ++ [a] }
  match a with
  | .substitute r => do on (← substitute c y r s)
  | .transliterate mapping =>
    on { s with space := s.space.map fun d => (mapping.lookup d).getD d }
  | .print => do on (← putLine y 1 s.space s)
  | .printFirst => do
    on (← put y 1 (unglyph (firstPart y s.space).1 ++ [y.mark]) true s)
  | .delete => return (.drop, s)
  | .deleteFirst =>
    match (firstPart y s.space).2 with
    | none => return (.drop, s)
    | some rest => return (.again, { s with space := rest })
  | .next => do
    let (last, s) ← atEnd c y s
    if last then return (.finish, s)
    let s ← if y.silent then pure s else putLine y 1 s.space s
    on (← nextLine c y false s).2
  | .nextAppended => do
    let (last, s) ← atEnd c y s
    if last then return (.finish, s)
    on (← nextLine c y true s).2
  | .quit status silently => do
    if silently then return (.quit status, s)
    let s ← if y.silent then pure s else putLine y 1 s.space s
    return (.quit status, ← flush c y s)
  | .number => do on (← putText y (toString s.count ++ "\n") s)
  | .fileName => do on (← putText y (s.source.name ++ "\n") s)
  | .append text => behind (.text (Text.encode text))
  | .insert text => do on (← putText y text s)
  | .change text => return (.drop, ← if within then pure s else putText y text s)
  | .hold append =>
    on { s with held :=
      if append then (s.held.1 ++ y.markChar :: s.space, s.held.2) else (s.space, s.ended) }
  | .fetch append =>
    on (if append then { s with space := s.space ++ y.markChar :: s.held.1 }
      else { s with space := s.held.1, ended := s.held.2 })
  | .exchange =>
    on { s with space := s.held.1, ended := s.held.2, held := (s.space, s.ended) }
  | .empty => on { s with space := [] }
  | .list width => do
    let shown := listed (width.getD y.width) (unglyph s.space)
    on (← put y 1 (Text.encode (String.ofList shown) ++ [newline]) true s)
  | .readFile name => behind (.file name)
  | .readLine name => do on (← lineFrom c y name s)
  | .writeFile name => do on (← putLine y (s.target name) s.space s)
  | .writeFirst name => do
    on (← put y (s.target name) (unglyph (firstPart y s.space).1 ++ [y.mark]) true s)
  | .branch name => jump name s
  | .branchIf name => if s.replaced then jump name { s with replaced := false } else on s
  | .branchUnless name => if s.replaced then on { s with replaced := false } else jump name s
  | .block _ | .label _ | .nothing => on s

/-- Whether a command depends on whether the line is the last. -/
def Command.asksForLast (k : Command) : Bool := k.first == some .last || k.second == some .last

/-- Does what the command at a place does, if it is for the line. -/
def step (c : Context) (y : Style) (place : Nat) (k : Command) (s : Editing) :
    Program (Flow × Editing) := do
  let (isLast, s) ← if Command.asksForLast k then atEnd c y s else pure (false, s)
  let range := (s.ranges.lookup place).getD k.startState
  let standing : Standing := { number := s.count, isLast, space := s.space, before := s.before }
  match concerns k range standing with
  | none => noPattern c
  | some (mine, range, before) =>
    let ranges := if k.second.isNone then s.ranges
      else (place, range) :: s.ranges.filter (·.1 != place)
    let s := { s with ranges, before }
    let within := match range with
      | .inside _ => true
      | _ => false
    if mine then act c y place within k.action s
    else match k.action with
      | .block behind => return (.go behind, s)
      | _ => return (.go (place + 1), s)

/-- Does what the commands from a place on do. -/
def steps (c : Context) (y : Style) : Nat → Nat → Editing → Program (Flow × Editing)
  | 0, _, s => return (.finish, s)
  | fuel + 1, place, s =>
    match y.script.drop place with
    | [] => return (.finish, s)
    | k :: _ => do
      match ← step c y place k s with
      | (.go place, s) => steps c y fuel place s
      | ended => return ended

/-- Ends the work where a command says so. Bytes that were read but not used are given back. -/
def close (c : Context) (y : Style) (s : Editing) : Program Unit := do
  let unread := (s.source.lines.flatMap Line.asRead).length + s.source.carry.length
  match s.source.open? with
  | some fd =>
    if unread != 0 then Program.giveBack fd unread fun _ => pure ()
  | none => pure ()
  let _ ← leave c y s

/-- Edits lines, the first of them as it is if `again`. The answer is the status. -/
def run (c : Context) (y : Style) : Nat → Bool → Editing → Program Int
  | 0, _, _ => return 1
  | fuel + 1, again, s => do
    let (there, s) ← if again then pure (true, s) else nextLine c y false s
    if !there then
      let s ← leave c y s
      return if s.complete then 0 else 2
    let (flow, s) ← steps c y readings 0 s
    match flow with
    | .quit status => do
      close c y s
      return status
    | .again => do run c y fuel true (← flush c y s)
    | .drop => run c y fuel false s
    | .go _ | .finish => do
      let s ← if y.silent then pure s else putLine y 1 s.space s
      run c y fuel false s

/-- Without commands there is nothing to be done. -/
theorem steps_nil (c : Context) (y : Style) (h : y.script = []) (fuel place : Nat) (s : Editing) :
    steps c y (fuel + 1) place s = pure (.finish, s) := by
  simp [steps, h]

end Editing

end LineShell.Userland.Editor
