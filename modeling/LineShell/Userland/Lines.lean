import LineShell.Environment
import LineShell.Userland.FileName
import LineShell.Userland.Program

namespace LineShell.Userland

open Text (Bytes)
open Program

/-!
# Programs that read lines

* `Context` — what a program is called with;
* `Line`, `linesOf` — lines, and bytes as lines;
* `foldLines` — reads lines and answers each of them, as long as more are wanted;
* `readAll` — reads all there is;
* `overOperands` — does something with every file that is named, or else with the standard input.
-/

/-- What a program is called with. -/
structure Context where
  name : String
  arguments : List String
  cwd : Path
  environment : Environment := {}
  deriving DecidableEq, Repr

/-- The path of an operand, seen from the root. -/
def Context.locate (c : Context) (operand : String) : String :=
  if operand == "" then operand else c.cwd.textFrom operand

/-- A program, by what it is called with. Its result is its status. -/
abbrev Utility := Context → Program Int

/-- How much is read at a time. -/
def chunkSize : Nat := 65536

/-- How often a program reads at most. -/
def readings : Nat := 1000000

/-! ### Lines -/

/-- The byte that ends a line. -/
abbrev newline : UInt8 := 10

/-- A line, and the bytes that end it: none if it is the last and nothing does. -/
structure Line where
  text : Bytes
  ending : Bytes := [newline]
  deriving DecidableEq, Repr

namespace Line

/-- A line as it stood. -/
def asRead (l : Line) : Bytes := l.text ++ l.ending

/-- Whether something ends a line. -/
def ended (l : Line) : Bool := !l.ending.isEmpty

end Line

/-- The texts that end with a mark, and what stands behind the last mark. -/
def splitLines (mark : UInt8) : Bytes → List Bytes × Bytes
  | [] => ([], [])
  | b :: bs =>
    let (lines, rest) := splitLines mark bs
    if b = mark then ([] :: lines, rest)
    else match lines with
      | [] => ([], b :: rest)
      | line :: lines => ((b :: line) :: lines, rest)

/-- All lines of some bytes; the last one may not be ended. -/
def linesOf (bs : Bytes) (mark : UInt8 := newline) : List Line :=
  let (lines, rest) := splitLines mark bs
  lines.map (⟨·, [mark]⟩) ++ if rest.isEmpty then [] else [⟨rest, []⟩]

/-- What a program makes of a line. -/
structure Move (σ : Type) where
  state : σ
  out : Bytes := []
  /-- Whether it wants to go on. -/
  more : Bool := true

/-- What a program makes of lines, as long as it wants more, and those that are left. -/
def handleLines {σ : Type} (step : σ → Line → Move σ) : σ → List Line → Move σ × List Line
  | s, [] => ({ state := s }, [])
  | s, line :: lines =>
    let move := step s line
    if move.more then
      let (last, left) := handleLines step move.state lines
      ({ last with out := move.out ++ last.out }, left)
    else (move, lines)

/-- Writes to the standard output, if there is something to write. -/
def emit (bytes : Bytes) : Program Unit := if bytes.isEmpty then pure () else put 1 bytes

/-- How lines are read and answered. -/
structure LineReader (σ : Type) where
  /-- What is made of a line. -/
  step : σ → Line → Move σ
  /-- What is noted of bytes before the lines in them are answered. -/
  note : Bytes → σ → σ := fun _ s => s
  /-- The byte that ends lines. -/
  mark : UInt8 := newline

/-- Reads lines and answers each of them, as long as more are wanted. Lines that were read but not
wanted are given back. `carry` is the start of a line that was read before. -/
def LineReader.run {σ : Type} (r : LineReader σ) (fd : Nat) : Nat → σ → Bytes → Program σ
  | 0, s, _ => pure s
  | fuel + 1, s, carry => do
    match ← take fd chunkSize with
    | .ok [] | .error _ =>
      if carry.isEmpty then return s
      let move := r.step s ⟨carry, []⟩
      emit move.out
      return move.state
    | .ok bytes =>
      let (lines, rest) := splitLines r.mark (carry ++ bytes)
      let (move, left) := handleLines r.step (r.note bytes s) (lines.map (⟨·, [r.mark]⟩))
      emit move.out
      if move.more then r.run fd fuel move.state rest
      else giveBack fd ((left.flatMap Line.asRead).length + rest.length) fun _ => pure move.state

/-- Reads lines, which a mark ends, and answers each of them, as long as more are wanted. -/
def foldLines {σ : Type} (fd : Nat) (step : σ → Line → Move σ) (s : σ)
    (mark : UInt8 := newline) : Program σ :=
  ({ step, mark } : LineReader σ).run fd readings s []

/-- Reads bytes and answers what was read each time. -/
def foldChunks {σ : Type} (fd : Nat) (step : σ → Bytes → σ × Bytes) : Nat → σ → Program σ
  | 0, s => pure s
  | fuel + 1, s => do
    match ← take fd chunkSize with
    | .ok [] | .error _ => return s
    | .ok bytes =>
      let (s, out) := step s bytes
      emit out
      foldChunks fd step fuel s

/-- Reads all there is. -/
def readAll (fd : Nat) : Program Bytes := do
  let parts ← foldChunks fd (fun parts bytes => (bytes :: parts, [])) readings []
  return parts.reverse.flatten

/-- The file that a descriptor leads to, if the standard output leads there too. -/
def outputAt? (fd : Nat) : Program (Option Host.FileStatus) := do
  match ← statusOf fd, ← statusOf 1 with
  | some source, some target => return if source.node = target.node then some source else none
  | _, _ => return none

/-! ### Operands -/

/-- The descriptor of a file that was named. -/
def operandStream : Nat := 3

/-- Writes an error message. -/
def complain (c : Context) (text : String) : Program Unit := say 2 (c.name ++ ": " ++ text ++ "\n")

/-- Writes an error message and how to get help, and exits. -/
def misuse {α : Type} (c : Context) (text : String) (status : Int) : Program α := do
  complain c text
  say 2 ("Try '" ++ c.name ++ " --help' for more information.\n")
  exit status

/-- Does something with one file, or `failed` if it cannot be opened. A single dash is the standard
input. -/
def withOperand {σ : Type} (c : Context) (failed : String → Nat → Program Unit)
    (use : String → Nat → σ → Program σ) (operand : String) (s : σ) : Program (σ × Bool) := do
  if operand == "-" then return (← use operand 0 s, true)
  match ← openAs operandStream (c.locate operand) .read with
  | some e =>
    failed operand e
    return (s, false)
  | none =>
    let s ← use operand operandStream s
    shut operandStream
    return (s, true)

/-- Does something with every file that is named. The answer tells whether all could be opened. -/
def overNamed {σ : Type} (c : Context) (failed : String → Nat → Program Unit)
    (use : String → Nat → σ → Program σ) : List String → σ → Program (σ × Bool)
  | [], s => return (s, true)
  | operand :: operands, s => do
    let (s, first) ← withOperand c failed use operand s
    let (s, others) ← overNamed c failed use operands s
    return (s, first && others)

/-- Does something with every file that is named, or else with the standard input. It is complained
about those that cannot be opened. -/
def overOperands {σ : Type} (c : Context) (operands : List String)
    (excuse : String → String → String) (use : String → Nat → σ → Program σ) (s : σ) :
    Program (σ × Bool) :=
  overNamed c (fun operand e => complain c (excuse operand (systemText e))) use
    (if operands.isEmpty then ["-"] else operands) s

/-- That a file cannot be opened, as most programs put it. -/
def plainExcuse (operand reason : String) : String := shownName operand ++ ": " ++ reason

/-- That a file cannot be opened, with its name as it stands. -/
def bareExcuse (operand reason : String) : String := operand ++ ": " ++ reason

/-- Whether a reason is that something is a directory, which can be opened but not read. -/
def isUnreadable (reason : String) : Bool := reason == systemText Fault.isDirectory

/-- That a file cannot be opened or read, as some programs put it. -/
def openExcuse (operand reason : String) : String :=
  if isUnreadable reason then "error reading " ++ quotedName operand ++ ": " ++ reason
  else "cannot open " ++ quotedName operand ++ " for reading: " ++ reason

/-- The bytes of lines are all there were. -/
theorem linesOf_flatMap_asRead (bs : Bytes) (mark : UInt8) :
    (linesOf bs mark).flatMap Line.asRead = bs := by
  suffices h :
      ((splitLines mark bs).1.flatMap fun l => l ++ [mark]) ++ (splitLines mark bs).2 = bs by
    unfold linesOf
    rw [List.flatMap_append, List.flatMap_map]
    have he : ∀ l : Bytes, Line.asRead ⟨l, [mark]⟩ = l ++ [mark] := fun _ => rfl
    simp only [he]
    split
    · rename_i hr
      rw [List.isEmpty_iff] at hr
      rw [hr] at h
      simpa using h
    · simpa [Line.asRead] using h
  induction bs with
  | nil => rfl
  | cons b bs ih =>
    simp only [splitLines]
    split
    · rename_i hb
      simpa [hb] using ih
    · split
      · rename_i hl
        rw [hl] at ih
        simpa using ih
      · rename_i hl
        rw [hl] at ih
        simpa using ih

end LineShell.Userland
