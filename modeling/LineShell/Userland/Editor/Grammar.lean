import LineShell.Userland.Pattern

namespace LineShell.Userland.Editor

/-!
# Scripts for editing lines

* `Address` — the lines that a command is for;
* `Substitution` — what takes the place of what matches;
* `Action`, `Command` — what a command does, and for which lines;
* `Script` — commands in a row, with the places of their labels.
-/

/-- A pattern as it stands in a script; nothing stands for the one that was used last. -/
structure Sought where
  pattern : Option Pattern
  fold : Bool := false
  deriving DecidableEq, Repr

/-- A line, or lines, that a command is for. -/
inductive Address
  | line (n : Nat)
  /-- A line and each one that comes so many lines later. -/
  | steps (first step : Nat)
  | last
  | matching (p : Sought)
  /-- At the end of a range: so many lines later, and the next line with a number of this step. -/
  | later (n : Nat)
  | multiple (n : Nat)
  deriving DecidableEq, Repr

/-- How letters of a replacement are changed. -/
inductive CaseChange
  | upper
  | lower
  | stop
  /-- Only the next letter. -/
  | upperNext
  | lowerNext
  deriving DecidableEq, Repr

/-- A piece of what takes the place of a match. -/
inductive Piece
  | text (c : Char)
  /-- What a group has matched; group 0 is the whole match. -/
  | group (n : Nat)
  | change (c : CaseChange)
  deriving DecidableEq, Repr

/-- A substitution. -/
structure Substitution where
  sought : Sought := { pattern := none }
  replacement : List Piece := []
  /-- The number of the first match that is replaced. -/
  nth : Nat := 1
  /-- Whether all matches after it are replaced too. -/
  all : Bool := false
  prints : Bool := false
  /-- A file to which the line is written where something was replaced. -/
  target : Option String := none
  deriving DecidableEq, Repr

/-- What a command does. -/
inductive Action
  | substitute (s : Substitution)
  | transliterate (mapping : List (Char × Char))
  | print
  | printFirst
  | delete
  | deleteFirst
  | next
  | nextAppended
  | quit (status : Nat) (silently : Bool)
  | number
  | fileName
  | append (text : String)
  | insert (text : String)
  | change (text : String)
  | hold (append : Bool)
  | fetch (append : Bool)
  | exchange
  | empty
  | list (width : Option Nat)
  | readFile (name : String)
  | readLine (name : String)
  | writeFile (name : String)
  | writeFirst (name : String)
  /-- The start of a block, with the place behind its end. -/
  | block (behind : Nat)
  | label (name : String)
  /-- Goes on at a label, or at the end of the script: always, after a substitution, or unless there
  was one. -/
  | branch (name : String)
  | branchIf (name : String)
  | branchUnless (name : String)
  | nothing
  deriving DecidableEq, Repr

/-- A command, and the lines that it is for. -/
structure Command where
  first : Option Address := none
  second : Option Address := none
  negated : Bool := false
  action : Action
  deriving DecidableEq, Repr

/-- Commands in a row. -/
abbrev Script := List Command

/-- The place behind a label. An empty name stands for the end of the script. -/
def labelPlace? (commands : Script) (name : String) : Option Nat :=
  if name == "" then some commands.length
  else (commands.findIdx? (·.action == .label name)).map (· + 1)

/-- The label that a command goes to. -/
def Action.goal? : Action → Option String
  | branch name | branchIf name | branchUnless name => some name
  | _ => none

/-- The files that a command writes to. -/
def Action.target? : Action → Option String
  | writeFile name | writeFirst name => some name
  | substitute s => s.target
  | _ => none

/-- The end of a script is always there to go to. -/
@[simp] theorem labelPlace?_empty (commands : Script) :
    labelPlace? commands "" = some commands.length := rfl

end LineShell.Userland.Editor
