import LineShell.CommandLine

namespace LineShell

/-!
# The wiring of a stage

Only the first stage may read the line's input file, and only the last may write its output and
error files. All stages between talk through pipes.

* `Link` — where a standard stream of a stage goes;
* `Wiring` — the links of a stage and the files they need;
* `CommandLine.wiring`, `CommandLine.wirings` — the wiring of one stage and of all.
-/

/-- Where a standard stream of a stage goes. -/
inductive Link
  | inherit
  | file
  | pipe
  deriving DecidableEq, Repr

/-- How the standard streams of a stage are connected, and the files that takes. -/
structure Wiring where
  stdin : Link
  stdout : Link
  stderr : Link
  inputPath : Option String := none
  outputPath : Option String := none
  append : Bool := false
  errorPath : Option String := none
  deriving DecidableEq, Repr

namespace CommandLine

/-- The wiring of the stage at an index. An index outside the line is an interior stage's. -/
def wiring (line : CommandLine) (index : Int) : Wiring :=
  let first := index == 0
  let last := index == line.others.length
  let input := if first then target? line.input else none
  let output := if last then target? line.output else none
  let error := if last then target? line.error else none
  { stdin := if !first then .pipe else if input.isSome then .file else .inherit
    stdout := if !last then .pipe else if output.isSome then .file else .inherit
    stderr := if error.isSome then .file else .inherit
    inputPath := input
    outputPath := output
    append := output.isSome && line.append
    errorPath := error }

/-- The wirings of the stages, in order. -/
def wirings (line : CommandLine) : List Wiring :=
  (List.range line.commands.length).map fun i : Nat => line.wiring (i : Int)

@[simp] theorem length_wirings (line : CommandLine) :
    line.wirings.length = line.commands.length := by simp [wirings]

end CommandLine

end LineShell
