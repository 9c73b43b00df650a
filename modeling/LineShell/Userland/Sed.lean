import LineShell.Userland.Editor.Parse
import LineShell.Userland.Editor.Run

namespace LineShell.Userland

open Text (Bytes)
open Editor

/-!
# Editing lines

* `ScriptPart` — a part of a script, as an argument or in a file;
* `misplaced` — where in these parts something is wrong;
* `sed` — edits the lines of files.
-/

/-- A part of a script. -/
structure ScriptPart where
  text : List Char
  /-- The file that it stands in, if it does. -/
  file : Option String := none
  deriving DecidableEq, Repr

/-- The parts of a script as one text. -/
def wholeScript (parts : List ScriptPart) : List Char :=
  ['\n'].intercalate (parts.map ScriptPart.text)

/-- Where something is wrong, as messages put it: the part of a script in which so many characters
were read, and how many of that part. `expressions` counts the parts so far that are arguments. -/
def misplaced : Nat → Nat → List ScriptPart → String
  | _, _, [] => ""
  | expressions, read, part :: parts =>
    let expressions := if part.file.isNone then expressions + 1 else expressions
    if read ≤ part.text.length || parts.isEmpty then
      match part.file with
      | none => "-e expression #" ++ toString expressions ++ ", char " ++ toString read
      | some name =>
        let line := ((part.text.take read).filter (· == '\n')).length + 1
        "file " ++ name ++ " line " ++ toString line
    else misplaced expressions (read - part.text.length - 1) parts

/-- Whether a script asks in its first line that lines are written only where commands say so. -/
def asksSilence (parts : List ScriptPart) : Bool :=
  match (parts.headD { text := [] }).text with
  | '#' :: 'n' :: _ => true
  | _ => false

open LongOption in
/-- The options of `sed`. -/
def sedOptions : OptionTable where
  flags := "bsnrzuE"
  valued := "efl"
  optional := "i"
  long := [plain "binary" "b", plain "regexp-extended" "r", plain "debug", optional "in-place" "i",
    valued "expression" "e", valued "file" "f", valued "line-length" "l", plain "null-data" "z",
    plain "zero-terminated" "z", plain "quiet" "n", plain "posix", plain "silent" "n",
    plain "sandbox", plain "separate" "s", plain "unbuffered" "u", plain "follow-symlinks"]

/-- The parts of a script that options name, in order. The program ends where a file of a script
cannot be read. -/
def scriptParts (c : Context) : GivenOptions → Program (List ScriptPart)
  | [] => return []
  | (key, value) :: options => do
    if key == "e" then return { text := value.toList } :: (← scriptParts c options)
    else if key != "f" then scriptParts c options
    else
      let failed (operand : String) (e : Nat) : Program Unit := do
        complain c ("couldn't open file " ++ bareExcuse operand (systemText e))
        .exit 4
      let use (_ : String) (fd : Nat) (_ : List Char) : Program (List Char) := do
        let text := (Text.decodeLossy (← readAll fd)).toList
        return if text.getLast? == some '\n' then text.dropLast else text
      let (text, _) ← withOperand c failed use value []
      return { text, file := some value } :: (← scriptParts c options)

/-- The first descriptor for files that a script writes to. -/
def firstWritten : Nat := 40

/-- Opens the files that a script writes to. -/
def openWritten (c : Context) : List String → List (String × Nat) →
    Program (List (String × Nat))
  | [], opened => return opened
  | name :: names, opened => do
    if name == "/dev/stdout" || name == "/dev/stderr" || (opened.lookup name).isSome then
      openWritten c names opened
    else
      let fd := firstWritten + opened.length
      match ← Program.openAs fd (c.locate name) .write with
      | some e => do
        complain c ("couldn't open file " ++ bareExcuse name (systemText e))
        .exit 4
      | none => openWritten c names (opened ++ [(name, fd)])

/-- Edits the lines of files. -/
def sed : Utility := fun c => do
  let usage : Program Int := do
    Program.say 2 ("Usage: " ++ c.name ++ " [OPTION]... \x7bscript-only-if-no-other-script\x7d " ++
      "[input-file]...\n")
    .exit 1
  let given := sedOptions.parse c.arguments
  if let some text := given.mistake then
    complain c text
    let _ ← usage
  let a ← parseArguments c sedOptions 1
  let named ← scriptParts c a.options
  let (parts, operands) ← match named, a.operands with
    | [], [] => do
      let _ ← usage
      pure ([], [])
    | [], text :: files => pure ([{ text := text.toList }], files)
    | parts, files => pure (parts, files)
  let text := wholeScript parts
  match script (a.has "E" || a.has "r") text with
  | .error (.here what left) => do
    complain c (misplaced 0 (text.length - left) parts ++ ": " ++ what)
    return 1
  | .error (.whole what) => do
    complain c (misplaced 0 0 parts ++ ": " ++ what)
    return 1
  | .error (.fatal what) => do
    complain c what
    return 4
  | .ok script => do
    let inPlace := a.value? "i"
    let y : Style := {
      script, silent := a.has "n" || asksSilence parts
      separate := a.has "s" || inPlace.isSome, inPlace
      mark := if a.has "z" then 0 else newline
      width := ((a.value? "l").bind count?).getD 70 }
    let targets ← openWritten c (script.filterMap fun k => k.action.target?) []
    let waiting := if operands.isEmpty then ["-"] else operands
    Editing.run c y readings false { source := { waiting }, targets }

/-- What is wrong at the start of an argument is wrong in the first part. -/
theorem misplaced_argument (text : List Char) (parts : List ScriptPart) :
    misplaced 0 0 ({ text } :: parts) = "-e expression #1, char 0" := by
  simp only [misplaced, Nat.zero_le, decide_true, Bool.true_or, if_true, Option.isNone_none]
  rfl

end LineShell.Userland
