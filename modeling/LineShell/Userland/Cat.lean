import LineShell.Userland.Arguments

namespace LineShell.Userland

open Text (Bytes)

/-!
# Copying files

* `CatStyle` — how lines are shown while they are copied;
* `visible` — a byte in a form that can be seen;
* `cat` — copies files one after another.
-/

/-- Copies all there is. -/
def copyAll (fd : Nat) : Program Unit := foldChunks fd (fun _ bytes => ((), bytes)) readings ()

/-- A number at the right end of some columns. -/
def rightAligned (width n : Nat) : String :=
  let digits := toString n
  String.ofList (List.replicate (width - digits.length) ' ') ++ digits

/-- How lines are shown while they are copied. -/
structure CatStyle where
  numbers : Bool := false
  numbersFull : Bool := false
  squeezes : Bool := false
  marksEnds : Bool := false
  marksTabs : Bool := false
  /-- Whether bytes that have no picture are shown by others. -/
  marksOthers : Bool := false
  deriving DecidableEq, Repr

/-- How far a numbered copy has come. -/
structure CatState where
  count : Nat := 0
  /-- Whether the last line was empty. -/
  afterEmpty : Bool := false
  /-- Whether the last line was not ended. -/
  inside : Bool := false
  /-- Whether a file was left out because it is the output. -/
  leftOut : Bool := false
  deriving DecidableEq, Repr

/-- A byte below 128 in a form that can be seen. -/
def visibleLow (b : UInt8) : Bytes :=
  if b < 32 then ['^'.toUInt8, b + 64]
  else if b = 127 then Text.encode "^?"
  else [b]

/-- A byte in a form that can be seen. -/
def visible (b : UInt8) : Bytes :=
  if b < 128 then visibleLow b else Text.encode "M-" ++ visibleLow (b - 128)

/-- A byte of a line as it is shown. -/
def CatStyle.shown (style : CatStyle) (b : UInt8) : Bytes :=
  if b == '\t'.toUInt8 then (if style.marksTabs then visible b else [b])
  else if style.marksOthers then visible b
  else [b]

/-- A line's text as it is shown. Where ends are marked, a carriage return before one can be
seen. -/
def CatStyle.shownLine (style : CatStyle) (line : Line) : Bytes :=
  if style.marksEnds && line.ended && line.text.getLast? == some '\r'.toUInt8 then
    line.text.dropLast.flatMap style.shown ++ Text.encode "^M"
  else line.text.flatMap style.shown

/-- Shows a line. -/
def catLine (style : CatStyle) (s : CatState) (line : Line) : Move CatState :=
  let empty := line.text.isEmpty && !s.inside
  if style.squeezes && empty && s.afterEmpty then { state := s }
  else
    let counts := !s.inside && (if style.numbersFull then !empty else style.numbers)
    let number := if counts then Text.encode (rightAligned 6 (s.count + 1) ++ "\t") else []
    let mark : Bytes := if line.ended && style.marksEnds then ['$'.toUInt8] else []
    { state := { s with
        count := if counts then s.count + 1 else s.count, afterEmpty := empty
        inside := !line.ended }
      out := number ++ style.shownLine line ++ mark ++ line.ending }

open LongOption in
/-- The options of `cat`. -/
def catOptions : OptionTable where
  flags := "benstuvAET"
  long := [plain "number-nonblank" "b", plain "number" "n", plain "squeeze-blank" "s",
    plain "show-nonprinting" "v", plain "show-ends" "E", plain "show-tabs" "T",
    plain "show-all" "A"]

/-- Copies files. -/
def cat : Utility := fun c => do
  let a ← parseArguments c catOptions 1
  let style : CatStyle := {
    numbers := a.has "n", numbersFull := a.has "b", squeezes := a.has "s"
    marksEnds := a.has "E" || a.has "A" || a.has "e"
    marksTabs := a.has "T" || a.has "A" || a.has "t"
    marksOthers := a.has "v" || a.has "A" || a.has "e" || a.has "t" }
  let use (operand : String) (fd : Nat) (s : CatState) : Program CatState := do
    if (← outputAt? fd).any fun file => file.offset < file.size then
      complain c (plainExcuse operand "input file is output file")
      return { s with leftOut := true }
    else if style = {} then
      copyAll fd
      return s
    else foldLines fd (catLine style) s
  let (s, all) ← overOperands c a.operands plainExcuse use {}
  return if all && !s.leftOut then 0 else 1

/-- A byte that has a picture is shown by it. -/
theorem visible_of_printable {b : UInt8} (h : 32 ≤ b) (h' : b < 127) : visible b = [b] := by
  have h1 : b < 128 := UInt8.lt_trans h' (by decide)
  have h2 : ¬ b < 32 := UInt8.not_lt.mpr h
  have h3 : b ≠ 127 := fun e => by rw [e] at h'; exact absurd h' (by decide)
  simp [visible, visibleLow, h1, h2, h3]

end LineShell.Userland
