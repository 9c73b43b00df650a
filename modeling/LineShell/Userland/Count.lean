import LineShell.Text.Width
import LineShell.Userland.Arguments

namespace LineShell.Userland

open Text (Bytes)

/-!
# Counting

* `Tally` — how many lines, words, characters and bytes there are in a file;
* `Tally.add` — the tally after some more bytes;
* `wc` — writes the tallies of files, in columns that are as wide as the sizes of the files ask for.
-/

/-- How many lines, words, characters and bytes there are. -/
structure Tally where
  lines : Nat := 0
  words : Nat := 0
  chars : Nat := 0
  bytes : Nat := 0
  /-- How wide the widest line is, and the last one so far. -/
  longest : Nat := 0
  current : Nat := 0
  /-- Whether the last character is within a word. -/
  inWord : Bool := false
  /-- The bytes of a character that is not complete. -/
  started : Bytes := []
  deriving DecidableEq, Repr

namespace Tally

/-- The blanks that separate words, among the characters that have a picture. -/
def blanks : List Nat :=
  [0x20, 0xA0, 0x1680, 0x2000, 0x2001, 0x2002, 0x2003, 0x2004, 0x2005, 0x2006, 0x2007, 0x2008,
    0x2009, 0x200A, 0x202F, 0x205F, 0x2060, 0x3000]

/-- The tally after one more character. A character that is neither a blank nor has a picture is
part of the word that it stands in, if it does. -/
def addChar (t : Tally) (c : Char) : Tally :=
  let t := { t with chars := t.chars + 1, started := [] }
  let ended : Tally := { t with longest := max t.longest t.current, inWord := false }
  let wider (n : Nat) : Tally :=
    let current := t.current + n
    { t with current, longest := max t.longest current, inWord := false }
  if c == '\n' then { ended with lines := t.lines + 1, current := 0 }
  else if c == '\r' || c == '\x0c' then { ended with current := 0 }
  else if c == '\t' then wider (8 - t.current % 8)
  else if c == '\x0b' then { t with inWord := false }
  else if blanks.contains c.toNat then wider (Text.columns c)
  else if Text.isPrintable c then
    { wider (Text.columns c) with
      words := if t.inWord then t.words else t.words + 1, inWord := true }
  else t

/-- The tally after a byte that starts anew. A byte that starts no character is only a byte. -/
def addFirst (t : Tally) (b : UInt8) : Tally :=
  if b < 128 then t.addChar (Char.ofNat b.toNat)
  else match Text.Lead.ofByte? b with
    | none => { t with started := [] }
    | some _ => { t with started := [b] }

/-- The tally after one more byte. -/
def addByte (t : Tally) (b : UInt8) : Tally :=
  let t := { t with bytes := t.bytes + 1 }
  match t.started with
  | [] => t.addFirst b
  | first :: others =>
    match Text.Lead.ofByte? first with
    | none => t.addFirst b
    | some lead =>
      match Text.continuation lead.count lead.low lead.high lead.bits (others ++ [b]) with
      | (some n, _) => t.addChar (Char.ofNat n)
      | (none, []) => { t with started := t.started ++ [b] }
      | (none, _) => t.addFirst b

/-- The tally after some more bytes. -/
def add (t : Tally) (bs : Bytes) : Tally := bs.foldl addByte t

/-- Two files counted as one. -/
def total (t u : Tally) : Tally where
  lines := t.lines + u.lines
  words := t.words + u.words
  chars := t.chars + u.chars
  bytes := t.bytes + u.bytes
  longest := max t.longest u.longest

/-- Bytes can be counted piece by piece. -/
theorem add_append (t : Tally) (bs cs : Bytes) : t.add (bs ++ cs) = (t.add bs).add cs :=
  List.foldl_append

end Tally

open LongOption in
/-- The options of `wc`. -/
def wcOptions : OptionTable where
  flags := "clLmw"
  long := [plain "bytes" "c", plain "chars" "m", plain "lines" "l", plain "words" "w",
    valued "files0-from", plain "max-line-length" "L"]

/-- What is shown of a tally, in columns. -/
def Tally.shown (t : Tally) (a : Arguments) : List Nat :=
  if !(["l", "w", "m", "c", "L"].any a.has) then [t.lines, t.words, t.bytes]
  else (if a.has "l" then [t.lines] else []) ++ (if a.has "w" then [t.words] else []) ++
    (if a.has "m" then [t.chars] else []) ++ (if a.has "c" then [t.bytes] else []) ++
    (if a.has "L" then [t.longest] else [])

/-- A tally in a line. -/
def tallyLine (a : Arguments) (width : Nat) (name : String) (t : Tally) : String :=
  let column (n : Nat) : String :=
    let digits := toString n
    String.ofList (List.replicate (width - digits.length) ' ') ++ digits
  " ".intercalate ((t.shown a).map column) ++ (if name == "" then "" else " " ++ name) ++ "\n"

/-- How wide columns are for files of these sizes; what is no file has no size. -/
def columnWidth (sizes : List (Option Nat)) : Nat :=
  let digits := (toString ((sizes.filterMap id).foldl (· + ·) 0)).length
  if sizes.any Option.isNone then max 7 digits else digits

/-- The sizes of the files that are named. Those that cannot be opened do not count. -/
def sizesOf (c : Context) : List String → Program (List (Option Nat))
  | [] => return []
  | "-" :: names => do
    return (← Program.statusOf 0).map Host.FileStatus.size :: (← sizesOf c names)
  | name :: names => do
    let files ← Program.survey
    let own : List (Option Nat) := match files.lookup c.cwd true (c.locate name) with
      | .ok i => [(files.content? i).map List.length]
      | .error _ => []
    return own ++ (← sizesOf c names)

/-- Counts what is in files. There is nothing in a directory, but a line for it. -/
def wc : Utility := fun c => do
  let a ← parseArguments c wcOptions 1
  let named := a.operands.length
  let single := named ≤ 1 && ((Tally.shown {} a).length == 1)
  let names := if named == 0 then ["-"] else a.operands
  let width ← if single then pure 1 else columnWidth <$> sizesOf c names
  let use (operand : String) (fd : Nat) (sum : Tally) : Program Tally := do
    let t ← foldChunks fd (fun (t : Tally) bytes => (t.add bytes, [])) readings {}
    Program.say 1 (tallyLine a width (if named == 0 then "" else operand) t)
    return sum.total t
  let failed (operand : String) (e : Nat) : Program Unit := do
    if operand == "" then complain c "invalid zero-length file name"
    else complain c (plainExcuse operand (systemText e))
    if e = Fault.isDirectory then Program.say 1 (tallyLine a width operand {})
  let (sum, all) ← overNamed c failed use names {}
  if 1 < named then Program.say 1 (tallyLine a width "total" sum)
  return if all then 0 else 1

end LineShell.Userland
