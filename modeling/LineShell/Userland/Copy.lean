import LineShell.Userland.Arguments

namespace LineShell.Userland

open Text (Bytes)
open Program (put say openAs)

/-!
# Programs that copy

* `tee` — copies the standard input to files as well;
* `head`, `tail` — copy the start or the end of files;
* `headArguments`, `tailArguments` — arguments in their older forms, such as `-3` and `+3`.
-/

/-! ### `tee` -/

/-- Opens files to be written, each as the next descriptor. The answer is the descriptors of those
that could be opened, with their names. -/
def openTargets (c : Context) (mode : OpenMode) :
    Nat → List String → Program (List (Nat × String))
  | _, [] => return []
  | fd, name :: names => do
    match ← openAs fd (c.locate name) mode with
    | some e =>
      complain c (plainExcuse name (systemText e))
      openTargets c mode (fd + 1) names
    | none => return (fd, name) :: (← openTargets c mode (fd + 1) names)

/-- Writes bytes to descriptors. The answer is those that took them; the others are complained
about. -/
def putAll (c : Context) (bytes : Bytes) : List (Nat × String) → Program (List (Nat × String))
  | [] => return []
  | (fd, name) :: targets => do
    match ← Program.write fd bytes .done with
    | none => return (fd, name) :: (← putAll c bytes targets)
    | some e =>
      complain c (plainExcuse name (systemText e))
      putAll c bytes targets

/-- Copies from the standard input to descriptors. The answer is those that took all of it. -/
def copyTo (c : Context) : Nat → List (Nat × String) → Program (List (Nat × String))
  | 0, targets => pure targets
  | _, [] => pure []
  | fuel + 1, targets => do
    match ← Program.take 0 chunkSize with
    | .ok [] | .error _ => return targets
    | .ok bytes => copyTo c fuel (← putAll c bytes targets)

open LongOption in
/-- The options of `tee`. -/
def teeOptions : OptionTable where
  flags := "aip"
  long := [plain "append" "a", plain "ignore-interrupts" "i", optional "output-error"]

/-- What is done where a target takes no more. -/
def teeModes : Choice where
  option := "--output-error"
  words := ["warn", "warn-nopipe", "exit", "exit-nopipe"].map fun word => (word, word)

/-- Copies the standard input to the standard output and to files. -/
def tee : Utility := fun c => do
  let wrong (key value : String) : Option (Program Arguments) :=
    if key == "output-error" && value != "" then teeModes.refuse c value 1 else none
  let a ← parseArguments c teeOptions 1 (firstWrong wrong)
  let files ← openTargets c (if a.has "a" then .append else .write) operandStream a.operands
  let complete ← copyTo c readings ((1, "standard output") :: files)
  return if complete.length == a.operands.length + 1 then 0 else 1

/-! ### `head` and `tail` -/

/-- How much of a file is copied. -/
inductive Extent
  /-- So much of its start. -/
  | first (n : Nat)
  /-- All but so much of its end. -/
  | allButLast (n : Nat)
  /-- So much of its end. -/
  | last (n : Nat)
  /-- All from its `n`-th part on, counted from one. -/
  | since (n : Nat)
  deriving DecidableEq, Repr

/-- The part of a list that an extent is. -/
def Extent.of {α : Type} (xs : List α) : Extent → List α
  | .first n => xs.take n
  | .allButLast n => xs.take (xs.length - n)
  | .last n => xs.drop (xs.length - n)
  | .since n => xs.drop (n - 1)

/-- Copies the first lines. -/
def headLine (left : Nat) (line : Line) : Move Nat :=
  { state := left - 1, out := line.asRead, more := 1 < left }

/-- Copies lines as soon as so many others have come after them. -/
def delayLine (n : Nat) (kept : List Bytes) (line : Line) : Move (List Bytes) :=
  let kept := kept ++ [line.asRead]
  { state := kept.drop (kept.length - n), out := (kept.take (kept.length - n)).flatten }

/-- Keeps the last lines. -/
def keepLine (n : Nat) (kept : List Bytes) (line : Line) : Move (List Bytes) :=
  let kept := kept ++ [line.asRead]
  { state := kept.drop (kept.length - n) }

/-- Copies lines once enough were left out. -/
def skipLine (left : Nat) (line : Line) : Move Nat :=
  { state := left - 1, out := if left = 0 then line.asRead else [] }

/-- Copies lines, which a mark ends. -/
def copyLines (mark : UInt8) (fd : Nat) : Extent → Program Unit
  | .first 0 => pure ()
  | .first n => do let _ ← foldLines fd headLine n mark
  | .allButLast n => do let _ ← foldLines fd (delayLine n) [] mark
  | .last n => do emit (← foldLines fd (keepLine n) [] mark).flatten
  | .since n => do let _ ← foldLines fd skipLine (n - 1) mark

/-- Reads the first bytes and copies them. -/
def copyStart (fd : Nat) : Nat → Nat → Program Unit
  | 0, _ => pure ()
  | _, 0 => pure ()
  | fuel + 1, n => do
    match ← Program.take fd (min n chunkSize) with
    | .ok [] | .error _ => return ()
    | .ok bytes =>
      emit bytes
      copyStart fd fuel (n - bytes.length)

/-- Copies bytes. -/
def copyBytes (fd : Nat) : Extent → Program Unit
  | .first n => copyStart fd readings n
  | extent => do emit (extent.of (← readAll fd))

/-- The letters of the powers of 1024, and of 1000. -/
def powerLetters : List Char := ['K', 'M', 'G', 'T', 'P', 'E', 'Z', 'Y']

/-- The factor that letters behind a number stand for. -/
def factor? : List Char → Option Nat
  | [] => some 1
  | ['b'] => some 512
  | c :: cs => do
    let i ← powerLetters.idxOf? (if c == 'k' || c == 'm' then c.toUpper else c)
    match cs with
    | [] | ['i', 'B'] => some (Nat.pow 1024 (i + 1))
    | ['B'] | ['D'] => some (Nat.pow 1000 (i + 1))
    | _ => none

/-- An amount: a number and the letters of a factor, of which one may be missing. -/
def amount? (cs : List Char) : Option Nat := do
  let digits := cs.takeWhile Char.isDigit
  let letters := cs.dropWhile Char.isDigit
  if cs.isEmpty then none
  let factor ← factor? letters
  return (natural? (String.ofList digits)).getD 1 * factor

/-- An amount as an option's value, in which a sign tells where to count from. -/
def extent? (forHead : Bool) (s : String) : Option Extent :=
  match s.toList with
  | '-' :: cs => (amount? cs).map fun n => if forHead then .allButLast n else .last n
  | '+' :: cs => (amount? cs).map fun n => if forHead then .first n else .since n
  | cs => (amount? cs).map fun n => if forHead then .first n else .last n

/-! ### Older forms of arguments -/

/-- What the letters behind the number of an older argument of `head` ask for: the option that
counts, the letter of a factor, and further options. A letter that asks for nothing is refused. -/
def olderLetters : List Char → Char × List Char × List String →
    Except Char (Char × List Char × List String)
  | [], asked => .ok asked
  | c :: cs, (unit, factor, options) =>
    match c with
    | 'c' => olderLetters cs ('c', [], options)
    | 'b' | 'k' | 'm' => olderLetters cs ('c', [c], options)
    | 'l' => olderLetters cs ('n', factor, options)
    | 'q' | 'v' | 'z' => olderLetters cs (unit, factor, options ++ [String.ofList ['-', c]])
    | c => .error c

/-- The arguments of `head`, of which the first one may be a dash, a number and letters. -/
def headArguments : List String → Except Char (List String)
  | [] => .ok []
  | argument :: rest =>
    match argument.toList with
    | '-' :: d :: cs =>
      if !d.isDigit then .ok (argument :: rest)
      else do
        let digits := (d :: cs).takeWhile Char.isDigit
        let (unit, factor, options) ←
          olderLetters ((d :: cs).dropWhile Char.isDigit) ('n', [], [])
        return String.ofList ['-', unit] :: String.ofList (digits ++ factor) :: options ++ rest
    | _ => .ok (argument :: rest)

/-- What an older argument of `tail` asks for: a sign, perhaps a number, and perhaps the letter of
what is counted. -/
def olderCount? (argument : String) : Option (List String) :=
  match argument.toList with
  | [] | ['-'] | ['-', 'c'] => none
  | sign :: cs =>
    if sign != '+' && sign != '-' then none
    else
      let number := (natural? (String.ofList (cs.takeWhile Char.isDigit))).getD 10
      let value (n : Nat) : String := sign.toString ++ toString n
      match cs.dropWhile Char.isDigit with
      | [] | ['l'] => some ["-n", value number]
      | ['c'] => some ["-c", value number]
      | ['b'] => some ["-c", value (number * 512)]
      | _ => none

/-- The arguments of `tail`, of which the first one may have the older form if at most one file is
named. -/
def tailArguments : List String → List String
  | [] => []
  | argument :: rest =>
    let fits := match rest with
      | [] | ["--"] | ["--", _] | ["-"] => true
      | [operand] => !operand.toList.head?.any (· == '-')
      | _ => false
    match olderCount? argument with
    | some options => if fits then options ++ rest else argument :: rest
    | none => argument :: rest

/-- The digit that was given as an option, if that is what is wrong with arguments. -/
def digitOption? (complaint : String) : Option Char :=
  "0123456789".toList.find? fun d => complaint == OptionTable.unknownLetter d

/-! ### Parts of files -/

/-- The line that stands above a file's part if there are several files. -/
def heading (operand : String) (isFirst : Bool) : String :=
  (if isFirst then "" else "\n") ++ "==> " ++
    (if operand == "-" then "standard input" else operand) ++ " <==\n"

open LongOption in
/-- The options of `head` and `tail`. -/
def partOptions (forHead : Bool) : OptionTable where
  flags := "qvz"
  valued := if forHead then "nc" else "ncs"
  long := if forHead then [valued "bytes" "c", valued "lines" "n", plain "quiet" "q",
      plain "silent" "q", plain "verbose" "v", plain "zero-terminated" "z"]
    else [valued "bytes" "c", valued "lines" "n", valued "max-unchanged-stats", valued "pid",
      plain "quiet" "q", plain "retry", plain "silent" "q", valued "sleep-interval" "s",
      plain "verbose" "v", plain "zero-terminated" "z"]

/-- The complaint about an amount that is none. A dash before it is not shown. -/
def amountComplaint (unit value : String) : String :=
  let shown := match value.toList with
    | '-' :: cs => String.ofList cs
    | _ => value
  (if unit == "n" then "invalid number of lines: " else "invalid number of bytes: ") ++ curled shown

/-- Whether an option counts what is copied. -/
def countsPart (key : String) : Bool := key == "n" || key == "c"

/-- The arguments of `head` and `tail`. A digit among the options is refused in their own ways. -/
def partArguments (forHead : Bool) (c : Context) : Program Arguments :=
  let trailing (d : Char) : String := "invalid trailing option -- " ++ d.toString
  let wrong (key value : String) : Option (Program Arguments) :=
    if countsPart key && (extent? forHead value).isNone then some do
      complain c (amountComplaint key value)
      .exit 1
    else none
  match if forHead then headArguments c.arguments else .ok (tailArguments c.arguments) with
  | .error d => misuse c (trailing d) 1
  | .ok arguments =>
    let a := (partOptions forHead).parse arguments
    match firstWrong wrong a.options, a.mistake.bind digitOption? with
    | none, some d =>
      if forHead then misuse c (trailing d) 1
      else do
        complain c ("option used in invalid context -- " ++ d.toString)
        .exit 1
    | _, _ => parseArguments { c with arguments } (partOptions forHead) 1 (firstWrong wrong)

/-- The part of files that options ask for, and what is counted. The last amount counts. Once
`tail` has been told to count from the start, it keeps to it. -/
def askedPart (forHead : Bool) :
    List (String × String) → String × Extent → String × Extent
  | [], asked => asked
  | (key, value) :: options, (unit, before) =>
    if !countsPart key then askedPart forHead options (unit, before)
    else match extent? forHead value, before with
      | none, _ => askedPart forHead options (unit, before)
      | some (.last n), .since _ => askedPart forHead options (key, .since n)
      | some extent, _ => askedPart forHead options (key, extent)

/-- Whether each part is headed by the name of its file: as the last option about it says, or else
if there are several files. -/
def Arguments.headed (a : Arguments) : Bool :=
  match a.lastOf? ["q", "v"] with
  | some key => key == "v"
  | none => 1 < a.operands.length

/-- Copies a part of files. -/
def copyPart (forHead : Bool) : Utility := fun c => do
  let a ← partArguments forHead c
  let mark : UInt8 := if a.has "z" then 0 else newline
  let (unit, extent) :=
    askedPart forHead a.options ("n", if forHead then .first 10 else .last 10)
  let use (operand : String) (fd : Nat) (isFirst : Bool) : Program Bool := do
    if a.headed then say 1 (heading operand isFirst)
    if unit == "n" then copyLines mark fd extent else copyBytes fd extent
    return false
  let (_, all) ← overOperands c a.operands openExcuse use true
  return if all then 0 else 1

/-- Copies the start of files. -/
def head : Utility := copyPart true

/-- Copies the end of files. -/
def tail : Utility := copyPart false

/-- The start of a list and all but its start make up the list. -/
theorem Extent.first_append_since {α : Type} (xs : List α) (n : Nat) :
    (Extent.first n).of xs ++ (Extent.since (n + 1)).of xs = xs := by
  simp [Extent.of]

/-- All but the end of a list and its end make up the list. -/
theorem Extent.allButLast_append_last {α : Type} (xs : List α) (n : Nat) :
    (Extent.allButLast n).of xs ++ (Extent.last n).of xs = xs := by
  simp [Extent.of]

end LineShell.Userland
