import LineShell.Userland.Arguments
import LineShell.Userland.Order

namespace LineShell.Userland

open Text (Bytes)

/-!
# Sorting lines

* `SortStyle` — how parts of lines are compared, by the letters that ask for it;
* `SortKey` — a part of a line and how it is compared;
* `SortOrder` — the order of lines: by keys, or as wholes;
* `sortLines`, `mergeLines`, `disorder?` — lines in order, files in order as one, and the first line
  that is out of order;
* `sort` — writes the lines of files in order.
-/

/-! ### Comparing parts -/

/-- How parts of lines are compared. -/
structure SortStyle where
  /-- The letters that were given, but for the one about blanks. -/
  letters : List Char := []
  /-- Whether blanks before the start, and before the end, of a part are passed over. -/
  skipsAtStart : Bool := false
  skipsAtEnd : Bool := false
  deriving DecidableEq, Repr

namespace SortStyle

/-- The letters of comparisons. -/
def known : List Char := "bdfghiMnRrV".toList

/-- Whether a letter was given. -/
def has (y : SortStyle) (letter : Char) : Bool := y.letters.contains letter

/-- The style with a letter more. The letter about blanks is for the ends that are named. -/
def withLetter (atStart atEnd : Bool) (y : SortStyle) (letter : Char) : SortStyle :=
  if letter == 'b' then
    { y with skipsAtStart := y.skipsAtStart || atStart, skipsAtEnd := y.skipsAtEnd || atEnd }
  else { y with letters := letter :: y.letters }

/-- Whether nothing was asked for, but perhaps the other direction. -/
def isPlain (y : SortStyle) : Bool :=
  y.letters.all (· == 'r') && !y.skipsAtStart && !y.skipsAtEnd

/-- The letters of a style that cannot go together. -/
def conflict? (y : SortStyle) : Option String :=
  let kinds := ['n', 'g', 'h', 'M'].filter y.has
  let others := ['V', 'R', 'd', 'i'].filter y.has
  if kinds.length + min 1 others.length ≤ 1 then none
  else
    let shown (c : Char) : Bool := y.has c && !(c == 'i' && y.has 'd')
    some (String.ofList ("dfghiMnRV".toList.filter shown))

/-- Whether a byte counts. -/
def counts (y : SortStyle) (b : UInt8) : Bool :=
  if y.has 'd' then isLetterByte b || isDigitByte b || isGapByte b
  else if y.has 'i' then 32 ≤ b && b < 127
  else true

/-- The bytes of a part that are compared. -/
def compared (y : SortStyle) (bs : Bytes) : Bytes :=
  let kept := bs.filter y.counts
  if y.has 'f' then kept.map upperByte else kept

/-- The order of two parts. -/
def compare (y : SortStyle) (a b : Bytes) : Ordering :=
  let a := y.compared a
  let b := y.compared b
  let order := if y.has 'n' then compareNumbers a b
    else if y.has 'g' then compareReadings a b
    else if y.has 'h' then compareSizes a b
    else if y.has 'M' then compareMonths a b
    else if y.has 'V' then compareVersions a b
    else compareBytes a b
  if y.has 'r' then order.swap else order

end SortStyle

/-! ### Keys -/

/-- A part of a line, in fields and bytes counted from one, and how it is compared. -/
structure SortKey where
  startField : Nat := 1
  startByte : Nat := 1
  /-- The last field, and how many of its bytes; all of them if that is zero. -/
  finish : Option (Nat × Nat) := none
  style : SortStyle := {}
  deriving DecidableEq, Repr

/-- A text behind so many fields, each with the blanks before it or the byte behind it. -/
def skipFields (separator : Option UInt8) : Nat → Bytes → Bytes
  | 0, bs => bs
  | _, [] => []
  | n + 1, bs => skipFields separator n (match separator with
    | some s => (bs.dropWhile (· != s)).drop 1
    | none => (bs.dropWhile isGapByte).dropWhile (!isGapByte ·))

namespace SortKey

/-- A line behind what comes before the part. -/
def fromStart (k : SortKey) (separator : Option UInt8) (bs : Bytes) : Bytes :=
  let bs := skipFields separator (k.startField - 1) bs
  let bs := if k.style.skipsAtStart then bs.dropWhile isGapByte else bs
  bs.drop (k.startByte - 1)

/-- What of a line comes behind the part. -/
def behind (k : SortKey) (separator : Option UInt8) (bs : Bytes) : Bytes :=
  match k.finish with
  | none => []
  | some (field, 0) =>
    match separator with
    | some s => (skipFields separator (field - 1) bs).dropWhile (· != s)
    | none => skipFields separator field bs
  | some (field, bytes) =>
    let bs := skipFields separator (field - 1) bs
    (if k.style.skipsAtEnd then bs.dropWhile isGapByte else bs).drop bytes

/-- The part of a line. A part that would end before it starts is empty. -/
def part (k : SortKey) (separator : Option UInt8) (bs : Bytes) : Bytes :=
  let start := k.fromStart separator bs
  start.take (start.length - (k.behind separator bs).length)

/-- That a count should stand where a text starts. -/
def countComplaint (what : String) (cs : List Char) : String :=
  what ++ ": invalid count at start of " ++ curled (String.ofList cs)

/-- A field, and perhaps a byte in it behind a point; the byte is one where none is named. -/
def readPosition (what : String) (cs : List Char) :
    Except String (Nat × Option Nat × List Char) :=
  match countPrefix? cs with
  | none => .error (countComplaint what cs)
  | some (field, '.' :: rest) =>
    match countPrefix? rest with
    | none => .error (countComplaint "invalid number after '.'" rest)
    | some (byte, rest) => .ok (field, some byte, rest)
  | some (field, rest) => .ok (field, none, rest)

/-- Reads a key. -/
def read (s : String) : Except String SortKey := do
  let refuse (what : String) : Except String Unit :=
    .error (what ++ ": invalid field specification " ++ curled s)
  -- a field of no number is refused before what comes behind it is read
  let zero (cs : List Char) : Bool := (countPrefix? cs).any (·.1 == 0)
  let cs := s.toList
  if zero cs then refuse "field number is zero"
  let (startField, byte, cs) ← readPosition "invalid number at field start" cs
  if byte == some 0 then refuse "character offset is zero"
  let letters := cs.takeWhile SortStyle.known.contains
  let style := letters.foldl (SortStyle.withLetter true false) {}
  let key : SortKey := { startField, startByte := byte.getD 1, style }
  match cs.drop letters.length with
  | [] => return key
  | ',' :: cs => do
    if zero cs then refuse "field number is zero"
    let (field, byte, cs) ← readPosition "invalid number after ','" cs
    let letters := cs.takeWhile SortStyle.known.contains
    if !(cs.drop letters.length).isEmpty then refuse "stray character in field spec"
    let style := letters.foldl (SortStyle.withLetter false true) style
    return { key with finish := some (field, byte.getD 0), style }
  | _ => do
    refuse "stray character in field spec"
    return key

end SortKey

/-! ### Orders of lines -/

/-- The order of lines. -/
structure SortOrder where
  keys : List SortKey := []
  separator : Option UInt8 := none
  /-- Whether lines that no key tells apart are in the other direction. -/
  reverse : Bool := false
  /-- Whether lines that no key tells apart are one, or stay as they stand. -/
  unique : Bool := false
  stable : Bool := false
  deriving DecidableEq, Repr

namespace SortOrder

/-- The order of lines by keys. -/
def byKeys (o : SortOrder) (a b : Bytes) : Ordering :=
  o.keys.foldl (fun order k =>
    order.then (k.style.compare (k.part o.separator a) (k.part o.separator b))) .eq

/-- The order of lines. Where keys do not decide, all bytes do, unless they must not. -/
def compare (o : SortOrder) (a b : Bytes) : Ordering :=
  if !o.keys.isEmpty && (o.unique || o.stable) then o.byKeys a b
  else
    let final := compareBytes a b
    (o.byKeys a b).then (if o.reverse then final.swap else final)

/-- Whether a line may stand before another. -/
def admits (o : SortOrder) (a b : Bytes) : Bool := o.compare a b != .gt

end SortOrder

/-- Lines without those that are equal to the line before. -/
def dropRepeated (same : Bytes → Bytes → Bool) : List Bytes → List Bytes
  | [] => []
  | [l] => [l]
  | l :: m :: ls =>
    if same l m then dropRepeated same (l :: ls) else l :: dropRepeated same (m :: ls)
termination_by ls => ls.length

/-- Lines of which equal ones are one, if so wished. -/
def SortOrder.distinct (o : SortOrder) (lines : List Bytes) : List Bytes :=
  if o.unique then dropRepeated (fun a b => o.compare a b == .eq) lines else lines

/-- Lines in order. -/
def sortLines (o : SortOrder) (lines : List Bytes) : List Bytes :=
  o.distinct (lines.mergeSort o.admits)

/-- The lines of files, of which those of each are in order already. -/
def mergeLines (o : SortOrder) (files : List (List Bytes)) : List Bytes :=
  o.distinct (files.foldl (fun merged lines => merged.merge lines o.admits) [])

/-- The first line that must not stand behind the line before, and its number. -/
def disorder? (o : SortOrder) : Nat → List Bytes → Option (Nat × Bytes)
  | n, l :: m :: ls =>
    let order := o.compare l m
    if order == .gt || (o.unique && order == .eq) then some (n + 1, m)
    else disorder? o (n + 1) (m :: ls)
  | _, _ => none

/-! ### Arguments -/

open LongOption in
/-- The options of `sort`. -/
def sortOptions : OptionTable where
  flags := "bcCdfghimMnrRsuVz"
  valued := "kotSTy"
  long := [plain "ignore-leading-blanks" "b", optional "check", valued "compress-program",
    plain "debug", plain "dictionary-order" "d", plain "ignore-case" "f", valued "files0-from",
    plain "general-numeric-sort" "g", plain "ignore-nonprinting" "i", valued "key" "k",
    plain "merge" "m", plain "month-sort" "M", plain "numeric-sort" "n",
    plain "human-numeric-sort" "h", plain "version-sort" "V", plain "random-sort" "R",
    valued "random-source", valued "sort", valued "output" "o", plain "reverse" "r",
    plain "stable" "s", valued "batch-size", valued "buffer-size" "S",
    valued "field-separator" "t", valued "temporary-directory" "T", plain "unique" "u",
    plain "zero-terminated" "z", valued "parallel"]

/-- The words for kinds of comparison, with their letters. -/
def sortChoice : Choice where
  option := "--sort"
  words := [("general-numeric", "g"), ("human-numeric", "h"), ("month", "M"), ("numeric", "n"),
    ("random", "R"), ("version", "V")]

/-- The words for kinds of checks, with their letters. -/
def checkChoice : Choice where
  option := "--check"
  words := [("quiet", "C"), ("silent", "C"), ("diagnose-first", "c")]

/-- The letter of a check that an option asks for, if it asks for one. -/
def checkLetter? (key value : String) : Option String :=
  if key == "c" || key == "C" then some key
  else if key == "check" then
    if value == "" then some "c" else checkChoice.meaning? value
  else none

/-- What is wrong with a text that should be one byte to separate fields, if anything. -/
def separatorComplaint? (s : String) : Option String :=
  match (Text.encode s).length with
  | 0 => some "empty tab"
  | 1 => none
  | _ => if s == "\\0" then none else some ("multi-character tab " ++ curled s)

/-- The byte that separates fields. -/
def separatorOf (s : String) : Option UInt8 := if s == "\\0" then some 0 else (Text.encode s).head?

/-- What is wrong with an amount of storage, or of helpers. -/
def amountMistake? (option value letters : String) : Option String :=
  let shown := option ++ " argument '" ++ value ++ "'"
  match countPrefix? value.toList with
  | none => some ("invalid " ++ shown)
  | some (_, []) => none
  | some (_, c :: _) => if letters.toList.contains c then none
    else some ("invalid suffix in " ++ shown)

/-- What is wrong with options, in their order: with what was given for the fields' separator, for
the output and for checks before. -/
def sortMistake? (c : Context) :
    Option UInt8 → Option String → Option String → GivenOptions → Option (Program Arguments)
  | _, _, _, [] => none
  | tab, out, check, (key, value) :: options =>
    let refuse (text : String) : Option (Program Arguments) := some do
      complain c text
      .exit 2
    match key with
    | "k" => match SortKey.read value with
      | .error text => refuse text
      | .ok _ => sortMistake? c tab out check options
    | "t" => match separatorComplaint? value with
      | some text => refuse text
      | none =>
        if tab.isSome && tab != separatorOf value then refuse "incompatible tabs"
        else sortMistake? c (separatorOf value) out check options
    | "o" =>
      if out.any (· != value) then refuse "multiple output files specified"
      else sortMistake? c tab (some value) check options
    | "S" => match amountMistake? "-S" value "bEGgKkMmPTtYZ%" with
      | some text => refuse text
      | none => sortMistake? c tab out check options
    | "parallel" => match amountMistake? "--parallel" value "" with
      | some text => refuse text
      | none =>
        if count? value == some 0 then refuse "number in parallel must be nonzero"
        else sortMistake? c tab out check options
    | "sort" => (sortChoice.refuse c value 1).or (sortMistake? c tab out check options)
    | "check" | "c" | "C" =>
      let unknown := if key == "check" && value != "" then checkChoice.refuse c value 1 else none
      let asked := checkLetter? key value
      if unknown.isSome then unknown
      else if check.isSome && check != asked then refuse "options '-cC' are incompatible"
      else sortMistake? c tab out asked options
    | _ => sortMistake? c tab out check options

/-- The style that the options ask for as a whole. -/
def overallStyle (options : GivenOptions) : SortStyle :=
  let letter? (o : String × String) : Option Char :=
    let text := if o.1 == "sort" then (sortChoice.meaning? o.2).getD "" else o.1
    match text.toList with
    | [letter] => if SortStyle.known.contains letter then some letter else none
    | _ => none
  (options.filterMap letter?).foldl (SortStyle.withLetter true true) {}

/-- The order that the options ask for. Keys without letters of their own have those of the whole,
which is a key by itself where no other is named. -/
def sortOrder (a : Arguments) : SortOrder :=
  let overall := overallStyle a.options
  let named := (a.values "k").filterMap fun value => (SortKey.read value).toOption
  let adopt (k : SortKey) : SortKey :=
    if k.style.isPlain && !k.style.has 'r' then { k with style := overall } else k
  { keys := if named.isEmpty then (if overall.isPlain then [] else [{ style := overall }])
      else named.map adopt
    separator := (a.value? "t").bind separatorOf
    reverse := overall.has 'r'
    unique := a.has "u"
    stable := a.has "s" }

/-- The position that an older argument names, counted from zero, and the letters behind it. -/
def olderPosition? (cs : List Char) : Option (Nat × Nat × String) := do
  let (field, rest) ← countPrefix? cs
  let (byte, rest) ← match rest with
    | '.' :: rest => countPrefix? rest
    | rest => some (0, rest)
  if rest.all SortStyle.known.contains then some (field, byte, String.ofList rest) else none

/-- Where the key starts that an older argument names: a plus and a position. -/
def olderStart? (start : String) : Option String := do
  let (field, byte, letters) ← match start.toList with
    | '+' :: cs => olderPosition? cs
    | _ => none
  return toString (field + 1) ++ "." ++ toString (byte + 1) ++ letters

/-- Where the key ends that an older argument names: a dash and a position. -/
def olderEnd? (finish : String) : Option String := do
  let (field, byte, letters) ← match finish.toList with
    | '-' :: d :: cs => if d.isDigit then olderPosition? (d :: cs) else none
    | _ => none
  let last := if byte = 0 then field else field + 1
  if last = 0 then none
  return "," ++ toString last ++ "." ++ toString byte ++ letters

/-- The arguments of `sort` with keys in the place of older arguments for them. -/
def sortArguments : List String → List String
  | [] => []
  | "--" :: rest => "--" :: rest
  | argument :: rest =>
    match olderStart? argument with
    | none =>
      match rest with
      | value :: rest =>
        if ["-k", "-o", "-t", "-S", "-T"].contains argument then
          argument :: value :: sortArguments rest
        else argument :: sortArguments (value :: rest)
      | [] => [argument]
    | some start =>
      match rest with
      | finish :: rest =>
        match olderEnd? finish with
        | some finish => "-k" :: (start ++ finish) :: sortArguments rest
        | none => "-k" :: start :: sortArguments (finish :: rest)
      | [] => ["-k", start]

/-! ### The program -/

/-- The end of a program that complains first. -/
def failWith {α : Type} (c : Context) (text : String) (status : Int) : Program α := do
  complain c text
  .exit status

/-- Ends the program if one of some files is not there. -/
def checkInputs (c : Context) : List String → Program Unit
  | [] => return ()
  | "-" :: names => checkInputs c names
  | name :: names => do
    match ← Program.openAs operandStream (c.locate name) .read with
    | none => Program.shut operandStream
    | some e =>
      if e != Fault.isDirectory then
        failWith c ("cannot read: " ++ plainExcuse name (systemText e)) 2
    checkInputs c names

/-- The lines of a file. The program ends if it cannot be read. -/
def readLines (c : Context) (mark : UInt8) (name : String) : Program (List Bytes) := do
  let failed (operand : String) (e : Nat) : Program Unit :=
    failWith c ((if e = Fault.isDirectory then "read failed: " else "open failed: ") ++
      plainExcuse operand (systemText e)) 2
  let use (_ : String) (fd : Nat) (_ : List Bytes) : Program (List Bytes) := do
    return (linesOf (← readAll fd) mark).map Line.text
  return (← withOperand c failed use name []).1

/-- Writes lines to the standard output or to a file. -/
def writeLines (c : Context) (mark : UInt8) (target : Option String) (lines : List Bytes) :
    Program Unit := do
  let out := lines.flatMap (· ++ [mark])
  match target with
  | none => emit out
  | some name =>
    match ← Program.openAs 4 (c.locate name) .write with
    | some e => failWith c ("open failed: " ++ plainExcuse name (systemText e)) 2
    | none =>
      if !out.isEmpty then
        if let some e ← Program.write 4 out .done then
          complain c ("fflush failed: " ++ quotedName name ++ ": " ++ systemText e)
          failWith c ("write error: " ++ plainExcuse name (systemText e)) 2

/-- Tells whether the lines of a file are in order, perhaps with the first one that is not. -/
def checkOrder (c : Context) (o : SortOrder) (mark : UInt8) (letter name : String) :
    Program Int := do
  match disorder? o 1 (← readLines c mark name) with
  | none => return 0
  | some (n, line) =>
    if letter == "c" then
      Program.put 2 (Text.encode (c.name ++ ": " ++ name ++ ":" ++ toString n ++ ": disorder: ") ++
        line ++ [mark])
    return 1

/-- Writes the lines of files in order. -/
def sort : Utility := fun given => do
  let c := { given with arguments := sortArguments given.arguments }
  let a ← parseArguments c sortOptions 2 (sortMistake? c none none none)
  let o := sortOrder a
  if let some letters := o.keys.findSome? fun k => k.style.conflict? then
    failWith c ("options '-" ++ letters ++ "' are incompatible") 2
  let mark : UInt8 := if a.has "z" then 0 else newline
  let names := if a.operands.isEmpty then ["-"] else a.operands
  match (a.options.filterMap fun p => checkLetter? p.1 p.2).getLast? with
  | some letter =>
    if let some extra := (names.drop 1).head? then
      failWith c ("extra operand " ++ quotedName extra ++ " not allowed with -" ++ letter) 2
    if a.has "o" then failWith c ("options '-" ++ letter ++ "o' are incompatible") 2
    checkOrder c o mark letter (names.headD "-")
  | none =>
    checkInputs c names
    if let some name := a.value? "o" then
      if let some e ← Program.openAs 4 (c.locate name) .append then
        failWith c ("open failed: " ++ plainExcuse name (systemText e)) 2
      Program.shut 4
    let files ← names.mapM (readLines c mark)
    let lines := if a.has "m" then mergeLines o files else sortLines o files.flatten
    writeLines c mark (a.value? "o") lines
    return 0

/-- Sorting only moves lines about, unless equal lines are one. -/
theorem sortLines_perm (o : SortOrder) (h : o.unique = false) (lines : List Bytes) :
    (sortLines o lines).Perm lines := by
  simp only [sortLines, SortOrder.distinct, h, Bool.false_eq_true, if_false]
  exact List.mergeSort_perm _ _

end LineShell.Userland
