import LineShell.Userland.Arguments
import LineShell.Userland.Order

namespace LineShell.Userland

open Text (Bytes)

/-!
# Repeated lines

* `UniqStyle` — which lines count as the same and what is written of them;
* `uniqLine` — what is made of a line after the ones before;
* `uniq` — writes lines without those that repeat the line before.
-/

/-- Where groups of lines are set apart by an empty line. -/
inductive Apart
  | nowhere
  /-- Between groups. -/
  | between
  /-- Before each group. -/
  | before
  /-- Behind each group. -/
  | behind
  /-- Before each group and behind the last. -/
  | around
  deriving DecidableEq, Repr

/-- Which lines count as the same and what is written of them. -/
structure UniqStyle where
  counts : Bool := false
  /-- Whether lines without a repetition are written, and the first ones of those with some. -/
  writesSingle : Bool := true
  writesFirst : Bool := true
  /-- Whether repetitions are written. -/
  writesLater : Bool := false
  folds : Bool := false
  skippedFields : Nat := 0
  skippedBytes : Nat := 0
  compared : Option Nat := none
  /-- Whether all lines are written in groups. -/
  groups : Bool := false
  apart : Apart := .nowhere
  /-- The byte that ends lines. -/
  mark : UInt8 := newline
  deriving DecidableEq, Repr

namespace UniqStyle

/-- A text behind so many fields, each with the blanks before it. -/
def behindFields : Nat → Bytes → Bytes
  | 0, bs => bs
  | _, [] => []
  | n + 1, bs => behindFields n ((bs.dropWhile isGapByte).dropWhile (!isGapByte ·))

/-- The part of a line that is compared. -/
def part (u : UniqStyle) (bs : Bytes) : Bytes :=
  let bs := (behindFields u.skippedFields bs).drop u.skippedBytes
  let bs := match u.compared with
    | some n => bs.take n
    | none => bs
  if u.folds then bs.map upperByte else bs

end UniqStyle

/-- The lines so far. -/
structure UniqState where
  /-- The line that others are compared with, if there is one. -/
  last : Option Bytes := none
  /-- How often it was repeated. -/
  repeats : Nat := 0
  /-- Whether a group with repetitions came before. -/
  afterGroup : Bool := false
  deriving DecidableEq, Repr

/-- The line before as it is written, now that the next one does or does not repeat it. -/
def UniqState.written (u : UniqStyle) (s : UniqState) (again : Bool) : Bytes :=
  let wanted := if s.repeats = 0 then u.writesSingle
    else if again then u.writesLater
    else u.writesFirst
  match s.last with
  | none => []
  | some line =>
    if !wanted then []
    else
      let digits := toString (s.repeats + 1)
      let count := if u.counts then
          String.ofList (List.replicate (7 - digits.length) ' ') ++ digits ++ " "
        else ""
      Text.encode count ++ line ++ [u.mark]

/-- A line among groups of lines. -/
def groupLine (u : UniqStyle) (s : UniqState) (line : Line) : Move UniqState :=
  if s.last.any fun last => u.part last == u.part line.text then
    { state := s, out := line.text ++ [u.mark] }
  else
    let isFirst := s.last.isNone
    let gap := match u.apart with
      | .before | .around => true
      | .between | .behind => !isFirst
      | .nowhere => false
    { state := { s with last := some line.text }
      out := (if gap then [u.mark] else []) ++ line.text ++ [u.mark] }

/-- A line after the ones before. -/
def uniqLine (u : UniqStyle) (s : UniqState) (line : Line) : Move UniqState :=
  if u.groups then groupLine u s line
  else match s.last with
  | none => { state := { s with last := some line.text } }
  | some last =>
    let again := u.part last == u.part line.text
    let s := { s with
      repeats := if again then s.repeats + 1 else s.repeats
      afterGroup := s.afterGroup || (!again && s.repeats != 0) }
    let gap := again && s.repeats == 1 && match u.apart with
      | .before => true
      | .between => s.afterGroup
      | _ => false
    let out := if !again || u.writesLater then s.written u again else []
    { state := if again then (if u.writesLater then { s with last := some line.text } else s)
        else { s with last := some line.text, repeats := 0 }
      out := (if gap then [u.mark] else []) ++ out }

/-- What is written behind the last line. -/
def uniqEnd (u : UniqStyle) (s : UniqState) : Bytes :=
  if u.groups then
    if s.last.isSome && (u.apart = .behind || u.apart = .around) then [u.mark] else []
  else s.written u false

/-! ### Arguments -/

open LongOption in
/-- The options of `uniq`. -/
def uniqOptions : OptionTable where
  flags := "0123456789Dcdiuz"
  valued := "fsw"
  long := [plain "count" "c", plain "repeated" "d", optional "all-repeated", optional "group",
    plain "ignore-case" "i", plain "unique" "u", valued "skip-fields" "f",
    valued "skip-chars" "s", valued "check-chars" "w", plain "zero-terminated" "z"]

/-- Where groups of repeated lines can be set apart. -/
def repeatedChoice : Choice where
  option := "--all-repeated"
  words := ["none", "prepend", "separate"].map fun word => (word, word)

/-- Where groups of lines can be set apart. -/
def groupChoice : Choice where
  option := "--group"
  words := ["prepend", "append", "separate", "both"].map fun word => (word, word)

/-- Where groups are set apart, by the word for it. -/
def apartOf : String → Apart
  | "prepend" => .before
  | "append" => .behind
  | "separate" => .between
  | "both" => .around
  | _ => .nowhere

/-- What is wrong with the value of an option. -/
def uniqMistake (c : Context) (key value : String) : Option (Program Arguments) :=
  let counted (text : String) : Option (Program Arguments) :=
    if (count? value).isSome then none
    else some do
      complain c (value ++ ": invalid number of " ++ text)
      .exit 1
  match key with
  | "f" => counted "fields to skip"
  | "s" => counted "bytes to skip"
  | "w" => counted "bytes to compare"
  | "all-repeated" => if value == "" then none else repeatedChoice.refuse c value 1
  | "group" => if value == "" then none else groupChoice.refuse c value 1
  | _ => none

/-- How many fields are skipped: as the last option says, or as its older form says, whose digits
are options of their own. -/
def askedFields : List (String × String) → Bool → Nat → Nat
  | [], _, n => n
  | (key, value) :: options, older, n =>
    if key == "f" then askedFields options false ((count? value).getD 0)
    else match natural? key with
      | some d => askedFields options true ((if older then n else 0) * 10 + d)
      | none => askedFields options older n

/-- What the options ask for. -/
def uniqStyle (a : Arguments) (skipped : Option Nat) : UniqStyle :=
  let later := a.has "D" || a.has "all-repeated"
  let count (key : String) : Option Nat := (a.value? key).bind count?
  { counts := a.has "c"
    writesSingle := !(a.has "d" || later)
    writesFirst := !a.has "u"
    writesLater := later
    folds := a.has "i"
    skippedFields := askedFields a.options false 0
    skippedBytes := (skipped <|> count "s").getD 0
    compared := count "w"
    groups := a.has "group"
    apart := match a.value? "group", a.value? "all-repeated" with
      | some value, _ =>
        if value == "" then .between else apartOf ((groupChoice.meaning? value).getD "")
      | none, some value => apartOf ((repeatedChoice.meaning? value).getD "")
      | none, none => .nowhere
    mark := if a.has "z" then 0 else newline }

/-- What is wrong with options together. -/
def uniqConflict? (a : Arguments) : Option String :=
  let later := a.has "D" || a.has "all-repeated"
  if a.has "group" && (a.has "c" || a.has "d" || a.has "u" || later) then
    some "--group is mutually exclusive with -c/-d/-D/-u"
  else if a.has "c" && later then
    some "printing all duplicated lines and repeat counts is meaningless"
  else none

/-- An operand that says in an older form how many bytes are skipped. -/
def olderSkip? (operand : String) : Option Nat :=
  match operand.toList with
  | '+' :: _ => count? operand
  | _ => none

/-- Writes lines without those that repeat the line before. -/
def uniq : Utility := fun c => do
  let a ← parseArguments c uniqOptions 1 (firstWrong (uniqMistake c))
  let skipped := (a.operands.filterMap olderSkip?).getLast?
  let operands := a.operands.filter fun operand => (olderSkip? operand).isNone
  if let some extra := (operands.drop 2).head? then
    misuse c ("extra operand " ++ curled extra) 1
  if let some text := uniqConflict? a then misuse c text 1
  let u := uniqStyle a skipped
  let target := (operands.drop 1).headD "-"
  let opened : Program Bool := do
    if target == "-" then return true
    match ← Program.openAs 4 (c.locate target) .write with
    | none => return true
    | some e =>
      complain c (plainExcuse target (systemText e))
      return false
  let failed (operand : String) (e : Nat) : Program Unit := do
    if e = Fault.isDirectory then
      if ← opened then
        complain c ("error reading " ++ quotedName operand ++ ": " ++ systemText e)
    else complain c (plainExcuse operand (systemText e))
  let use (_ : String) (fd : Nat) (_ : Bool) : Program Bool := do
    if ← opened then
      let copy : Program Unit := do
        let last ← foldLines fd (uniqLine u) {} u.mark
        emit (uniqEnd u last)
      copy.onStreams fun n => if n = 1 && target != "-" then 4 else n
      return true
    else return false
  let names := if operands.isEmpty then ["-"] else operands.take 1
  let (done, all) ← overNamed c failed use names false
  return if done && all then 0 else 1

/-- A line that is alone is written where such lines are. -/
theorem uniqEnd_single (u : UniqStyle) (line : Bytes) (h : u.groups = false)
    (hs : u.writesSingle = true) (hc : u.counts = false) :
    uniqEnd u { last := some line } = line ++ [u.mark] := by
  simp [uniqEnd, UniqState.written, h, hs, hc, Text.encode]

end LineShell.Userland
