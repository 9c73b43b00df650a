import LineShell.Userland.Arguments

namespace LineShell.Userland

open Text (Bytes)

/-!
# Parts of lines

* `Span`, `SpanReader` — ranges of positions, counted from one, and how a list of them is read;
* `mergeSpans`, `complementSpans` — ranges in order, and the ranges between them;
* `cutBytes`, `cutFields` — the bytes and the fields of a line at such positions;
* `cut` — writes parts of the lines of files.
-/

/-- A range of positions, counted from one. -/
structure Span where
  first : Nat
  last : Option Nat
  deriving DecidableEq, Repr

/-- Whether a position is in a range. -/
def Span.contains (s : Span) (n : Nat) : Bool := s.first ≤ n && s.last.all (n ≤ ·)

/-! ### Lists of ranges -/

/-- How far a list of ranges was read. -/
structure SpanReader where
  /-- The number before a dash, or one. -/
  start : Nat := 1
  value : Nat := 0
  /-- The digits of the number that is being read, the last one first. -/
  figures : List Char := []
  /-- Whether a number stands before the dash, and behind it. -/
  left : Bool := false
  right : Bool := false
  dash : Bool := false
  deriving DecidableEq, Repr

/-- The number from which on a position is too large. -/
def positionLimit : Nat := 18446744073709551615

namespace SpanReader

/-- That positions start with one. -/
def zeroText (fields : Bool) : String :=
  if fields then "fields are numbered from 1" else "byte/character positions are numbered from 1"

/-- The range that ends where a list has a comma, a blank or its end. -/
def close (fields : Bool) (r : SpanReader) : Except String Span :=
  if r.dash then
    if !r.left && !r.right then .error "invalid range with no endpoint: -"
    else if !r.right then .ok ⟨r.start, none⟩
    else if r.value < r.start then .error "invalid decreasing range"
    else .ok ⟨r.start, some r.value⟩
  else if r.value = 0 then .error (zeroText fields)
  else .ok ⟨r.value, some r.value⟩

/-- The ranges of a list. -/
def read (fields : Bool) : List Char → SpanReader → Except String (List Span)
  | [], r => (fun s => [s]) <$> r.close fields
  | c :: cs, r =>
    if c == '-' then
      if r.dash then
        .error (if fields then "invalid field range" else "invalid byte or character range")
      else if r.left && r.value = 0 then .error (zeroText fields)
      else read fields cs { r with
        dash := true, start := if r.left then r.value else 1, value := 0, figures := [] }
    else if c == ',' || c == ' ' || c == '\t' then do
      let span ← r.close fields
      return span :: (← read fields cs {})
    else if c.isDigit then
      let value := r.value * 10 + (c.toNat - '0'.toNat)
      let figures := c :: r.figures
      if positionLimit ≤ value then
        let text := curled (String.ofList (figures.reverse ++ cs.takeWhile Char.isDigit))
        .error ((if fields then "field number " else "byte/character offset ") ++ text ++
          " is too large")
      else read fields cs { r with
        value, figures, left := r.left || !r.dash, right := r.right || r.dash }
    else
      .error ((if fields then "invalid field value " else "invalid byte/character position ") ++
        curled (String.ofList (c :: cs)))

end SpanReader

/-- Ranges in order, without a range that overlaps the one before. -/
def mergeSpans (spans : List Span) : List Span :=
  let sorted := spans.mergeSort fun s t => s.first ≤ t.first
  let join (s t : Span) : Option Nat := do return max (← s.last) (← t.last)
  (sorted.foldl (fun done t =>
    match done with
    | [] => [t]
    | s :: others =>
      if s.last.all (t.first ≤ ·) then { s with last := join s t } :: others
      else t :: s :: others) []).reverse

/-- The ranges between ranges, from a position on. -/
def complementSpans : Nat → List Span → List Span
  | next, [] => [⟨next, none⟩]
  | next, s :: spans =>
    let gap := if next < s.first then [⟨next, some (s.first - 1)⟩] else []
    match s.last with
    | none => gap
    | some last => gap ++ complementSpans (last + 1) spans

/-! ### Lines -/

/-- The parts of a list at some positions, one for each range. -/
def partsAt {α : Type} (spans : List Span) (xs : List α) : List (List α) :=
  spans.filterMap fun s =>
    let part := (xs.take (s.last.getD xs.length)).drop (s.first - 1)
    if part.isEmpty then none else some part

/-- The bytes of a line at some positions. What joins the ranges may be nothing. -/
def cutBytes (joint : Bytes) (spans : List Span) (line : Bytes) : Bytes :=
  joint.intercalate (partsAt spans line)

/-- The fields of a line at some positions. A line without a separator is one whole field, which
may be left out. -/
def cutFields (separator : UInt8) (joint : Bytes) (spans : List Span) (onlySeparated : Bool)
    (line : Bytes) : Option Bytes :=
  if line.contains separator then
    some (joint.intercalate (partsAt spans (line.splitOn separator)).flatten)
  else if onlySeparated then none else some line

/-- The fields of all lines, where each line is a field. -/
def cutLines (joint : Bytes) (spans : List Span) (onlySeparated : Bool) (mark : UInt8)
    (bs : Bytes) : Bytes :=
  let lines := (linesOf bs mark).map Line.text
  if lines.isEmpty then []
  else
    let single := lines.length ≤ 1
    let kept := if single && !onlySeparated then lines else (partsAt spans lines).flatten
    if single && onlySeparated then []
    else joint.intercalate kept ++ [mark]

open LongOption in
/-- The options of `cut`. -/
def cutOptions : OptionTable where
  flags := "nsz"
  valued := "bcdf"
  long := [valued "bytes" "b", valued "characters" "c", valued "fields" "f",
    valued "delimiter" "d", plain "only-delimited" "s", valued "output-delimiter",
    plain "complement", plain "zero-terminated" "z"]

/-- Whether an option has a list of positions. -/
def isListOption (key : String) : Bool := key == "f" || key == "b" || key == "c"

/-- What is wrong with options of `cut`, if anything: the first mistake. -/
def cutMistake? : Bool → GivenOptions → Option String
  | _, [] => none
  | hasList, (key, value) :: options =>
    if isListOption key then
      if hasList then some "only one list may be specified" else cutMistake? true options
    else if key == "d" && 1 < (Text.encode value).length then
      some "the delimiter must be a single character"
    else cutMistake? hasList options

/-- Writes parts of the lines of files. -/
def cut : Utility := fun c => do
  let a ← parseArguments c cutOptions 1 fun options =>
    (cutMistake? false options).map fun text => misuse c text 1
  match a.options.find? fun o => isListOption o.1 with
  | none => misuse c "you must specify a list of bytes, characters, or fields" 1
  | some (key, text) =>
    let fields := key == "f"
    if !fields && a.has "d" then
      misuse c "an input delimiter may be specified only when operating on fields" 1
    if !fields && a.has "s" then
      misuse c "suppressing non-delimited lines makes sense\n\tonly when operating on fields" 1
    match SpanReader.read fields text.toList {} with
    | .error e => misuse c e 1
    | .ok read =>
      let merged := mergeSpans read
      let spans := if a.has "complement" then complementSpans 1 merged else merged
      let delimiter (value : String) : Bytes :=
        if value == "" then [0] else Text.encode value
      let separator := ((a.value? "d").map delimiter).getD [9]
      let joint? := (a.value? "output-delimiter").map delimiter
      let mark : UInt8 := if a.has "z" then 0 else newline
      let onlySeparated := a.has "s"
      let step (_ : Unit) (line : Line) : Move Unit :=
        let part := if fields then
            cutFields (separator.headD 0) (joint?.getD separator) spans onlySeparated line.text
          else some (cutBytes (joint?.getD []) spans line.text)
        { state := (), out := (part.map (· ++ [mark])).getD [] }
      let use (_ : String) (fd : Nat) (_ : Unit) : Program Unit := do
        if fields && separator == [mark] then
          emit (cutLines (joint?.getD separator) spans onlySeparated mark (← readAll fd))
        else foldLines fd step () mark
      let (_, all) ← overOperands c a.operands plainExcuse use ()
      return if all then 0 else 1

/-- The part at all positions is the whole. -/
theorem partsAt_all {α : Type} {xs : List α} (h : xs ≠ []) : partsAt [⟨1, none⟩] xs = [xs] := by
  simp [partsAt, h]

end LineShell.Userland
