import LineShell.Userland.Arguments
import LineShell.Userland.Figures

namespace LineShell.Userland

open Text (Bytes)

/-!
# Numbers and time

* `SequenceBound` — a number with how many digits it was given in;
* `SequenceForm` — how the numbers of a sequence are shown;
* `Progression` — the numbers between two numbers;
* `seq` — writes them;
* `sleepFor` — waits for some time.
-/

/-! ### Numbers as they are given -/

/-- A number, and how it was given. -/
structure SequenceBound where
  value : Extended
  /-- How wide it is, with all its digits before and after the point. -/
  width : Nat := 1
  /-- How many digits it has after the point, if that can be told. -/
  precision : Option Nat := some 0
  deriving DecidableEq, Repr

namespace SequenceBound

/-- The number one. -/
def one : SequenceBound := { value := .ofNat 1 }

/-- Whether a text that reads as a number is larger than all of them. -/
def isTooLarge (text : String) (x : Extended) : Bool :=
  match x with
  | .infinite _ => !text.toList.any fun c => c == 'i' || c == 'I'
  | _ => false

/-- How a number was given: its width and its digits after the point. The exponent moves the point;
it is not shown itself. -/
def layout (cs : List Char) : Nat × Nat :=
  let isExponent (c : Char) : Bool := c == 'e' || c == 'E'
  let mantissa := cs.takeWhile (!isExponent ·)
  let exponent := (Extended.exponentOf 'e' (cs.drop mantissa.length)).1
  let whole := mantissa.takeWhile (· != '.')
  let pointed := whole.length < mantissa.length
  let part := mantissa.length - whole.length - 1
  -- a point without digits behind it is not shown, and one without digits before it gets a zero
  let width : Int := if !pointed then mantissa.length
    else if part = 0 then mantissa.length - 1
    else if whole.getLast?.any Char.isDigit then mantissa.length
    else mantissa.length + 1
  let pointWidth : Int := if exponent < 0 && part = 0 then 1 else 0
  ((width + exponent.natAbs + pointWidth).toNat,
    if exponent < 0 then part + exponent.natAbs else part - exponent.toNat)

/-- A number as it was given; nothing if the text is none. -/
def parse? (text : String) : Option SequenceBound := do
  let value ← Extended.whole? text
  if isTooLarge text value then none
  let cs := text.toList.dropWhile fun c => Extended.isSpace c || c == '+'
  let hexadecimal := cs.any fun c => c == 'x' || c == 'X'
  match value with
  | .finite .. =>
    if hexadecimal then
      let exact := !cs.any fun c => c == '.' || c == 'p'
      return { value, width := 0, precision := if exact then some 0 else none }
    else
      let (width, precision) := layout cs
      return { value, width, precision := some precision }
  | _ => return { value, width := 0 }

end SequenceBound

/-! ### Forms -/

/-- How numbers are shown, between two texts. -/
structure SequenceForm where
  before : String := ""
  number : NumberForm
  after : String := ""
  deriving DecidableEq, Repr

namespace SequenceForm

/-- A text with percent signs that stand for themselves up to one that does not, and what comes
after that. -/
def plainText : List Char → List Char × Option (List Char)
  | [] => ([], none)
  | '%' :: '%' :: cs =>
    let (text, rest) := plainText cs
    ('%' :: text, rest)
  | '%' :: cs => ([], some cs)
  | c :: cs =>
    let (text, rest) := plainText cs
    (c :: text, rest)

/-- The form that a format asks for, or what is wrong with it. -/
def parse (format : String) : Except String SequenceForm :=
  let wrong (text : String) : Except String SequenceForm :=
    .error ("format " ++ curled format ++ " " ++ text)
  match plainText format.toList with
  | (_, none) => wrong "has no % directive"
  | (before, some cs) =>
    let flags := cs.takeWhile "-+#0 '".toList.contains
    let cs := cs.drop flags.length
    let width := cs.takeWhile Char.isDigit
    let cs := cs.drop width.length
    let (precision, cs) : Option Nat × List Char := match cs with
      | '.' :: cs =>
        let ds := cs.takeWhile Char.isDigit
        (some (Extended.digitsValue 10 ds), cs.drop ds.length)
      | cs => (none, cs)
    let cs := match cs with
      | 'L' :: cs => cs
      | cs => cs
    match cs with
    | [] => wrong "ends in %"
    | letter :: cs =>
      if !"efgaEFGA".toList.contains letter then
        wrong ("has unknown %" ++ letter.toString ++ " directive")
      else match plainText cs with
        | (_, some _) => wrong "has too many % directives"
        | (after, none) => .ok {
            before := String.ofList before, after := String.ofList after
            number := { flags, width := Extended.digitsValue 10 width, precision, letter } }

/-- A number as it is shown, without the texts around it. -/
def figures (f : SequenceForm) (x : Extended) : String := String.ofList (x.figures f.number)

/-- A number as it is shown. -/
def text (f : SequenceForm) (x : Extended) : String := f.before ++ f.figures x ++ f.after

/-- The form for numbers that were given in some digits, perhaps all in one width. -/
def usual (first step last : SequenceBound) (equalWidth : Bool) : SequenceForm :=
  match first.precision, step.precision, last.precision with
  | some p, some q, some l =>
    let precision := max p q
    let pointed (own : Nat) : Nat := if own = 0 && precision != 0 then 1 else 0
    let firstWidth := first.width + (precision - p) + pointed p
    let lastWidth := last.width + precision + pointed l - l -
      (if l != 0 && precision = 0 then 1 else 0)
    { number := {
        flags := if equalWidth then ['0'] else []
        width := if equalWidth then max firstWidth lastWidth else 0
        precision := some precision, letter := 'f' } }
  | _, _, _ => { number := { letter := 'g' } }

end SequenceForm

/-! ### Sequences -/

/-- How many numbers are written at a time. -/
def sequenceBatch : Nat := 1000

/-- Writes whole numbers from one on, up to the last one if there is one. -/
def writeWhole (separator : String) (step : Nat) (last : Option Nat) : Nat → Nat → Program Int
  | 0, _ => pure 1
  | fuel + 1, n => do
    let left := (last.map fun l => (l - n) / step).getD sequenceBatch
    let count := min sequenceBatch left
    let shown := (List.range count).map fun k => toString (n + k * step) ++ separator
    emit (Text.encode (String.join shown))
    let next := n + count * step
    if last.any (· < next + step) then
      emit (Text.encode (toString next ++ "\n"))
      return 0
    else writeWhole separator step last fuel next

/-- Numbers from one on, by steps. -/
structure Progression where
  first : Extended
  step : Extended
  last : Extended
  form : SequenceForm
  separator : String := "\n"
  deriving DecidableEq, Repr

namespace Progression

/-- Whether a number is beyond the last. -/
def isBeyond (p : Progression) (x : Extended) : Bool :=
  if p.step.isLess (.ofNat 0) then x.isLess p.last else p.last.isLess x

/-- Whether a number beyond the last is written for all that: it is shown as the last one, and in
another way than the one before it. -/
def isShownAsLast (p : Progression) (before x : Extended) : Bool :=
  let shown := p.form.figures x
  (Extended.whole? shown).any (fun y => y.compare? p.last == some .eq) &&
    p.form.figures before != shown

/-- Some numbers of a sequence, the last one first, and what is left of it: the next number and its
place, if there is one. -/
def batch (p : Progression) : Nat → Nat → Extended → List String →
    List String × Option (Nat × Extended)
  | 0, i, x, shown => (shown, some (i, x))
  | count + 1, i, x, shown =>
    let shown := p.form.text x :: shown
    let next := p.first.add (p.step.scale i)
    if !p.isBeyond next then p.batch count (i + 1) next (p.separator :: shown)
    else if p.isShownAsLast x next then ("\n" :: p.form.text next :: p.separator :: shown, none)
    else ("\n" :: shown, none)

/-- Writes a sequence from a number at some place on. -/
def write (p : Progression) : Nat → Nat → Extended → Program Int
  | 0, _, _ => pure 1
  | fuel + 1, i, x => do
    let (shown, rest) := p.batch sequenceBatch i x []
    emit (Text.encode (String.join shown.reverse))
    match rest with
    | some (i, x) => p.write fuel i x
    | none => return 0

end Progression

/-! ### `seq` -/

/-- Whether an argument is a negative number. -/
def isNegativeNumber (s : String) : Bool :=
  match s.toList with
  | '-' :: c :: _ => c.isDigit || c == '.'
  | _ => false

open LongOption in
/-- The options of `seq`. -/
def seqOptions : OptionTable where
  flags := "w"
  valued := "fs"
  long := [plain "equal-width" "w", valued "format" "f", valued "separator" "s"]
  mixed := false

/-- How many arguments come before the first operand, which may be a negative number. -/
def leadingOptions : List String → Nat
  | [] => 0
  | argument :: rest =>
    let passed (r : OptionTable.Reading) : Nat :=
      match r, rest with
      | .lacking .., _ :: rest => leadingOptions rest + 2
      | _, rest => leadingOptions rest + 1
    if isNegativeNumber argument then 0
    else match argument.toList with
      | ['-', '-'] => 1
      | '-' :: '-' :: cs => passed (seqOptions.longName cs)
      | '-' :: c :: cs => passed (seqOptions.letters (c :: cs))
      | _ => 0

/-- The arguments of `seq`, in which negative numbers are no options. -/
def seqArguments (c : Context) : Program Arguments := do
  let count := leadingOptions c.arguments
  let a ← parseArguments { c with arguments := c.arguments.take count } seqOptions 1
  return { a with operands := a.operands ++ c.arguments.drop count }

/-- The largest step by which whole numbers are counted as such. -/
def largestStep : Nat := 200

/-- A number that is given as an operand. -/
def sequenceBound (c : Context) (s : String) : Program SequenceBound :=
  match SequenceBound.parse? s with
  | none => misuse c ("invalid floating point argument: " ++ curled s) 1
  | some bound =>
    match bound.value with
    | .unordered _ =>
      misuse c ("invalid " ++ curled "not-a-number" ++ " argument: " ++ curled s) 1
    | _ => pure bound

/-- The whole number that a number without a sign is. -/
def wholeNumber? : Extended → Option Nat
  | .finite false m e => some (Extended.size m e).nearest
  | _ => none

/-- The numbers that are counted as whole ones: the first, the step and the last, which may be out
of all bounds. -/
def wholeSequence? (first step last : SequenceBound) : Option (Nat × Nat × Option Nat) := do
  if [first, step, last].any (·.precision != some 0) then none
  let n ← wholeNumber? first.value
  let k ← wholeNumber? step.value
  if k = 0 || largestStep < k then none
  match last.value with
  | .infinite false => return (n, k, none)
  | value => do
    let l ← wholeNumber? value
    if l < n then none else return (n, k, some l)

/-- The numbers that operands in digits only stand for. -/
def plainSequence? : List String → Option (Nat × Nat × Option Nat)
  | [last] => do
    let l ← natural? last
    if l = 0 then none else return (1, 1, some l)
  | [first, last] => do
    let n ← natural? first
    let l ← natural? last
    if l < n then none else return (n, 1, some l)
  | [first, step, last] => do
    let n ← natural? first
    let k ← natural? step
    let l ← natural? last
    if k = 0 || largestStep < k || l < n then none else return (n, k, some l)
  | _ => none

/-- Writes the numbers between two numbers. -/
def seq : Utility := fun c => do
  let a ← seqArguments c
  let bounds ← match a.operands with
    | [] => misuse c "missing operand" 1
    | [_] | [_, _] | [_, _, _] => pure a.operands
    | _ :: _ :: _ :: extra :: _ => misuse c ("extra operand " ++ curled extra) 1
  let asked ← match (a.value? "f").map SequenceForm.parse with
    | none => pure none
    | some (.ok form) => pure (some form)
    | some (.error text) => do
      complain c text
      .exit 1
  if asked.isSome && a.has "w" then
    misuse c "format string may not be specified when printing equal width strings" 1
  let separator := (a.value? "s").getD "\n"
  let counts := asked.isNone && !a.has "w" && separator.utf8ByteSize = 1
  match if counts then plainSequence? bounds else none with
  | some (n, k, l) => writeWhole separator k l readings n
  | none => do
    let (first, step, last) ← match bounds with
      | [last] => do pure (.one, .one, ← sequenceBound c last)
      | [first, last] => do
        let first ← sequenceBound c first
        pure (first, .one, ← sequenceBound c last)
      | first :: step :: rest => do
        let first ← sequenceBound c first
        let increment ← sequenceBound c step
        if increment.value.isZero then
          misuse c ("invalid Zero increment value: " ++ curled step) 1
        pure (first, increment, ← sequenceBound c (rest.headD ""))
      | [] => pure (.one, .one, .one)
    match if counts then wholeSequence? first step last else none with
    | some (n, k, l) => writeWhole separator k l readings n
    | none =>
      let form := asked.getD (SequenceForm.usual first step last (a.has "w"))
      let p : Progression := {
        first := first.value, step := step.value, last := last.value, form, separator }
      if p.isBeyond p.first then return 0 else p.write readings 1 p.first

/-- Where the first number is the last, nothing but that is written. -/
theorem writeWhole_single (separator : String) (n fuel : Nat) :
    writeWhole separator 1 (some n) (fuel + 1) n = do
      emit (Text.encode "")
      emit (Text.encode (toString n ++ "\n"))
      return 0 := by
  simp [writeWhole, String.join]

/-! ### `sleep` -/

/-- The units of time, in seconds. -/
def timeUnits : List (Char × Nat) := [('s', 1), ('m', 60), ('h', 3600), ('d', 86400)]

/-- A span of time that nobody waits for, in microseconds. -/
def longestSpan : Nat := 1000000000000000

/-- A span of time in microseconds. -/
def duration? (s : String) : Option Nat := do
  let (x, rest) ← Extended.parse s.toList
  let unit ← match rest with
    | [] => some 1
    | [c] => timeUnits.lookup c
    | _ => none
  match x with
  | .finite negative m e =>
    let f := Extended.size m e
    if negative && m != 0 then none
    else
      let span := (f.numerator * unit * 1000000 + f.denominator - 1) / f.denominator
      return min longestSpan span
  | .infinite false => return longestSpan
  | _ => none

/-- Waits for some time. -/
def sleepFor : Utility := fun c => do
  let a ← parseArguments c {} 1
  if a.operands.isEmpty then misuse c "missing operand" 1
  let wrong := a.operands.filter fun s => (duration? s).isNone
  match wrong.getLast? with
  | some last => do
    wrong.dropLast.forM fun s => complain c ("invalid time interval " ++ curled s)
    misuse c ("invalid time interval " ++ curled last) 1
  | none => Program.sleep ((a.operands.filterMap duration?).foldl (· + ·) 0) fun _ => pure 0

end LineShell.Userland
