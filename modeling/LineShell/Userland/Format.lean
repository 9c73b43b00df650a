import LineShell.Userland.Echo
import LineShell.Userland.Figures

namespace LineShell.Userland

open Text (Bytes)

/-!
# Formats

* `FormatDialect` — the formats of a program, and of a shell;
* `formatPieces` — a format as bytes to be written and directives to be filled in;
* `Figure` — a text as a number, and what is wrong with it;
* `fill` — writes arguments in the form that a format asks for;
* `printf` — the program that does so.
-/

/-- Whose formats they are. -/
inductive FormatDialect
  | program
  | shell
  deriving DecidableEq, Repr

/-- The byte that starts a directive. -/
abbrev percent : UInt8 := '%'.toUInt8

/-- A width or a precision: a number, or that of the next argument. -/
inductive Measure
  | fixed (n : Nat)
  | given
  deriving DecidableEq, Repr

/-- How an argument is to be shown. -/
structure Directive where
  flags : List Char := []
  width : Measure := .fixed 0
  precision : Option Measure := none
  letter : Char
  deriving DecidableEq, Repr

/-- A piece of a format. -/
inductive FormatPiece
  | literal (bytes : Bytes)
  | directive (d : Directive)
  /-- The output ends here. -/
  | stop
  /-- The format makes no sense from here on. -/
  | broken (complaint : String)
  deriving DecidableEq, Repr

/-! ### Reading formats -/

namespace FormatDialect

/-- The characters that can stand before a width. -/
def flags : FormatDialect → List Char
  | program => "-+ #0'I".toList
  | shell => "#-+ 0".toList

/-- The letters of directives. -/
def letters : FormatDialect → List Char
  | program => "aAcdeEfFgGiosuxX".toList
  | shell => "aAbcdeEfFgGiosuxX".toList

/-- The letters that go with some flags, and with a precision if there is one. -/
def allows (d : FormatDialect) (flags : List Char) (precise : Bool) (letter : Char) : Bool :=
  let barred : List Char := match d with
    | shell => []
    | program =>
      (if flags.contains '\'' || flags.contains 'I' then "aAceEosxX".toList else []) ++
      (if flags.contains '#' then "cdisu".toList else []) ++
      (if flags.contains '0' then "cs".toList else []) ++
      (if precise then ['c'] else [])
  d.letters.contains letter && !barred.contains letter

/-- The escapes of formats. -/
def escapes : FormatDialect → EscapeStyle
  | program => .format
  | shell => .shellFormat

/-- The escapes of arguments. -/
def argumentEscapes : FormatDialect → EscapeStyle
  | program => .argument
  | shell => .shellArgument

/-- That a directive is none. -/
def invalid : FormatDialect → Bytes → String
  | program, text => Text.decodeLossy text ++ ": invalid conversion specification"
  | shell, text => Text.decodeLossy text ++ ": invalid directive"

end FormatDialect

/-- The bytes at the start that are among some characters, and those behind them. -/
def spanOf (cs : List Char) (bs : Bytes) : List Char × Bytes :=
  let run := bs.takeWhile fun b => cs.contains (character b)
  (run.map character, bs.drop run.length)

/-- A width or a precision, and the bytes behind it. -/
def measure : Bytes → Measure × Bytes
  | 42 :: bs => (.given, bs)
  | bs =>
    let number := digits decimalDigit? 10 bs.length bs
    (.fixed number.value, number.rest)

/-- A directive behind its percent sign, and the bytes behind it. -/
def directive (d : FormatDialect) (bs : Bytes) : FormatPiece × Bytes :=
  let (flags, rest) := spanOf d.flags bs
  let (width, rest) := measure rest
  let (precision, rest) : Option Measure × Bytes := match rest with
    | 46 :: rest =>
      let (precision, rest) := measure rest
      (some precision, rest)
    | rest => (none, rest)
  let rest := match d with
    | .program => (spanOf "lLhjtz".toList rest).2
    | .shell => rest
  match rest with
  | [] => match d with
    | .program => (.broken (d.invalid (percent :: bs)), [])
    | .shell => (.broken "missing format character", [])
  | b :: behind =>
    if d.allows flags precision.isSome (character b) then
      (.directive { flags, width, precision, letter := character b }, behind)
    else
      (.broken (d.invalid (percent :: bs.take (bs.length - behind.length))), [])

/-- The piece behind a percent sign, and the bytes behind it. -/
def percentPiece (d : FormatDialect) (bs : Bytes) : FormatPiece × Bytes :=
  match d, bs.map character with
  | _, '%' :: _ => (.literal [percent], bs.tail)
  | .program, 'b' :: _ => (.directive { letter := 'b' }, bs.tail)
  | .program, 'q' :: _ => (.directive { letter := 'q' }, bs.tail)
  | d, _ => directive d bs

/-- The pieces of a format. None is longer than `fuel`, which the length of the format bounds. -/
def formatPieces (d : FormatDialect) : Nat → Bytes → List FormatPiece
  | 0, _ | _, [] => []
  | fuel + 1, b :: bs =>
    if b == backslash then
      match escape d.escapes bs with
      | (.bytes out, rest) => .literal out :: formatPieces d fuel rest
      | (.stop, _) => [.stop]
      | (.broken complaint, _) => [.broken complaint]
    else if b == percent then
      let (piece, rest) := percentPiece d bs
      piece :: formatPieces d fuel rest
    else
      let run := (b :: bs).takeWhile fun b => b != backslash && b != percent
      .literal run :: formatPieces d fuel ((b :: bs).drop run.length)

/-! ### Numbers -/

/-- What is wrong with a text that should be a number. -/
inductive Figure.Mistake
  | noNumber
  | moreBehind
  | tooLarge
  /-- Something follows a quotation mark and the character behind it. -/
  | moreCharacters (behind : String)
  deriving DecidableEq, Repr

/-- A text as a number, and what is wrong with it. -/
structure Figure (α : Type) where
  value : α
  mistakes : List Figure.Mistake := []
  deriving DecidableEq, Repr

namespace Figure

variable {α : Type}

/-- What is wrong with a text of which some is left. -/
def leftMistake (whole rest : List Char) : List Mistake :=
  if rest.isEmpty then []
  else if rest.length == whole.length then [.noNumber]
  else [.moreBehind]

/-- Whether a character is a quotation mark, after which a character stands for its number. -/
def isQuotation (c : Char) : Bool := c.toNat == 34 || c.toNat == 39

/-- The number of the character behind a quotation mark. -/
def ofCharacter? (d : FormatDialect) (convert : Nat → α) : List Char → Option (Figure α)
  | [] => none
  | mark :: cs =>
    if !isQuotation mark then none
    else match d, cs with
      | .program, [] => none
      | .program, c :: behind => some {
          value := convert c.toNat
          mistakes := if behind.isEmpty then [] else [.moreCharacters (String.ofList behind)] }
      | .shell, cs => some {
          value := convert (((Text.encode (String.ofList cs)).headD 0).toNat) }

/-- The digits of a number and their base: a zero stands before octal digits, and a zero and an X
before hexadecimal ones. -/
def baseAndDigits (cs : List Char) : Nat × List Char × List Char :=
  let split (base : Nat) (cs : List Char) : Nat × List Char × List Char :=
    let ds := cs.takeWhile fun c => (Extended.digitValue? base c).isSome
    (base, ds, cs.drop ds.length)
  match cs with
  | '0' :: x :: c :: rest =>
    if x.toLower == 'x' && (Extended.digitValue? 16 c).isSome then split 16 (c :: rest)
    else split 8 cs
  | '0' :: _ => split 8 cs
  | _ => split 10 cs

/-- How many numbers a machine word can be. -/
def wordRange : Nat := 18446744073709551616

/-- A whole number in a machine word: with its sign, or else as if it had none. -/
def whole (d : FormatDialect) (signed : Bool) (text : String) : Figure Int :=
  let cs := text.toList
  match ofCharacter? d Int.ofNat cs with
  | some figure => figure
  | none =>
    let (negative, unsigned) : Bool × List Char := match cs.dropWhile Extended.isSpace with
      | '-' :: cs => (true, cs)
      | '+' :: cs => (false, cs)
      | cs => (false, cs)
    let (base, ds, rest) := baseAndDigits unsigned
    let n := Extended.digitsValue base ds
    let behind := leftMistake cs (if ds.isEmpty then cs else rest)
    let half := wordRange / 2
    let (value, fits) : Int × Bool :=
      if signed then
        if negative then (-(min n half : Nat), n ≤ half)
        else ((min n (half - 1) : Nat), n < half)
      else if wordRange ≤ n then ((wordRange - 1 : Nat), false)
      else if negative then (((wordRange - n) % wordRange : Nat), true)
      else (n, true)
    let large : List Mistake := if fits then [] else [.tooLarge]
    { value, mistakes := match d with
        | .program => if fits then behind else large
        | .shell => if behind.isEmpty then large else behind }

/-- Whether a text names what is infinite. -/
def namesInfinity (cs : List Char) : Bool :=
  Extended.startsWithWord "inf" ((cs.dropWhile Extended.isSpace).dropWhile fun c =>
    c == '-' || c == '+')

/-- A number with digits after the point. -/
def fractional (d : FormatDialect) (text : String) : Figure Extended :=
  let cs := text.toList
  match ofCharacter? d Extended.ofNat cs with
  | some figure => figure
  | none =>
    let (x, rest) := (Extended.parse cs).getD (.finite false 0 0, cs)
    let value := match d with
      | .program => x
      | .shell => x.narrowed
    let large : List Mistake := match value with
      | .infinite _ => if namesInfinity cs then [] else [.tooLarge]
      | _ => []
    let behind := leftMistake cs rest
    { value, mistakes := match d with
        | .program => if large.isEmpty then behind else large
        | .shell => if behind.isEmpty then large else behind }

end Figure

/-- What is said of a text that should be a number. -/
def FormatDialect.mistakeText (d : FormatDialect) (text : String) : Figure.Mistake → String
  | .noNumber => match d with
    | program => curled text ++ ": expected a numeric value"
    | shell => text ++ ": expected numeric value"
  | .moreBehind => match d with
    | program => curled text ++ ": value not completely converted"
    | shell => text ++ ": not completely converted"
  | .tooLarge =>
    (match d with
    | program => curled text
    | shell => text) ++ ": Numerical result out of range"
  | .moreCharacters behind =>
    "warning: " ++ behind ++ ": character(s) following character constant have been ignored"

/-- Whether a mistake only asks for a warning. -/
def Figure.Mistake.isWarning : Figure.Mistake → Bool
  | moreCharacters _ => true
  | _ => false

/-- A whole number as a directive shows it. -/
def wholeFigures (form : NumberForm) (n : Int) : List Char :=
  let lower := form.letter.toLower
  let signed := lower == 'd' || lower == 'i'
  let sharp := form.flags.contains '#'
  let base := if lower == 'o' then 8 else if lower == 'x' then 16 else 10
  let plain := if n = 0 && form.precision == some 0 then [] else Nat.toDigits base n.natAbs
  let body := List.replicate (form.precision.getD 0 - plain.length) '0' ++ plain
  let body := if sharp && base = 8 && body.head? != some '0' then '0' :: body else body
  let start := if signed then signOf form.flags (n < 0)
    else if sharp && base = 16 && n != 0 then ['0', form.letter]
    else []
  let body := if form.letter == 'X' then body.map Char.toUpper else body
  pad form.flags form.width form.precision.isNone start body

/-- Bytes made wider by spaces. -/
def padBytes (flags : List Char) (width : Nat) (bs : Bytes) : Bytes :=
  let room := List.replicate (width - bs.length) ' '.toUInt8
  if flags.contains '-' then bs ++ room else room ++ bs

/-! ### Filling in -/

/-- How far a format is filled in. -/
structure Filling where
  arguments : List String
  status : Int := 0
  /-- Whether the output goes on. -/
  goes : Bool := true
  deriving DecidableEq, Repr

namespace Filling

/-- The next argument, or none, and the filling without it. -/
def next (s : Filling) : Option String × Filling :=
  (s.arguments.head?, { s with arguments := s.arguments.tail })

/-- The filling at its end, with a status. -/
def ended (s : Filling) (status : Int) : Filling := { s with status, goes := false }

end Filling

/-- One who fills in formats. -/
structure Formatter where
  dialect : FormatDialect
  complain : String → Program Unit

namespace Formatter

/-- The filling of a format that makes no sense. -/
def fail (f : Formatter) (complaint : String) (s : Filling) : Program Filling := do
  f.complain complaint
  return s.ended (match f.dialect with
    | .program => 1
    | .shell => 2)

/-- Complains about an argument that should be a number. -/
def judge {α : Type} (f : Formatter) (text : String) (figure : Figure α) (s : Filling) :
    Program Filling := do
  figure.mistakes.forM fun m => f.complain (f.dialect.mistakeText text m)
  return if figure.mistakes.all (·.isWarning) then s else { s with status := 1 }

/-- The largest width. -/
def widest : Int := 2147483647

/-- A width or a precision, as a number that may be negative; nothing if it is out of bounds. -/
def measured (f : Formatter) (what : String) (m : Measure) (s : Filling) :
    Program (Option Int × Filling) := do
  match m with
  | .fixed n => return (some n, s)
  | .given =>
    match s.next with
    | (none, s) => return (some 0, s)
    | (some text, s) =>
      let figure := Figure.whole f.dialect true text
      let s ← f.judge text figure s
      let tooSmall := figure.value < -widest - 1 && what != "precision"
      if f.dialect == .program && (widest < figure.value || tooSmall) then
        return (none, ← f.fail ("invalid " ++ what ++ ": " ++ curled text) s)
      else return (some figure.value, s)

/-- Writes an argument as a directive asks for. -/
def write (f : Formatter) (d : Directive) (flags : List Char) (width : Nat) (precision : Option Nat)
    (s : Filling) : Program Filling := do
  let (argument, after) := s.next
  let text := argument.getD ""
  let form : NumberForm := { flags, width, precision, letter := d.letter }
  let cut (bs : Bytes) : Bytes := match precision with
    | none => bs
    | some p => bs.take p
  if d.letter == 'b' then
    let bytes := Text.encode text
    let shown := unescape f.dialect.argumentEscapes bytes.length bytes
    emit (padBytes flags width (cut shown.out))
    match shown.complaint with
    | some complaint => f.fail complaint after
    | none => return if shown.goes then after else after.ended (match f.dialect with
        | .program => 0
        | .shell => s.status)
  else if d.letter == 'q' then
    emit (Text.encode ((argument.map shellName).getD ""))
    return after
  else if d.letter == 's' then
    emit (padBytes flags width (cut (Text.encode text)))
    return after
  else if d.letter == 'c' then
    emit (padBytes flags width [(Text.encode text).headD 0])
    return after
  else if "aefg".toList.contains d.letter.toLower then
    let figure := Figure.fractional f.dialect text
    let after ← f.judge text figure after
    emit (Text.encode (String.ofList (figure.value.figures form)))
    return after
  else
    let figure := Figure.whole f.dialect (d.letter == 'd' || d.letter == 'i') text
    let after ← f.judge text figure after
    emit (Text.encode (String.ofList (wholeFigures form figure.value)))
    return after

/-- Fills in a directive. A negative width asks for spaces behind, and a negative precision is
none. -/
def fillDirective (f : Formatter) (d : Directive) (s : Filling) : Program Filling := do
  match ← f.measured "field width" d.width s with
  | (none, s) => return s
  | (some width, s) =>
    let flags := if width < 0 then '-' :: d.flags else d.flags
    match d.precision with
    | none => f.write d flags width.natAbs none s
    | some m =>
      match ← f.measured "precision" m s with
      | (none, s) => return s
      | (some p, s) => f.write d flags width.natAbs (if p < 0 then none else some p.toNat) s

/-- Fills in the pieces of a format. -/
def fillPieces (f : Formatter) : List FormatPiece → Filling → Program Filling
  | [], s => return s
  | piece :: pieces, s => do
    match piece with
    | .literal bytes =>
      emit bytes
      f.fillPieces pieces s
    | .stop => return s.ended 0
    | .broken complaint => f.fail complaint s
    | .directive d =>
      let s ← f.fillDirective d s
      if s.goes then f.fillPieces pieces s else return s

/-- Fills in a format again and again, as long as it uses up arguments. -/
def fillAll (f : Formatter) (pieces : List FormatPiece) : Nat → Filling → Program Filling
  | 0, s => return s
  | fuel + 1, s => do
    let after ← f.fillPieces pieces s
    if !after.goes || after.arguments.isEmpty || after.arguments.length == s.arguments.length then
      return after
    else f.fillAll pieces fuel after

/-- Writes arguments in the form that a format asks for. -/
def fill (f : Formatter) (format : String) (arguments : List String) : Program Filling :=
  let bytes := Text.encode format
  f.fillAll (formatPieces f.dialect bytes.length bytes) (arguments.length + 1) { arguments }

/-- A format without directives and escapes is written as it stands. -/
theorem fillPieces_literal (f : Formatter) (bytes : Bytes) (s : Filling) :
    f.fillPieces [.literal bytes] s = do
      emit bytes
      return s := rfl

end Formatter

/-- Writes its arguments in the form that the first of them asks for. -/
def printf : Utility := fun c => do
  if c.asksForHelp then return 0
  let operands := if c.arguments.head? == some "--" then c.arguments.tail else c.arguments
  match operands with
  | [] => misuse c "missing operand" 1
  | format :: arguments => do
    let s ← ({ dialect := .program, complain := complain c } : Formatter).fill format arguments
    if s.goes && !s.arguments.isEmpty then
      complain c ("warning: ignoring excess arguments, starting with " ++
        curled (s.arguments.headD ""))
    return s.status

end LineShell.Userland
