import LineShell.Userland.Extended

namespace LineShell.Userland

/-!
# Numbers in figures

* `NumberForm` — how a number is written: with how many digits, with which sign, how wide;
* `Extended.figures` — a number with a point, with an exponent, or in hexadecimal digits;
* `pad` — a text made as wide as asked for.
-/

/-- How a number is written. -/
structure NumberForm where
  /-- The characters that were given to ask for it, out of `-+ #0`. -/
  flags : List Char := []
  width : Nat := 0
  precision : Option Nat := none
  /-- The letter of the form, as in a directive. -/
  letter : Char
  deriving DecidableEq, Repr

/-- A text made wider by spaces, or by zeros where those are asked for. -/
def pad (flags : List Char) (width : Nat) (zeros : Bool) (sign body : List Char) : List Char :=
  let room := width - sign.length - body.length
  if flags.contains '-' then sign ++ body ++ List.replicate room ' '
  else if zeros && flags.contains '0' then sign ++ List.replicate room '0' ++ body
  else List.replicate room ' ' ++ sign ++ body

/-- The sign of a number. -/
def signOf (flags : List Char) (negative : Bool) : List Char :=
  if negative then ['-']
  else if flags.contains '+' then ['+']
  else if flags.contains ' ' then [' ']
  else []

namespace Fraction

/-- Digits with a point before the last `count` of them. The point goes where nothing follows it,
unless it is to stay. -/
def withPoint (keepsPoint : Bool) (count : Nat) (ds : List Char) : List Char :=
  let padded := List.replicate (count + 1 - ds.length) '0' ++ ds
  let whole := padded.take (padded.length - count)
  let part := padded.drop (padded.length - count)
  if part.isEmpty && !keepsPoint then whole else whole ++ '.' :: part

/-- A fraction with so many digits after the point. -/
def fixed (f : Fraction) (keepsPoint : Bool) (count : Nat) : List Char :=
  withPoint keepsPoint count (Nat.toDigits 10 (f.scaled 10 count).nearest)

/-- The power of ten that a fraction reaches, where it is not zero. -/
def decimalReach (f : Fraction) : Int :=
  let guess : Int := (Nat.toDigits 10 f.numerator).length - (Nat.toDigits 10 f.denominator).length
  let power := ({ numerator := 1 } : Fraction).scaled 10 guess
  if f.numerator * power.denominator < power.numerator * f.denominator then guess - 1 else guess

/-- The digits of a fraction, one and so many more, and the power of ten of the first. -/
def digitsAndPower (f : Fraction) (count : Nat) : List Char × Int :=
  if f.numerator = 0 then (List.replicate (count + 1) '0', 0)
  else
    let power := f.decimalReach
    let ds := Nat.toDigits 10 (f.scaled 10 (count - power)).nearest
    -- rounding up can lead to one more digit, which is a zero
    if count + 1 < ds.length then (ds.dropLast, power + 1) else (ds, power)

/-- An exponent with its letter, its sign and at least so many digits. -/
def exponentFigures (letter : Char) (least : Nat) (power : Int) : List Char :=
  let ds := Nat.toDigits 10 power.natAbs
  letter :: (if power < 0 then '-' else '+') :: List.replicate (least - ds.length) '0' ++ ds

/-- A fraction with one digit before the point, so many after it, and an exponent. -/
def scientific (f : Fraction) (keepsPoint : Bool) (count : Nat) : List Char :=
  let (ds, power) := f.digitsAndPower count
  withPoint keepsPoint count ds ++ exponentFigures 'e' 2 power

/-- Digits without the zeros behind the point that say nothing. -/
def withoutZeros (ds : List Char) : List Char :=
  if !ds.contains '.' then ds
  else
    let kept := (ds.reverse.dropWhile (· == '0')).reverse
    if kept.getLast? == some '.' then kept.dropLast else kept

/-- A fraction with so many digits in all, in the shorter one of the two forms. -/
def general (f : Fraction) (keepsZeros : Bool) (count : Nat) : List Char :=
  let count := max count 1
  let (ds, power) := f.digitsAndPower (count - 1)
  let trim (cs : List Char) : List Char := if keepsZeros then cs else withoutZeros cs
  if -4 ≤ power && power < count then trim (f.fixed keepsZeros (count - 1 - power).toNat)
  else trim (withPoint keepsZeros (count - 1) ds) ++ exponentFigures 'e' 2 power

end Fraction

namespace Extended

/-- A mantissa in hexadecimal digits, the first of which holds its first four bits. -/
def hexadecimal (keepsPoint : Bool) (digits : Option Nat) (mantissa : Nat) (exponent : Int) :
    List Char :=
  if mantissa = 0 then
    '0' :: 'x' :: Fraction.withPoint keepsPoint (digits.getD 0) ['0'] ++
      Fraction.exponentFigures 'p' 1 0
  else
    let behind := precision / 4 - 1
    let shift := precision - 1 - Nat.log2 mantissa
    let full := mantissa * Nat.pow 2 shift
    let (value, count) : Nat × Nat := match digits with
      | none => (full, behind)
      | some count =>
        if behind ≤ count then (full * Nat.pow 16 (count - behind), count)
        else (Fraction.nearest ⟨full, Nat.pow 16 (behind - count)⟩, count)
    let ds := Nat.toDigits 16 value
    -- rounding up can lead to one more digit
    let (ds, carry) : List Char × Int := if count + 1 < ds.length then (ds.dropLast, 4) else (ds, 0)
    let text := Fraction.withPoint keepsPoint count ds
    let shown := if digits.isNone then Fraction.withoutZeros text else text
    let power := exponent - shift + 4 * behind + carry
    '0' :: 'x' :: shown ++ Fraction.exponentFigures 'p' 1 power

/-- A number in figures. -/
def figures (x : Extended) (form : NumberForm) : List Char :=
  let lower := form.letter.toLower
  let cased (cs : List Char) : List Char :=
    if form.letter.isUpper then cs.map Char.toUpper else cs
  let sign := signOf form.flags x.isNegative
  match x with
  | infinite _ => pad form.flags form.width false sign (cased "inf".toList)
  | unordered _ => pad form.flags form.width false sign (cased "nan".toList)
  | finite _ mantissa exponent =>
    let keeps := form.flags.contains '#'
    let f := size mantissa exponent
    let count := form.precision.getD 6
    if lower == 'a' then
      let body := hexadecimal keeps form.precision mantissa exponent
      pad form.flags form.width true (sign ++ cased (body.take 2)) (cased (body.drop 2))
    else
      let body := if lower == 'e' then f.scientific keeps count
        else if lower == 'g' then f.general keeps count
        else f.fixed keeps count
      pad form.flags form.width true sign (cased body)

end Extended

/-- A text that is wide enough stays as it is. -/
theorem pad_of_width_le {width : Nat} {sign body : List Char}
    (h : width ≤ sign.length + body.length) (flags : List Char) (zeros : Bool) :
    pad flags width zeros sign body = sign ++ body := by
  have : width - sign.length - body.length = 0 := by omega
  simp [pad, this]

end LineShell.Userland
