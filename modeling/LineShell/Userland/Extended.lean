import LineShell.Text.Utf8

namespace LineShell.Userland

/-!
# Numbers in extended precision

Binary numbers whose mantissa has 64 bits, as programs count with them.

* `Extended` — such a number, or what stands for none;
* `Extended.round` — the number nearest to a fraction, and of two the even one;
* `Extended.add`, `Extended.scale`, `Extended.compare` — what is done with them;
* `Extended.parse` — the number that a text starts with.
-/

/-- A number in extended precision. -/
inductive Extended
  /-- The mantissa times two to the power of the exponent. -/
  | finite (negative : Bool) (mantissa : Nat) (exponent : Int)
  | infinite (negative : Bool)
  | unordered (negative : Bool)
  deriving DecidableEq, Repr

/-- A fraction without a sign; the denominator is not zero. -/
structure Fraction where
  numerator : Nat
  denominator : Nat := 1
  deriving DecidableEq, Repr

namespace Fraction

/-- A fraction times a base to the power of an exponent. -/
def scaled (f : Fraction) (base : Nat) (exponent : Int) : Fraction :=
  if exponent < 0 then { f with denominator := f.denominator * Nat.pow base (-exponent).toNat }
  else { f with numerator := f.numerator * Nat.pow base exponent.toNat }

/-- The whole number nearest to a fraction, and of two the even one. -/
def nearest (f : Fraction) : Nat :=
  let quotient := f.numerator / f.denominator
  let twice := 2 * (f.numerator % f.denominator)
  if f.denominator < twice || (twice == f.denominator && quotient % 2 == 1) then quotient + 1
  else quotient

/-- The power of two that a fraction reaches, where it is not zero. -/
def reach (f : Fraction) : Int :=
  let guess : Int := (Nat.log2 f.numerator : Int) - Nat.log2 f.denominator
  let power := ({ numerator := 1 } : Fraction).scaled 2 guess
  if f.numerator * power.denominator < power.numerator * f.denominator then guess - 1 else guess

@[simp] theorem nearest_whole (n : Nat) : nearest { numerator := n } = n := by
  simp [nearest, Nat.mod_one]

end Fraction

namespace Extended

/-- How many bits a mantissa has. -/
def precision : Nat := 64

/-- The least exponent. -/
def leastExponent : Int := -16445

/-- The exponent from which on a mantissa with all its bits is too large. -/
def endExponent : Int := 16321

/-- The number nearest to a fraction, and of two the even one. -/
def round (negative : Bool) (f : Fraction) : Extended :=
  if f.numerator = 0 then finite negative 0 0
  else
    let exponent := max (f.reach - (precision - 1)) leastExponent
    let mantissa := (f.scaled 2 (-exponent)).nearest
    let (mantissa, exponent) : Nat × Int :=
      if mantissa = Nat.pow 2 precision then (Nat.pow 2 (precision - 1), exponent + 1)
      else (mantissa, exponent)
    if endExponent ≤ exponent then infinite negative else finite negative mantissa exponent

/-- A whole number. -/
def ofNat (n : Nat) : Extended := round false { numerator := n }

/-- The size of a number as a fraction. -/
def size (mantissa : Nat) (exponent : Int) : Fraction :=
  ({ numerator := mantissa } : Fraction).scaled 2 exponent

/-- Whether a number has a minus. -/
def isNegative : Extended → Bool
  | finite negative _ _ | infinite negative | unordered negative => negative

/-- A number with its sign changed. -/
def negate : Extended → Extended
  | finite negative m e => finite (!negative) m e
  | infinite negative => infinite !negative
  | unordered negative => unordered !negative

/-- A signed fraction as a number. A zero has the sign that is named. -/
def ofSigned (zeroSign : Bool) (numerator : Int) (denominator : Nat) : Extended :=
  if numerator = 0 then finite zeroSign 0 0
  else round (numerator < 0) ⟨numerator.natAbs, denominator⟩

/-- The numerator with its sign. -/
def signed (negative : Bool) (n : Nat) : Int := if negative then -n else n

/-- The sum of two numbers. -/
def add : Extended → Extended → Extended
  | finite s m e, finite t n f =>
    let a := size m e
    let b := size n f
    ofSigned (s && t) (signed s (a.numerator * b.denominator) +
      signed t (b.numerator * a.denominator)) (a.denominator * b.denominator)
  | infinite s, infinite t => if s == t then infinite s else unordered true
  | unordered s, _ | _, unordered s => unordered s
  | infinite s, _ | _, infinite s => infinite s

/-- A number taken so many times. -/
def scale (times : Nat) : Extended → Extended
  | finite s m e =>
    match ofNat times with
    | finite _ n f =>
      let a := size m e
      let b := size n f
      round s ⟨a.numerator * b.numerator, a.denominator * b.denominator⟩
    | other => other
  | infinite s => if times = 0 then unordered true else infinite s
  | unordered s => unordered s

/-- The order of two numbers, unless one of them is none. -/
def compare? : Extended → Extended → Option Ordering
  | unordered _, _ | _, unordered _ => none
  | infinite s, infinite t => some (compare t.toNat s.toNat)
  | infinite s, _ => some (if s then .lt else .gt)
  | _, infinite t => some (if t then .gt else .lt)
  | finite s m e, finite t n f =>
    let a := size m e
    let b := size n f
    some (compare (signed s (a.numerator * b.denominator))
      (signed t (b.numerator * a.denominator)))

/-- A number with a mantissa of 53 bits, and the smaller exponents that go with it. -/
def narrowed : Extended → Extended
  | finite s m e =>
    let dropped := max 0 (max ((Nat.log2 m : Int) + e - 52) (-1074) - e)
    let mantissa := ((size m e).scaled 2 (-(e + dropped))).nearest
    if Nat.pow 2 1024 ≤ (size mantissa (e + dropped)).nearest then infinite s
    else round s (size mantissa (e + dropped))
  | other => other

/-- Whether a number is smaller than another. -/
def isLess (a b : Extended) : Bool := a.compare? b == some .lt

/-- Whether a number is zero. -/
def isZero : Extended → Bool
  | finite _ m _ => m == 0
  | _ => false

/-! ### Texts -/

/-- The value of a digit up to a base. -/
def digitValue? (base : Nat) (c : Char) : Option Nat :=
  let value? := if c.isDigit then some (c.toNat - '0'.toNat)
    else if 'a' ≤ c && c ≤ 'f' then some (c.toNat - 'a'.toNat + 10)
    else if 'A' ≤ c && c ≤ 'F' then some (c.toNat - 'A'.toNat + 10)
    else none
  value?.filter (· < base)

/-- The number of some digits. -/
def digitsValue (base : Nat) (cs : List Char) : Nat :=
  cs.foldl (fun n c => n * base + (digitValue? base c).getD 0) 0

/-- Digits with perhaps a point in them: those before and after it, and the text behind; nothing if
there are no digits. -/
def pointed? (base : Nat) (cs : List Char) : Option (List Char × List Char × List Char) :=
  let isDigit (c : Char) : Bool := (digitValue? base c).isSome
  let whole := cs.takeWhile isDigit
  match cs.drop whole.length with
  | '.' :: rest =>
    let part := rest.takeWhile isDigit
    if whole.isEmpty && part.isEmpty then none else some (whole, part, rest.drop part.length)
  | rest => if whole.isEmpty then none else some (whole, [], rest)

/-- The exponent behind digits, if its letter and a number are there, and the text behind it. -/
def exponentOf (letter : Char) (cs : List Char) : Int × List Char :=
  match cs with
  | [] => (0, [])
  | c :: rest =>
    if c.toLower != letter then (0, c :: rest)
    else
      let (negative, ds) : Bool × List Char := match rest with
        | '-' :: ds => (true, ds)
        | '+' :: ds => (false, ds)
        | ds => (false, ds)
      let digits := ds.takeWhile Char.isDigit
      if digits.isEmpty then (0, c :: rest)
      else (signed negative (digitsValue 10 digits), ds.drop digits.length)

/-- The number of digits times a base to the power of an exponent. What is out of all bounds is
not counted out. -/
def ofDigits (negative : Bool) (n base : Nat) (exponent : Int) : Extended :=
  let magnitude := (Nat.log2 n : Int) + exponent * (Nat.log2 base + 1)
  if n = 0 then finite negative 0 0
  else if 20000 < (Nat.log2 n : Int) + exponent * Nat.log2 base then infinite negative
  else if magnitude < -20000 then finite negative 0 0
  else round negative (({ numerator := n } : Fraction).scaled base exponent)

/-- Whether a text starts with a word in small letters, in whatever case. -/
def startsWithWord (word : String) (cs : List Char) : Bool :=
  (cs.take word.length).map Char.toLower == word.toList

/-- The number without a sign that a text starts with, and the text behind it. -/
def unsigned? (negative : Bool) (cs : List Char) : Option (Extended × List Char) :=
  if startsWithWord "infinity" cs then some (infinite negative, cs.drop 8)
  else if startsWithWord "inf" cs then some (infinite negative, cs.drop 3)
  else if startsWithWord "nan" cs then
    let rest := cs.drop 3
    match rest with
    | '(' :: inner =>
      let name := inner.takeWhile fun c => c.isAlphanum || c == '_'
      match inner.drop name.length with
      | ')' :: behind => some (unordered negative, behind)
      | _ => some (unordered negative, rest)
    | rest => some (unordered negative, rest)
  else
    let hexadecimal := if startsWithWord "0x" cs then pointed? 16 (cs.drop 2) else none
    match hexadecimal, pointed? 10 cs with
    | some (whole, part, rest), _ =>
      let (exponent, rest) := exponentOf 'p' rest
      some (ofDigits negative (digitsValue 16 (whole ++ part)) 2 (exponent - 4 * part.length), rest)
    | none, some (whole, part, rest) =>
      let (exponent, rest) := exponentOf 'e' rest
      some (ofDigits negative (digitsValue 10 (whole ++ part)) 10 (exponent - part.length), rest)
    | none, none => none

/-- Whether a character is passed over before a number. -/
def isSpace (c : Char) : Bool := c == ' ' || ('\t' ≤ c && c ≤ '\r')

/-- The number that a text starts with, behind blanks, and the text behind it. -/
def parse (cs : List Char) : Option (Extended × List Char) :=
  match cs.dropWhile isSpace with
  | '-' :: cs => unsigned? true cs
  | '+' :: cs => unsigned? false cs
  | cs => unsigned? false cs

/-- The number that a whole text is. -/
def whole? (s : String) : Option Extended :=
  match parse s.toList with
  | some (x, []) => some x
  | _ => none

@[simp] theorem negate_negate (x : Extended) : x.negate.negate = x := by
  cases x <;> simp [negate]

/-- What is no number has no place in the order. -/
theorem compare?_unordered (negative : Bool) (x : Extended) :
    compare? (unordered negative) x = none := by
  cases x <;> rfl

end Extended

end LineShell.Userland
