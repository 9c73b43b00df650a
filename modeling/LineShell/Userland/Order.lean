import LineShell.Userland.Extended
import LineShell.Userland.Lines

namespace LineShell.Userland

open Text (Bytes)

/-!
# Orders of texts

* `compareBytes` — byte by byte;
* `compareNumbers` — by the decimal numbers that texts start with;
* `compareSizes` — the same, with letters behind the numbers for thousands, millions and so on;
* `compareReadings` — by the numbers in whatever form that texts start with;
* `compareMonths` — by the names of months;
* `compareVersions` — by versions in names, in which digits count as numbers.
-/

/-- The order of bytes one after another. -/
def compareBytes : Bytes → Bytes → Ordering
  | [], [] => .eq
  | [], _ :: _ => .lt
  | _ :: _, [] => .gt
  | a :: as, b :: bs => if a < b then .lt else if b < a then .gt else compareBytes as bs

/-! ### Bytes -/

/-- Whether a byte is a space or a tab. -/
def isBlankByte (b : UInt8) : Bool := b == ' '.toUInt8 || b == '\t'.toUInt8

/-- Whether a byte is a decimal digit. -/
def isDigitByte (b : UInt8) : Bool := '0'.toUInt8 ≤ b && b ≤ '9'.toUInt8

/-- Whether a byte is a letter. -/
def isLetterByte (b : UInt8) : Bool := (65 ≤ b && b ≤ 90) || (97 ≤ b && b ≤ 122)

/-- Whether a byte separates fields: a blank, or a newline where lines have another end. -/
def isGapByte (b : UInt8) : Bool := isBlankByte b || b == newline

/-- A letter's byte in its other case, if it has one that is smaller. -/
def upperByte (b : UInt8) : UInt8 := if 97 ≤ b && b ≤ 122 then b - 32 else b

/-! ### Numbers -/

/-- The number of some digits. -/
def digitsNumber (bs : Bytes) : Nat := bs.foldl (fun n b => n * 10 + (b.toNat - 48)) 0

/-- A decimal number that a text starts with, and the text behind it. -/
structure LeadingNumber where
  negative : Bool
  whole : Bytes
  /-- The digits behind the point. -/
  part : Bytes
  rest : Bytes
  deriving DecidableEq, Repr

/-- The number that a text starts with, behind blanks. -/
def LeadingNumber.read (bs : Bytes) : LeadingNumber :=
  let bs := bs.dropWhile isGapByte
  let (negative, bs) : Bool × Bytes := match bs with
    | 45 :: bs => (true, bs)
    | bs => (false, bs)
  let whole := bs.takeWhile isDigitByte
  match bs.drop whole.length with
  | 46 :: after =>
    let part := after.takeWhile isDigitByte
    { negative, whole, part, rest := after.drop part.length }
  | rest => { negative, whole, part := [], rest }

/-- The mantissa of a number, and how many digits follow the point. No number counts as zero. -/
def leadingNumber (bs : Bytes) : Int × Nat :=
  let number := LeadingNumber.read bs
  let n := digitsNumber (number.whole ++ number.part)
  (if number.negative then -n else n, number.part.length)

/-- The order of the numbers that texts start with. -/
def compareNumbers (a b : Bytes) : Ordering :=
  let (m, i) := leadingNumber a
  let (n, j) := leadingNumber b
  compare (m * Nat.pow 10 j) (n * Nat.pow 10 i)

/-- The rank of the letter behind a number, with the number's sign. A zero has no rank. -/
def sizeRank (bs : Bytes) : Int :=
  let number := LeadingNumber.read bs
  if (number.whole ++ number.part).all (· == '0'.toUInt8) then 0
  else
    let letters : List Char := ['K', 'M', 'G', 'T', 'P', 'E', 'Z', 'Y']
    let rank : Nat := match number.rest with
      | [] => 0
      | b :: _ =>
        let c := if b == 'k'.toUInt8 then 'K' else Char.ofNat b.toNat
        ((letters.idxOf? c).map (· + 1)).getD 0
    if number.negative then -rank else rank

/-- The order of numbers with letters behind them, which count first. -/
def compareSizes (a b : Bytes) : Ordering :=
  (compare (sizeRank a) (sizeRank b)).then (compareNumbers a b)

/-- The number in whatever form that a text starts with. -/
def reading? (bs : Bytes) : Option Extended :=
  (Extended.parse (bs.map fun b => Char.ofNat b.toNat)).map (·.1)

/-- The order of the numbers in whatever form that texts start with. Texts without one come first,
and then what is read as no number. -/
def compareReadings (a b : Bytes) : Ordering :=
  match reading? a, reading? b with
  | none, none => .eq
  | none, some _ => .lt
  | some _, none => .gt
  | some x, some y =>
    match x.compare? y with
    | some order => order
    | none => match x, y with
      | .unordered s, .unordered t => compare t.toNat s.toNat
      | .unordered _, _ => .lt
      | _, _ => .gt

/-! ### Months -/

/-- The months by the first letters of their names. -/
def monthNames : List String :=
  ["JAN", "FEB", "MAR", "APR", "MAY", "JUN", "JUL", "AUG", "SEP", "OCT", "NOV", "DEC"]

/-- The number of the month that a text starts with, or zero. -/
def monthNumber (bs : Bytes) : Nat :=
  let name := ((bs.dropWhile isGapByte).take 3).map upperByte
  ((monthNames.idxOf? (Text.decodeLossy name)).map (· + 1)).getD 0

/-- The order of months. -/
def compareMonths (a b : Bytes) : Ordering := compare (monthNumber a) (monthNumber b)

/-! ### Versions -/

/-- The rank of what stands next in a text, where no digits are compared. The end comes before all
but a tilde, and letters before other characters. -/
def versionRank : Bytes → Int
  | [] => -1
  | b :: _ =>
    if isDigitByte b then 0
    else if isLetterByte b then b.toNat
    else if b == '~'.toUInt8 then -2
    else b.toNat + 256

/-- The order of two texts up to digits in both, or else what is left of them there. -/
def compareToDigits : Bytes → Bytes → Except Ordering (Bytes × Bytes)
  | a, b =>
    if !a.head?.any (!isDigitByte ·) && !b.head?.any (!isDigitByte ·) then .ok (a, b)
    else match compare (versionRank a) (versionRank b), a, b with
      | .eq, _ :: as, _ :: bs => compareToDigits as bs
      | order, _, _ => .error order
termination_by a => a.length

/-- The order of texts in which digits count as numbers. -/
def compareNumbered : Nat → Bytes → Bytes → Ordering
  | 0, _, _ => .eq
  | fuel + 1, a, b =>
    match compareToDigits a b with
    | .error order => order
    | .ok ([], []) => .eq
    | .ok (a, b) =>
      let m := a.takeWhile isDigitByte
      let n := b.takeWhile isDigitByte
      (compare (digitsNumber m) (digitsNumber n)).then
        (compareNumbered fuel (a.drop m.length) (b.drop n.length))

/-- The endings that text behind a first byte consists of, if it does: each a point, a letter or a
tilde, and letters, digits and tildes. -/
def isAllEndings : Nat → Bytes → Bool
  | 0, _ => false
  | _, [] => true
  | fuel + 1, b :: bs =>
    let isStart (c : UInt8) : Bool := isLetterByte c || c == '~'.toUInt8
    b == '.'.toUInt8 && bs.head?.any isStart &&
      isAllEndings fuel (bs.dropWhile fun c => isStart c || isDigitByte c)

/-- A name without the endings behind its first byte. -/
def withoutEndings : Bytes → Bytes
  | [] => []
  | b :: bs => if isAllEndings (bs.length + 1) bs then [b] else b :: withoutEndings bs

/-- The rank of a name by the points it starts with. -/
def pointsRank (bs : Bytes) : Nat :=
  if bs.isEmpty then 0
  else if bs == Text.encode "." then 1
  else if bs == Text.encode ".." then 2
  else if bs.head? == some '.'.toUInt8 then 3
  else 4

/-- The order of names with versions in them. Endings count only where the rest is the same. -/
def compareVersions (a b : Bytes) : Ordering :=
  let plain (a b : Bytes) : Ordering := compareNumbered (a.length + b.length + 1) a b
  match compare (pointsRank a) (pointsRank b) with
  | .eq =>
    if pointsRank a < 3 then .eq
    else (plain (withoutEndings a) (withoutEndings b)).then (plain a b)
  | order => order

theorem compareBytes_self (bs : Bytes) : compareBytes bs bs = .eq := by
  induction bs with
  | nil => rfl
  | cons b bs ih => simp [compareBytes, ih, UInt8.lt_irrefl]

/-- Whichever of two texts comes first, it comes first in the other direction last. -/
theorem compareBytes_swap (as bs : Bytes) :
    (compareBytes as bs).swap = compareBytes bs as := by
  induction as generalizing bs with
  | nil => cases bs <;> rfl
  | cons a as ih =>
    cases bs with
    | nil => rfl
    | cons b bs =>
      simp only [compareBytes]
      by_cases h : a < b
      · simp [h, UInt8.lt_asymm h]
      · by_cases k : b < a <;> simp [h, k, ih]

end LineShell.Userland
