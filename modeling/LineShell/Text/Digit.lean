import LineShell.Text.Blank

namespace LineShell.Text

/-!
# Decimal digits and integers in text

* `zeros` — the digit zero of every decimal script; the nine digits above it follow each zero;
* `digit?` — the value of a decimal digit of any script;
* `integer?` — an integer as a setting spells it: a sign, then digits with single underscores
  between them, blanks around.
-/

/-- The zeros of the decimal scripts of Unicode 14, in increasing order. -/
def zeros : List Nat := [
  0x30, 0x660, 0x6F0, 0x7C0, 0x966, 0x9E6, 0xA66, 0xAE6, 0xB66, 0xBE6, 0xC66, 0xCE6, 0xD66, 0xDE6,
  0xE50, 0xED0, 0xF20, 0x1040, 0x1090, 0x17E0, 0x1810, 0x1946, 0x19D0, 0x1A80, 0x1A90, 0x1B50,
  0x1BB0, 0x1C40, 0x1C50, 0xA620, 0xA8D0, 0xA900, 0xA9D0, 0xA9F0, 0xAA50, 0xABF0, 0xFF10, 0x104A0,
  0x10D30, 0x11066, 0x110F0, 0x11136, 0x111D0, 0x112F0, 0x11450, 0x114D0, 0x11650, 0x116C0,
  0x11730, 0x118E0, 0x11950, 0x11C50, 0x11D50, 0x11DA0, 0x16A60, 0x16AC0, 0x16B50, 0x1D7CE,
  0x1D7D8, 0x1D7E2, 0x1D7EC, 0x1D7F6, 0x1E140, 0x1E2F0, 0x1E950, 0x1FBF0]

/-- The value of a decimal digit, whatever its script. -/
def digit? (c : Char) : Option Nat :=
  (zeros.find? fun z => z ≤ c.toNat && c.toNat ≤ z + 9).map (c.toNat - ·)

/-- The blanks an integer written in ASCII alone may have around it. -/
def isAsciiBlank (c : Char) : Bool := (9 ≤ c.toNat && c.toNat ≤ 13) || c == ' '

/-- The blanks an integer may have around it. The separators U+001C to U+001F are not among
them, although a trimmed line loses them. -/
def isIntegerBlank (c : Char) : Bool := isAsciiBlank c || (127 ≤ c.toNat && isBlank c)

/-- The most digits an integer may have. -/
def maxDigits : Nat := 4300

/-- Digits with single underscores between them, most significant first; `none` if anything else
stands there. The flag tells whether an underscore may come next. -/
def digits? : Bool → List Char → Option (List Nat)
  | afterDigit, [] => if afterDigit then some [] else none
  | afterDigit, '_' :: cs => if afterDigit then digits? false cs else none
  | _, c :: cs => do
    let d ← digit? c
    let ds ← digits? true cs
    return d :: ds

/-- The number that decimal digits spell. -/
def ofDigits (ds : List Nat) : Nat := ds.foldl (fun n d => n * 10 + d) 0

/-- An unsigned decimal number of at most `maxDigits` digits. -/
def natural? (cs : List Char) : Option Nat := do
  let ds ← digits? false cs
  if ds.length ≤ maxDigits then some (ofDigits ds) else none

/-- The integer that a text spells, if it spells one. -/
def integer? (cs : List Char) : Option Int :=
  match ((cs.dropWhile isIntegerBlank).reverse.dropWhile isIntegerBlank).reverse with
  | '+' :: ds => (natural? ds).map Int.ofNat
  | '-' :: ds => (natural? ds).map fun n => -(Int.ofNat n)
  | ds => (natural? ds).map Int.ofNat

@[simp] theorem ofDigits_nil : ofDigits [] = 0 := rfl

/-- Nothing but digits and underscores spells no number at all. -/
@[simp] theorem natural?_nil : natural? [] = none := rfl

end LineShell.Text
