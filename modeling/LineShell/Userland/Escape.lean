import LineShell.Userland.Lines

namespace LineShell.Userland

open Text (Bytes)

/-!
# Escapes

* `Digits`, `digits` — the number that some bytes start with;
* `EscapeStyle` — the forms of backslash escapes that are in use;
* `escape` — what stands for what follows a backslash;
* `unescape` — a text without its escapes.
-/

/-- The byte that starts an escape. -/
abbrev backslash : UInt8 := '\\'.toUInt8

/-- The value of an octal digit. -/
def octalDigit? (b : UInt8) : Option Nat :=
  if '0'.toUInt8 ≤ b && b ≤ '7'.toUInt8 then some (b - '0'.toUInt8).toNat else none

/-- The value of a decimal digit. -/
def decimalDigit? (b : UInt8) : Option Nat :=
  if '0'.toUInt8 ≤ b && b ≤ '9'.toUInt8 then some (b - '0'.toUInt8).toNat else none

/-- The value of a hexadecimal digit. -/
def hexDigit? (b : UInt8) : Option Nat :=
  if 'a'.toUInt8 ≤ b && b ≤ 'f'.toUInt8 then some (10 + (b - 'a'.toUInt8).toNat)
  else if 'A'.toUInt8 ≤ b && b ≤ 'F'.toUInt8 then some (10 + (b - 'A'.toUInt8).toNat)
  else decimalDigit? b

/-- A number in digits, how many there are, and the bytes after them. -/
structure Digits where
  value : Nat
  count : Nat
  rest : Bytes
  deriving DecidableEq, Repr

/-- The number of at most so many digits that some bytes start with. -/
def digits (digit? : UInt8 → Option Nat) (base : Nat) : Nat → Bytes → Digits :=
  let rec go (value seen : Nat) : Nat → Bytes → Digits
    | 0, bs => ⟨value, seen, bs⟩
    | _, [] => ⟨value, seen, []⟩
    | most + 1, b :: bs =>
      match digit? b with
      | some d => go (value * base + d) (seen + 1) most bs
      | none => ⟨value, seen, b :: bs⟩
  go 0 0

/-- The character whose number a byte is. -/
def character (b : UInt8) : Char := Char.ofNat b.toNat

/-- What a letter after a backslash stands for. -/
def simpleEscape? (b : UInt8) : Option UInt8 :=
  [('\\', 92), ('a', 7), ('b', 8), ('e', 27), ('f', 12), ('n', 10), ('r', 13), ('t', 9),
    ('v', 11)].lookup (character b)

/-- A form of backslash escapes. -/
structure EscapeStyle where
  /-- Whether a double quotation mark may be escaped. -/
  marks : Bool := false
  /-- Whether there is an escape with which the output ends. -/
  stops : Bool := false
  /-- Whether bytes can be given in hexadecimal digits. -/
  hexadecimal : Bool := false
  /-- Whether characters can be given by number, and digits may not be missing. -/
  characters : Bool := false
  /-- Whether a zero may stand before octal digits. -/
  leadingZero : Bool := false
  deriving DecidableEq, Repr

namespace EscapeStyle

/-- The escapes of a program that writes its arguments. -/
def echoed : EscapeStyle := { stops := true, hexadecimal := true, leadingZero := true }

/-- The escapes of a program's format. -/
def format : EscapeStyle :=
  { marks := true, stops := true, hexadecimal := true, characters := true }

/-- The escapes of arguments that a format shows. -/
def argument : EscapeStyle := { format with leadingZero := true }

/-- The escapes of a shell's format. -/
def shellFormat : EscapeStyle := {}

/-- The escapes of arguments that a shell shows. -/
def shellArgument : EscapeStyle := { stops := true, leadingZero := true }

end EscapeStyle

/-- What stands for an escape. -/
inductive Unescaped
  | bytes (bs : Bytes)
  /-- The output ends here. -/
  | stop
  /-- The escape makes no sense. -/
  | broken (complaint : String)
  deriving DecidableEq, Repr

/-- That digits are missing. -/
def missingDigits : String := "missing hexadecimal number in escape"

/-- A number in at least so many hexadecimal digits. -/
def hexDigits (least n : Nat) : List Char :=
  let ds := Nat.toDigits 16 n
  List.replicate (least - ds.length) '0' ++ ds

/-- The character of a number in so many digits, which a letter announces. Numbers of characters
that can be typed, but for three of them, and of halves of characters make no sense. -/
def numberedCharacter (letter : Char) (count n : Nat) : Unescaped :=
  let typed := n ≤ 0x9f && n != 0x24 && n != 0x40 && n != 0x60
  if typed || (0xd800 ≤ n && n ≤ 0xdfff) then
    .broken ("invalid universal character name \\" ++ letter.toString ++
      String.ofList (hexDigits count n))
  else if 0x10ffff < n then
    .bytes (Text.encode ("\\U" ++ String.ofList ((hexDigits 8 n).map Char.toUpper)))
  else .bytes (Text.encode (Char.ofNat n).toString)

/-- What stands for what follows a backslash, and the bytes after it. -/
def escape (style : EscapeStyle) : Bytes → Unescaped × Bytes
  | [] => (.bytes [backslash], [])
  | b :: bs =>
    let itself : Unescaped × Bytes := (.bytes [backslash, b], bs)
    let octal (bs : Bytes) : Unescaped × Bytes :=
      let number := digits octalDigit? 8 3 bs
      (.bytes [UInt8.ofNat number.value], number.rest)
    match simpleEscape? b, octalDigit? b, character b with
    | some c, _, _ => (.bytes [c], bs)
    | none, some _, _ => octal (if style.leadingZero && b == '0'.toUInt8 then bs else b :: bs)
    | none, none, 'c' => if style.stops then (.stop, bs) else itself
    | none, none, 'x' =>
      let number := digits hexDigit? 16 2 bs
      if !style.hexadecimal then itself
      else if number.count = 0 then if style.characters then (.broken missingDigits, bs) else itself
      else (.bytes [UInt8.ofNat number.value], number.rest)
    | none, none, c =>
      if style.marks && c.toNat == 34 then (.bytes [b], bs)
      else if style.characters && (c == 'u' || c == 'U') then
        let count := if c == 'u' then 4 else 8
        let number := digits hexDigit? 16 count bs
        (if number.count < count then .broken missingDigits
          else numberedCharacter c count number.value, number.rest)
      else itself

/-- A text without its escapes, and whether the output goes on behind it. -/
structure Unescape where
  out : Bytes
  goes : Bool := true
  /-- What is wrong with the escape at which the text was left. -/
  complaint : Option String := none
  deriving DecidableEq, Repr

/-- A text without its escapes. None is longer than `fuel`, which the length of the text bounds. -/
def unescape (style : EscapeStyle) : Nat → Bytes → Unescape
  | 0, bs => { out := bs }
  | _, [] => { out := [] }
  | fuel + 1, b :: bs =>
    if b == backslash then
      match escape style bs with
      | (.stop, _) => { out := [], goes := false }
      | (.broken complaint, _) => { out := [], goes := false, complaint := some complaint }
      | (.bytes out, rest) =>
        let more := unescape style fuel rest
        { more with out := out ++ more.out }
    else
      let more := unescape style fuel bs
      { more with out := b :: more.out }

/-- A text without a backslash stays as it is. -/
theorem unescape_plain (style : EscapeStyle) {bs : Bytes} (h : backslash ∉ bs) (fuel : Nat) :
    unescape style fuel bs = { out := bs } := by
  induction bs generalizing fuel with
  | nil => cases fuel <;> rfl
  | cons b bs ih =>
    cases fuel with
    | zero => rfl
    | succ fuel =>
      have hb : (b == backslash) = false := by
        simp only [beq_eq_false_iff_ne]
        intro hb
        exact h (hb ▸ List.mem_cons_self)
      have hbs : backslash ∉ bs := fun hm => h (List.mem_cons_of_mem b hm)
      simp [unescape, hb, ih hbs fuel]

end LineShell.Userland
