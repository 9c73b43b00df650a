import LineShell.Userland.Arguments
import LineShell.Userland.Escape

namespace LineShell.Userland

open Text (Bytes)

/-!
# Transliterating bytes

* `SetElement`, `ByteSet` — the bytes that a set's text stands for: ranges, classes, repeats;
* `correspondence` — which byte of a set becomes which of another;
* `Transliteration` — what is deleted, what becomes what, and what is not repeated;
* `tr` — transliterates the standard input.
-/

/-- The bytes between two bytes. -/
def byteRange (a b : UInt8) : Bytes :=
  (List.range (b.toNat + 1 - a.toNat)).map fun k => UInt8.ofNat (a.toNat + k)

/-- The classes of bytes by name. -/
def byteClass? (name : String) : Option Bytes :=
  let upper := byteRange 65 90
  let lower := byteRange 97 122
  let digit := byteRange 48 57
  let graph := byteRange 33 126
  [("alnum", digit ++ upper ++ lower), ("alpha", upper ++ lower), ("blank", [9, 32]),
    ("cntrl", byteRange 0 31 ++ [127]), ("digit", digit), ("graph", graph), ("lower", lower),
    ("print", 32 :: graph),
    ("punct", graph.filter fun b => !(digit ++ upper ++ lower).contains b),
    ("space", byteRange 9 13 ++ [32]), ("upper", upper),
    ("xdigit", digit ++ byteRange 65 70 ++ byteRange 97 102)].lookup name

/-- A byte of a set's text, and whether it was escaped. -/
abbrev SetByte := UInt8 × Bool

/-- What a letter after a backslash stands for in a set. -/
def setEscape? (b : UInt8) : Option UInt8 :=
  if character b == 'e' then none else simpleEscape? b

/-- The byte of octal digits. A third digit that would make it too large is left, with a warning. -/
def octalByte (bs : Bytes) : UInt8 × Bytes × Option String :=
  let number := digits octalDigit? 8 3 bs
  if number.value < 256 then (UInt8.ofNat number.value, number.rest, none)
  else
    let text (bs : Bytes) : String := String.ofList (bs.map character)
    let last := text ((bs.drop 2).take 1)
    (UInt8.ofNat (number.value / 8), bs.drop 2, some
      ("warning: the ambiguous octal escape \\" ++ text (bs.take 3) ++ " is being\n\t" ++
        "interpreted as the 2-byte sequence \\0" ++ text (bs.take 2) ++ ", " ++ last))

/-- A set's text without its escapes, and warnings about them. -/
def setBytes : Nat → Bytes → List SetByte × List String
  | 0, _ => ([], [])
  | _, [] => ([], [])
  | fuel + 1, b :: bs =>
    let (byte, rest, warning) : SetByte × Bytes × Option String :=
      if b != backslash then ((b, false), bs, none)
      else match bs with
        | [] => ((b, false), [], some
            "warning: an unescaped backslash at end of string is not portable")
        | c :: rest =>
          match setEscape? c, octalDigit? c with
          | some e, _ => ((e, true), rest, none)
          | none, some _ =>
            let (e, rest, warning) := octalByte bs
            ((e, true), rest, warning)
          | none, none => ((c, true), rest, none)
    let (more, warnings) := setBytes fuel rest
    (byte :: more, warning.toList ++ warnings)

/-- An element of a set. -/
inductive SetElement
  | byte (b : UInt8)
  | range (first last : UInt8)
  | members (name : String) (bytes : Bytes)
  /-- The bytes that count as one with a byte: only itself. -/
  | equal (b : UInt8)
  /-- A byte so many times; zero is as often as there is room. -/
  | repeated (b : UInt8) (count : Nat)
  deriving DecidableEq, Repr

namespace SetElement

/-- The bytes of an element. -/
def bytes (room : Nat) : SetElement → Bytes
  | byte b | equal b => [b]
  | range first last => byteRange first last
  | members _ bytes => bytes
  | repeated b count => List.replicate (if count = 0 then room else count) b

/-- Whether an element is as long as there is room. -/
def isOpen : SetElement → Bool
  | repeated _ count => count == 0
  | _ => false

/-- Whether an element is a class of bytes. -/
def isClass : SetElement → Bool
  | members .. => true
  | _ => false

/-- Whether an element is the class of capitals, or of small letters. -/
def isCase : SetElement → Bool
  | members name _ => name == "upper" || name == "lower"
  | _ => false

end SetElement

/-- A byte as messages show it. -/
def shownByte (b : UInt8) : List Char :=
  if 32 ≤ b && b < 127 then [character b] else '\\' :: octalDigits b

/-- Bytes as messages show them. -/
def shownBytes (bs : Bytes) : String :=
  String.ofList <| bs.flatMap fun b =>
    match ('\\', '\\') :: escapeLetters |>.lookup (character b) with
    | some letter => ['\\', letter]
    | none => shownByte b

/-- The text up to a mark and a closing bracket, and what comes after them. -/
def upToMark (mark : UInt8) : List SetByte → Option (List SetByte × List SetByte)
  | [] => none
  | b :: bs =>
    if b == (mark, false) && bs.head? == some (93, false) then some ([], bs.tail)
    else do
      let (inner, rest) ← upToMark mark bs
      return (b :: inner, rest)

/-- Whether a star, perhaps digits, and a closing bracket come next. -/
def isRepeatEnd : List SetByte → Bool
  | (42, false) :: bs => (bs.dropWhile fun b => 48 ≤ b.1 && b.1 ≤ 57).head? == some (93, false)
  | _ => false

/-- The class, or the byte and its equals, that a set's text starts with after a bracket, and the
text after it. -/
def classPrefix? (bs : List SetByte) : Except String (Option (SetElement × List SetByte)) :=
  match bs with
  | (mark, false) :: bs =>
    if mark != 58 && mark != 61 then .ok none
    else match upToMark mark bs with
      | none => .ok none
      | some ([], _) => .error (if mark = 58 then "missing character class name '[::]'"
          else "missing equivalence class character '[==]'")
      | some (inner, rest) =>
        let text := inner.map (·.1)
        match mark == 58, byteClass? (Text.decodeLossy text), text with
        | true, some bytes, _ => .ok (some (.members (Text.decodeLossy text) bytes, rest))
        | false, _, [b] => .ok (some (.equal b, rest))
        | isName, _, _ =>
          if isRepeatEnd bs then .ok none
          else if isName then .error ("invalid character class " ++ curled (shownBytes text))
          else .error (shownBytes text ++
            ": equivalence class operand must be a single character")
  | _ => .ok none

/-- The most repeats. -/
def mostRepeats : Nat := 18446744073709551613

/-- The repeat that a set's text starts with after a bracket, as in `[x*3]`, and the text after it.
Digits behind a zero are octal. -/
def repeatPrefix? (bs : List SetByte) : Except String (Option (SetElement × List SetByte)) :=
  match bs with
  | (b, _) :: (42, false) :: bs =>
    let count := bs.takeWhile fun c => !c.2 && c.1 != 93
    match bs.drop count.length with
    | (93, false) :: rest =>
      let text := count.map (·.1)
      let octal := text.head? == some 48
      let number := digits (if octal then octalDigit? else decimalDigit?) (if octal then 8 else 10)
        text.length text
      if !number.rest.isEmpty || mostRepeats < number.value then
        .error ("invalid repeat count " ++ curled (shownBytes text) ++ " in [c*n] construct")
      else .ok (some (.repeated b number.value, rest))
    | _ => .ok none
  | _ => .ok none

/-- The elements of a set. None is longer than `fuel`. -/
def setElements : Nat → List SetByte → Except String (List SetElement)
  | 0, _ => .ok []
  | fuel + 1, bs => do
    match bs with
    | [] => return []
    | [a] => return [.byte a.1]
    | [a, b] => return [.byte a.1, .byte b.1]
    | a :: rest =>
      let bracketed ← if a != (91, false) then pure none
        else match ← classPrefix? rest with
          | some found => pure (some found)
          | none => repeatPrefix? rest
      match bracketed, rest with
      | some (element, rest), _ => (element :: ·) <$> setElements fuel rest
      | none, (45, false) :: b :: rest =>
        if b.1 < a.1 then
          .error ("range-endpoints of '" ++ String.ofList (shownByte a.1) ++ "-" ++
            String.ofList (shownByte b.1) ++ "' are in reverse collating sequence order")
        else (.range a.1 b.1 :: ·) <$> setElements fuel rest
      | none, rest => (.byte a.1 :: ·) <$> setElements fuel rest

/-- A set of bytes, in order. -/
abbrev ByteSet := List SetElement

namespace ByteSet

/-- The set that a text stands for, and warnings about the text. -/
def parse (text : String) : List String × Except String ByteSet :=
  let bytes := Text.encode text
  let (bs, warnings) := setBytes bytes.length bytes
  (warnings, setElements (bs.length + 1) bs)

/-- The bytes of a set, where what is as long as there is room has so much. -/
def bytes (room : Nat) (s : ByteSet) : Bytes := s.flatMap (SetElement.bytes room)

/-- A set made as long as another by repeating its last byte. -/
def extended (length : Nat) (s : ByteSet) : ByteSet :=
  let short := length - (s.bytes 0).length
  if short = 0 then s
  else match s.find? SetElement.isOpen with
    | some _ => s.map fun e => match e with
        | .repeated b 0 => .repeated b short
        | e => e
    | none => s ++ [.repeated ((s.bytes 0).getLastD 0) short]

@[simp] theorem bytes_nil (room : Nat) : bytes room [] = [] := rfl

end ByteSet

/-- What is done to bytes. -/
structure Transliteration where
  deleted : Bytes := []
  /-- What becomes what; of two entries for a byte the last counts. -/
  mapping : List (UInt8 × UInt8) := []
  /-- Of which bytes only the first in a row stays. -/
  squeezed : Bytes := []
  deriving DecidableEq, Repr

/-- What becomes of bytes after a last byte, and the last byte then. -/
def Transliteration.apply (t : Transliteration) (last : Option UInt8) (bs : Bytes) :
    Option UInt8 × Bytes :=
  let step (s : Option UInt8 × Bytes) (b : UInt8) : Option UInt8 × Bytes :=
    if t.deleted.contains b then s
    else
      let b := (t.mapping.lookup b).getD b
      if t.squeezed.contains b && s.1 == some b then s else (some b, b :: s.2)
  let (last, out) := bs.foldl step (last, [])
  (last, out.reverse)

/-- The bytes that are not in a set. -/
def complement (bs : Bytes) : Bytes := (byteRange 0 255).filter (!bs.contains ·)

/-- What is wrong with the number of sets, if anything, and why. -/
def setsError? (a : Arguments) : Option (String × Option String) :=
  let deletes := a.has "d"
  let squeezes := a.has "s"
  match a.operands with
  | [] => some ("missing operand", none)
  | [one] =>
    if !deletes && !squeezes then
      some ("missing operand after " ++ curled one,
        some "Two strings must be given when translating.")
    else if deletes && squeezes then
      some ("missing operand after " ++ curled one,
        some "Two strings must be given when both deleting and squeezing repeats.")
    else none
  | [_, two] =>
    if deletes && !squeezes then
      some ("extra operand " ++ curled two,
        some "Only one string may be given when deleting without squeezing repeats.")
    else none
  | _ :: two :: three :: _ =>
    some ("extra operand " ++ curled (if deletes && !squeezes then two else three), none)

/-- A byte of a set with what matters where letters change their case. -/
structure SetCell where
  byte : UInt8
  /-- Whether it belongs to the capitals, or to the small letters. -/
  cased : Bool := false
  /-- Whether it is the first of its element. -/
  first : Bool := true
  deriving DecidableEq, Repr

/-- The cells of an element. -/
def SetElement.cells (e : SetElement) : List SetCell :=
  match e.bytes 0 with
  | [] => []
  | b :: bs => ⟨b, e.isCase, true⟩ :: bs.map (⟨·, e.isCase, false⟩)

/-- Which byte becomes which. Letters that change their case must be opposite each other. -/
def pairs : Nat → List SetCell → List SetCell → Except String (List (UInt8 × UInt8))
  | 0, _, _ => .ok []
  | fuel + 1, source, target =>
    let misaligned : Except String (List (UInt8 × UInt8)) :=
      .error "misaligned [:upper:] and/or [:lower:] construct"
    match source, target with
    | a :: as, b :: bs =>
      if !b.cased then ((a.byte, b.byte) :: ·) <$> pairs fuel as bs
      else if !(a.cased && a.first) then misaligned
      else do
        let whole (c : SetCell) (cs : List SetCell) : Bytes :=
          c.byte :: (cs.takeWhile (!·.first)).map (·.byte)
        let more ← pairs fuel (as.dropWhile (!·.first)) (bs.dropWhile (!·.first))
        return (whole a as).zip (whole b bs) ++ more
    | [], b :: _ => if b.cased then misaligned else .ok []
    | _, [] => .ok []

/-- What a set is changed to, when another takes its place. -/
def correspondence (flip truncates : Bool) (one two : ByteSet) :
    Except String (List (UInt8 × UInt8) × ByteSet) := do
  let source := if flip then complement (one.bytes 0) else one.bytes 0
  let two := if two.any SetElement.isOpen then two.extended source.length else two
  if two.any fun e => match e with
      | .equal _ => true
      | _ => false then
    .error "[=c=] expressions may not appear in string2 when translating"
  if two.any fun e => e.isClass && !e.isCase then
    .error ("when translating, the only character classes that may appear in\n" ++
      "string2 are 'upper' and 'lower'")
  let sourceCells := one.flatMap SetElement.cells
  let targetCells (s : ByteSet) : List SetCell := s.flatMap SetElement.cells
  if !flip then
    let _ ← pairs (sourceCells.length + 1) sourceCells (targetCells two)
  let isShort := (two.bytes 0).length < source.length
  if isShort && !truncates then
    match two.getLast? with
    | none => .error "when not truncating set1, string2 must be non-empty"
    | some e =>
      if e.isClass then
        .error ("when translating with string1 longer than string2,\n" ++
          "the latter string must not end with a character class")
  let two := if truncates then two else two.extended source.length
  let target := two.bytes 0
  if flip && one.any SetElement.isClass &&
      !(target.length = source.length && target.all (· == target.headD 0)) then
    .error ("when translating with complemented character classes,\n" ++
      "string2 must map all characters in the domain to one")
  if flip then return (source.zip target, two)
  else return (← pairs (sourceCells.length + 1) sourceCells (targetCells two), two)

/-- What sets and options ask to be done. -/
def transliteration (a : Arguments) (one : ByteSet) (two : Option ByteSet) :
    Except String Transliteration := do
  let flip := a.has "c" || a.has "C"
  if one.any SetElement.isOpen then
    .error "the [c*] repeat construct may not appear in string1"
  let source := if flip then complement (one.bytes 0) else one.bytes 0
  match two with
  | none => return if a.has "d" then { deleted := source } else { squeezed := source }
  | some two =>
    if 1 < two.countP SetElement.isOpen then
      .error "only one [c*] repeat construct may appear in string2"
    if a.has "d" then
      if two.any SetElement.isOpen then
        .error "the [c*] construct may appear in string2 only when translating"
      return { deleted := source, squeezed := two.bytes 0 }
    let (mapping, two) ← correspondence flip (a.has "t") one two
    return {
      mapping := mapping.reverse
      squeezed := if a.has "s" then two.bytes 0 else [] }

/-- The options of `tr`. -/
def trOptions : OptionTable where
  flags := "cCdst"
  long := [.plain "complement" "c", .plain "delete" "d", .plain "squeeze-repeats" "s",
    .plain "truncate-set1" "t"]
  mixed := false

/-- Transliterates the standard input. -/
def tr : Utility := fun c => do
  let a ← parseArguments c trOptions 1
  match setsError? a with
  | some (text, why) =>
    complain c text
    Program.say 2 ((why.map (· ++ "\n")).getD "" ++ "Try '" ++ c.name ++
      " --help' for more information.\n")
    return 1
  | none => do
    let set (text : String) : Program ByteSet := do
      let (warnings, parsed) := ByteSet.parse text
      warnings.forM (complain c)
      match parsed with
      | .ok s => return s
      | .error e => do
        complain c e
        .exit 1
    let one ← set (a.operands.headD "")
    let two ← match a.operands with
      | [_, second] => some <$> set second
      | _ => pure none
    match transliteration a one two with
    | .error e => do
      complain c e
      return 1
    | .ok t => do
      let _ ← foldChunks 0 t.apply readings none
      return 0

@[simp] theorem Transliteration.apply_nil (t : Transliteration) (last : Option UInt8) :
    t.apply last [] = (last, []) := rfl

end LineShell.Userland
