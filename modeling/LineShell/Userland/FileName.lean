import LineShell.Text.Printable
import LineShell.Text.Utf8

namespace LineShell.Userland

/-!
# Names in messages

A message shows a file name the way it would have to be typed.

* `quotedName` — a name between quote marks, with escapes for what has no picture;
* `shellName`, `shownName` — a name as it stands, unless something in it asks for quote marks;
* `curled` — a text that is no file name, between quote marks of its own.
-/

/-- The characters that mean something to a shell wherever they stand, and between double quote
marks too or to some shells. -/
def shellMarks : List Char := "!\"$&()*;<=>[^`|?\\".toList

/-- The characters that mean something to a shell in some places. -/
def placeMarks : List Char := ['\x7b', '\x7d', '#', '~']

/-- Whether a character asks for quote marks wherever it stands. -/
def asksForMarks (c : Char) : Bool :=
  c == ' ' || c == '\'' || shellMarks.contains c || !Text.isPrintable c

/-- Whether a name has to stand between quote marks. -/
def needsMarks : List Char → Bool
  | [] | ['\x7b'] | ['\x7d'] => true
  | c :: cs => c == '#' || c == '~' || (c :: cs).any asksForMarks

/-- Whether a character stands for itself between double quote marks too. -/
def fitsDoubleMarks (c : Char) : Bool :=
  c == ' ' || c == '\'' || !(asksForMarks c || placeMarks.contains c)

/-- Whether a name has single quote marks in it and is best put between double ones. -/
def prefersDoubleMarks : List Char → Bool
  | [] => false
  | c :: cs =>
    (c :: cs).contains '\'' && (c == '#' || c == '~' || fitsDoubleMarks c) &&
      cs.all fitsDoubleMarks

/-- The letters of the escapes that have one. -/
def escapeLetters : List (Char × Char) :=
  [('\x07', 'a'), ('\x08', 'b'), ('\x0c', 'f'), ('\n', 'n'), ('\r', 'r'), ('\t', 't'),
    ('\x0b', 'v')]

/-- Three octal digits. -/
def octalDigits (b : UInt8) : List Char :=
  [b.toNat / 64, b.toNat / 8 % 8, b.toNat % 8].map Nat.digitChar

/-- The escape of a character that has no picture. -/
def escapeOf (c : Char) : List Char :=
  match escapeLetters.lookup c with
  | some letter => ['\\', letter]
  | none => (Text.encode c.toString).flatMap fun b => '\\' :: octalDigits b

/-- The characters of a name between single quote marks, the last one closed. Escapes stand between
marks of their own, which are open as `escaping` says. -/
def betweenMarks : Bool → List Char → List Char
  | _, [] => ['\'']
  | escaping, c :: cs =>
    if c == '\'' then "'\\''".toList ++ betweenMarks false cs
    else if Text.isPrintable c then
      (if escaping then "''".toList else []) ++ c :: betweenMarks false cs
    else (if escaping then [] else "'$'".toList) ++ escapeOf c ++ betweenMarks true cs

/-- Whether the marks of an escape count as open where a name starts: they do if the name has a
single quote mark in it, and an escape at its end. -/
def startsEscaping (cs : List Char) : Bool :=
  cs.contains '\'' && cs.getLast?.any (!Text.isPrintable ·)

/-- A name between quote marks. -/
def quotedName (name : String) : String :=
  let cs := name.toList
  String.ofList <|
    if prefersDoubleMarks cs then '"' :: cs ++ ['"']
    else '\'' :: betweenMarks (startsEscaping cs) cs

/-- A name as it would have to be typed. -/
def shellName (name : String) : String :=
  if needsMarks name.toList then quotedName name else name

/-- A name as it would have to be typed. A colon asks for quote marks too, because a message has one
behind the name. -/
def shownName (name : String) : String :=
  if name.toList.contains ':' then quotedName name else shellName name

/-- A text that is no file name, between quote marks. In it a backslash stands before the closing
mark and before itself. -/
def curled (text : String) : String :=
  let shown (c : Char) : List Char :=
    if c == '\\' || c == '’' then ['\\', c]
    else if Text.isPrintable c then [c]
    else escapeOf c
  String.ofList ('‘' :: text.toList.flatMap shown ++ ['’'])

@[simp] theorem quotedName_empty : quotedName "" = "''" := rfl

@[simp] theorem shownName_empty : shownName "" = "''" := rfl

end LineShell.Userland
