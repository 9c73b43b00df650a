import LineShell.FileSystem
import LineShell.Userland.Extended
import LineShell.Userland.Lines

namespace LineShell.Userland.Script

/-!
# Tests

* `Sign` — the signs of tests: what they do with the words around them;
* `TestWorld.evaluate` — what the words of a test come to.
-/

/-- What a sign is for. -/
inductive Sign
  | before
  | between
  | not
  | and
  | or
  | opens
  | closes
  deriving DecidableEq, Repr

/-- The signs of tests. -/
def testSigns : List (String × Sign) :=
  ["-r", "-w", "-x", "-e", "-f", "-d", "-c", "-b", "-p", "-u", "-g", "-k", "-s", "-t", "-z", "-n",
    "-h", "-O", "-G", "-L", "-S"].map (·, .before) ++
  ["=", "!=", "<", ">", "-eq", "-ne", "-ge", "-gt", "-le", "-lt", "-nt", "-ot", "-ef"].map
    (·, .between) ++
  [("!", .not), ("-a", .and), ("-o", .or), ("(", .opens), (")", .closes)]

/-- What the first of some words means, as a sign; nothing if it is an operand. A sign that may
stand before an operand is one itself where there is none, or where it stands before another
sign. -/
def leadingSign : List String → Option Sign
  | [] => none
  | s :: rest =>
    match testSigns.lookup s, rest with
    | some .before, [] | some .opens, [] => none
    | some .before, t :: _ :: _ =>
      if testSigns.lookup t == some .between then none else some .before
    | sign, _ => sign

/-- What tests ask about. -/
structure TestWorld where
  files : FileSystem
  cwd : Path

/-- What a test comes to, and the words from the last one on that it was read from; or what is
wrong with it. -/
abbrev Tested := Except String (Bool × List String)

/-- What is wrong at a word. -/
def wrongAt (word complaint : String) : String :=
  if word == "" then complaint else word ++ ": " ++ complaint

/-- The number that a text is, in a range of 64 bits. -/
def testNumber (t : String) : Except String Int :=
  let fail : Except String Int := .error ("Illegal number: " ++ t)
  let cs := t.toList.dropWhile Char.isWhitespace
  let (negative, digits) := match cs with
    | '-' :: ds => (true, ds)
    | '+' :: ds => (false, ds)
    | ds => (false, ds)
  let number := digits.takeWhile Char.isDigit
  let n : Int := Extended.digitsValue 10 number
  let n := if negative then -n else n
  if number.isEmpty || !(digits.drop number.length).all Char.isWhitespace then fail
  else if n < -9223372036854775808 || 9223372036854775807 < n then fail
  else .ok n

namespace TestWorld

/-- The node at the end of a path, and its number. -/
def node? (w : TestWorld) (follow : Bool) (path : String) : Option (Inode × Node) :=
  match w.files.lookup w.cwd follow path with
  | .ok i => (w.files.node? i).map (i, ·)
  | .error _ => none

/-- Whether a path leads to something that passes a test. -/
def pathTest (w : TestWorld) (sign path : String) : Bool :=
  match w.node? (sign != "-h" && sign != "-L") path, sign with
  | none, _ => false
  | some _, "-e" | some _, "-r" | some _, "-w" | some _, "-O" | some _, "-G" => true
  | some (i, _), "-f" => (w.files.content? i).isSome
  | some (i, _), "-d" => w.files.isDirectoryNode i
  | some (i, _), "-s" => (w.files.content? i).any (!·.isEmpty) || w.files.isDirectoryNode i
  | some (_, .device _), "-c" => true
  | some (_, .link _), "-h" | some (_, .link _), "-L" => true
  | some (_, .file _ executable), "-x" => executable
  | some (_, .directory ..), "-x" => true
  | some _, _ => false

/-- What a sign before a word asks for. -/
def prefixed (w : TestWorld) (sign word : String) : Except String Bool :=
  match sign with
  | "-z" => .ok (word == "")
  | "-n" => .ok (word != "")
  -- no descriptor leads to a terminal
  | "-t" => (fun _ => false) <$> testNumber word
  | sign => .ok (w.pathTest sign word)

/-- What a sign between two words asks for. No file is known to be newer than another. -/
def compared (w : TestWorld) (a sign b : String) : Except String Bool :=
  let numbers (p : Int → Int → Bool) : Except String Bool := do
    return p (← testNumber a) (← testNumber b)
  match sign with
  | "=" => .ok (a == b)
  | "!=" => .ok (a != b)
  | "<" => .ok (a < b)
  | ">" => .ok (b < a)
  | "-eq" => numbers (· == ·)
  | "-ne" => numbers (· != ·)
  | "-lt" => numbers (· < ·)
  | "-le" => numbers (· ≤ ·)
  | "-gt" => numbers fun m n => n < m
  | "-ge" => numbers fun m n => n ≤ m
  | "-ef" =>
    match w.node? true a, w.node? true b with
    | some m, some n => .ok (m.1 == n.1)
    | _, _ => .ok false
  | _ => .ok false

mutual

/-- Alternatives, of which the first word is an operand or a sign. -/
def either (w : TestWorld) : Nat → Option Sign → List String → Tested
  | 0, _, words => .ok (false, words)
  | fuel + 1, sign, words => do
    let (a, words) ← w.both fuel sign words
    if leadingSign (words.drop 1) == some .or then
      let (b, words) ← w.either fuel (leadingSign (words.drop 2)) (words.drop 2)
      return (a || b, words)
    else return (a, words)

/-- Conditions that all have to be met. -/
def both (w : TestWorld) : Nat → Option Sign → List String → Tested
  | 0, _, words => .ok (false, words)
  | fuel + 1, sign, words => do
    let (a, words) ← w.negated fuel sign words
    if leadingSign (words.drop 1) == some .and then
      let (b, words) ← w.both fuel (leadingSign (words.drop 2)) (words.drop 2)
      return (a && b, words)
    else return (a, words)

/-- A condition, perhaps behind a negation. -/
def negated (w : TestWorld) : Nat → Option Sign → List String → Tested
  | 0, _, words => .ok (false, words)
  | fuel + 1, sign, words =>
    match sign, words with
    | some .not, _ :: [] => .ok (true, words)
    | some .not, _ :: rest => do
      let (a, words) ← w.negated fuel (leadingSign rest) rest
      return (!a, words)
    | sign, words => w.primary fuel sign words

/-- A condition that is no negation. -/
def primary (w : TestWorld) : Nat → Option Sign → List String → Tested
  | 0, _, words => .ok (false, words)
  | _, _, [] => .ok (false, [])
  | fuel + 1, sign, word :: rest =>
    match sign, rest with
    | some .opens, rest =>
      if leadingSign rest == some .closes then .ok (false, rest)
      else do
        let (a, words) ← w.either fuel (leadingSign rest) rest
        if leadingSign (words.drop 1) == some .closes then return (a, words.drop 1)
        else .error "closing paren expected"
    | some .before, [] => .error (wrongAt word "argument expected")
    | some .before, subject :: _ => do return (← w.prefixed word subject, rest)
    | _, rest =>
      match leadingSign rest, rest with
      | some .between, [between] => .error (wrongAt between "argument expected")
      | some .between, between :: other :: more => do
        return (← w.compared word between other, other :: more)
      | _, _ => .ok (word != "", word :: rest)

end

/-- What the words of a test come to; or what is wrong with them. Three or four words are read by
how many they are: a negation before them turns what the rest comes to around, and so do two. -/
def evaluate (w : TestWorld) (inverted : Bool) : List String → Except String Bool
  | [] => .ok false
  | word :: rest =>
    let words := word :: rest
    let finish (sign : Option Sign) (words : List String) : Except String Bool := do
      let (a, words) ← w.either (4 * words.length + 4) sign words
      match words with
      | word :: _ :: _ => .error (wrongAt word "unexpected operator")
      | _ => return a != inverted
    let isComparison : Bool := match words with
      | [_, sign, _] => testSigns.lookup sign == some .between
      | _ => false
    let isShort := words.length == 3 || words.length == 4
    if isComparison then finish none words
    else if isShort && word == "(" && words.getLast? == some ")" then
      finish (leadingSign rest.dropLast) rest.dropLast
    else if isShort && word == "!" then w.evaluate true rest
    else finish (leadingSign words) words

/-- No words are false. -/
@[simp] theorem evaluate_nil (w : TestWorld) (inverted : Bool) :
    w.evaluate inverted [] = .ok false := rfl

end TestWorld

end LineShell.Userland.Script
