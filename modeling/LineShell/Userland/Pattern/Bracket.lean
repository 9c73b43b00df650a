import LineShell.Userland.Pattern

namespace LineShell.Userland.Pattern

/-!
# Bracket expressions

* `Dialect` — the forms in which regular expressions are written;
* `PatternError` — what can be wrong with a regular expression;
* `bracket` — the test that a bracket expression is.
-/

/-- The forms in which regular expressions are written. -/
structure Dialect where
  /-- Whether operators stand without a backslash. -/
  extended : Bool := false
  /-- Whether an operator where there is nothing to repeat, and a group's end where no group is
  open, are mistakes. -/
  strict : Bool := false
  /-- Whether a letter behind a backslash can stand for a character without a picture. -/
  escapes : Bool := false
  /-- Whether the ends of lines within a text count as ends too. -/
  inner : Bool := false
  /-- Whether a letter behind a backslash can stand for digits. -/
  digits : Bool := false
  deriving DecidableEq, Repr

/-- What is wrong with a regular expression. -/
inductive PatternError
  | unmatchedOpening
  | unmatchedClosing
  | unmatchedBracket
  | unmatchedBrace
  | badRepeat
  | badOperand
  | badReference
  | badClass
  | badRange
  | badCollation
  | tooBig
  | invalid
  | trailingBackslash
  /-- A class stands without the brackets around it. -/
  | bareClass
  deriving DecidableEq, Repr

/-- What is wrong, in words. -/
def PatternError.message : PatternError → String
  | unmatchedOpening => "Unmatched ( or \\("
  | unmatchedClosing => "Unmatched ) or \\)"
  | unmatchedBracket => "Unmatched [, [^, [:, [., or [="
  | unmatchedBrace => "Unmatched \\\x7b"
  | badRepeat => "Invalid content of \\\x7b\\\x7d"
  | badOperand => "Invalid preceding regular expression"
  | badReference => "Invalid back reference"
  | badClass => "Invalid character class name"
  | badRange => "Invalid range end"
  | badCollation => "Invalid collation character"
  | tooBig => "Regular expression too big"
  | invalid => "Invalid regular expression"
  | trailingBackslash => "Trailing backslash"
  | bareClass => "character class syntax is [[:space:]], not [:space:]"

/-! ### Members -/

/-- The letters that are none of ASCII, roughly. -/
def otherLetters : Char × Char := (Char.ofNat 0xC0, Char.ofNat 0x10FFFF)

/-- The classes of characters by name. -/
def charClass? (name : String) : Option (List (Char × Char)) :=
  let lower := ('a', 'z')
  let upper := ('A', 'Z')
  let digit := ('0', '9')
  [("alpha", [lower, upper, otherLetters]), ("digit", [digit]),
    ("alnum", [lower, upper, digit, otherLetters]), ("upper", [upper]), ("lower", [lower]),
    ("space", [('\t', '\r'), (' ', ' ')]), ("blank", [('\t', '\t'), (' ', ' ')]),
    ("print", [(' ', '~'), otherLetters]), ("graph", [('!', '~'), otherLetters]),
    ("punct", [('!', '/'), (':', '@'), ('[', Char.ofNat 96), (Char.ofNat 123, '~')]),
    ("cntrl", [(Char.ofNat 0, Char.ofNat 31), (Char.ofNat 127, Char.ofNat 127)]),
    ("xdigit", [digit, ('a', 'f'), ('A', 'F')])].lookup name

/-- The letters behind a backslash that can stand for characters without a picture. -/
def escapeChars : List (Char × Char) :=
  [('n', '\n'), ('t', '\t'), ('f', '\x0c'), ('v', '\x0b'), ('a', '\x07'), ('r', '\r')]

/-- A member of a bracket expression: a character, which can start or end a range, or several. -/
inductive Member
  | char (c : Char)
  | several (ranges : List (Char × Char))
  deriving DecidableEq, Repr

/-- The name up to a mark and a closing bracket, and what comes after it. -/
def symbolName (mark : Char) : List Char → Except PatternError (List Char × List Char)
  | [] => .error .unmatchedBracket
  | c :: cs =>
    if c == mark && cs.head? == some ']' then .ok ([], cs.drop 1)
    else do
      let (name, rest) ← symbolName mark cs
      return (c :: name, rest)

/-- The member that comes next, and what comes after it. A dash counts only where it may stand, or
before the end. -/
def member (d : Dialect) (dash : Bool) (cs : List Char) :
    Except PatternError (Member × List Char) :=
  match cs with
  | [] => .error .unmatchedBracket
  | '[' :: ':' :: cs => do
    let (name, rest) ← symbolName ':' cs
    match charClass? (String.ofList name) with
    | some ranges => return (.several ranges, rest)
    | none => .error .badClass
  | '[' :: '.' :: cs => do
    match ← symbolName '.' cs with
    | ([c], rest) => return (.char c, rest)
    | _ => .error .badCollation
  | '[' :: '=' :: cs => do
    match ← symbolName '=' cs with
    | ([c], rest) => return (.several [(c, c)], rest)
    | _ => .error .badCollation
  | '-' :: '-' :: '-' :: cs => .ok (.char '-', cs)
  | '-' :: cs =>
    match dash, cs with
    | true, _ | false, ']' :: _ => .ok (.char '-', cs)
    | false, [] => .error .unmatchedBracket
    | false, _ => .error .badRange
  | '\\' :: c :: cs =>
    match if d.escapes then escapeChars.lookup c else none with
    | some e => .ok (.char e, cs)
    | none => .ok (.char '\\', c :: cs)
  | c :: cs => .ok (.char c, cs)

/-- Whether a range goes on behind a member. -/
def rangeGoesOn : List Char → Bool
  | '-' :: '-' :: '-' :: _ | '-' :: ']' :: _ | ['-'] => false
  | '-' :: _ => true
  | _ => false

/-- The ranges of characters of a bracket expression up to its end, and what comes after it. A
closing bracket at the start is a member. -/
def members (d : Dialect) : Nat → Bool → List Char →
    Except PatternError (List (Char × Char) × List Char)
  | 0, _, _ => .error .unmatchedBracket
  | _ + 1, _, [] => .error .unmatchedBracket
  | fuel + 1, first, c :: cs =>
    if c == ']' && !first then .ok ([], cs)
    else do
      let (m, rest) ← member d first (c :: cs)
      let (ranges, rest) ← match m with
        | .several ranges => .ok (ranges, rest)
        | .char a =>
          if rangeGoesOn rest then do
            match ← member d true (rest.drop 1) with
            | (.char b, rest) =>
              -- only the characters of ASCII have an order
              if 127 < max a.toNat b.toNat then .error .badCollation
              else if b < a then .error .badRange
              else .ok ([(a, b)], rest)
            | (.several _, _) => .error .badRange
          else .ok ([(a, a)], rest)
      let (more, rest) ← members d fuel false rest
      return (ranges ++ more, rest)

/-- Whether the text up to the first closing bracket is a class without the brackets around it. -/
def isBareClass (cs : List Char) : Bool :=
  match cs with
  | ':' :: cs =>
    let inner := cs.takeWhile (· != ']')
    inner.length < cs.length && 1 < inner.length && inner.getLast? == some ':' &&
      inner.dropLast.all fun c => c != ':' && c != '['
  | _ => false

/-- A bracket expression after its opening bracket, and what comes after it. -/
def bracket (d : Dialect) (cs : List Char) : Except PatternError (CharTest × List Char) := do
  let (negated, cs) := match cs with
    | '^' :: cs => (true, cs)
    | cs => (false, cs)
  if cs.isEmpty then .error .invalid
  if !negated && isBareClass cs then .error .bareClass
  let (ranges, rest) ← members d (cs.length + 1) true cs
  return (.set negated ranges, rest)

/-- Nothing is between brackets that are not closed. -/
@[simp] theorem bracket_nil (d : Dialect) : bracket d [] = .error .invalid := rfl

end LineShell.Userland.Pattern
