import LineShell.Userland.Pattern.Bracket

namespace LineShell.Userland.Pattern

/-!
# Reading regular expressions

* `Token`, `token` — what stands next in a regular expression;
* `bounds` — the bounds of a repeat between braces;
* `Reader`, `alternatives` — the pattern that a text is, and how far it was read;
* `parse` — the pattern of a whole text, and advice about it.
-/

/-- What stands next in a regular expression. -/
inductive Token
  | finish
  | atom (p : Pattern)
  /-- A place; there is nothing in it to repeat. -/
  | anchor (p : Pattern)
  | opening (counted : Bool)
  | closing
  | bar
  | star
  | plus
  | question
  | brace
  /-- What a group has matched, once more. -/
  | reference (n : Nat)
  deriving DecidableEq, Repr

/-- The brace that opens a repeat. -/
def openBrace : Char := Char.ofNat 123

/-- The brace that closes a repeat. -/
def closeBrace : Char := Char.ofNat 125

/-- What is behind a place where a group, an alternative or the text ends. -/
def endsThere (d : Dialect) : List Char → Bool
  | [] => true
  | '\\' :: c :: _ => !d.extended && (c == ')' || c == '|')
  | c :: _ => d.extended && (c == ')' || c == '|')

/-- The operator that a character is, in the extended form by itself and in the basic form behind a
backslash. -/
def operator? (c : Char) : Option Token :=
  if c == openBrace then some .brace
  else [('(', Token.opening true), (')', .closing), ('|', .bar), ('+', .plus),
    ('?', .question)].lookup c

/-- The start of a line, and its end. -/
def edges (d : Dialect) : Pattern × Pattern :=
  if d.inner then (either lineStart behindNewline, either lineEnd beforeNewline)
  else (lineStart, lineEnd)

/-- A character by its number in a base, with so many digits at most, and what comes after it. -/
def numbered (base count : Nat) (cs : List Char) : Option (Char × List Char) :=
  let digits := (cs.take count).takeWhile fun c => (Extended.digitValue? base c).isSome
  if digits.isEmpty then none
  else some (Char.ofNat (Extended.digitsValue base digits % 256), cs.drop digits.length)

/-- The character that an escape stands for which names its number or a control key, and what comes
after it. -/
def codeEscape? : List Char → Option (Char × List Char)
  | 'd' :: cs => numbered 10 3 cs
  | 'o' :: cs => numbered 8 3 cs
  | 'x' :: cs => numbered 16 2 cs
  | 'c' :: c :: cs => some (Char.ofNat ((c.toUpper.toNat + 64) % 128), cs)
  | _ => none

/-- What a character behind a backslash stands for, and what comes after it. -/
def escaped (d : Dialect) (c : Char) (cs : List Char) : Token × List Char :=
  let word : List (Char × Char) :=
    [('a', 'z'), ('A', 'Z'), ('0', '9'), ('_', '_'), (Char.ofNat 128, Char.ofNat 0x10FFFF)]
  let blank : List (Char × Char) := [('\t', '\r'), (' ', ' ')]
  let digit : List (Char × Char) := [('0', '9')]
  let set (negated : Bool) (ranges : List (Char × Char)) : Token × List Char :=
    (.atom (one (.set negated ranges)), cs)
  let exactly (c : Char) : Token × List Char := (.atom (one (.exactly c)), cs)
  match c with
  | 'w' => set false word
  | 'W' => set true word
  | 's' => set false blank
  | 'S' => set true blank
  | 'b' => (.anchor (wordEdge true), cs)
  | 'B' => (.anchor (wordEdge false), cs)
  | '<' => (.anchor wordStart, cs)
  | '>' => (.anchor wordEnd, cs)
  | '\'' => (.anchor lineEnd, cs)
  | c =>
    if c == Char.ofNat 96 then (.anchor lineStart, cs)
    else if d.digits && c == 'd' then set false digit
    else if d.digits && c == 'D' then set true digit
    else if c.isDigit && c != '0' then (.reference (c.toNat - '0'.toNat), cs)
    else if !d.escapes && !d.digits then exactly c
    else match escapeChars.lookup c, codeEscape? (c :: cs) with
      | some e, _ => exactly e
      | none, some (e, rest) => (.atom (one (.exactly e)), rest)
      | none, none => exactly c

/-- What stands next in a text, and what comes after it. A caret in the basic form is a place only
where it may be. -/
def token (d : Dialect) (caret : Bool) (cs : List Char) :
    Except PatternError (Token × List Char) :=
  let plain (c : Char) (cs : List Char) : Token × List Char := (.atom (one (.exactly c)), cs)
  match cs with
  | [] => .ok (.finish, [])
  | ['\\'] => .error .trailingBackslash
  | '\\' :: c :: cs =>
    match if d.extended then none else operator? c with
    | some t => .ok (t, cs)
    | none => .ok (escaped d c cs)
  | '.' :: cs => .ok (.atom (one .anything), cs)
  | '*' :: cs => .ok (.star, cs)
  | '[' :: cs => do
    let (test, rest) ← bracket d cs
    return (.atom (one test), rest)
  | '^' :: cs =>
    .ok (if d.extended || caret then (.anchor (edges d).1, cs) else plain '^' cs)
  | '$' :: cs =>
    .ok (if d.extended || endsThere d cs then (.anchor (edges d).2, cs) else plain '$' cs)
  | '(' :: '?' :: ':' :: cs =>
    .ok (if d.extended && d.digits then (.opening false, cs)
      else if d.extended then (.opening true, '?' :: ':' :: cs) else plain '(' ('?' :: ':' :: cs))
  | c :: cs =>
    match if d.extended then operator? c else none with
    | some t => .ok (t, cs)
    | none => .ok (plain c cs)

/-! ### Repeats -/

/-- The greatest bound of a repeat. -/
def mostRepeats : Nat := 32767

/-- A bound: nothing, a number or neither. -/
inductive Bound
  | missing
  | number (n : Nat)
  | wrong
  deriving DecidableEq, Repr

/-- The bound up to a comma or the closing brace, and what is there. -/
def bound (d : Dialect) (cs : List Char) : Bound × List Char :=
  let closing := if d.extended then [closeBrace] else ['\\', closeBrace]
  let rec text : List Char → List Char × List Char
    | [] => ([], [])
    | c :: cs =>
      if c == ',' || closing.isPrefixOf (c :: cs) then ([], c :: cs)
      else
        let (before, rest) := text cs
        (c :: before, rest)
  let (before, rest) := text cs
  let b : Bound := if rest.isEmpty then .wrong
    else if before.isEmpty then .missing
    else if before.all Char.isDigit then .number (Extended.digitsValue 10 before)
    else .wrong
  (b, rest)

/-- The bounds of a repeat behind its opening brace, and what comes after it; nothing if the brace
stands for itself. -/
def bounds (d : Dialect) (cs : List Char) :
    Except PatternError (Option (Nat × Option Nat × List Char)) :=
  let behind (rest : List Char) : List Char := rest.drop (if d.extended then 1 else 2)
  let refused (rest : List Char) :
      Except PatternError (Option (Nat × Option Nat × List Char)) :=
    if d.extended && !d.strict then .ok none
    else .error (if rest.isEmpty then .unmatchedBrace else .badRepeat)
  let finish (least : Nat) (most : Option Nat) (rest : List Char) :
      Except PatternError (Option (Nat × Option Nat × List Char)) :=
    if rest.head? == some ',' || most.any (· < least) then .error .badRepeat
    else if mostRepeats < most.getD least then .error .tooBig
    else .ok (some (least, most, behind rest))
  let (first, rest) := bound d cs
  let second (least : Nat) (rest : List Char) :
      Except PatternError (Option (Nat × Option Nat × List Char)) :=
    match bound d (rest.drop 1) with
    | (.missing, rest) => finish least none rest
    | (.number most, rest) => finish least (some most) rest
    | (.wrong, rest) => refused rest
  match first, rest with
  | .wrong, rest => refused rest
  | .missing, ',' :: _ => second 0 rest
  | .missing, _ => .error .badRepeat
  | .number least, ',' :: _ => second least rest
  | .number n, rest => finish n (some n) rest

/-! ### Patterns -/

/-- How far a text was read. -/
structure Reader where
  rest : List Char
  /-- How many groups were opened, and which of them were closed. -/
  groups : Nat := 0
  closed : List Nat := []
  /-- What a reader should be told about the text. -/
  advice : List String := []
  deriving DecidableEq, Repr

/-- The reader with other text before it. -/
def Reader.at (r : Reader) (rest : List Char) : Reader := { r with rest }

/-- The reader with advice about an operator where there is nothing to repeat. -/
def Reader.advised (r : Reader) (operator : String) : Reader :=
  { r with advice := r.advice ++ [operator ++ " at start of expression"] }

/-- The repeats that follow a pattern. In the basic form, some must not follow others in the strict
dialect. -/
def withRepeats (d : Dialect) : Nat → Bool → Pattern → List Char →
    Except PatternError (Pattern × List Char)
  | 0, _, p, cs => .ok (p, cs)
  | fuel + 1, repeated, p, cs => do
    let refused := repeated && d.strict && !d.extended
    match ← token d false cs with
    | (.star, rest) =>
      if refused then .error .badOperand else withRepeats d fuel true (times p 0 none) rest
    | (.plus, rest) => withRepeats d fuel true (times p 1 none) rest
    | (.question, rest) => withRepeats d fuel true (times p 0 (some 1)) rest
    | (.brace, rest) =>
      if refused then .error .badOperand
      else match ← bounds d rest with
        | none => return (p, cs)
        | some (least, most, rest) => withRepeats d fuel true (times p least most) rest
    | _ => return (p, cs)

mutual

/-- The alternatives up to the end of the group they are in. -/
def alternatives (d : Dialect) : Nat → Bool → Bool → Reader →
    Except PatternError (Pattern × Reader)
  | 0, _, _, r => .ok (empty, r)
  | fuel + 1, nested, first, r => do
    let (p, r) ← sequence d fuel nested true first empty r
    match ← token d true r.rest with
    | (.bar, rest) =>
      let (q, r) ← alternatives d fuel nested true (r.at rest)
      return (either p q, r)
    | _ => return (p, r)

/-- What stands in a row behind a pattern. At the start there is nothing to repeat. -/
def sequence (d : Dialect) : Nat → Bool → Bool → Bool → Pattern → Reader →
    Except PatternError (Pattern × Reader)
  | 0, _, _, _, p, r => .ok (p, r)
  | fuel + 1, nested, start, caret, p, r => do
    let (t, rest) ← token d caret r.rest
    let go (q : Pattern) (r : Reader) (rest : List Char) :
        Except PatternError (Pattern × Reader) := do
      let (q, rest) ← withRepeats d (rest.length + 1) false q rest
      sequence d fuel nested false false (both p q) (r.at rest)
    let plain (c : Char) : Except PatternError (Pattern × Reader) := go (one (.exactly c)) r rest
    -- an operator at the start: a mistake, nothing, or a character that stands for itself
    let idle (c : Char) : Except PatternError (Pattern × Reader) :=
      if !d.extended then plain c
      else if d.strict then .error .badOperand
      else sequence d fuel nested start caret p ((r.at rest).advised c.toString)
    match t with
    | .finish | .bar => return (p, r)
    | .closing =>
      if nested then return (p, r)
      else if d.extended && !d.strict then plain ')'
      else .error .unmatchedClosing
    | .anchor q => sequence d fuel nested true true (both p q) (r.at rest)
    | .atom q => go q r rest
    | .reference n => if r.closed.contains n then go (again n) r rest else .error .badReference
    | .star => idle '*'
    | .plus => idle '+'
    | .question => idle '?'
    | .brace =>
      if d.strict && start then .error .badOperand
      else if !d.extended || !start then plain openBrace
      else match ← bounds d rest with
        | none => plain openBrace
        | some (_, _, rest) =>
          sequence d fuel nested start caret p
            ((r.at rest).advised (String.ofList [openBrace, '.', '.', '.', closeBrace]))
    | .opening counted =>
      let n := r.groups + 1
      let inner : Reader := { r with rest, groups := if counted then n else r.groups }
      let (q, r) ← alternatives d fuel true true inner
      match ← token d true r.rest with
      | (.closing, rest) =>
        if counted then go (group n q) { r with closed := n :: r.closed } rest else go q r rest
      | _ => .error .unmatchedOpening

end

/-- The pattern of a text, and advice about it. -/
def parse (d : Dialect) (s : String) : Except PatternError (Pattern × List String) := do
  let cs := s.toList
  let (p, r) ← alternatives d (2 * cs.length + 2) false true { rest := cs }
  return (p, r.advice)

@[simp] theorem parse_empty (d : Dialect) : parse d "" = .ok (empty, []) := rfl

end LineShell.Userland.Pattern
