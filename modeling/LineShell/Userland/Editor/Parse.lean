import LineShell.Userland.Arguments
import LineShell.Userland.Editor.Grammar
import LineShell.Userland.Pattern.Parse

namespace LineShell.Userland.Editor

/-!
# Reading scripts for editing

* `Mistake` — what is wrong with a script;
* `delimited` — a text up to a delimiter;
* `address`, `substitution`, `action` — the parts of a command;
* `script` — the commands of a text.
-/

/-- What is wrong with a script. -/
inductive Mistake
  /-- What is wrong, and how much of the script is left there. -/
  | here (text : String) (left : Nat)
  /-- What is wrong with the script as a whole. -/
  | whole (text : String)
  /-- What cannot be read as a pattern at all. -/
  | fatal (text : String)
  deriving DecidableEq, Repr

/-- That something is wrong where so much is left. -/
def wrong {α : Type} (text : String) (left : List Char) : Except Mistake α :=
  .error (.here text left.length)

/-- What is left after spaces and tabs. -/
def skipBlanks (cs : List Char) : List Char := cs.dropWhile fun c => c == ' ' || c == '\t'

/-- A number in decimal digits, zero if there is none, and what comes after it. -/
def number (cs : List Char) : Nat × List Char :=
  let digits := cs.takeWhile Char.isDigit
  (Extended.digitsValue 10 digits, cs.drop digits.length)

/-! ### Delimited texts -/

/-- A bracket expression up to its end, after its opening bracket, and what comes after it; nothing
if it does not end in its line. -/
def bracketText (cs : List Char) : Option (List Char × List Char) :=
  let start := match cs with
    | '^' :: ']' :: _ => 2
    | '^' :: _ | ']' :: _ => 1
    | _ => 0
  let rec body : Nat → List Char → Option (List Char × List Char)
    | 0, _ => none
    | fuel + 1, '[' :: m :: cs =>
      if m == ':' || m == '.' || m == '=' then
        let inner := cs.takeWhile (· != m)
        match cs.drop inner.length with
        | _ :: ']' :: rest => do
          let (more, rest) ← body fuel rest
          return ('[' :: m :: inner ++ m :: ']' :: more, rest)
        | _ => do
          let (more, rest) ← body fuel (m :: cs)
          return ('[' :: more, rest)
      else do
        let (more, rest) ← body fuel (m :: cs)
        return ('[' :: more, rest)
    | fuel + 1, c :: cs =>
      if c == ']' then some ([']'], cs)
      else if c == '\n' then none
      else do
        let (more, rest) ← body fuel cs
        return (c :: more, rest)
    | _, [] => none
  do
    let (more, rest) ← body (cs.length + 1) (cs.drop start)
    return (cs.take start ++ more, rest)

/-- A text up to a delimiter, which may be in it after a backslash, and what comes after it. In a
pattern, a delimiter between brackets does not count. -/
def delimited (delimiter : Char) (pattern : Bool) :
    Nat → List Char → Option (List Char × List Char)
  | 0, _ => none
  | _, [] => none
  | fuel + 1, c :: cs =>
    if c == delimiter then some ([], cs)
    else if c == '\n' then (if pattern then none else do
      let (text, rest) ← delimited delimiter pattern fuel cs
      return ('\n' :: text, rest))
    else if c == '\\' then
      match cs with
      | [] => none
      | d :: cs => do
        let (text, rest) ← delimited delimiter pattern fuel cs
        if d == delimiter && (pattern || d != '&') then return (d :: text, rest)
        else if d == '\n' && pattern then return ('\n' :: text, rest)
        else return ('\\' :: d :: text, rest)
    else if c == '[' && pattern then do
      let (inner, rest) ← bracketText cs
      let (text, rest) ← delimited delimiter pattern fuel rest
      return ('[' :: inner ++ text, rest)
    else do
      let (text, rest) ← delimited delimiter pattern fuel cs
      return (c :: text, rest)

/-- How a delimited text is read as a pattern: in the extended form or not, and with which flags. An
empty one stands for the pattern that was used last. -/
def sought (extended fold inner : Bool) (text rest : List Char) : Except Mistake Sought :=
  if text.isEmpty then .ok { pattern := none, fold }
  else
    let dialect : Pattern.Dialect := { extended, strict := true, escapes := true, inner }
    match Pattern.parse dialect (String.ofList text) with
    | .ok (p, _) => .ok { pattern := some p, fold }
    | .error .bareClass => .error (.fatal Pattern.PatternError.bareClass.message)
    | .error e => wrong e.message rest

/-! ### Addresses -/

/-- The flags after a pattern: whether case is passed over, and whether lines within the text
count. -/
def patternFlags : List Char → Bool → Bool → Bool × Bool × List Char
  | 'I' :: cs, _, inner => patternFlags cs true inner
  | 'M' :: cs, fold, _ => patternFlags cs fold true
  | cs, fold, inner => (fold, inner, cs)

/-- An address, if there is one. -/
def address (extended : Bool) (cs : List Char) : Except Mistake (Option Address × List Char) :=
  let pattern (delimiter : Char) (cs : List Char) : Except Mistake (Option Address × List Char) :=
    match delimited delimiter true (cs.length + 1) cs with
    | none => wrong "unterminated address regex" (cs.dropWhile (· != '\n'))
    | some (text, rest) => do
      let (fold, inner, rest) := patternFlags rest false false
      let p ← sought extended fold inner text rest
      return (some (.matching p), rest)
  match cs with
  | '$' :: cs => .ok (some .last, cs)
  | '/' :: cs => pattern '/' cs
  | '\\' :: d :: cs => pattern d cs
  | '+' :: cs =>
    let (n, rest) := number (skipBlanks cs)
    .ok (some (.later n), rest)
  | '~' :: cs =>
    let (n, rest) := number (skipBlanks cs)
    .ok (some (.multiple n), rest)
  | cs =>
    if !cs.head?.any Char.isDigit then .ok (none, cs)
    else
      let (n, rest) := number cs
      match skipBlanks rest with
      | '~' :: rest =>
        let (step, rest) := number (skipBlanks rest)
        .ok (some (if step = 0 then .line n else .steps n step), rest)
      | _ => .ok (some (.line n), rest)

/-- Whether an address can only end a range. -/
def Address.isRelative : Address → Bool
  | later _ | multiple _ => true
  | _ => false

/-- Whether an address is the line before the first. -/
def Address.isZero : Address → Bool
  | line n => n == 0
  | _ => false

/-- Whether an address is a pattern. -/
def Address.isMatching : Address → Bool
  | matching _ => true
  | _ => false

/-- The addresses before a command, if there are any. -/
def addresses (extended : Bool) (cs : List Char) :
    Except Mistake ((Option Address × Option Address) × List Char) := do
  let (first, rest) ← address extended cs
  match first with
  | none => return ((none, none), rest)
  | some a =>
    if a.isRelative then wrong "invalid usage of +N or ~N as first address" rest
    let behind := skipBlanks rest
    let (second, rest) ← match behind with
      | ',' :: more => do
        match ← address extended (skipBlanks more) with
        | (none, left) => wrong "unexpected `,'" (left.drop 1)
        | found => pure found
      | _ => pure (none, behind)
    if a.isZero && !second.any Address.isMatching then
      wrong "invalid usage of line address 0" ((skipBlanks rest).drop 1)
    return ((some a, second), skipBlanks rest)

/-! ### Substitutions -/

/-- The pieces of a replacement. -/
def pieces : Nat → List Char → List Piece
  | 0, _ => []
  | _, [] => []
  | fuel + 1, '\\' :: d :: cs =>
    match [('U', CaseChange.upper), ('L', .lower), ('E', .stop), ('u', .upperNext),
        ('l', .lowerNext)].lookup d with
    | some change => .change change :: pieces fuel cs
    | none =>
      if d.isDigit then .group (d.toNat - '0'.toNat) :: pieces fuel cs
      else match Pattern.escapeChars.lookup d, Pattern.codeEscape? (d :: cs) with
        | some c, _ => .text c :: pieces fuel cs
        | none, some (c, rest) => .text c :: pieces fuel rest
        | none, none => .text d :: pieces fuel cs
  | fuel + 1, '&' :: cs => .group 0 :: pieces fuel cs
  | fuel + 1, c :: cs => .text c :: pieces fuel cs

/-- The flags after a substitution, as far as they were read. -/
structure Flags where
  all : Bool := false
  prints : Bool := false
  nth : Option Nat := none
  fold : Bool := false
  inner : Bool := false
  target : Option String := none
  deriving DecidableEq, Repr

/-- A brace that closes a block. -/
def closeBrace : Char := Char.ofNat 125

/-- A brace that opens a block. -/
def openBrace : Char := Char.ofNat 123

/-- The name of a file up to the end of the line, and what comes after it. -/
def fileName (cs : List Char) : Except Mistake (String × List Char) :=
  let cs := skipBlanks cs
  let name := cs.takeWhile (· != '\n')
  let rest := cs.drop name.length
  if name.isEmpty then wrong "missing filename in r/R/w/W commands" rest
  else .ok (String.ofList name, rest)

/-- Reads the flags after a substitution. What separates commands is used up. -/
def flags : Nat → Flags → List Char → Except Mistake (Flags × List Char)
  | 0, f, cs => .ok (f, cs)
  | _, f, [] => .ok (f, [])
  | fuel + 1, f, c :: cs =>
    let twice (what : String) : Except Mistake (Flags × List Char) :=
      wrong ("multiple " ++ what ++ " options to `s' command") cs
    match c with
    | 'g' => if f.all then twice "`g'" else flags fuel { f with all := true } cs
    | 'p' => if f.prints then twice "`p'" else flags fuel { f with prints := true } cs
    | 'i' | 'I' => flags fuel { f with fold := true } cs
    | 'm' | 'M' => flags fuel { f with inner := true } cs
    | 'e' => flags fuel f cs
    | 'w' => do
      let (name, rest) ← fileName cs
      return ({ f with target := some name }, rest)
    | c =>
      if c.isDigit then
        let (n, rest) := number (c :: cs)
        if f.nth.isSome then twice "number"
        else if n = 0 then wrong "number option to `s' command may not be zero" rest
        else flags fuel { f with nth := some n } rest
      else if c == ' ' || c == '\t' || c == '\r' then flags fuel f cs
      else if c == '\n' || c == ';' then .ok (f, cs)
      else if c == closeBrace || c == '#' then .ok (f, c :: cs)
      else wrong "unknown option to `s'" cs

/-- The greatest number of a group in a replacement. -/
def lastGroup (ps : List Piece) : Nat :=
  ps.foldl (fun n p => match p with
    | .group m => max n m
    | _ => n) 0

/-- How many groups a pattern has. -/
def groupCount : Pattern → Nat
  | .both p q | .either p q => groupCount p + groupCount q
  | .times p _ _ => groupCount p
  | .group _ p => 1 + groupCount p
  | _ => 0

/-- What follows the letter of a substitution. -/
def substitution (extended : Bool) (cs : List Char) : Except Mistake (Action × List Char) :=
  let unterminated : Except Mistake (Action × List Char) :=
    wrong "unterminated `s' command" (cs.dropWhile (· != '\n'))
  match cs with
  | [] => unterminated
  | delimiter :: cs =>
    match delimited delimiter true (cs.length + 1) cs with
    | none => unterminated
    | some (text, rest) =>
      match delimited delimiter false (rest.length + 1) rest with
      | none => wrong "unterminated `s' command" []
      | some (replacement, rest) => do
        let (f, rest) ← flags (rest.length + 1) {} rest
        let s ← sought extended f.fold f.inner text rest
        let replacement := pieces (replacement.length + 1) replacement
        let last := lastGroup replacement
        if s.pattern.any fun p => groupCount p < last then
          wrong ("invalid reference \\" ++ toString last ++ " on `s' command's RHS") rest
        return (.substitute {
          sought := s, replacement, nth := f.nth.getD 1, all := f.all, prints := f.prints
          target := f.target }, rest)

/-! ### Commands -/

/-- What a text of characters to be replaced stands for. -/
def plainChars : List Char → List Char
  | '\\' :: '\\' :: cs => '\\' :: plainChars cs
  | '\\' :: c :: cs =>
    match Pattern.escapeChars.lookup c with
    | some d => d :: plainChars cs
    | none => '\\' :: c :: plainChars cs
  | c :: cs => c :: plainChars cs
  | [] => []

/-- What follows the letter of a command that replaces characters by others. -/
def characters (cs : List Char) : Except Mistake (Action × List Char) :=
  match cs with
  | [] => wrong "unterminated `y' command" []
  | delimiter :: cs =>
    match delimited delimiter false (cs.length + 1) cs with
    | none => wrong "unterminated `y' command" []
    | some (source, rest) =>
      match delimited delimiter false (rest.length + 1) rest with
      | none => wrong "unterminated `y' command" []
      | some (target, rest) =>
        let unquote (cs : List Char) : List Char :=
          let rec go : List Char → List Char
            | '\\' :: c :: cs => if c == delimiter then c :: go cs else '\\' :: c :: go cs
            | c :: cs => c :: go cs
            | [] => []
          plainChars (go cs)
        let source := unquote source
        let target := unquote target
        if source.length == target.length then .ok (.transliterate (source.zip target), rest)
        else wrong "strings for `y' command are different lengths" rest

/-- The text of a command, up to the end of a line that no backslash ends, and what comes after
it. A backslash lets what follows it stand for itself, or for a character without a picture. -/
def commandText : Nat → List Char → List Char × List Char
  | 0, cs => ([], cs)
  | _, [] => (['\n'], [])
  | fuel + 1, '\\' :: c :: cs =>
    let (shown, rest) : Char × List Char :=
      match Pattern.escapeChars.lookup c, Pattern.codeEscape? (c :: cs) with
      | some d, _ => (d, cs)
      | none, some (d, rest) => (d, rest)
      | none, none => (c, cs)
    let (text, rest) := commandText fuel rest
    (shown :: text, rest)
  | fuel + 1, c :: cs =>
    if c == '\n' then (['\n'], cs)
    else
      let (text, rest) := commandText fuel cs
      (c :: text, rest)

/-- What follows the letter of a command with a text. -/
def textAfter (cs : List Char) : Except Mistake (String × List Char) :=
  match skipBlanks cs with
  | [] => wrong "expected \\ after `a', `c' or `i'" []
  | '\\' :: cs =>
    match skipBlanks cs with
    | [] => .ok ("", [])
    | '\n' :: [] => wrong "expected \\ after `a', `c' or `i'" []
    | '\n' :: cs =>
      let (text, rest) := commandText (cs.length + 1) cs
      .ok (String.ofList text, rest)
    | _ =>
      -- a letter behind the backslash stands for itself
      let (text, rest) := match cs with
        | '\\' :: _ => commandText (cs.length + 1) cs
        | c :: cs =>
          let (text, rest) := commandText (cs.length + 1) cs
          (c :: text, rest)
        | [] => (['\n'], [])
      .ok (String.ofList text, rest)
  | cs =>
    let (text, rest) := commandText (cs.length + 1) cs
    .ok (String.ofList text, rest)

/-- The name of a label, and what comes after it. -/
def labelName (cs : List Char) : String × List Char :=
  let cs := skipBlanks cs
  let name := cs.takeWhile fun c => !c.isWhitespace && c != ';'
  (String.ofList name, cs.drop name.length)

/-- The number that may follow the letter of a command, and what comes after it. -/
def optionalNumber (cs : List Char) : Option Nat × List Char :=
  let cs := skipBlanks cs
  if cs.head?.any Char.isDigit then
    let (n, rest) := number cs
    (some n, rest)
  else (none, cs)

/-- What is left after the end of a command. -/
def commandEnd {α : Type} (r : α × List Char) : Except Mistake (α × List Char) :=
  match skipBlanks r.2 with
  | [] => .ok (r.1, [])
  | c :: cs =>
    if c == closeBrace || c == '#' then .ok (r.1, c :: cs)
    else if c == '\n' || c == ';' then .ok (r.1, cs)
    else wrong "extra characters after command" cs

/-- The commands that are a letter and nothing else. -/
def plainActions : List (Char × Action) :=
  [('p', .print), ('P', .printFirst), ('d', .delete), ('D', .deleteFirst), ('n', .next),
    ('N', .nextAppended), ('=', .number), ('F', .fileName), ('h', .hold false), ('H', .hold true),
    ('g', .fetch false), ('G', .fetch true), ('x', .exchange), ('z', .empty)]

/-- What follows a command's letter. -/
def action (extended ranged : Bool) (letter : Char) (cs : List Char) :
    Except Mistake (Action × List Char) :=
  match plainActions.lookup letter with
  | some a => commandEnd (a, cs)
  | none =>
    match letter with
    | 'a' => (Prod.map .append id) <$> textAfter cs
    | 'i' => (Prod.map .insert id) <$> textAfter cs
    | 'c' => (Prod.map .change id) <$> textAfter cs
    | 'q' | 'Q' =>
      if ranged then wrong "command only uses one address" cs
      else
        let (n, rest) := optionalNumber cs
        commandEnd (.quit (n.getD 0) (letter == 'Q'), rest)
    | 'l' =>
      let (n, rest) := optionalNumber cs
      commandEnd (.list n, rest)
    | 'r' => (Prod.map .readFile id) <$> fileName cs
    | 'R' => (Prod.map .readLine id) <$> fileName cs
    | 'w' => (Prod.map .writeFile id) <$> fileName cs
    | 'W' => (Prod.map .writeFirst id) <$> fileName cs
    | 's' => substitution extended cs
    | 'y' => do commandEnd (← characters cs)
    | 'b' => .ok ((labelName cs).map .branch id)
    | 't' => .ok ((labelName cs).map .branchIf id)
    | 'T' => .ok ((labelName cs).map .branchUnless id)
    | 'v' => .ok (.nothing, cs.dropWhile fun c => c != '\n' && c != ';')
    | c => wrong ("unknown command: `" ++ c.toString ++ "'") cs

/-- Whether a character stands between commands. -/
def separates (c : Char) : Bool := c == ';' || c.isWhitespace

/-- The commands of a text, behind those that were read before. The blocks that are open are known
by the places of their starts. -/
def commands (extended : Bool) : Nat → List Nat → Script → List Char → Except Mistake Script
  | 0, _, done, _ => .ok done
  | fuel + 1, blocks, done, cs =>
    match cs.dropWhile separates with
    | [] =>
      if blocks.isEmpty then .ok done
      else .error (.whole ("unmatched `" ++ openBrace.toString ++ "'"))
    | '#' :: cs => commands extended fuel blocks done (cs.dropWhile (· != '\n'))
    | cs => do
      let ((first, second), cs) ← addresses extended cs
      let (negated, cs) ← match cs with
        | '!' :: cs => match skipBlanks cs with
          | '!' :: cs => wrong "multiple `!'s" cs
          | cs => pure (true, cs)
        | cs => pure (false, cs)
      let go (blocks : List Nat) (action : Action) (cs : List Char) : Except Mistake Script :=
        commands extended fuel blocks (done ++ [{ first, second, negated, action }]) cs
      match cs with
      | [] => wrong "missing command" []
      | c :: cs =>
        if c == openBrace then go (done.length :: blocks) (.block 0) cs
        else if c == closeBrace then
          match blocks with
          | [] => wrong ("unexpected `" ++ closeBrace.toString ++ "'") cs
          | start :: blocks => do
            if first.isSome then
              wrong ("`" ++ closeBrace.toString ++ "' doesn't want any addresses") cs
            let (_, rest) ← commandEnd ((), cs)
            let close (c : Command) (i : Nat) : Command :=
              if i = start then { c with action := .block done.length } else c
            commands extended fuel blocks (done.mapIdx fun i c => close c i) rest
        else if c == '#' && first.isSome then wrong "comments don't accept any addresses" cs
        else if c == ':' then
          if first.isSome then wrong ": doesn't want any addresses" cs
          else match labelName cs with
            | ("", rest) => wrong "\":\" lacks a label" rest
            | (name, rest) => go blocks (.label name) rest
        else
          let (action, rest) ← action extended second.isSome c cs
          go blocks action rest

/-- The commands of a text. What a command goes to must be there. -/
def script (extended : Bool) (text : List Char) : Except Mistake Script := do
  let cs ← commands extended (text.length + 1) [] [] text
  match cs.findSome? fun c => c.action.goal?.filter fun name => (labelPlace? cs name).isNone with
  | some name => .error (.fatal ("can't find label for jump to `" ++ name ++ "'"))
  | none => return cs

/-- No text is no commands. -/
@[simp] theorem script_nil (extended : Bool) : script extended [] = .ok [] := rfl

end LineShell.Userland.Editor
