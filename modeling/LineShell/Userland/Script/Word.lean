import LineShell.Userland.Script.Grammar

namespace LineShell.Userland.Script

/-!
# Reading words

* `enclosed` — a text up to the character that closes it;
* `dollarPiece` — what a dollar sign stands for;
* `wordPieces` — the pieces of a word, and `textPieces` — those of a text that is no word.
-/

/-- Whether a character can be in a variable's name. -/
def isNameChar (c : Char) : Bool := c.isAlphanum || c == '_'

/-- Whether a text is a variable's name. -/
def isName (cs : List Char) : Bool :=
  cs.head?.any (fun c => isNameChar c && !c.isDigit) && cs.all isNameChar

/-- The brace that opens a parameter. -/
def openBrace : Char := Char.ofNat 123

/-- The brace that closes a parameter. -/
def closeBrace : Char := Char.ofNat 125

/-- The quotation mark within which parameters stand for their values. -/
def doubleQuote : Char := Char.ofNat 34

/-- The quotation mark within which everything stands for itself. -/
def singleQuote : Char := Char.ofNat 39

/-- The mark around commands whose output is meant. -/
def backQuote : Char := Char.ofNat 96

/-- A name in quotation marks. -/
def marked (name : String) : String := doubleQuote.toString ++ name ++ doubleQuote.toString

/-- That a quoted text does not end. -/
def unterminated : String := "Unterminated quoted string"

/-- The text up to the character that closes it, and what comes after that; nothing if it is not
closed. What opens in the text has to be closed in it. Between double quotation marks single ones
mean nothing. -/
def enclosed (close : Char) (doubled : Bool) : Nat → List Char → Option (List Char × List Char)
  | 0, _ | _, [] => none
  | fuel + 1, c :: cs =>
    let onward (part rest : List Char) : Option (List Char × List Char) := do
      let (more, rest) ← enclosed close doubled fuel rest
      return (part ++ more, rest)
    let nested (start : List Char) (inner : Char) (quoted : Bool) (cs : List Char) :
        Option (List Char × List Char) := do
      let (text, rest) ← enclosed inner quoted fuel cs
      onward (start ++ text ++ [inner]) rest
    if c == close then some ([], cs)
    else if c == '\\' then
      match cs with
      | [] => none
      | d :: cs => onward [c, d] cs
    else if c == singleQuote && !doubled then
      match cs.dropWhile (· != singleQuote) with
      | [] => none
      | _ :: rest => onward (c :: cs.takeWhile (· != singleQuote) ++ [c]) rest
    else if c == doubleQuote then nested [c] c true cs
    else if c == backQuote then nested [c] c false cs
    else if c == '(' && close == ')' then nested [c] ')' doubled cs
    else match c, cs with
      | '$', d :: cs =>
        if d == openBrace then nested [c, d] closeBrace doubled cs
        else if d == '(' then nested [c, d] ')' false cs
        else onward [c] (d :: cs)
      | c, cs => onward [c] cs

/-! ### Parameters -/

/-- The operators that change what a parameter stands for, longer ones first. -/
def parameterOperators : List String :=
  [":-", ":=", ":?", ":+", "%%", "##", "-", "=", "?", "+", "%", "#"]

/-- The operator of what is no parameter at all. -/
def noParameter : String := "bad"

/-- The operator that asks for the length of a value. -/
def lengthOperator : String := "length"

/-- The name that a text starts with, as that of a parameter. -/
def parameterName (cs : List Char) : List Char :=
  match cs with
  | [] => []
  | c :: _ =>
    if c.isDigit then cs.takeWhile Char.isDigit
    else if isNameChar c then cs.takeWhile isNameChar
    else if "#?$@*!-".toList.contains c then [c]
    else []

/-- What stands between the braces of a parameter. -/
def bracedParameter (quoted : Bool) (cs : List Char) : Piece :=
  let bad : Piece := .parameter "" noParameter "" quoted
  let valueOf (cs : List Char) : Piece :=
    let name := parameterName cs
    let rest := cs.drop name.length
    if name.isEmpty then bad
    else if rest.isEmpty then .parameter (String.ofList name) "" "" quoted
    else match parameterOperators.find? fun o => o.toList.isPrefixOf rest with
      | some o => .parameter (String.ofList name) o (String.ofList (rest.drop o.length)) quoted
      | none => bad
  match cs with
  | '#' :: c :: rest =>
    let name := parameterName (c :: rest)
    if name.length = rest.length + 1 then
      .parameter (String.ofList name) lengthOperator "" quoted
    else valueOf cs
  | cs => valueOf cs

/-- A piece that was read, and what comes after it. -/
abbrev ReadPiece := Except String (Option (Piece × List Char))

/-- What a dollar sign stands for with what comes after it; nothing if it stands for itself. -/
def dollarPiece (quoted : Bool) (cs : List Char) : ReadPiece :=
  let fuel := cs.length + 1
  match cs with
  | [] => .ok none
  | '(' :: '(' :: rest =>
    match enclosed ')' quoted fuel rest with
    | some (text, ')' :: rest) => .ok (some (.arithmetic (String.ofList text) quoted, rest))
    | _ => .error "Missing '))'"
  | '(' :: rest =>
    match enclosed ')' false fuel rest with
    | some (text, rest) => .ok (some (.commands (String.ofList text) quoted, rest))
    | none => .error ("end of file unexpected (expecting " ++ marked ")" ++ ")")
  | c :: rest =>
    if c == openBrace then
      match enclosed closeBrace quoted fuel rest with
      | some (text, rest) => .ok (some (bracedParameter quoted text, rest))
      | none =>
        .error (if quoted then unterminated else "Missing '" ++ closeBrace.toString ++ "'")
    else if c.isDigit || "#?$@*!-".toList.contains c then
      .ok (some (.parameter c.toString "" "" quoted, rest))
    else if isNameChar c then
      let name := cs.takeWhile isNameChar
      .ok (some (.parameter (String.ofList name) "" "" quoted, cs.drop name.length))
    else .ok none

/-- What stands between back quotes, and what comes after them. In it a backslash stands before
what would mean something else. -/
def backPiece (quoted : Bool) (cs : List Char) : ReadPiece :=
  let rec text : Nat → List Char → Option (List Char × List Char)
    | 0, _ | _, [] => none
    | fuel + 1, c :: cs =>
      if c == backQuote then some ([], cs)
      else match c, cs with
        | '\\', d :: ds => do
          let (more, rest) ← text fuel ds
          let plain := d == '$' || d == '\\' || d == backQuote || (quoted && d == doubleQuote)
          return ((if plain then [d] else ['\\', d]) ++ more, rest)
        | c, cs => do
          let (more, rest) ← text fuel cs
          return (c :: more, rest)
  match text (cs.length + 1) cs with
  | some (text, rest) => .ok (some (.commands (String.ofList text) quoted, rest))
  | none => .error "EOF in backquote substitution"

/-- What a character that is no plain one stands for with what comes after it. -/
def specialPiece (quoted : Bool) : List Char → ReadPiece
  | '$' :: cs => dollarPiece quoted cs
  | c :: cs => if c == backQuote then backPiece quoted cs else .ok none
  | [] => .ok none

/-! ### Words -/

/-- Pieces that were read, and what comes after them. -/
abbrev ReadPieces := Except String (List Piece × List Char)

/-- Pieces with one more before them. -/
def ReadPieces.after (piece : Piece) (r : ReadPieces) : ReadPieces :=
  r.map fun (pieces, rest) => (piece :: pieces, rest)

/-- The pieces up to the closing double quote, and what comes after it. -/
def quotedPieces : Nat → List Char → ReadPieces
  | 0, _ | _, [] => .error unterminated
  | fuel + 1, c :: cs =>
    if c == doubleQuote then .ok ([], cs)
    else match c, cs with
      | '\\', d :: ds =>
        let special := d == '$' || d == '\\' || d == doubleQuote || d == backQuote
        if d == '\n' then quotedPieces fuel ds
        else ReadPieces.after (.text (if special then d.toString else "\\" ++ d.toString) true)
          (quotedPieces fuel ds)
      | c, cs => do
        match ← specialPiece true (c :: cs) with
        | some (piece, rest) => ReadPieces.after piece (quotedPieces fuel rest)
        | none => ReadPieces.after (.text c.toString true) (quotedPieces fuel cs)

/-- What a pair of double quotes stands for. Unless all that is in it are the arguments, of which
there may be none, it is some text, however short. -/
def betweenQuotes (pieces : List Piece) : List Piece :=
  match pieces with
  | [.parameter "@" "" _ _] => pieces
  | _ => .text "" true :: pieces

/-- The pieces of a word up to a character that ends it, and what comes after. -/
def wordPieces (ends : Char → Bool) : Nat → List Char → ReadPieces
  | 0, _ => .error unterminated
  | _, [] => .ok ([], [])
  | fuel + 1, c :: cs =>
    if ends c then .ok ([], c :: cs)
    else if c == singleQuote then
      match cs.dropWhile (· != singleQuote) with
      | [] => .error unterminated
      | _ :: rest => ReadPieces.after
          (.text (String.ofList (cs.takeWhile (· != singleQuote))) true)
          (wordPieces ends fuel rest)
    else if c == doubleQuote then do
      let (inner, rest) ← quotedPieces (cs.length + 1) cs
      let (more, rest) ← wordPieces ends fuel rest
      return (betweenQuotes inner ++ more, rest)
    else match c, cs with
      | '\\', '\n' :: ds => wordPieces ends fuel ds
      | '\\', d :: ds => ReadPieces.after (.text d.toString true) (wordPieces ends fuel ds)
      | c, cs => do
        match ← specialPiece false (c :: cs) with
        | some (piece, rest) => ReadPieces.after piece (wordPieces ends fuel rest)
        | none => ReadPieces.after (.text c.toString false) (wordPieces ends fuel cs)

/-- Whether a character ends a word. -/
def endsWord (c : Char) : Bool := " \t\n;&|<>()".toList.contains c

/-- The pieces of a text within double quotes, in which these may be left out and set again. -/
def textPieces (keepsQuotes : Bool) : Nat → List Char → Except String Word
  | 0, _ | _, [] => .ok []
  | fuel + 1, c :: cs =>
    if c == doubleQuote && !keepsQuotes then textPieces keepsQuotes fuel cs
    else match c, cs with
      | '\\', d :: ds =>
        let special := d == '$' || d == '\\' || d == backQuote ||
          (!keepsQuotes && (d == doubleQuote || d == closeBrace))
        if d == '\n' then textPieces keepsQuotes fuel ds
        else (.text (if special then d.toString else "\\" ++ d.toString) true :: ·) <$>
          textPieces keepsQuotes fuel ds
      | c, cs => do
        match ← specialPiece true (c :: cs) with
        | some (piece, rest) => (piece :: ·) <$> textPieces keepsQuotes fuel rest
        | none => (.text c.toString true :: ·) <$> textPieces keepsQuotes fuel cs

/-- The word of a text behind an operator. -/
def operand (quoted : Bool) (text : String) : Except String Word :=
  let cs := text.toList
  if quoted then textPieces false (cs.length + 1) cs
  else (·.1) <$> wordPieces (fun _ => false) (cs.length + 2) cs

/-- No text is no pieces. -/
@[simp] theorem operand_empty (quoted : Bool) : operand quoted "" = .ok [] := by
  cases quoted <;> rfl

end LineShell.Userland.Script
