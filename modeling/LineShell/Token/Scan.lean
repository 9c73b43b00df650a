import LineShell.Token.Lexeme

namespace LineShell

/-!
# Tokens

The second reading of a line tells operators from words.

* `Token` — a word or an operator;
* `Token.isBare` — whether a lexeme's source is its value, with no backslash before it;
* `Token.scan` — the tokens of a line: a bare run of operator characters is an operator, and `>`
  glued to a word `2` redirects the error stream.
-/

/-- A word or an operator of a line. -/
inductive Token
  | word (text : String)
  | pipe
  | background
  | redirect (op : Redirection)
  deriving DecidableEq, Repr

namespace Token

/-- The operators that a bare run of operator characters can be. -/
def ofRun? : List Char → Option Token
  | ['|'] => some .pipe
  | ['&'] => some .background
  | ['<'] => some (.redirect .input)
  | ['>'] => some (.redirect .output)
  | ['>', '>'] => some (.redirect .append)
  | _ => none

/-- The offset where the value of a lexeme would start if its source were its value. -/
def Lexeme.start (l : Lexeme) : Nat := l.stop - l.value.length

/-- The character before an offset of the line. -/
def before? (source : List Char) : Nat → Option Char
  | 0 => none
  | n + 1 => source[n]?

/-- Whether a lexeme's source is its value, with no backslash before it. -/
def isBare (line : List Char) (l : Lexeme) : Bool :=
  (line.drop l.start).take l.value.length == l.value && before? line l.start != some '\\'

/-- Whether a lexeme is an operator: a bare run of operator characters. -/
def isOperator (line : List Char) (l : Lexeme) : Bool :=
  l.value != [] && l.value.all isOperatorChar && isBare line l

/-- Whether a lexeme is glued to a word `2` that ends where it starts. -/
def isGluedToTwo (line : List Char) (previous : Option (Token × Nat)) (l : Lexeme) : Bool :=
  match previous with
  | some (.word text, stop) => text == "2" && stop == l.start && before? line l.start == some '2'
  | _ => false

/-- The token of a lexeme, and whether it takes the token before it with it. -/
def classify (line : List Char) (previous : Option (Token × Nat)) (l : Lexeme) :
    Except LineError (Token × Bool) :=
  if isOperator line l then
    match ofRun? l.value with
    | none => .error (.unsupportedOperator (String.ofList l.value))
    | some (.redirect .output) =>
      if isGluedToTwo line previous l then .ok (.redirect .error, true)
      else .ok (.redirect .output, false)
    | some (.redirect .append) =>
      if isGluedToTwo line previous l then
        .error (.unsupportedOperator (String.ofList ('2' :: l.value)))
      else .ok (.redirect .append, false)
    | some token => .ok (token, false)
  else .ok (.word (String.ofList l.value), false)

/-- Classifies lexemes in order. The last token is held back, since the next lexeme may take it. -/
def scanFrom (line : List Char) (previous : Option (Token × Nat)) :
    List Lexeme → Except LineError (List Token)
  | [] => .ok (previous.toList.map (·.1))
  | l :: ls => do
    let (token, takesPrevious) ← classify line previous l
    let tokens ← scanFrom line (some (token, l.stop)) ls
    return if takesPrevious then tokens else previous.toList.map (·.1) ++ tokens

/-- The tokens of a line. Of two things wrong with it the one further left counts. -/
def scan (line : List Char) : Except LineError (List Token) := do
  let ls := lexemes line
  let tokens ← scanFrom line none ls.read
  match ls.failure with
  | some failure => .error failure
  | none => return tokens

@[simp] theorem scan_nil : scan [] = .ok [] := rfl

/-- A lexeme that is no operator is a word with its value. -/
theorem classify_of_not_isOperator {line : List Char} {previous : Option (Token × Nat)}
    {l : Lexeme} (h : isOperator line l = false) :
    classify line previous l = .ok (.word (String.ofList l.value), false) := by
  simp [classify, h]

end Token

end LineShell
