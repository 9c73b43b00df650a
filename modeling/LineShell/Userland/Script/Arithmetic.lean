import LineShell.Userland.Extended
import LineShell.Userland.Script.Word

namespace LineShell.Userland.Script

/-!
# Arithmetic of scripts

* `Expr` — an expression over numbers of 64 bits and variables;
* `Expr.parse` — a text as an expression;
* `Expr.eval` — what an expression comes to, and the variables that it sets.
-/

/-- An expression. -/
inductive Expr
  | number (n : Int)
  | name (s : String)
  | unary (sign : String) (a : Expr)
  | binary (sign : String) (a b : Expr)
  | choose (condition yes no : Expr)
  /-- A variable is set, perhaps to what comes of its value and an operator. -/
  | assign (name sign : String) (a : Expr)
  deriving DecidableEq, Repr

namespace Expr

/-- What is wrong with an expression. -/
inductive Mistake
  | noPrimary
  | noEnd
  | noParenthesis
  | noColon
  | divisionByZero
  /-- The value of a variable is no number. -/
  | noNumber (value : String)
  deriving DecidableEq, Repr

/-! ### Reading -/

/-- The signs, longer ones first. -/
def signs : List String :=
  ["<<=", ">>=", "<<", ">>", "<=", ">=", "==", "!=", "&&", "||", "+=", "-=", "*=", "/=", "%=", "&=",
    "|=", "^=", "+", "-", "*", "/", "%", "<", ">", "=", "!", "~", "&", "|", "^", "?", ":", "(", ")"]

/-- A token of an expression. -/
inductive Lexeme
  | number (n : Int)
  | name (s : String)
  | sign (s : String)
  /-- What is none of these. -/
  | stray (c : Char)
  deriving DecidableEq, Repr

/-- The number that a text starts with, in the base that its first characters name, and what comes
after it. -/
def leadingNumber (cs : List Char) : Int × List Char :=
  let read (base : Nat) (cs : List Char) : Int × List Char :=
    let ds := cs.takeWhile fun c => (Extended.digitValue? base c).isSome
    (Extended.digitsValue base ds, cs.drop ds.length)
  let isHexDigit (c : Char) : Bool := (Extended.digitValue? 16 c).isSome
  match cs with
  | '0' :: x :: rest =>
    if (x == 'x' || x == 'X') && rest.head?.any isHexDigit then read 16 rest else read 8 cs
  | cs => read 10 cs

/-- The tokens of a text. -/
def lexemes : Nat → List Char → List Lexeme
  | 0, _ | _, [] => []
  | fuel + 1, c :: cs =>
    if c.isWhitespace then lexemes fuel cs
    else if c.isDigit then
      let (n, rest) := leadingNumber (c :: cs)
      .number n :: lexemes fuel rest
    else if isNameChar c then
      let name := (c :: cs).takeWhile isNameChar
      .name (String.ofList name) :: lexemes fuel ((c :: cs).drop name.length)
    else match signs.find? fun s => s.toList.isPrefixOf (c :: cs) with
      | some s => .sign s :: lexemes fuel ((c :: cs).drop s.length)
      | none => .stray c :: lexemes fuel cs

/-- The signs between two operands by how closely they bind, the loosest first. -/
def levels : List (List String) :=
  [["||"], ["&&"], ["|"], ["^"], ["&"], ["==", "!="], ["<", ">", "<=", ">="], ["<<", ">>"],
    ["+", "-"], ["*", "/", "%"]]

/-- The signs with which variables are set, each with the operator in it. -/
def assignments : List (String × String) :=
  [("=", ""), ("+=", "+"), ("-=", "-"), ("*=", "*"), ("/=", "/"), ("%=", "%"), ("<<=", "<<"),
    (">>=", ">>"), ("&=", "&"), ("|=", "|"), ("^=", "^")]

/-- An expression that was read, and what comes after it. -/
abbrev Parsed := Except Mistake (Expr × List Lexeme)

mutual

/-- Reads an expression. -/
def whole : Nat → List Lexeme → Parsed
  | 0, _ => .error .noPrimary
  | fuel + 1, ts =>
    match ts with
    | .name s :: .sign sign :: rest =>
      match assignments.lookup sign with
      | some own => do
        let (a, rest) ← whole fuel rest
        return (assign s own a, rest)
      | none => conditional fuel ts
    | ts => conditional fuel ts

/-- Reads an expression that may be chosen by a condition. -/
def conditional : Nat → List Lexeme → Parsed
  | 0, _ => .error .noPrimary
  | fuel + 1, ts => do
    let (condition, rest) ← level fuel levels ts
    match rest with
    | .sign "?" :: rest => do
      let (yes, rest) ← whole fuel rest
      match rest with
      | .sign ":" :: rest => do
        let (no, rest) ← conditional fuel rest
        return (choose condition yes no, rest)
      | _ => .error .noColon
    | rest => return (condition, rest)

/-- Reads operands with signs of some level, or of one that binds more closely, between them. -/
def level : Nat → List (List String) → List Lexeme → Parsed
  | 0, _, _ => .error .noPrimary
  | fuel + 1, [], ts => primary fuel ts
  | fuel + 1, own :: closer, ts => do
    let (a, rest) ← level fuel closer ts
    levelTail fuel own closer a rest

/-- Reads the operands after the first. -/
def levelTail : Nat → List String → List (List String) → Expr → List Lexeme → Parsed
  | 0, _, _, a, rest => .ok (a, rest)
  | fuel + 1, own, closer, a, rest =>
    match rest with
    | .sign s :: rest' =>
      if own.contains s then do
        let (b, rest) ← level fuel closer rest'
        levelTail fuel own closer (binary s a b) rest
      else .ok (a, rest)
    | rest => .ok (a, rest)

/-- Reads an operand. -/
def primary : Nat → List Lexeme → Parsed
  | 0, _ => .error .noPrimary
  | fuel + 1, ts =>
    match ts with
    | .number n :: rest => .ok (number n, rest)
    | .name s :: rest => .ok (name s, rest)
    | .sign "(" :: rest => do
      let (a, rest) ← whole fuel rest
      match rest with
      | .sign ")" :: rest => return (a, rest)
      | _ => .error .noParenthesis
    | .sign s :: rest =>
      if ["+", "-", "!", "~"].contains s then do
        let (a, rest) ← primary fuel rest
        return (unary s a, rest)
      else .error .noPrimary
    | _ => .error .noPrimary

end

/-- A text as an expression. -/
def parse (text : String) : Except Mistake Expr := do
  let cs := text.toList
  let ts := lexemes (cs.length + 1) cs
  let (a, rest) ← whole (16 * ts.length + 32) ts
  if rest.isEmpty then return a else .error .noEnd

/-! ### Evaluation -/

/-- A number in 64 bits. -/
def wrap (n : Int) : Int := n.bmod 18446744073709551616

/-- A condition as a number. -/
def truth (b : Bool) : Int := if b then 1 else 0

/-- The bits of a number. -/
def bits (n : Int) : Nat := (n % 18446744073709551616).toNat

/-- What two numbers come to. -/
def combine (sign : String) (a b : Int) : Except Mistake Int :=
  let whole (n : Nat) : Except Mistake Int := .ok (wrap n)
  match sign with
  | "+" => .ok (wrap (a + b))
  | "-" => .ok (wrap (a - b))
  | "*" => .ok (wrap (a * b))
  | "/" => if b = 0 then .error .divisionByZero else .ok (wrap (a.tdiv b))
  | "%" => if b = 0 then .error .divisionByZero else .ok (wrap (a.tmod b))
  | "<<" => .ok (wrap (a * Nat.pow 2 (bits b % 64)))
  | ">>" => .ok (a / Nat.pow 2 (bits b % 64))
  | "&" => whole (bits a &&& bits b)
  | "|" => whole (bits a ||| bits b)
  | "^" => whole (bits a ^^^ bits b)
  | "==" => .ok (truth (a == b))
  | "!=" => .ok (truth (a != b))
  | "<" => .ok (truth (a < b))
  | ">" => .ok (truth (b < a))
  | "<=" => .ok (truth (a ≤ b))
  | ">=" => .ok (truth (b ≤ a))
  | _ => .ok b

/-- What a sign makes of a number. -/
def change (sign : String) (a : Int) : Int :=
  match sign with
  | "-" => wrap (-a)
  | "!" => truth (a == 0)
  | "~" => wrap (-a - 1)
  | _ => a

/-- The variables that were set, the latest first. -/
abbrev Assigned := List (String × Int)

/-- The number that a text is; no text is zero. -/
def ofText (text : String) : Except Mistake Int :=
  let cs := text.toList.dropWhile Char.isWhitespace
  let (negative, digits) : Bool × List Char := match cs with
    | '-' :: cs => (true, cs)
    | '+' :: cs => (false, cs)
    | cs => (false, cs)
  if cs.isEmpty then .ok 0
  else if !digits.head?.any Char.isDigit then .error (.noNumber text)
  else match leadingNumber digits with
    | (n, rest) =>
      if rest.all Char.isWhitespace then .ok (wrap (if negative then -n else n))
      else .error (.noNumber text)

/-- The value of a variable, which may have been set before. -/
def valueOf (get? : String → Option String) (set : Assigned) (name : String) :
    Except Mistake Int :=
  match set.lookup name with
  | some n => .ok n
  | none => ofText ((get? name).getD "")

/-- What an expression comes to, and the variables that it sets. -/
def eval (get? : String → Option String) : Expr → Assigned → Except Mistake (Int × Assigned)
  | number n, set => .ok (n, set)
  | name s, set => do return (← valueOf get? set s, set)
  | unary sign a, set => do
    let (n, set) ← a.eval get? set
    return (change sign n, set)
  | binary sign a b, set => do
    let (m, set) ← a.eval get? set
    if sign == "&&" && m == 0 then return (0, set)
    else if sign == "||" && m != 0 then return (1, set)
    else
      let (n, set) ← b.eval get? set
      if sign == "&&" || sign == "||" then return (truth (n != 0), set)
      else return (← combine sign m n, set)
  | choose condition yes no, set => do
    let (n, set) ← condition.eval get? set
    if n != 0 then yes.eval get? set else no.eval get? set
  | assign target sign a, set => do
    let (n, set) ← a.eval get? set
    let value ← if sign == "" then pure n
      else do combine sign (← valueOf get? set target) n
    return (value, (target, value) :: set)

/-- What is wrong with a text, in words. -/
def Mistake.message (text : String) : Mistake → String
  | noNumber value => "Illegal number: " ++ value
  | mistake =>
    let reason := match mistake with
      | noEnd => "expecting EOF"
      | noParenthesis => "expecting ')'"
      | noColon => "expecting ':'"
      | divisionByZero => "division by zero"
      | _ => "expecting primary"
    "arithmetic expression: " ++ reason ++ ": " ++ marked text

/-- A number is what it is, and sets nothing. -/
@[simp] theorem eval_number (get? : String → Option String) (n : Int) (set : Assigned) :
    (number n).eval get? set = .ok (n, set) := rfl

end Expr

end LineShell.Userland.Script
