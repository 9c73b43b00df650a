import LineShell.LineError

namespace LineShell.Token

/-!
# Lexemes

The first reading of a line, one character at a time.

* `State`, `State.next` — where in the line the reader is, and where one more character brings it;
* `Lexeme` — the value of a word or of a run of operator characters, and the offset where its
  source ends;
* `lexemes` — the lexemes of a line, as far as the line can be read.
-/

/-- The characters that separate words. -/
def isGap (c : Char) : Bool := c == ' ' || c == '\t' || c == '\r' || c == '\n'

/-- The characters that operators are made of. -/
def isOperatorChar (c : Char) : Bool := c == '|' || c == '&' || c == '<' || c == '>'

/-- The two characters that open and close a quotation. -/
def isQuoteMark (c : Char) : Bool := c == '\'' || c == '"'

/-- Where the reader is. A value read so far has its last character first. -/
inductive State
  /-- Between lexemes. -/
  | gap
  /-- In a word, outside quotations. -/
  | word (read : List Char)
  /-- In a run of operator characters. -/
  | run (read : List Char)
  /-- In a word, between two quote marks. -/
  | quotation (mark : Char) (read : List Char)
  /-- In a word, after a backslash outside quotations. -/
  | escape (read : List Char)
  /-- In a word, after a backslash between double quote marks. -/
  | quotedEscape (read : List Char)
  deriving DecidableEq, Repr

/-- Where the first character after a lexeme, or of the line, brings the reader. -/
def State.first (c : Char) : State :=
  if isGap c then .gap
  else if c == '\\' then .escape []
  else if isOperatorChar c then .run [c]
  else if isQuoteMark c then .quotation c []
  else .word [c]

/-- Where one more character brings the reader, and the value of the lexeme that ends before it. -/
def State.next : State → Char → Option (List Char) × State
  | .gap, c => (none, State.first c)
  | .word read, c =>
    if isGap c || isOperatorChar c then (some read.reverse, State.first c)
    else if c == '\\' then (none, .escape read)
    else if isQuoteMark c then (none, .quotation c read)
    else (none, .word (c :: read))
  | .run read, c =>
    if isOperatorChar c then (none, .run (c :: read))
    else (some read.reverse, State.first c)
  | .quotation mark read, c =>
    if c == mark then (none, .word read)
    else if c == '\\' && mark == '"' then (none, .quotedEscape read)
    else (none, .quotation mark (c :: read))
  | .escape read, c => (none, .word (c :: read))
  | .quotedEscape read, c =>
    if c == '\\' || c == '"' then (none, .quotation '"' (c :: read))
    else (none, .quotation '"' (c :: '\\' :: read))

/-- A word or a run of operator characters: its value, and the offset just past its source. -/
structure Lexeme where
  value : List Char
  stop : Nat
  deriving DecidableEq, Repr

/-- What a line holds: its lexemes, up to the point where it cannot be read further. -/
structure Lexemes where
  read : List Lexeme
  failure : Option LineError
  deriving DecidableEq, Repr

/-- The lexemes with one more before them. -/
def Lexemes.cons (l : Lexeme) (ls : Lexemes) : Lexemes := { ls with read := l :: ls.read }

/-- What the end of the line makes of the reader's place. -/
def State.finish (offset : Nat) : State → Lexemes
  | .gap => ⟨[], none⟩
  | .word read => ⟨[⟨read.reverse, offset⟩], none⟩
  | .run read => ⟨[⟨read.reverse, offset⟩], none⟩
  | .quotation .. => ⟨[], some .unclosedQuote⟩
  | .escape _ => ⟨[], some .danglingEscape⟩
  | .quotedEscape _ => ⟨[], some .danglingEscape⟩

/-- The lexemes from a place in the line on. -/
def lexemesFrom (offset : Nat) (state : State) : List Char → Lexemes
  | [] => state.finish offset
  | c :: cs =>
    match state.next c with
    | (none, next) => lexemesFrom (offset + 1) next cs
    | (some value, next) => (lexemesFrom (offset + 1) next cs).cons ⟨value, offset⟩

/-- The lexemes of a line. -/
def lexemes (line : List Char) : Lexemes := lexemesFrom 0 .gap line

@[simp] theorem lexemes_nil : lexemes [] = ⟨[], none⟩ := rfl

/-- A gap at the start of a line shifts its lexemes by one. -/
theorem lexemesFrom_gap {offset : Nat} {c : Char} {cs : List Char} (h : isGap c = true) :
    lexemesFrom offset .gap (c :: cs) = lexemesFrom (offset + 1) .gap cs := by
  simp [lexemesFrom, State.next, State.first, h]

end LineShell.Token
