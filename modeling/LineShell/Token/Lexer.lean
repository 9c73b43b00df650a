import LineShell.Token.Lexeme

namespace LineShell.Token

/-!
# The lexer and its stream

The first reading again, by a lexer that takes a line from a stream and does not count its
characters. The character that shows it that a token is over is dropped if it is a gap, and put back
otherwise; where the token has ended must be told from how far the stream has come.

* `Stream` — the characters of a line as they are taken, one at a time;
* `Lexer`, `Lexer.step` — the lexer with the characters it has put back, and what the next character
  does to it;
* `Lexer.stop` — where a token ends, told from the stream;
* `Lexer.tokens`, `readings` — the tokens of a line, each with the offset told for it.
-/

/-- The characters of a line as they are taken. -/
structure Stream where
  rest : List Char
  position : Nat
  /-- Whether a character has been asked for when none was left. -/
  exhausted : Bool
  deriving DecidableEq, Repr

/-- Takes one character. -/
def Stream.take (s : Stream) : Option Char × Stream :=
  match s.rest with
  | [] => (none, { s with exhausted := true })
  | c :: cs => (some c, { s with rest := cs, position := s.position + 1 })

/-- Where the lexer is. -/
inductive Mode
  /-- Between tokens. -/
  | gap
  /-- In a word, outside quotations. -/
  | word
  /-- In a run of operator characters. -/
  | run
  /-- Between two quote marks. -/
  | quotation (mark : Char)
  /-- After a backslash, in a word or between the quote marks named. -/
  | escape (quotation? : Option Char)
  /-- Past the end of the line. -/
  | ended
  deriving DecidableEq, Repr

/-- The lexer. Of what has been read of a token the last character stands first, and so does the last
one of the characters put back. -/
structure Lexer where
  stream : Stream
  putBack : List Char
  mode : Mode
  read : List Char
  /-- Whether the token has quotations. -/
  quoted : Bool
  deriving DecidableEq, Repr

namespace Lexer

/-- The lexer at the start of a line. -/
def ofLine (line : List Char) : Lexer := ⟨⟨line, 0, false⟩, [], .gap, [], false⟩

/-- Takes the next character: one that has been put back, or else one from the stream. -/
def take (l : Lexer) : Option Char × Lexer :=
  match l.putBack with
  | c :: cs => (some c, { l with putBack := cs })
  | [] => (l.stream.take.1, { l with stream := l.stream.take.2 })

/-- Whether there is something of a token. -/
def holds (l : Lexer) : Bool := l.read != [] || l.quoted

/-- The token that has been read, if there is one. -/
def value? (l : Lexer) : Option (List Char) := if l.holds then some l.read.reverse else none

/-- Where the token that has been read ends: one character was taken past it unless the line ran
out. -/
def stop (l : Lexer) : Int :=
  if l.stream.exhausted then l.stream.position else l.stream.position - 1

/-- The lexer as it starts on the next token. -/
def restart (l : Lexer) : Lexer := { l with read := [], quoted := false }

/-- What a character does to the lexer. -/
inductive Step
  | more (l : Lexer)
  | over (l : Lexer)
  | failed (e : LineError)
  deriving DecidableEq, Repr

/-- Ends the token if there is one. -/
def endToken (l : Lexer) : Step := if l.holds then .over l else .more l

/-- What a character, or the end of the line, does to the lexer that has taken it. -/
def handle (l : Lexer) : Mode → Option Char → Step
  | .ended, _ => .over { l with read := [], quoted := false }
  | .gap, none => .over { l with mode := .ended }
  | .gap, some c =>
    if isGap c then l.endToken
    else if c == '\\' then .more { l with mode := .escape none }
    else if isOperatorChar c then .more { l with mode := .run, read := [c] }
    else if isQuoteMark c then .more { l with mode := .quotation c }
    else .more { l with mode := .word, read := [c] }
  | .quotation _, none => .failed .unclosedQuote
  | .quotation mark, some c =>
    if c == mark then .more { l with mode := .word, quoted := true }
    else if c == '\\' && mark == '"' then .more { l with mode := .escape mark, quoted := true }
    else .more { l with read := c :: l.read, quoted := true }
  | .escape _, none => .failed .danglingEscape
  | .escape none, some c => .more { l with mode := .word, read := c :: l.read }
  | .escape (some mark), some c =>
    if c == '\\' || c == mark then .more { l with mode := .quotation mark, read := c :: l.read }
    else .more { l with mode := .quotation mark, read := c :: '\\' :: l.read }
  | .word, none => .over { l with mode := .ended }
  | .word, some c =>
    if isGap c then endToken { l with mode := .gap }
    else if isQuoteMark c then .more { l with mode := .quotation c }
    else if c == '\\' then .more { l with mode := .escape none }
    else if isOperatorChar c then endToken { l with mode := .gap, putBack := c :: l.putBack }
    else .more { l with read := c :: l.read }
  | .run, none => .over { l with mode := .ended }
  | .run, some c =>
    if isGap c then endToken { l with mode := .gap }
    else if isOperatorChar c then .more { l with read := c :: l.read }
    else .over { l with mode := .gap, putBack := c :: l.putBack }

/-- What the next character does to the lexer. -/
def step (l : Lexer) : Step := l.take.2.handle l.mode l.take.1

/-! ### Every step brings the lexer closer to the end -/

/-- How many characters are still to be handled. -/
def ahead (l : Lexer) : Nat := l.putBack.length + l.stream.rest.length

/-- What is left to do: to handle characters, and to end the token that the lexer is in. -/
def work (l : Lexer) : Nat :=
  3 * l.ahead + (if l.mode = .gap ∨ l.mode = .ended then 0 else 1) + if l.holds then 1 else 0

variable {l l' : Lexer}

@[simp] theorem take_mode (l : Lexer) : l.take.2.mode = l.mode := by
  unfold take
  split <;> rfl

@[simp] theorem take_holds (l : Lexer) : l.take.2.holds = l.holds := by
  unfold take
  split <;> rfl

theorem take_ahead (l : Lexer) : l.ahead = l.take.2.ahead + l.take.1.toList.length := by
  unfold take Stream.take
  grind [ahead]

/-- A character put back was taken before, so it adds no work to what the token it ends has made. -/
theorem work_lt_of_handle_more {c : Char} (h : l.handle l.mode (some c) = .more l') :
    l'.work < l.work + 3 := by
  unfold handle endToken at h
  grind [work, ahead, holds]

theorem work_lt_of_handle_over {c? : Option Char} (h : l.handle l.mode c? = .over l')
    (hvalue : l'.value?.isSome = true) : l'.restart.work < l.work + 3 * c?.toList.length := by
  unfold handle endToken at h
  grind [work, ahead, holds, restart, value?]

theorem work_take (l : Lexer) : l.work = l.take.2.work + 3 * l.take.1.toList.length := by
  simp only [work, take_ahead l, take_mode, take_holds]
  omega

theorem work_lt_of_more (h : l.step = .more l') : l'.work < l.work := by
  unfold step at h
  rw [← take_mode] at h
  cases hc : l.take.1 with
  | none =>
    rw [hc] at h
    unfold handle at h
    grind
  | some c =>
    rw [hc] at h
    have := work_lt_of_handle_more h
    rw [work_take l, hc]
    exact this

theorem work_lt_of_over (h : l.step = .over l') (hvalue : l'.value?.isSome = true) :
    l'.restart.work < l.work := by
  rw [step, ← take_mode] at h
  rw [work_take l]
  exact work_lt_of_handle_over h hvalue

end Lexer

/-! ### All tokens -/

/-- A token as the lexer gives it, with the offset told for its end. -/
structure Reading where
  value : List Char
  stop : Int
  deriving DecidableEq, Repr

/-- Where the token would start if its source were its value. -/
def Reading.start (r : Reading) : Int := r.stop - r.value.length

/-- The tokens of a line, up to the point where it cannot be read further. -/
structure Readings where
  read : List Reading
  failure : Option LineError
  deriving DecidableEq, Repr

/-- The tokens from the lexer's place on. -/
def Lexer.tokens (l : Lexer) : Readings :=
  match _h : l.step with
  | .more l' => l'.tokens
  | .failed e => ⟨[], some e⟩
  | .over l' =>
    match _hvalue : l'.value? with
    | none => ⟨[], none⟩
    | some value =>
      let rest := l'.restart.tokens
      { rest with read := ⟨value, l'.stop⟩ :: rest.read }
termination_by l.work
decreasing_by
  · exact Lexer.work_lt_of_more _h
  · exact Lexer.work_lt_of_over _h (by rw [_hvalue]; rfl)

/-- The tokens of a line. -/
def readings (line : List Char) : Readings := (Lexer.ofLine line).tokens

end LineShell.Token
