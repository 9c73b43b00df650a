import LineShell.CommandLine
import LineShell.Text.Blank
import LineShell.Token.Scan

namespace LineShell

/-!
# From tokens to a command line

* `Draft` — what has been read of a line: the stages that are closed, the words of the open one
  and the redirections so far, where a later one of the same stream wins;
* `Draft.read` — reads tokens into a draft;
* `Draft.finish` — the line that a draft amounts to;
* `CommandLine.parse` — a text read as a command line: a blank text is none.
-/

/-- What has been read of a line. Stages and words have the last one first. -/
structure Draft where
  closed : List Command := []
  words : List String := []
  input : Option String := none
  output : Option (String × Bool) := none
  error : Option String := none
  deriving DecidableEq, Repr

namespace Draft

/-- The command that the open stage's words make. -/
def open? (d : Draft) : Option Command := Command.ofArgv? d.words.reverse

/-- Adds a word to the open stage. -/
def addWord (d : Draft) (w : String) : Draft := { d with words := w :: d.words }

/-- Names a file for a stream. Writing and appending are two ways of naming the output. -/
def redirect (d : Draft) (file : String) : Redirection → Draft
  | .input => { d with input := some file }
  | .output => { d with output := some (file, false) }
  | .append => { d with output := some (file, true) }
  | .error => { d with error := some file }

/-- Whether the draft names no file. -/
def hasNoRedirection (d : Draft) : Bool :=
  d.input.isNone && d.output.isNone && d.error.isNone

/-- Reads tokens into a draft. -/
def read (d : Draft) : List Token → Except LineError Draft
  | [] => .ok d
  | .word w :: ts => (d.addWord w).read ts
  | .pipe :: ts =>
    match d.open? with
    | none => .error .emptyCommand
    | some c => { d with closed := c :: d.closed, words := [] }.read ts
  | .background :: _ => .error .misplacedBackground
  | .redirect op :: .word file :: ts => (d.redirect file op).read ts
  | .redirect op :: _ => .error (.missingFile op)

/-- The line that a draft amounts to. A draft with nothing in it is no line. -/
def finish (d : Draft) (background : Bool) : Except LineError (Option CommandLine) :=
  match d.open? with
  | some c =>
    let (first, others) := match d.closed.reverse with
      | [] => (c, [])
      | first :: between => (first, between ++ [c])
    .ok (some {
      first, others, input := d.input, output := d.output.map (·.1),
      append := d.output.any (·.2), error := d.error, background })
  | none =>
    if d.closed.isEmpty && d.hasNoRedirection then
      if background then .error .lonelyBackground else .ok none
    else .error .emptyCommand

end Draft

namespace CommandLine

/-- Tokens without a background mark at their end, and whether there was one. -/
def splitBackground (ts : List Token) : List Token × Bool :=
  match ts.getLast? with
  | some .background => (ts.dropLast, true)
  | _ => (ts, false)

/-- The command line that tokens make. No token at all makes none. -/
def ofTokens (ts : List Token) : Except LineError (Option CommandLine) := do
  let (body, background) := splitBackground ts
  let draft ← ({} : Draft).read body
  draft.finish background

/-- A text read as a command line, from its first to its last character that is not blank. -/
def parse (text : String) : Except LineError (Option CommandLine) := do
  ofTokens (← Token.scan (Text.trim text.toList))

@[simp] theorem splitBackground_nil : splitBackground [] = ([], false) := rfl

@[simp] theorem splitBackground_concat_background (ts : List Token) :
    splitBackground (ts ++ [.background]) = (ts, true) := by
  simp [splitBackground]

@[simp] theorem ofTokens_nil : ofTokens [] = .ok none := rfl

end CommandLine

end LineShell
