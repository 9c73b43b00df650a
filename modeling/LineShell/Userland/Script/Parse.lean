import LineShell.Userland.Script.Word

namespace LineShell.Userland.Script

/-!
# Reading shell scripts

* `Token`, `tokens` — a text as words, operators and line ends;
* `commands` and its like — tokens as parts of a script;
* `nextLine` — the commands of the next line, with all lines that they go on in.
-/

/-- The tokens of a script. -/
inductive Token
  | word (w : Word)
  | operator (s : String)
  /-- A redirection, with the descriptor that was named. -/
  | redirect (fd : Option Nat) (s : String)
  | lineEnd
  /-- A text that a redirection asked for in a line before. -/
  | body (w : Word)
  | fileEnd
  /-- What cannot be read. -/
  | broken (complaint : String)
  deriving DecidableEq, Repr

/-- Why a text is no script. -/
structure SyntaxError where
  line : Nat
  text : String
  deriving DecidableEq, Repr

/-! ### Texts within scripts -/

/-- A text within a script that a redirection asks for. -/
structure HereText where
  /-- The line behind it. -/
  delimiter : String
  /-- Whether everything in it stands for itself. -/
  plain : Bool
  /-- Whether tabs before its lines are left out. -/
  strips : Bool
  deriving DecidableEq, Repr

/-- The lines of a text within a script, and what comes after the line behind them. -/
def HereText.lines (h : HereText) : Nat → List Char → List Char × List Char
  | 0, cs => ([], cs)
  | _, [] => ([], [])
  | fuel + 1, cs =>
    let line := cs.takeWhile (· != '\n')
    let rest := cs.drop (line.length + 1)
    let shown := if h.strips then line.dropWhile (· == '\t') else line
    if String.ofList shown == h.delimiter then ([], rest)
    else
      let (more, rest) := h.lines fuel rest
      (shown ++ (cs.drop line.length).take 1 ++ more, rest)

/-- The word of a text within a script. -/
def HereText.word (h : HereText) (cs : List Char) : Except String Word :=
  if h.plain then .ok [.text (String.ofList cs) true]
  else (.text "" true :: ·) <$> textPieces true (cs.length + 1) cs

/-- Reads the texts within a script that a line has asked for, and what comes after them. -/
def hereBodies (line : Nat) : List HereText → List Char → List (Token × Nat) × Nat × List Char
  | [], cs => ([], line, cs)
  | h :: hs, cs =>
    let (text, rest) := h.lines (cs.length + 1) cs
    let passed := (cs.take (cs.length - rest.length)).count '\n'
    let token : Token := match h.word text with
      | .ok w => .body w
      | .error complaint => .broken complaint
    let (more, after, rest) := hereBodies (line + passed) hs rest
    ((token, line) :: more, after, rest)

/-! ### Tokens -/

/-- The operators, longer ones first, and whether they are redirections. -/
def operators : List (String × Bool) :=
  [("&&", false), ("||", false), ("<<-", true), ("<<", true), (">>", true), (">&", true),
    ("<&", true), (">|", true), ("<>", true), (";;", false), (";", false), ("&", false),
    ("|", false), ("(", false), (")", false), ("<", true), (">", true)]

/-- The operator or redirection that a text starts with, and what comes after it. -/
def operator? (cs : List Char) : Option (String × Bool × List Char) :=
  (operators.find? fun (s, _) => s.toList.isPrefixOf cs).map
    fun (s, redirects) => (s, redirects, cs.drop s.length)

/-- What is left after spaces and tabs. -/
def skipSpaces (cs : List Char) : List Char := cs.dropWhile fun c => c == ' ' || c == '\t'

/-- The tokens of a text, each with its line. The texts that the line has asked for come after
it. -/
def tokens : Nat → Nat → List HereText → List Char → List (Token × Nat)
  | 0, line, _, _ => [(.fileEnd, line)]
  | _, line, heres, [] => (hereBodies line heres []).1 ++ [(.fileEnd, line)]
  | fuel + 1, line, heres, c :: cs =>
    if c == '\n' then
      let (bodies, after, rest) := hereBodies (line + 1) heres cs
      (.lineEnd, line) :: bodies ++ tokens fuel after [] rest
    else if c == ' ' || c == '\t' then tokens fuel line heres cs
    else if c == '#' then tokens fuel line heres (cs.dropWhile (· != '\n'))
    else if c == '\\' && cs.head? == some '\n' then tokens fuel (line + 1) heres (cs.drop 1)
    else
      let number := (c :: cs).takeWhile Char.isDigit
      let after := (c :: cs).drop number.length
      let fd := if number.isEmpty then none
        else some (number.foldl (fun n c => n * 10 + (c.toNat - '0'.toNat)) 0)
      match operator? after, number.isEmpty with
      | some (s, true, rest), _ =>
        if s == "<<" || s == "<<-" then
          let cs := skipSpaces rest
          match wordPieces endsWord (cs.length + 2) cs with
          | .error complaint => [(.broken complaint, line)]
          | .ok ([], _) => (.redirect fd "<", line) :: tokens fuel line heres cs
          | .ok (pieces, rest) =>
            let here : HereText := {
              delimiter := (literal? pieces).getD "", plain := isQuoted pieces
              strips := s == "<<-" }
            (.redirect fd "<<", line) :: tokens fuel line (heres ++ [here]) rest
        else (.redirect fd s, line) :: tokens fuel line heres rest
      | some (s, false, rest), true => (.operator s, line) :: tokens fuel line heres rest
      | _, _ =>
        match wordPieces endsWord (cs.length + 3) (c :: cs) with
        | .error complaint => [(.broken complaint, line)]
        | .ok (pieces, rest) =>
          let passed := ((c :: cs).take (cs.length + 1 - rest.length)).count '\n'
          (.word pieces, line) :: tokens fuel (line + passed) heres rest

/-- The tokens with each text within the script behind the redirection that asks for it. -/
def placeBodies (bodies : List Word) : List (Token × Nat) → List (Token × Nat)
  | [] => []
  | (.body _, _) :: rest => placeBodies bodies rest
  | (.redirect fd "<<", line) :: rest =>
    (.redirect fd "<<", line) :: (.word (bodies.headD []), line) :: placeBodies bodies.tail rest
  | t :: rest => t :: placeBodies bodies rest

/-- The tokens of a whole text, of which the first line has some number. -/
def scriptTokens (line : Nat) (text : String) : List (Token × Nat) :=
  let cs := text.toList
  let ts := tokens (cs.length + 1) line [] cs
  placeBodies (ts.filterMap fun
    | (.body w, _) => some w
    | _ => none) ts

/-! ### Errors -/

/-- What is left to be read. -/
abbrev Rest := List (Token × Nat)

/-- A script that was read, and what is left. -/
abbrev Parsed := Except SyntaxError (Script × Rest)

/-- Whether a word has a meaning of its own where a command starts. -/
def isKeyword (name : String) : Bool :=
  ["if", "then", "else", "elif", "fi", "do", "done", "while", "until", "for", "in", "case", "esac",
    "!", openBrace.toString, closeBrace.toString].contains name

/-- The commands that are part of the language itself. -/
def specialNames : List String :=
  [".", ":", "break", "continue", "eval", "exec", "exit", "export", "local", "readonly", "return",
    "set", "shift", "times", "trap", "unset"]

/-- How a token is named in an error message. -/
def Token.named : Token → String
  | .word w => match keyword? w with
    | some name => if isKeyword name then marked name else "word"
    | none => "word"
  | .redirect .. => "redirection"
  | .operator s => marked s
  | .lineEnd => "newline"
  | .fileEnd | .body _ | .broken _ => "end of file"

/-- That a script makes no sense. -/
def syntaxError {α : Type} (line : Nat) (text : String) : Except SyntaxError α :=
  .error ⟨line, "Syntax error: " ++ text⟩

/-- The line of what comes next. -/
def lineOf (rest : Rest) : Nat := (rest.head?.map (·.2)).getD 1

/-- That something stands where it should not, perhaps because something else is missing. -/
def unexpected {α : Type} (rest : Rest) (missing : Option String := none) :
    Except SyntaxError α :=
  match rest with
  | (.broken complaint, line) :: _ => syntaxError line complaint
  | rest =>
    let name := (rest.head?.map (·.1.named)).getD "end of file"
    let expected := match missing with
      | some keyword => " (expecting " ++ marked keyword ++ ")"
      | none => ""
    syntaxError (lineOf rest) (name ++ " unexpected" ++ expected)

/-- The keyword that comes next, if one does. -/
def nextKeyword? : Rest → Option String
  | (.word w, _) :: _ => keyword? w
  | _ => none

/-- The words that end a list of commands. -/
def closers : List String :=
  ["then", "else", "elif", "fi", "do", "done", closeBrace.toString, "esac"]

/-- What is left after line ends and semicolons. -/
def skipEnds : Rest → Rest
  | (.lineEnd, _) :: rest => skipEnds rest
  | (.operator ";", _) :: rest => skipEnds rest
  | rest => rest

/-- What is left after line ends. -/
def skipLines : Rest → Rest
  | (.lineEnd, _) :: rest => skipLines rest
  | rest => rest

/-- What is left after a keyword. -/
def expect (keyword : String) (rest : Rest) : Except SyntaxError Rest :=
  if nextKeyword? rest == some keyword then .ok (rest.drop 1)
  else unexpected rest (some keyword)

/-! ### Simple commands -/

/-- The variable and the value of a word that sets one. -/
def assignment? (w : Word) : Option (String × Word) :=
  let rec go (name : List Char) : Word → Option (String × Word)
    | .text s false :: ps =>
      let cs := s.toList
      let start := cs.takeWhile (· != '=')
      if start.length < cs.length then
        let name := name ++ start
        if isName name then
          let value := String.ofList (cs.drop (start.length + 1))
          some (String.ofList name, if value == "" then ps else .text value false :: ps)
        else none
      else go (name ++ cs) ps
    | _ => none
  go [] w

/-- A redirection with its target. -/
def redirection (fd : Option Nat) (s : String) (target : Word) (line : Nat) :
    Except SyntaxError Redirection :=
  let copied (fd : Nat) : Except SyntaxError Redirection :=
    match literal? target with
    | some text =>
      if text == "-" || (text != "" && text.toList.all Char.isDigit) then .ok (.copy fd target)
      else syntaxError line "Bad fd number"
    | none => .ok (.copy fd target)
  match s with
  | "<" | "<>" => .ok (.input (fd.getD 0) target)
  | "<<" => .ok (.here (fd.getD 0) target)
  | ">>" => .ok (.output (fd.getD 1) target true)
  | ">&" => copied (fd.getD 1)
  | "<&" => copied (fd.getD 0)
  | _ => .ok (.output (fd.getD 1) target false)

/-- The parts of a simple command; only its redirections if it has no words. -/
def simpleParts (wordless : Bool) : Nat → Simple → Rest → Except SyntaxError (Simple × Rest)
  | 0, s, rest => .ok (s, rest)
  | fuel + 1, s, rest =>
    match rest with
    | (.redirect fd sign, line) :: (.word w, _) :: rest => do
      let r ← redirection fd sign w line
      simpleParts wordless fuel { s with redirections := s.redirections ++ [r] } rest
    | (.redirect .., _) :: rest => unexpected rest
    | (.word w, line) :: rest =>
      if wordless then .ok (s, (.word w, line) :: rest)
      else match if s.words.isEmpty then assignment? w else none with
        | some a => simpleParts wordless fuel { s with assignments := s.assignments ++ [a] } rest
        | none => simpleParts wordless fuel { s with words := s.words ++ [w] } rest
    | rest => .ok (s, rest)

/-- The words up to the end of a line or a semicolon. -/
def wordList : Rest → List Word × Rest
  | (.word w, _) :: rest =>
    let (ws, rest) := wordList rest
    (w :: ws, rest)
  | rest => ([], rest)

/-- The patterns of a branch, up to the parenthesis behind them. -/
def patterns : Nat → Rest → Except SyntaxError (List Word × Rest)
  | 0, rest => unexpected rest
  | fuel + 1, rest =>
    match rest with
    | (.word w, _) :: (.operator ")", _) :: rest => .ok ([w], rest)
    | (.word w, _) :: (.operator "|", _) :: rest => do
      let (ws, rest) ← patterns fuel rest
      return (w :: ws, rest)
    | (.word _, _) :: rest => unexpected rest (some ")")
    | rest => unexpected rest (some ")")

/-! ### Scripts -/

mutual

/-- A list of commands, up to something that closes it or the end. -/
def commands : Nat → Script → Rest → Parsed
  | 0, s, rest => .ok (s, rest)
  | fuel + 1, s, rest =>
    let rest := skipLines rest
    match rest with
    | [] | (.fileEnd, _) :: _ | (.operator ")", _) :: _ | (.operator ";;", _) :: _ => .ok (s, rest)
    | _ =>
      if (nextKeyword? rest).any closers.contains then .ok (s, rest)
      else do
        let (a, rest) ← conditional fuel rest
        let joined (a : Script) : Script := match s with
          | .nothing => a
          | s => .both s a
        match rest with
        | (.operator ";", _) :: rest | (.lineEnd, _) :: rest => commands fuel (joined a) rest
        | (.operator "&", _) :: rest => commands fuel (joined (.aside a)) rest
        | [] | (.fileEnd, _) :: _ | (.operator ")", _) :: _ | (.operator ";;", _) :: _ =>
          .ok (joined a, rest)
        | rest => unexpected rest

/-- Commands within others, of which there is at least one before anything else. -/
def body : Nat → Rest → Parsed
  | 0, rest => unexpected rest
  | fuel + 1, rest => do
    match ← commands fuel .nothing rest with
    | (.nothing, t :: rest) =>
      match t.1 with
      | .fileEnd => return (.nothing, t :: rest)
      | _ => unexpected (t :: rest)
    | r => return r

/-- Commands that depend on each other's success. -/
def conditional : Nat → Rest → Parsed
  | 0, rest => unexpected rest
  | fuel + 1, rest => do
    let (a, rest) ← pipeline fuel rest
    conditionalTail fuel a rest

/-- The commands after some that depend on their success. -/
def conditionalTail : Nat → Script → Rest → Parsed
  | 0, a, rest => .ok (a, rest)
  | fuel + 1, a, rest =>
    match rest with
    | (.operator "&&", _) :: rest => do
      let (b, rest) ← pipeline fuel (skipLines rest)
      conditionalTail fuel (.andThen a b) rest
    | (.operator "||", _) :: rest => do
      let (b, rest) ← pipeline fuel (skipLines rest)
      conditionalTail fuel (.orElse a b) rest
    | rest => .ok (a, rest)

/-- Commands with pipes between them. -/
def pipeline : Nat → Rest → Parsed
  | 0, rest => unexpected rest
  | fuel + 1, rest =>
    if nextKeyword? rest == some "!" then do
      let (a, rest) ← single fuel (rest.drop 1)
      let (a, rest) ← pipelineTail fuel a rest
      return (.inverted a, rest)
    else do
      let (a, rest) ← single fuel rest
      pipelineTail fuel a rest

/-- The commands behind pipes. -/
def pipelineTail : Nat → Script → Rest → Parsed
  | 0, a, rest => .ok (a, rest)
  | fuel + 1, a, rest =>
    match rest with
    | (.operator "|", _) :: rest => do
      let (b, rest) ← single fuel (skipLines rest)
      pipelineTail fuel (.piped a b) rest
    | rest => .ok (a, rest)

/-- What follows a condition: its branches. -/
def branches : Nat → Rest → Parsed
  | 0, rest => unexpected rest
  | fuel + 1, rest => do
    let (condition, rest) ← body fuel rest
    let rest ← expect "then" rest
    let (yes, rest) ← body fuel rest
    match nextKeyword? rest with
    | some "elif" => do
      let (no, rest) ← branches fuel (rest.drop 1)
      return (.choose condition yes no, rest)
    | some "else" => do
      let (no, rest) ← body fuel (rest.drop 1)
      return (.choose condition yes no, ← expect "fi" rest)
    | _ => return (.choose condition yes .nothing, ← expect "fi" rest)

/-- A simple command, or another one with redirections behind it. -/
def single : Nat → Rest → Parsed
  | 0, rest => unexpected rest
  | fuel + 1, rest => do
    let line := lineOf rest
    let (a, rest) ← compound fuel rest
    let (s, after) ← simpleParts true rest.length {} rest
    return (if s.redirections.isEmpty then a else .redirected a s.redirections line, after)

/-- A simple command, a condition, a loop, a group or a function. -/
def compound : Nat → Rest → Parsed
  | 0, rest => unexpected rest
  | fuel + 1, rest =>
    match rest with
    | (.operator "(", _) :: rest => do
      let (a, rest) ← body fuel rest
      match rest with
      | (.operator ")", _) :: rest => return (.grouped a, rest)
      | rest => unexpected rest (some ")")
    | (.word w, _) :: (.operator "(", _) :: rest =>
      let stray : Parsed := unexpected ((.operator "(", lineOf rest) :: rest)
      let wrongName : Parsed := syntaxError (lineOf rest) "Bad function name"
      match keyword? w, rest with
      | some name, rest =>
        if isKeyword name then keyed fuel name ((.operator "(", lineOf rest) :: rest)
        else if (assignment? w).isSome then stray
        else match rest with
          | (.operator ")", _) :: after =>
            if !isName name.toList || specialNames.contains name then wrongName
            else do
              let (a, rest) ← single fuel (skipLines after)
              return (.define name a, rest)
          | rest => unexpected rest (some ")")
      | none, (.operator ")", _) :: _ => if (assignment? w).isSome then stray else wrongName
      | none, rest => if (assignment? w).isSome then stray else unexpected rest (some ")")
    | rest =>
      match nextKeyword? rest with
      | some name => if isKeyword name then keyed fuel name (rest.drop 1) else plain rest
      | none => plain rest

/-- What follows a keyword that starts a command. -/
def keyed : Nat → String → Rest → Parsed
  | 0, _, rest => unexpected rest
  | fuel + 1, name, rest =>
    let itself : Rest := (.word [.text name false], lineOf rest) :: rest
    match name with
    | "if" => branches fuel rest
    | "while" => whileLoop fuel true rest
    | "until" => whileLoop fuel false rest
    | "for" => forLoop fuel rest
    | "case" =>
      match rest with
      | (.word subject, line) :: rest => do
        let rest ← expect "in" (skipLines rest)
        let (a, rest) ← cases fuel rest
        return (.select subject a line, rest)
      | rest => unexpected rest
    | "in" => plain itself
    | name =>
      if name == openBrace.toString then do
        let (a, rest) ← body fuel rest
        return (a, ← expect closeBrace.toString rest)
      else unexpected itself

/-- A loop over words. -/
def forLoop : Nat → Rest → Parsed
  | 0, rest => unexpected rest
  | fuel + 1, rest =>
    match rest with
    | (.word w, line) :: rest =>
      match keyword? w with
      | none => syntaxError line "Bad for loop variable"
      | some name =>
        if !isName name.toList then syntaxError line "Bad for loop variable"
        else do
          let lines := skipLines rest
          let (words, rest) ← match nextKeyword? lines with
            | some "in" =>
              let (words, rest) := wordList (lines.drop 1)
              match rest with
              | (.operator ";", _) :: rest | (.lineEnd, _) :: rest => pure (words, skipLines rest)
              | rest => unexpected rest
            | _ => pure ([[Piece.parameter "@" "" "" true]], skipEnds rest)
          let rest ← expect "do" rest
          let (a, rest) ← body fuel rest
          return (.each name words a line, ← expect "done" rest)
    | _ => syntaxError (lineOf rest) "Bad for loop variable"

/-- The branches of a choice by patterns. -/
def cases : Nat → Rest → Parsed
  | 0, rest => unexpected rest
  | fuel + 1, rest =>
    let rest := skipLines rest
    if nextKeyword? rest == some "esac" then .ok (.nothing, rest.drop 1)
    else do
      let rest := match rest with
        | (.operator "(", _) :: rest => rest
        | rest => rest
      let (patterns, rest) ← patterns (rest.length + 1) rest
      let (a, rest) ← commands fuel .nothing rest
      match rest with
      | (.operator ";;", _) :: rest => do
        let (more, rest) ← cases fuel rest
        return (.branch patterns a more, rest)
      | rest =>
        if nextKeyword? rest == some "esac" then return (.branch patterns a .nothing, rest.drop 1)
        else unexpected rest (some ";;")

/-- A loop, whose body runs as long as its condition succeeds, or fails. -/
def whileLoop : Nat → Bool → Rest → Parsed
  | 0, _, rest => unexpected rest
  | fuel + 1, expected, rest => do
    let (condition, rest) ← body fuel rest
    let rest ← expect "do" rest
    let (a, rest) ← body fuel rest
    return (.loop condition expected a, ← expect "done" rest)

/-- A simple command. -/
def plain (rest : Rest) : Parsed := do
  let (s, after) ← simpleParts false rest.length { line := lineOf rest } rest
  if after.length == rest.length then unexpected rest else return (.simple s, after)

end

/-- How much fuel it takes to read what is left. -/
def enough (rest : Rest) : Nat := 8 * rest.length + 16

/-- The commands up to the end of the next line that has any, and what is left after it. -/
def lineFrom : Nat → Script → Rest → Parsed
  | 0, s, rest => .ok (s, rest)
  | fuel + 1, s, rest => do
    let (a, rest) ← conditional (enough rest) rest
    let joined (a : Script) : Script := match s with
      | .nothing => a
      | s => .both s a
    let onward (s : Script) (rest : Rest) : Parsed :=
      match rest with
      | [] | (.fileEnd, _) :: _ => .ok (s, rest)
      | (.lineEnd, _) :: rest => .ok (s, rest)
      | rest => lineFrom fuel s rest
    match rest with
    | (.operator ";", _) :: rest => onward (joined a) rest
    | (.operator "&", _) :: rest => onward (joined (.aside a)) rest
    | (.lineEnd, _) :: rest => return (joined a, rest)
    | [] | (.fileEnd, _) :: _ => return (joined a, rest)
    | rest => unexpected rest

/-- What is wrong with the commands whose output some words mean, as far in as they go. -/
def flaw? : Nat → Rest → Option SyntaxError
  | 0, _ => none
  | fuel + 1, rest =>
    let texts := rest.flatMap fun
      | (.word w, line) => w.filterMap fun
        | .commands text _ => some (line, text)
        | _ => none
      | _ => []
    texts.findSome? fun (line, text) =>
      let rec lines : Nat → Rest → Option SyntaxError
        | 0, _ => none
        | count + 1, rest =>
          match skipLines rest with
          | [] | (.fileEnd, _) :: _ => none
          | rest =>
            match lineFrom (rest.length + 1) .nothing rest with
            | .error e => some e
            | .ok (_, rest) => lines count rest
      let ts := scriptTokens line text
      (lines (ts.length + 1) ts).or (flaw? fuel ts)

/-- How deep commands whose output is meant may stand in each other. -/
def deepestText : Nat := 100

/-- The commands of the next line, with all lines that they go on in, and what is left; nothing if
there are no more. -/
def nextLine (rest : Rest) : Except SyntaxError (Option (Script × Rest)) :=
  match skipLines rest with
  | [] | (.fileEnd, _) :: _ => .ok none
  | rest => do
    let (a, after) ← lineFrom (rest.length + 1) .nothing rest
    match flaw? deepestText (rest.take (rest.length - after.length)) with
    | some e => .error e
    | none => return some (a, after)

/-- Behind the last line there is nothing. -/
@[simp] theorem nextLine_fileEnd (line : Nat) : nextLine [(.fileEnd, line)] = .ok none := rfl

end LineShell.Userland.Script
