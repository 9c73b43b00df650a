import LineShell.Userland.Glob
import LineShell.Userland.Program
import LineShell.Userland.Script.Arithmetic
import LineShell.Userland.Script.State

namespace LineShell.Userland.Script

open Text (Bytes)

/-!
# What words stand for

* `Fields` — the words that come of a word, character by character;
* `Capture` — what finds out what commands write;
* `Expander.expandPieces` — puts what pieces stand for in their place;
* `matchingPaths` — the paths that a pattern matches;
* `Expander.expand`, `Expander.expandText` — the words, and the one text, that a word stands for.
-/

/-! ### Fields -/

/-- A character, and whether it is quoted. -/
abbrev FieldChar := Char × Bool

/-- The words that come of a word: those that are complete, and the one that goes on. -/
structure Fields where
  complete : List (List FieldChar) := []
  current : Option (List FieldChar) := none
  /-- Whether a blank has ended the last word. -/
  afterBlank : Bool := false
  deriving DecidableEq, Repr

namespace Fields

/-- The words with more text. -/
def add (f : Fields) (quoted : Bool) (text : String) : Fields :=
  { f with
    current := some (f.current.getD [] ++ text.toList.map (·, quoted)), afterBlank := false }

/-- The words with the last one complete. -/
def finish (f : Fields) : Fields := { complete := f.complete ++ f.current.toList }

/-- The words with more text, which some characters separate into words. Blanks among them count as
one; each of the others ends a word, if it has not just been ended by a blank. -/
def split (separators : List Char) (f : Fields) : List Char → Fields
  | [] => f
  | c :: cs =>
    if !separators.contains c then (f.add false c.toString).split separators cs
    else if c == ' ' || c == '\t' || c == '\n' then
      let ended := f.current.isSome || f.afterBlank
      { f.finish with afterBlank := ended }.split separators cs
    else if f.current.isNone && f.afterBlank then
      { f with afterBlank := false }.split separators cs
    else { complete := f.complete ++ [f.current.getD []] : Fields }.split separators cs

/-- The words with more words, of which the first goes on the last. -/
def addAll (f : Fields) : List String → Fields
  | [] => f
  | [w] => f.add true w
  | w :: ws => (f.add true w).finish.addAll ws

/-- The text of a word without its quotes. -/
def plain (cs : List FieldChar) : String := String.ofList (cs.map (·.1))

@[simp] theorem split_nil (separators : List Char) (f : Fields) : f.split separators [] = f := rfl

end Fields

/-! ### Pieces -/

/-- Finds out what the commands of a text write, of which the first line has some number, and the
status they end with. -/
abbrev Capture := ScriptState → Nat → String → Program (Bytes × Int)

/-- An expansion: it changes the state of the script and has a result, unless the script ends. -/
abbrev Expansion := OptionT (StateT ScriptState Program)

/-- A text without the newlines at its end. -/
def withoutNewlines (bs : Bytes) : Bytes := (bs.reverse.dropWhile (· == newline)).reverse

/-- The start of a text that a pattern matches, the shortest or the longest, and the text after it;
the whole text if there is none. -/
def withoutPrefix (longest : Bool) (ps : List GlobPiece) (cs : List Char) : List Char :=
  let rests := globEnds ps cs
  let better (a b : List Char) : List Char :=
    if longest then (if b.length < a.length then b else a)
    else if a.length < b.length then b else a
  match rests with
  | [] => cs
  | r :: rs => rs.foldl better r

/-- A text without its end that a pattern matches, the shortest or the longest one. -/
def withoutSuffix (longest : Bool) (ps : List GlobPiece) (cs : List Char) : List Char :=
  let counts := (List.range (cs.length + 1)).filter fun n => globMatches ps (cs.drop n)
  match if longest then counts.head? else counts.getLast? with
  | some n => cs.take n
  | none => cs

/-- What an operator makes of a parameter's value. -/
inductive Substitute
  /-- A value that was there before. -/
  | value (text : String)
  /-- The operator's word, which may be set as the parameter's value. -/
  | word (sets : Bool)
  /-- An error, with the operator's word as its text. -/
  | complaint
  deriving DecidableEq, Repr

/-- What stands for a parameter with an operator that asks whether it is set. A colon asks whether
it is empty too. -/
def substitute (operator : String) (value : Option String) : Substitute :=
  let value := if operator.startsWith ":" then value.filter (· != "") else value
  match operator.toList.getLast?, value with
  | some '+', some _ => .word false
  | some '+', none => .value ""
  | _, some v => .value v
  | some '-', none => .word false
  | some '=', none => .word true
  | _, none => .complaint

/-- The pattern of characters. -/
def patternOf (cs : List FieldChar) : List GlobPiece := globPieces (cs.length + 1) cs

/-- How words are expanded. -/
structure Expander where
  capture : Capture
  /-- The line that error messages name. -/
  line : Nat
  /-- Whether values are split into words. -/
  splits : Bool := true

namespace Expander

/-- The end of a script by an error in an expansion. -/
def refuse {α : Type} (x : Expander) (text : String) : Expansion α := do
  set (← (failing (← get) x.line text : Program ScriptState))
  failure

/-- What commands write, as text. -/
def captured (x : Expander) (text : String) : Expansion String := do
  let s ← get
  let (bytes, substituted) ← (x.capture s x.line text : Program (Bytes × Int))
  set { s with substituted }
  return Text.decodeLossy ((withoutNewlines bytes).filter (· != 0))

/-- The fields with a value, which is split where it is not quoted. -/
def addValue (x : Expander) (s : ScriptState) (quoted : Bool) (text : String) (f : Fields) :
    Fields :=
  if quoted || !x.splits then f.add quoted text else f.split s.separators text.toList

/-- The fields with all arguments. -/
def addArguments (x : Expander) (s : ScriptState) (f : Fields) : Fields :=
  if !x.splits then f.add false (" ".intercalate s.positional)
  else s.positional.zipIdx.foldl (fun f (w, i) =>
    (if i = 0 then f else f.finish).split s.separators w.toList) f

/-- The operators that cut something off a value. -/
def cutters : List String := ["%", "%%", "#", "##"]

/-- Whether an operator has nothing to say of a parameter that is not set. -/
def needsValue (operator : String) : Bool :=
  operator == "" || operator == lengthOperator || cutters.contains operator

/-- A value without what an operator cuts off it. -/
def cut (operator : String) (pattern : List FieldChar) (value : String) : String :=
  let longest := operator.length == 2
  let ps := patternOf pattern
  String.ofList (if operator.startsWith "%" then withoutSuffix longest ps value.toList
    else withoutPrefix longest ps value.toList)

/-- What an arithmetic expression comes to. The variables that it sets are set. -/
def calculate (x : Expander) (text : String) : Expansion Int := do
  let s ← get
  match (do (← Expr.parse text).eval s.parameter? []) with
  | .error (mistake : Expr.Mistake) => x.refuse (mistake.message text)
  | .ok (n, assigned) => do
    set (assigned.reverse.foldl (fun s a => s.set a.1 (toString a.2)) s)
    return n

/-- The words with what pieces stand for. The words behind operators are read in their turn. -/
def expandPieces (x : Expander) : Nat → Word → Fields → Expansion Fields
  | 0, _, f => return f
  | _, [], f => return f
  | fuel + 1, piece :: pieces, f => do
    let s ← get
    let joined (w : Word) : Expansion (List FieldChar) := do
      return [(' ', true)].intercalate (← x.expandPieces fuel w {}).finish.complete
    let valued (quoted : Bool) (text : String) (f : Fields) : Expansion Fields :=
      return x.addValue (← get) quoted text f
    let f ← match piece with
      | .text t quoted => pure (if t == "" && !quoted then f else f.add quoted t)
      | .commands text quoted => do valued quoted (← x.captured text) f
      | .arithmetic text quoted =>
        match textPieces true (text.length + 1) text.toList with
        | .error complaint => x.refuse complaint
        | .ok w => do
          let n ← x.calculate (Fields.plain (← joined w))
          valued quoted (toString n) f
      | .parameter name operator word quoted =>
        let value := s.parameter? name
        let isAll := name == "@" || name == "*"
        if operator == noParameter then x.refuse "Bad substitution"
        else if s.isSet 'u' && value.isNone && !isAll && needsValue operator then
          x.refuse (name ++ ": parameter not set")
        else if operator == lengthOperator then
          valued quoted (toString (value.getD "").length) f
        else if operator == "" then
          if name == "@" && quoted then pure (f.addAll s.positional)
          else if isAll && !quoted then pure (x.addArguments s f)
          else valued quoted (value.getD "") f
        else
          let isCutter := cutters.contains operator
          -- quotes around the parameter say nothing of a pattern in it
          match operand (quoted && !isCutter) word, substitute operator value with
          | .error complaint, _ => x.refuse complaint
          | .ok w, choice =>
            if isCutter then do
              valued quoted (cut operator (← joined w) (value.getD "")) f
            else match choice with
              | .value text => valued quoted text f
              | .word false =>
                w.foldlM (fun f p =>
                  match p with
                  -- text that is not quoted is split like a value
                  | .text t false => valued false t f
                  | p => x.expandPieces fuel [p] f) f
              | .word true => do
                let text := Fields.plain (← joined w)
                if !isName name.toList then x.refuse (name ++ ": bad variable name")
                else if s.isFixed name then x.refuse (name ++ ": is read only")
                else
                  modify (·.set name text)
                  valued quoted text f
              | .complaint => do
                let text := Fields.plain (← joined w)
                x.refuse (name ++ ": " ++
                  if text != "" then text
                  else if operator.startsWith ":" then "parameter not set or null"
                  else "parameter not set")
    x.expandPieces fuel pieces f

end Expander

/-! ### Paths -/

/-- A pattern split where its parts end. -/
def patternSteps : List FieldChar → List (List FieldChar)
  | [] => [[]]
  | (c, q) :: cs =>
    match patternSteps cs with
    | [] => [[(c, q)]]
    | step :: steps => if c == '/' then [] :: step :: steps else ((c, q) :: step) :: steps

/-- The paths that a pattern matches, from a path on that leads to a directory. -/
def matchingPaths (files : FileSystem) (cwd : Path) :
    String → List (List FieldChar) → List String
  | _, [] => []
  | start, step :: steps =>
    let here := if start == "" then "." else start
    let ps := patternOf step
    let isLast := steps.isEmpty
    let onward (name : String) : List String :=
      let path := start ++ name
      if isLast then
        match files.lookup cwd false path with
        | .ok _ => [path]
        | .error _ => []
      else match files.lookup cwd true path with
        | .ok i =>
          if files.isDirectoryNode i then matchingPaths files cwd (path ++ "/") steps else []
        | .error _ => []
    if !hasWildcard ps then
      let name := Fields.plain step
      if name == "" then
        if isLast then (if start == "" then [] else [start])
        else matchingPaths files cwd (start ++ "/") steps
      else onward name
    else match files.lookup cwd true here with
      | .error _ => []
      | .ok i =>
        match files.node? i with
        | some (.directory _ entries) =>
          let shown := entries.filter fun e =>
            globMatches ps e.1.toList &&
              (!e.1.startsWith "." || step.head?.any (·.1 == '.'))
          let names := (shown.map (·.1)).mergeSort fun a b => a ≤ b
          names.flatMap onward
        | _ => []

/-- The words of a field: the paths that it matches if it is a pattern that matches some. -/
def fieldWords (files : FileSystem) (s : ScriptState) (cs : List FieldChar) : List String :=
  let itself := [Fields.plain cs]
  if s.isSet 'f' || !hasWildcard (patternOf cs) then itself
  else match matchingPaths files s.cwd "" (patternSteps cs) with
    | [] => itself
    | paths => paths

/-! ### Words -/

/-- A word whose leading tilde stands for the home directory. -/
def expandTilde (w : Word) : Word :=
  match w with
  | .text "~" false :: rest =>
    if rest.isEmpty || rest.head? == some (.text "/" false) then
      .parameter "HOME" "" "" true :: rest
    else w
  | w => w

/-- A variable's value in which tildes at its start and behind colons stand for the home
directory. -/
def expandTildes : Bool → Word → Word
  | _, [] => []
  | true, .text "~" false :: rest =>
    let ends := match rest with
      | [] | .text "/" false :: _ | .text ":" false :: _ => true
      | _ => false
    (if ends then .parameter "HOME" "" "" true else .text "~" false) :: expandTildes false rest
  | _, p :: rest => p :: expandTildes (p == .text ":" false) rest

/-- How deep words may stand behind operators. -/
def deepestWord : Nat := 100

/-- How much fuel it takes to expand a word. -/
def wordFuel (w : Word) : Nat := w.length + deepestWord * 100

namespace Expander

/-- The words that words stand for. -/
def expand (x : Expander) : List Word → Expansion (List String)
  | [] => return []
  | w :: ws => do
    let w := expandTilde w
    let f ← x.expandPieces (wordFuel w) w {}
    let fields := f.finish.complete
    let own ← if fields.any fun cs => hasWildcard (patternOf cs) then do
        let files ← (Program.survey : Program FileSystem)
        pure (fields.flatMap (fieldWords files (← get)))
      else pure (fields.map Fields.plain)
    return own ++ (← x.expand ws)

/-- The characters that a word stands for where it makes no more than one word. -/
def expandChars (x : Expander) (w : Word) : Expansion (List FieldChar) := do
  let w := expandTilde w
  let f ← { x with splits := false }.expandPieces (wordFuel w) w {}
  return [(' ', true)].intercalate f.finish.complete

/-- The text that a word stands for where it makes no more than one word. -/
def expandText (x : Expander) (w : Word) : Expansion String := do
  return Fields.plain (← x.expandChars w)

@[simp] theorem expand_nil (x : Expander) : x.expand [] = pure [] := rfl

end Expander

end LineShell.Userland.Script
