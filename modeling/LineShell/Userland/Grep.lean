import LineShell.Userland.Arguments
import LineShell.Userland.Glob
import LineShell.Userland.Pattern.Parse

namespace LineShell.Userland

open Text (Bytes)

/-!
# Finding lines

* `GrepStyle` — which lines are found and what is written of them;
* `GrepState`, `grepLine` — how far the search in a file has come, and what is made of a line;
* `GrepTree` — which files of a directory are looked through;
* `grep` — writes the lines of files that match.
-/

/-- What is written of the lines that are found. -/
inductive GrepReport
  | lines
  /-- Only what matches. -/
  | matching
  | count
  /-- The names of files with such lines, and of files without. -/
  | names
  | namesWithout
  | nothing
  deriving DecidableEq, Repr

/-- Which lines are found and what is written of them. -/
structure GrepStyle where
  pattern : Option Pattern := none
  folds : Bool := false
  inverts : Bool := false
  wholeLines : Bool := false
  wholeWords : Bool := false
  report : GrepReport := .lines
  /-- What stands before a line: the file's name, the line's number, and where it starts. -/
  prefixes : Bool := false
  numbers : Bool := false
  offsets : Bool := false
  /-- Whether a tab follows what stands before a line. -/
  tabs : Bool := false
  /-- Whether a name ends with a zero byte. -/
  zeroNames : Bool := false
  colored : Bool := false
  most : Option Nat := none
  /-- How many lines before and after a line are written with it, and what is between groups. -/
  context : Option (Nat × Nat) := none
  separator : Option String := some "--"
  /-- Whether bytes that are no text are taken for text, and whether their files are passed over. -/
  takesBinary : Bool := false
  skipsBinary : Bool := false
  mark : UInt8 := newline
  deriving DecidableEq, Repr

namespace GrepStyle

/-- Whether a match counts, by where it starts and ends. -/
def accepts (g : GrepStyle) (s t : Place) : Bool :=
  if g.wholeLines then s.before.isEmpty && t.rest.isEmpty
  else if g.wholeWords then
    !s.before.head?.any Pattern.isWordChar && !t.rest.head?.any Pattern.isWordChar
  else true

/-- The leftmost match from some place on. -/
def find (g : GrepStyle) (before rest : List Char) : Option (Place × Place) :=
  g.pattern.bind fun p => p.search g.folds g.accepts before rest

/-- The matches in a line that are not empty, from some place on, each with what stands between it
and the one before; and what stands behind the last. -/
def parts (g : GrepStyle) : Nat → List Char → List Char → List Char →
    List (List Char × List Char) × List Char
  | 0, passed, _, rest => ([], passed ++ rest)
  | fuel + 1, passed, before, rest =>
    match g.find before rest with
    | none => ([], passed ++ rest)
    | some (s, t) =>
      let passed := passed ++ rest.take (rest.length - s.rest.length)
      match Pattern.between s t, t.rest with
      | [], [] => ([], passed)
      | [], c :: cs => parts g fuel (passed ++ [c]) (c :: t.before) cs
      | text, rest =>
        let (more, last) := parts g fuel [] t.before rest
        ((passed, text) :: more, last)

/-- Whether a line is found. -/
def selects (g : GrepStyle) (cs : List Char) : Bool := (g.find [] cs).isSome != g.inverts

/-- Whether lines are written. -/
def writes (g : GrepStyle) : Bool := g.report = .lines || g.report = .matching

/-- Whether lines are written, and more than one of a file. -/
def writesLines (g : GrepStyle) : Bool := g.writes && g.most.all (1 < ·)

/-- Whether one line is enough. -/
def stopsAtFirst (g : GrepStyle) : Bool :=
  g.report = .names || g.report = .namesWithout || g.report = .nothing

end GrepStyle

/-! ### What is written -/

/-- A text in a colour, if colours are wished. -/
def GrepStyle.paint (g : GrepStyle) (color : String) (text : Bytes) : Bytes :=
  if !g.colored || text.isEmpty then text
  else
    let sign (s : String) : Bytes := 27 :: '['.toUInt8 :: Text.encode s ++ 27 :: Text.encode "[K"
    sign (color ++ "m") ++ text ++ sign "m"

/-- What stands before a line or a count. The sign tells lines that are found from others. -/
def GrepStyle.head (g : GrepStyle) (name : String) (sign : String) (number offset : Option Nat) :
    Bytes :=
  let sep := g.paint "36" (Text.encode sign)
  let file := if !g.prefixes then []
    else g.paint "35" (Text.encode name) ++ if g.zeroNames then [0] else sep
  let figure (n : Nat) : Bytes :=
    let digits := toString n
    let padding := String.ofList (List.replicate (if g.tabs then 2 - digits.length else 0) ' ')
    g.paint "32" (Text.encode (padding ++ digits)) ++ sep
  let numbers := (if g.numbers then number else none).toList ++
    (if g.offsets then offset else none).toList
  file ++ numbers.flatMap figure

/-- How far the search in a file has come. -/
structure GrepState where
  /-- The number of the line, and where it starts. -/
  line : Nat := 0
  offset : Nat := 0
  count : Nat := 0
  /-- The last lines that were not written, each with its number and where it starts. -/
  recent : List (Nat × Nat × Line) := []
  /-- Whether lines before those were not written. -/
  gap : Bool := true
  /-- How many more lines are to be written with the last one. -/
  owed : Nat := 0
  /-- Whether something was written, in this file or in one before. -/
  used : Bool := false
  /-- Whether bytes that are no text were read, and whether a line with some was to be written. -/
  zeroSeen : Bool := false
  binary : Bool := false
  deriving DecidableEq, Repr

/-- Whether bytes cannot be shown as text. -/
def isBinaryText (bs : Bytes) : Bool := bs.contains 0 || (Text.decode? bs).isNone

/-- A tab between what stands before a line and the line, where it is wished. -/
def GrepStyle.tab (g : GrepStyle) (text : Bytes) : Bytes :=
  if g.tabs && (g.prefixes || g.numbers || g.offsets) && !text.isEmpty then ['\t'.toUInt8] else []

/-- A line as it is written, or its matching parts; nothing if something of it is no text. -/
def GrepStyle.written (g : GrepStyle) (name : String) (found : Bool)
    (place : Nat × Nat × Line) : Option Bytes :=
  let (number, offset, line) := place
  let sign := if found then ":" else "-"
  let isText (bs : Bytes) : Bool := g.takesBinary || !isBinaryText (bs.filter (· != g.mark))
  let cs := glyphs line.text
  let parts : Unit → List (List Char × List Char) × List Char := fun _ =>
    if found == g.inverts then ([], cs) else g.parts (cs.length + 1) [] [] cs
  if g.report = .matching then
    if found == g.inverts || !found then some []
    else
      let texts := (parts ()).1.foldl (fun (done, at_) (passed, text) =>
        let start := at_ + (unglyph passed).length
        let bytes := unglyph text
        (done ++ [(start, bytes)], start + bytes.length)) (([] : List (Nat × Bytes)), offset)
      (texts.1.mapM fun (start, bytes) =>
        if isText bytes then
          some (g.head name sign (some number) (some start) ++ g.tab bytes ++
            g.paint "01;31" bytes ++ [g.mark])
        else none).map List.flatten
  else if !isText line.text then none
  else
    let shown := if !g.colored then line.text
      else
        let (found, last) := parts ()
        found.flatMap (fun (passed, text) =>
          unglyph passed ++ g.paint "01;31" (unglyph text)) ++
          unglyph last
    some (g.head name sign (some number) (some offset) ++ g.tab line.text ++ shown ++ [g.mark])

/-- Writes lines; those that are no text are only noted. -/
def GrepStyle.show (g : GrepStyle) (name : String) (places : List (Bool × Nat × Nat × Line))
    (s : GrepState) : GrepState × Bytes :=
  places.foldl (fun (s, out) (found, place) =>
    match g.written name found place with
    | some bytes => (s, out ++ bytes)
    | none => ({ s with binary := true }, out)) (s, [])

/-- Looks at a line that was found. -/
def GrepStyle.foundLine (g : GrepStyle) (name : String) (place : Nat × Nat × Line)
    (s : GrepState) : Move GrepState :=
  let s := { s with count := s.count + 1 }
  let wanted := g.most.all (s.count < ·)
  if g.stopsAtFirst then { state := s, more := false }
  else if !g.writes then { state := s, more := wanted }
  else if s.zeroSeen then { state := { s with binary := true }, more := false }
  else
    let between := match g.separator with
      | some text =>
        if g.context.isSome && s.used && s.gap then g.paint "36" (Text.encode text) ++ [newline]
        else []
      | none => []
    let places := s.recent.map (fun p => (false, p)) ++ [(true, place)]
    let after := (g.context.getD (0, 0)).2
    let (s, out) := g.show name places
      { s with recent := [], gap := false, owed := after, used := true }
    { state := s, out := between ++ out, more := wanted || 0 < after }

/-- Looks at a line that was not found, or need not be any more. -/
def GrepStyle.otherLine (g : GrepStyle) (name : String) (place : Nat × Nat × Line)
    (s : GrepState) : Move GrepState :=
  if 0 < s.owed then
    let (s, out) := g.show name [(false, place)] { s with owed := s.owed - 1 }
    { state := s, out, more := 0 < s.owed || g.most.all (s.count < ·) }
  else
    let recent := s.recent ++ [place]
    let surplus := recent.length - (g.context.getD (0, 0)).1
    { state := { s with recent := recent.drop surplus, gap := s.gap || 0 < surplus } }

/-- Looks at a line. -/
def grepLine (g : GrepStyle) (name : String) (s : GrepState) (line : Line) : Move GrepState :=
  let place := (s.line + 1, s.offset, line)
  let s := { s with line := s.line + 1, offset := s.offset + line.asRead.length }
  if g.most.all (s.count < ·) && g.selects (glyphs line.text) then g.foundLine name place s
  else g.otherLine name place s

/-- What is written once a file was looked through. -/
def grepSummary (g : GrepStyle) (name : String) (s : GrepState) : Bytes :=
  let listed := g.paint "35" (Text.encode name) ++ [if g.zeroNames then 0 else newline]
  match g.report with
  | .names => if s.count = 0 then [] else listed
  | .namesWithout => if s.count = 0 then listed else []
  | .count => g.head name ":" none none ++ Text.encode (toString s.count ++ "\n")
  | _ => []

/-! ### Patterns -/

/-- How patterns are written. -/
inductive GrepMatcher
  | basic
  | extended
  | fixed
  | perl
  deriving DecidableEq, Repr

/-- The pattern of a line of patterns, and advice about it. -/
def grepPatternLine (m : GrepMatcher) (line : String) :
    Except Pattern.PatternError (Pattern × List String) :=
  match m with
  | .fixed => .ok (Pattern.literal line.toList, [])
  | .basic => Pattern.parse {} line
  | .extended => Pattern.parse { extended := true } line
  | .perl => (fun p => (p.1, [])) <$> Pattern.parse { extended := true, digits := true } line

/-- The pattern of lines of patterns, any of which may match, and advice about them. -/
def grepPattern (m : GrepMatcher) (lines : List String) :
    Except Pattern.PatternError (Option Pattern × List String) :=
  lines.foldlM (fun (before, advice) line => do
    let (p, more) ← grepPatternLine m line
    let all := match before with
      | none => p
      | some q => Pattern.either q p
    return (some all, advice ++ more)) (none, [])

/-! ### Arguments -/

open LongOption in
/-- The options of `grep`. -/
def grepOptions : OptionTable where
  flags := "0123456789EFGHILPRTUVZabchilnoqrsuvwxyz"
  valued := "ABCDXdefm"
  long := [plain "basic-regexp" "G", plain "extended-regexp" "E", plain "fixed-regexp" "F",
    plain "fixed-strings" "F", plain "perl-regexp" "P", valued "after-context" "A",
    valued "before-context" "B", valued "binary-files", plain "line-buffered",
    plain "byte-offset" "b", valued "context" "C", optional "color", optional "colour" "color",
    plain "count" "c", valued "devices" "D", valued "directories" "d", valued "exclude",
    valued "exclude-from", valued "exclude-dir", valued "file" "f",
    plain "files-with-matches" "l", plain "files-without-match" "L", valued "group-separator",
    valued "include", plain "ignore-case" "i", plain "no-ignore-case", plain "initial-tab" "T",
    valued "label", plain "line-number" "n", plain "line-regexp" "x", valued "max-count" "m",
    plain "no-filename" "h", plain "no-group-separator", plain "no-messages" "s", plain "null" "Z",
    plain "null-data" "z", plain "only-matching" "o", plain "quiet" "q", plain "recursive" "r",
    plain "dereference-recursive" "R", valued "regexp" "e", plain "invert-match" "v",
    plain "silent" "q", plain "text" "a", plain "binary" "U", plain "unix-byte-offsets" "u",
    plain "version" "V", plain "with-filename" "H", plain "word-regexp" "w"]

/-- What is done with directories. -/
def directoryChoice : Choice where
  option := "--directories"
  words := [("read", "read"), ("recurse", "recurse"), ("skip", "skip")]

/-- The number of lines in a value; a negative one is no bound. -/
def mostLines? (s : String) : Option (Option Nat) :=
  match s.toList.dropWhile Extended.isSpace with
  | '-' :: cs => (count? (String.ofList cs)).map fun _ => none
  | _ => (count? s).map some

/-- How the program is called. -/
def grepUsage (c : Context) : String := "Usage: " ++ c.name ++ " [OPTION]... PATTERNS [FILE]...\n"

/-- The words that the option for coloured output can come with. -/
def colorWords : List String :=
  ["", "always", "yes", "force", "never", "no", "none", "auto", "tty", "if-tty"]

/-- What is wrong with options. The kinds of patterns must not be mixed. -/
def grepMistake? (c : Context) : Option String → GivenOptions → Option (Program Arguments)
  | _, [] => none
  | kind, (key, value) :: options =>
    let refuse (text : String) : Option (Program Arguments) := some do
      complain c text
      .exit 2
    if ["E", "F", "G", "P"].contains key then
      if kind.any (· != key) then refuse "conflicting matchers specified"
      else grepMistake? c (some key) options
    else if ["A", "B", "C"].contains key && (count? value).isNone then
      refuse (value ++ ": invalid context length argument")
    else if key == "m" && (mostLines? value).isNone then refuse "invalid max count"
    else if key == "binary-files" && !(["binary", "text", "without-match"].contains value) then
      refuse "unknown binary-files type"
    else if key == "d" then
      (directoryChoice.refuse c value 1 (grepUsage c)).or (grepMistake? c kind options)
    else if key == "V" then some (.exit 0)
    else if key == "D" && value != "read" && value != "skip" then refuse "unknown devices method"
    else if key == "color" && !(colorWords.contains value) then
      refuse "unrecognized color argument"
    else grepMistake? c kind options

/-- How many lines are written before and after those that are found. Digits among the options are
a number of their own. -/
def askedContext (options : GivenOptions) : Option (Nat × Nat) :=
  let digits := options.filterMap fun o => natural? o.1
  let value (key : String) : Option Nat :=
    ((options.reverse.find? (·.1 == key)).bind fun o => count? o.2)
  let both := if digits.isEmpty then value "C"
    else some (digits.foldl (fun n d => n * 10 + d) 0)
  let before := value "B" <|> both
  let after := value "A" <|> both
  if before.isNone && after.isNone then none else some (before.getD 0, after.getD 0)

/-- What the options ask for, with patterns, for so many files. -/
def grepStyle (a : Arguments) (pattern : Option Pattern) (manyFiles : Bool) : GrepStyle where
  pattern
  folds := a.lastOf? ["i", "y", "no-ignore-case"] |>.any (· != "no-ignore-case")
  inverts := a.has "v"
  wholeLines := a.has "x"
  wholeWords := a.has "w"
  report := if a.has "q" then .nothing
    else match a.lastOf? ["l", "L"] with
      | some key => if key == "l" then .names else .namesWithout
      | none => if a.has "c" then .count else if a.has "o" then .matching else .lines
  prefixes := match a.lastOf? ["h", "H"] with
    | some key => key == "H"
    | none => manyFiles
  numbers := a.has "n"
  offsets := a.has "b"
  tabs := a.has "T"
  zeroNames := a.has "Z"
  colored := match a.value? "color" with
    | some value => ["always", "yes", "force"].contains value
    | none => false
  most := ((a.value? "m").bind mostLines?).join
  context := askedContext a.options
  separator := match a.lastOf? ["group-separator", "no-group-separator"] with
    | some "group-separator" => a.value? "group-separator"
    | some _ => none
    | none => some "--"
  takesBinary := match a.lastOf? ["a", "I", "U", "binary-files"] with
    | some "a" => true
    | some "binary-files" => a.value? "binary-files" == some "text"
    | _ => false
  skipsBinary := match a.lastOf? ["a", "I", "binary-files"] with
    | some "I" => true
    | some "binary-files" => a.value? "binary-files" == some "without-match"
    | _ => false
  mark := if a.has "z" then 0 else newline

/-! ### Directories -/

/-- Which files of a directory are looked through, by their names. -/
structure GrepTree where
  included : List (List GlobPiece) := []
  excluded : List (List GlobPiece) := []
  excludedDirectories : List (List GlobPiece) := []
  /-- Whether symbolic links are followed. -/
  follows : Bool := false
  deriving DecidableEq, Repr

namespace GrepTree

/-- Whether a file is looked through. -/
def admits (t : GrepTree) (name : String) : Bool :=
  let matched (gs : List (List GlobPiece)) : Bool := gs.any (globMatches · name.toList)
  (t.included.isEmpty || matched t.included) && !matched t.excluded

/-- The files in a directory and in those in it, with the names they are shown by. -/
def filesIn (t : GrepTree) (files : FileSystem) : Nat → String → Inode → List (String × String)
  | 0, _, _ => []
  | fuel + 1, shown, i =>
    match files.node? i with
    | some (.directory _ entries) => entries.flatMap fun (name, j) =>
      let inner := if shown == "" || shown.endsWith "/" then shown ++ name else shown ++ "/" ++ name
      match files.node? j with
      | some (.directory ..) =>
        if t.excludedDirectories.any (globMatches · name.toList) then []
        else filesIn t files fuel inner j
      | some (.file ..) => if t.admits name then [(inner, inner)] else []
      | some (.link _) =>
        if t.follows && t.admits name then [(inner, inner)] else []
      | _ => []
    | _ => []

end GrepTree

/-- How deep directories are looked through. -/
def deepestSearch : Nat := 200

/-- The files that operands stand for, and the names they are shown by, where directories are
looked through. -/
def grepFiles (c : Context) (t : GrepTree) (files : FileSystem) (operands : List String) :
    List (String × String) :=
  operands.flatMap fun operand =>
    match files.lookup c.cwd true (c.locate operand) with
    | .ok i =>
      if files.isDirectoryNode i then t.filesIn files deepestSearch operand i
      else [(operand, operand)]
    | .error _ => [(operand, operand)]

/-! ### The program -/

/-- What was found in files. -/
structure GrepFound where
  /-- Whether a line matched. -/
  lines : Bool := false
  /-- Whether a file was left out because it is the output. -/
  leftOut : Bool := false
  /-- Whether something was written. -/
  used : Bool := false
  deriving DecidableEq, Repr

/-- A descriptor that leads nowhere. -/
def nowhere : Nat := 9

/-- A program whose messages go nowhere, if so wished. -/
def silenced {α : Type} (wished : Bool) (t : Program α) : Program α :=
  if wished then t.onStreams fun fd => if fd = 2 then nowhere else fd else t

/-- The lines of patterns that options ask for, in order. The program ends where a file of patterns
cannot be read. -/
def patternLines (c : Context) : GivenOptions → Program (List String)
  | [] => return []
  | (key, value) :: options => do
    if key == "e" then return value.splitOn "\n" ++ (← patternLines c options)
    else if key != "f" then patternLines c options
    else
      let failed (operand : String) (e : Nat) : Program Unit := do
        complain c (bareExcuse operand (systemText e))
        .exit 2
      let use (_ : String) (fd : Nat) (_ : List String) : Program (List String) := do
        return (linesOf (← readAll fd)).map fun l => Text.decodeLossy l.text
      let (lines, _) ← withOperand c failed use value []
      return lines ++ (← patternLines c options)

/-- Looks through files. -/
def grepOver (c : Context) (g : GrepStyle) (a : Arguments) (named : List (String × String)) :
    Program Int := do
  let step (shown operand : String) (found : GrepFound) : Program (GrepFound × Bool) := do
    let name := if operand == "-" then (a.value? "label").getD "(standard input)" else shown
    let use (_ : String) (fd : Nat) (found : GrepFound) : Program GrepFound := do
      if g.most = some 0 then return found
      if g.writesLines && (← outputAt? fd).isSome then
        complain c (bareExcuse name "input file is also the output")
        return { found with leftOut := true }
      let note (bytes : Bytes) (s : GrepState) : GrepState :=
        { s with zeroSeen := s.zeroSeen || (!g.takesBinary && g.mark != 0 && bytes.contains 0) }
      let reader : LineReader GrepState := { step := grepLine g name, note, mark := g.mark }
      let s ← reader.run fd readings { used := found.used } []
      if s.zeroSeen && g.skipsBinary then return found
      emit (grepSummary g name s)
      if s.binary && !g.skipsBinary then complain c (name ++ ": binary file matches")
      return { found with lines := found.lines || 0 < s.count, used := s.used }
    let failed (operand : String) (e : Nat) : Program Unit := do
      if e = Fault.isDirectory && a.value? "d" == some "skip" then return ()
      complain c (bareExcuse operand (systemText e))
    let (found, opened) ← withOperand c failed use operand found
    return (found, opened || (a.value? "d" == some "skip" && operand != ""))
  let rec each : List (String × String) → GrepFound → Bool → Program (GrepFound × Bool)
    | [], found, all => return (found, all)
    | (shown, operand) :: rest, found, all => do
      let (found, opened) ← step shown operand found
      if g.report = .nothing && found.lines then return (found, all)
      each rest found (all && opened)
  let (found, all) ← silenced (a.has "s") (each named {} true)
  return if g.report = .nothing && found.lines then 0
    else if !all || found.leftOut then 2
    else if found.lines then 0 else 1

/-- Writes the lines of files that match. -/
def grep : Utility := fun c => do
  let usage : Program Int := do
    Program.say 2 (grepUsage c ++ "Try '" ++ c.name ++ " --help' for more information.\n")
    .exit 2
  let given := grepOptions.parse c.arguments
  if let some p := grepMistake? c none given.options then
    let _ ← p
  if let some text := given.mistake then
    complain c text
    let _ ← usage
  let a ← parseArguments c grepOptions 2
  if a.has "u" then complain c "warning: --unix-byte-offsets (-u) is obsolete"
  let named := a.options.filter fun o => o.1 == "e" || o.1 == "f"
  let (lines, operands) ← match named, a.operands with
    | [], [] => do
      let _ ← usage
      pure ([], [])
    | [], pattern :: files => pure (pattern.splitOn "\n", files)
    | named, files => do pure (← patternLines c named, files)
  let matcher : GrepMatcher := match a.lastOf? ["E", "F", "G", "P"] with
    | some "E" => .extended
    | some "F" => .fixed
    | some "P" => .perl
    | _ => .basic
  match grepPattern matcher lines with
  | .error e => do
    complain c e.message
    return 2
  | .ok (pattern, advice) => do
    advice.forM fun text => complain c ("warning: " ++ text)
    let recurses := a.has "r" || a.has "R" || a.value? "d" == some "recurse"
    let globs (key : String) : List (List GlobPiece) := (a.values key).map globText
    let tree : GrepTree := {
      included := globs "include", excluded := globs "exclude"
      excludedDirectories := globs "exclude-dir", follows := a.has "R" }
    let files ← Program.survey
    let searched := if operands.isEmpty then (if recurses then ["."] else ["-"]) else operands
    let found := if !recurses then searched.map fun name => (name, name)
      else if operands.isEmpty then
        match files.lookup c.cwd true (c.locate ".") with
        | .ok i => tree.filesIn files deepestSearch "" i
        | .error _ => []
      else grepFiles c tree files searched
    let isDirectory (name : String) : Bool :=
      match files.lookup c.cwd true (c.locate name) with
      | .ok i => files.isDirectoryNode i
      | .error _ => false
    let many := 1 < searched.length || (recurses && searched.any isDirectory)
    grepOver c (grepStyle a pattern many) a found

end LineShell.Userland
