import LineShell.FileSystem.Canonical
import LineShell.Userland.Format
import LineShell.Userland.Script.Expand
import LineShell.Userland.Script.Test

namespace LineShell.Userland.Script

open Text (Bytes)

/-!
# Commands that a shell does itself

* `Builtin` — such a command;
* `optionsOf` — the options among its arguments;
* `OptionReader.read` — the options of the shell, by letters and by names;
* `readLine`, `setFields` — a line of input as the values of values;
* `regular?`, `special?` — the commands by name, those that are part of the language apart.
-/

/-- A command that a shell does itself: it gets the state, the line that error messages name, and
its arguments. An error leaves the script; where it should not, the caller lands it. -/
abbrev Builtin := ScriptState → Nat → List String → Program ScriptState

/-! ### Arguments -/

/-- Options and the arguments behind them, or what is wrong with them. -/
abbrev OptionsOf := Except String (List (Char × String) × List String)

/-- The options of a command and its operands: letters alone, and letters with a value behind
them. -/
def optionsOf (flags valued : String) : List String → OptionsOf
  | [] => .ok ([], [])
  | argument :: rest =>
    let rec cluster : List Char → Except String (List (Char × String) × Option Char)
      | [] => .ok ([], none)
      | c :: cs =>
        if valued.toList.contains c then
          if cs.isEmpty then .ok ([], some c) else .ok ([(c, String.ofList cs)], none)
        else if flags.toList.contains c then do
          let (found, open?) ← cluster cs
          return ((c, "") :: found, open?)
        else .error ("Illegal option -" ++ c.toString)
    match argument.toList with
    | ['-', '-'] => .ok ([], rest)
    | '-' :: c :: cs => do
      match ← cluster (c :: cs), rest with
      | (found, none), rest => do
        let (more, operands) ← optionsOf flags valued rest
        return (found ++ more, operands)
      | (_, some c), [] => .error ("No arg for -" ++ c.toString ++ " option")
      | (found, some c), value :: rest => do
        let (more, operands) ← optionsOf flags valued rest
        return (found ++ (c, value) :: more, operands)
    | _ => .ok ([], argument :: rest)

/-- A command with options before its operands. -/
def withOptions (flags valued : String)
    (p : ScriptState → Nat → List (Char × String) → List String → Program ScriptState) : Builtin :=
  fun s line arguments =>
    match optionsOf flags valued arguments with
    | .error complaint => failing s line complaint
    | .ok (options, operands) => p s line options operands

/-- The number that an argument is: one that is not below zero. -/
def count (t : String) : Except String Nat := do
  let n ← testNumber t
  if n < 0 || 2147483647 < n then .error ("Illegal number: " ++ t) else return n.toNat

/-- A text in quotes, as one that the shell would read back. -/
def shellQuoted (text : String) : String :=
  let single := singleQuote.toString
  let rec parts : Nat → List Char → String
    | 0, _ => ""
    | fuel + 1, cs =>
      let plain := cs.takeWhile (· != singleQuote)
      let rest := cs.drop plain.length
      let quotes := rest.takeWhile (· == singleQuote)
      let rest := rest.drop quotes.length
      single ++ String.ofList plain ++ single ++
        (if quotes.isEmpty then "" else marked (String.ofList quotes)) ++
        (if rest.isEmpty then "" else parts fuel rest)
  parts (text.length + 1) text.toList

/-- Names with values, each in a line, in order. -/
def listing (before : String) (values : List (String × Option String)) : String :=
  let sorted := values.mergeSort fun a b => a.1 ≤ b.1
  String.join (sorted.map fun (name, value) =>
    before ++ name ++ (match value with
      | some v => "=" ++ shellQuoted v
      | none => "") ++ "\n")

/-! ### Options of the shell -/

/-- What is read of options. -/
structure OptionReader where
  state : ScriptState
  rest : List String
  /-- Whether an argument has told that the next ones are no options. -/
  ended : Bool := false
  /-- Whether a script is to come as an argument. -/
  takesText : Bool := false
  /-- What has to be written. -/
  text : String := ""

namespace OptionReader

/-- The options that are set or not, in lines; as commands where a sign asks for them. -/
def settings (s : ScriptState) (asList : Bool) : String :=
  let isOn (letter : Option Char) : Bool := letter.any s.isSet
  let lines := ScriptState.optionNames.map fun (letter, name) =>
    let gap := String.ofList (List.replicate (16 - name.length) ' ')
    if asList then name ++ gap ++ (if isOn letter then "on" else "off") ++ "\n"
    else "set " ++ (if isOn letter then "-" else "+") ++ "o " ++ name ++ "\n"
  (if asList then "Current option settings\n" else "") ++ String.join lines

/-- The state with an option set or not. -/
def turned (s : ScriptState) (isOn : Bool) (letter : Char) : ScriptState :=
  let others := s.flags.filter (· != letter)
  { s with flags := if isOn then letter :: others else others }

/-- Reads letters. -/
def letters (isCall isOn : Bool) : List Char → OptionReader → Except String OptionReader
  | [], r => .ok r
  | c :: cs, r =>
    if c == 'c' && isCall then letters isCall isOn cs { r with takesText := true }
    else if c == 'l' && isCall then letters isCall isOn cs r
    else if c == 'o' then
      match r.rest with
      | [] => letters isCall isOn cs { r with text := r.text ++ settings r.state isOn }
      | name :: rest =>
        match ScriptState.optionNames.find? (·.2 == name) with
        | some (some letter, _) =>
          letters isCall isOn cs { r with rest, state := turned r.state isOn letter }
        | some (none, _) => letters isCall isOn cs { r with rest }
        | none => .error ("Illegal option -o " ++ name)
    else if ScriptState.optionNames.any (·.1 == some c) then
      letters isCall isOn cs { r with state := turned r.state isOn c }
    else .error ("Illegal option -" ++ c.toString)

/-- Reads options. -/
def read (isCall : Bool) : Nat → OptionReader → Except String OptionReader
  | 0, r => .ok r
  | fuel + 1, r =>
    match r.rest with
    | [] => .ok r
    | argument :: rest =>
      let after := { r with rest }
      match argument.toList with
      | ['-'] => .ok { after with state := turned (turned r.state false 'x') false 'v' }
      | ['-', '-'] => .ok { after with ended := true }
      | '-' :: cs => do read isCall fuel (← letters isCall true cs after)
      | '+' :: cs => do read isCall fuel (← letters isCall false cs after)
      | _ => .ok r

end OptionReader

/-- Sets options and arguments of the shell, or lists its values. -/
def setOptions : Builtin := fun s line arguments => do
  if arguments.isEmpty then
    let values := s.locals.map (fun v => (v.1, some v.2)) ++
      s.environment.bindings.map fun v => (v.1, some v.2)
    Program.say 1 (listing "" values)
    return s.withStatus 0
  else match OptionReader.read false (arguments.length + 1) { state := s, rest := arguments } with
    | .error complaint => failing s line complaint
    | .ok r =>
      Program.say 1 r.text
      let s := if r.ended || !r.rest.isEmpty then { r.state with positional := r.rest } else r.state
      return s.withStatus 0

/-! ### Variables -/

/-- What stands before an equals sign and what stands after it, if there is one. -/
def definition (argument : String) : String × Option String :=
  let cs := argument.toList
  let name := cs.takeWhile (· != '=')
  (String.ofList name,
    if name.length = cs.length then none else some (String.ofList (cs.drop (name.length + 1))))

/-- Does something for each of some names, until one makes no sense. -/
def eachName (p : ScriptState → String → Option String → ScriptState) (changes : Bool)
    (s : ScriptState) (line : Nat) : List String → Program ScriptState
  | [] => return s.withStatus 0
  | argument :: rest => do
    let (name, value) := definition argument
    if !isName name.toList then failing s line (name ++ ": bad variable name")
    else if s.isFixed name && (changes || value.isSome) then
      failing s line (name ++ ": is read only")
    else eachName p changes (p s name value) line rest

/-- Puts values into the environment. -/
def exportNames : Builtin := withOptions "p" "" fun s line options names => do
  if names.isEmpty || !options.isEmpty then
    Program.say 1 (listing "export " (s.environment.bindings.map (fun v => (v.1, some v.2)) ++
      s.awaited.map (·, none)))
    return s.withStatus 0
  else eachName (fun s name value =>
    match value with
    | some v => s.setShared name v
    | none => s.publish name) false s line names

/-- Lets values keep their values for good. -/
def fixNames : Builtin := withOptions "p" "" fun s line options names => do
  if names.isEmpty || !options.isEmpty then
    Program.say 1 (listing "readonly " (s.fixed.map fun name => (name, s.get? name)))
    return s.withStatus 0
  else eachName (fun s name value =>
    let s := match value with
      | some v => s.set name v
      | none => s
    { s with fixed := name :: s.fixed.filter (· != name) }) false s line names

/-- Lets values get their values back when the function that runs ends. -/
def hideNames : Builtin := fun s line names =>
  if s.calls = 0 then failing s line "not in a function"
  else eachName (fun s name value =>
    let s := { s with hidden := s.saved name :: s.hidden }
    match value with
    | some v => s.set name v
    | none => s) false s line names

/-- Forgets values, or functions. -/
def forget : Builtin := withOptions "fv" "" fun s line options names =>
  if options.getLast?.any (·.1 == 'f') then
    return { s with functions := s.functions.filter (!names.contains ·.1), status := 0 }
  else eachName (fun s name _ => s.unset name) true s line names

/-- Drops arguments of the shell. -/
def shiftArguments : Builtin := fun s line arguments =>
  match arguments.head?.elim (.ok 1) count with
  | .error complaint => failing s line complaint
  | .ok n =>
    if s.positional.length < n then failing s line "can't shift that many"
    else return { s with positional := s.positional.drop n, status := 0 }

/-- Writes what comes of values from options in arguments: the next option letter. -/
def nextOption : Builtin := fun s line arguments =>
  match arguments with
  | letters :: name :: given =>
    let words := if given.isEmpty then s.positional else given
    let index := (((s.get? "OPTIND").bind natural?).getD 1).max 1
    let current : List Char :=
      if index ≤ 1 || s.offset = 0 then []
      else ((words[index - 2]?).getD "").toList.drop s.offset
    let spec := letters.toList
    let silent := spec.head? == some ':'
    let finish (s : ScriptState) (index offset : Nat) (letter : Char) (status : Int) :
        ScriptState :=
      { ((s.set "OPTIND" (toString index)).set name letter.toString) with offset, status }
    let fresh := (words[index - 1]?).getD ""
    let started : Option (List Char × Nat × Nat) :=
      if !current.isEmpty then some (current, index, s.offset)
      else match fresh.toList with
        | '-' :: c :: cs => some (c :: cs, index + 1, 1)
        | _ => none
    match started with
    | none => return finish s index 0 '?' 1
    | some (['-'], index, _) => return finish s index 0 '?' 1
    | some ([], index, _) => return finish s index 0 '?' 1
    | some (c :: cs, index, offset) => do
      let after := if cs.isEmpty then 0 else offset + 1
      let rest := spec.dropWhile (· != c)
      if rest.isEmpty || c == ':' then
        if silent then return finish (s.set "OPTARG" c.toString) index after '?' 0
        else
          Program.say 2 ("Illegal option -" ++ c.toString ++ "\n")
          return finish (s.unset "OPTARG") index after '?' 0
      else if rest[1]? != some ':' then return finish (s.set "OPTARG" "") index after c 0
      else if !cs.isEmpty then
        return finish (s.set "OPTARG" (String.ofList cs)) index 0 c 0
      else match words[index - 1]? with
        | some value => return finish (s.set "OPTARG" value) (index + 1) 0 c 0
        | none =>
          if silent then return finish (s.set "OPTARG" c.toString) index 0 ':' 0
          else
            Program.say 2 ("No arg for -" ++ c.toString ++ " option\n")
            return finish (s.unset "OPTARG") index 0 '?' 0
  | _ => failing s line "Usage: getopts optstring var [arg...]"

/-! ### Input -/

/-- Reads a line, one byte at a time, so that nothing behind it is lost; where backslashes say so,
with the bytes behind them marked, and with the line behind it. The answer tells whether a newline
ended it. -/
def readLine (escapes : Bool) : Nat → List (UInt8 × Bool) → Program (List (UInt8 × Bool) × Bool)
  | 0, line => return (line.reverse, false)
  | fuel + 1, line => do
    match ← Program.take 0 1 with
    | .ok [b] =>
      if b == newline then return (line.reverse, true)
      else if b == 0 then readLine escapes fuel line
      else if escapes && b == '\\'.toUInt8 then
        match ← Program.take 0 1 with
        | .ok [c] => readLine escapes fuel (if c == newline then line else (c, true) :: line)
        | _ => return (line.reverse, false)
      else readLine escapes fuel ((b, false) :: line)
    | _ => return (line.reverse, false)

/-- Bytes with marks as characters with marks. -/
def markedChars (line : List (UInt8 × Bool)) : List FieldChar :=
  let runs := line.splitBy fun a b => a.2 == b.2
  runs.flatMap fun run =>
    (Text.decodeLossy (run.map (·.1))).toList.map (·, (run.head?.map (·.2)).getD false)

/-- Sets values to the fields of a line, the last one to all that is left. -/
def setFields (s : ScriptState) : List String → List FieldChar → ScriptState
  | [], _ => s
  | name :: names, cs =>
    let separators := s.separators
    let separates (c : FieldChar) : Bool := !c.2 && separators.contains c.1
    let isBlank (c : FieldChar) : Bool := separates c && (c.1 == ' ' || c.1 == '\t' || c.1 == '\n')
    let cs := cs.dropWhile isBlank
    let field := cs.takeWhile (!separates ·)
    let behind := (cs.drop field.length).dropWhile isBlank
    -- one separator that is no blank belongs to the field before it
    let after := match behind with
      | c :: rest => if separates c then rest.dropWhile isBlank else behind
      | [] => []
    if names.isEmpty then
      let value := if after.isEmpty then field else (cs.reverse.dropWhile isBlank).reverse
      s.set name (Fields.plain value)
    else setFields (s.set name (Fields.plain field)) names after

/-- Reads a line into values. -/
def readFields : Builtin := withOptions "r" "p" fun s line options names => do
  if names.isEmpty then failing s line "arg count"
  else
    let (bytes, ended) ← readLine (!options.any (·.1 == 'r')) readings []
    match names.find? fun name => !isName name.toList || s.isFixed name with
    | some name =>
      failing s line (name ++ (if s.isFixed name then ": is read only" else ": bad variable name"))
    | none => return (setFields s names (markedChars bytes)).withStatus (if ended then 0 else 1)

/-! ### Output -/

/-- Writes arguments in a line, as a shell does. -/
def echoWords : Builtin := fun s _ arguments => do
  let (words, ends) := match arguments with
    | "-n" :: words => (words, false)
    | words => (words, true)
  let bytes := Text.encode (" ".intercalate words)
  let text := unescape .shellArgument bytes.length bytes
  emit (if ends && text.goes then text.out ++ [newline] else text.out)
  return s.withStatus 0

/-- Writes arguments in the form that the first of them asks for, as a shell does. -/
def fillFormat : Builtin := withOptions "" "" fun s line _ operands =>
  match operands with
  | [] => failing s line "usage: printf format [arg ...]"
  | format :: arguments => do
    let filling ← ({ dialect := .shell, complain := report s line } : Formatter).fill format
      arguments
    return s.withStatus filling.status

/-! ### The working directory -/

/-- Whether an error number says that a path leads to nothing. -/
def isMissing (e : Nat) : Bool := e == Fault.noEntry || e == Fault.notDirectory

/-- Changes the working directory. A name with no path before it is looked for where a variable
says. -/
def changeDirectory : Builtin := withOptions "LP" "" fun s line options operands => do
  let target := operands.headD ((s.get? "HOME").getD "")
  let (target, shows) :=
    if target == "-" then ((s.get? "OLDPWD").getD "", true) else (target, false)
  let files ← Program.survey
  let isNear := target == "" || ["/", "./", "../"].any (target.startsWith ·) ||
    target == "." || target == ".."
  let starts := if isNear then [""] else ((s.get? "CDPATH").getD "").splitOn ":"
  let attempt (start : String) : Option (Path × Bool) :=
    let text := if start == "" then target else start ++ "/" ++ target
    let path := (s.cwd.join (Path.parse text)).lexical
    match files.isDirectory s.cwd path.toString with
    | .ok true =>
      let physical := options.getLast?.any (·.1 == 'P')
      some (if physical then (files.canonical path).toOption.getD path else path, start != "")
    | _ => none
  match (starts ++ [""]).findSome? attempt with
  | some (cwd, moved) =>
    if shows || moved then Program.say 1 (cwd.toString ++ "\n")
    let s := s.setShared "OLDPWD" s.cwd.toString
    return { s.setShared "PWD" cwd.toString with cwd, status := 0 }
  | none => failing s line ("can't cd to " ++ operands.headD target)

/-- Writes the working directory. -/
def showDirectory : Builtin := withOptions "LP" "" fun s _ options _ => do
  let files ← Program.survey
  let physical := options.getLast?.any (·.1 == 'P')
  let cwd := if physical then (files.canonical s.cwd).toOption.getD s.cwd else s.cwd
  Program.say 1 (cwd.toString ++ "\n")
  return s.withStatus 0

/-- Shows or sets the permissions that new files do not get. -/
def showMask : Builtin := withOptions "S" "" fun s line options operands => do
  match operands with
  | [] =>
    let digits := [s.mask / 64 % 8, s.mask / 8 % 8, s.mask % 8]
    let letters (n : Nat) : String :=
      (if n / 4 % 2 = 0 then "r" else "") ++ (if n / 2 % 2 = 0 then "w" else "") ++
        (if n % 2 = 0 then "x" else "")
    Program.say 1 (if options.isEmpty then "0" ++ String.join (digits.map toString) ++ "\n"
      else ",".intercalate ((["u=", "g=", "o="].zip digits).map fun (who, n) =>
        who ++ letters n) ++ "\n")
    return s.withStatus 0
  | mode :: _ =>
    let cs := mode.toList
    if !cs.isEmpty && cs.all fun c => '0' ≤ c && c ≤ '7' then
      return { s with mask := Extended.digitsValue 8 cs % 512, status := 0 }
    else failing s line ("Illegal mode: " ++ mode)

/-! ### Signals -/

/-- The names of signals, from the first on. -/
def signalNames : List String :=
  ["HUP", "INT", "QUIT", "ILL", "TRAP", "ABRT", "BUS", "FPE", "KILL", "USR1", "SEGV", "USR2",
    "PIPE", "ALRM", "TERM", "16", "CHLD", "CONT", "STOP", "TSTP", "TTIN", "TTOU", "URG", "XCPU",
    "XFSZ", "VTALRM", "PROF", "WINCH", "IO", "PWR", "SYS", "32", "33", "RTMIN"] ++
  (List.range 15).map (fun n => "RTMIN+" ++ toString (n + 1)) ++
  (List.range 14).map (fun n => "RTMAX-" ++ toString (14 - n)) ++ ["RTMAX"]

/-- The name of a signal, or of the end of the script. -/
def signalName (n : Nat) : String := if n = 0 then "EXIT" else (signalNames[n - 1]?).getD ""

/-- The number of a signal that is named or numbered. The end of the script may count as one. -/
def signal? (least : Nat) (t : String) : Option Nat :=
  match natural? t with
  | some n => if n ≤ signalNames.length then some n else none
  | none =>
    let upper := String.ofList (t.toList.map Text.capital)
    if least = 0 && upper == "EXIT" then some 0
    else (signalNames.findIdx? (· == upper)).map (· + 1)

/-- What is said of a process that a signal has ended, by the numbers of signals from the first
on. -/
def signalTexts : List String :=
  ["Hangup", "Interrupt", "Quit", "Illegal instruction", "Trace/breakpoint trap", "Aborted",
    "Bus error", "Floating point exception", "Killed", "User defined signal 1",
    "Segmentation fault", "User defined signal 2", "Broken pipe", "Alarm clock", "Terminated"]

/-- The signals of which nothing is said. -/
def quietSignals : List Nat := [2, 13]

/-- The signals that end no process. -/
def harmlessSignals : List Nat := [17, 18, 23, 28]

/-- Says what has ended a process that has a status, if a signal has. -/
def announce (status : Int) : Program Unit :=
  let signal := (-status).toNat
  if signal = 0 || quietSignals.contains signal then return ()
  else Program.say 2 ((signalTexts[signal - 1]?).getD ("Signal " ++ toString signal) ++ "\n")

/-- How the command is used that sends signals. -/
def killUsage : String :=
  "Usage: kill [-s sigspec | -signum | -sigspec] [pid | job]... or\nkill -l [exitstatus]"

/-- Sends a signal to processes. One that ends no process is only passed on to the shell itself. -/
def sendTo (s : ScriptState) (line signal : Nat) : List String → Int → Program ScriptState
  | [], status => return s.withStatus status
  | target :: rest, status => do
    let digits := if target.startsWith "-" then (target.drop 1).toString else target
    if target.startsWith "%" then failing s line ("No such job: " ++ target)
    else match count digits with
      | .error complaint => failing s line complaint
      | .ok n =>
        if n != s.pid || target != digits then
          let number := if harmlessSignals.contains signal then 0 else signal
          let reached ← if target != digits then pure false else Program.send n number
          if reached then sendTo s line signal rest status
          else
            report s line "No such process\n"
            sendTo s line signal rest 1
        else if signal = 0 then sendTo s line signal rest status
        else match s.traps.lookup signal with
          | some action =>
            let received := if action == "" then s.received else s.received ++ [signal]
            sendTo { s with received } line signal rest status
          | none =>
            if harmlessSignals.contains signal then sendTo s line signal rest status
            else .exit (Program.signalled signal)

/-- Sends a signal, or lists the names of signals. -/
def sendSignal : Builtin := fun s line arguments =>
  let send (signal : Nat) (targets : List String) : Program ScriptState :=
    if targets.isEmpty then failing s line killUsage else sendTo s line signal targets 0
  let first := arguments.headD ""
  match if first.startsWith "-" then signal? 1 (first.drop 1).toString else none with
  | some signal => send signal (arguments.drop 1)
  | none =>
    withOptions "l" "s" (fun s line options operands => do
      let lists := options.any (·.1 == 'l')
      match options.find? (·.1 == 's'), lists, operands with
      | some (_, name), false, operands =>
        match signal? 1 name with
        | some signal => send signal operands
        | none => failing s line ("invalid signal number or name: " ++ name)
      | none, false, operands => send 15 operands
      | some _, true, _ => failing s line killUsage
      | none, true, [] =>
        Program.say 1 ("0\n" ++ String.join (signalNames.map (· ++ "\n")))
        return s.withStatus 0
      | none, true, status :: _ =>
        match count status with
        | .error complaint => failing s line complaint
        | .ok n =>
          let signal := if 128 < n then n - 128 else n
          if 0 < signal && signal ≤ signalNames.length then
            Program.say 1 (signalName signal ++ "\n")
            return s.withStatus 0
          else failing s line ("invalid signal number or exit status: " ++ status)) s line arguments

/-- Says what is run where signals come. -/
def setTraps : Builtin := withOptions "" "" fun s _ _ operands => do
  match operands with
  | [] =>
    let sorted := s.traps.mergeSort fun a b => a.1 ≤ b.1
    Program.say 1 (String.join (sorted.map fun (signal, action) =>
      "trap -- " ++ shellQuoted action ++ " " ++ signalName signal ++ "\n"))
    return s.withStatus 0
  | first :: rest =>
    let (action, names) : Option String × List String :=
      if rest.isEmpty || (natural? first).isSome then (none, operands)
      else (if first == "-" then none else some first, rest)
    let rec go (s : ScriptState) : List String → Program ScriptState
      | [] => return s.withStatus 0
      | name :: names =>
        match signal? 0 name with
        | none => do
          Program.say 2 ("trap: " ++ name ++ ": bad trap\n")
          return s.withStatus 1
        | some signal =>
          let others := s.traps.filter (·.1 != signal)
          go { s with traps := action.elim others fun a => (signal, a) :: others } names
    go s names

/-! ### Commands that were not waited for -/

/-- Runs the commands that were not waited for and have not run yet. -/
def settle (s : ScriptState) : Program ScriptState := do
  let rec go : List (ProcessId × Program Int) → List (ProcessId × Int) →
      Program (List (ProcessId × Int))
    | [], ended => return ended
    | (n, p) :: rest, ended => do go rest ((n, Program.seenStatus (← p.caught)) :: ended)
  return { s with asides := [], ended := ← go s.asides s.ended }

/-- Waits for commands. -/
def waitFor : Builtin := withOptions "" "" fun s line _ operands => do
  let s ← settle s
  match operands.getLast? with
  | none => return s.withStatus 0
  | some name =>
    match count name with
    | .error complaint =>
      if name.startsWith "%" then failing s line ("No such job: " ++ name)
      else failing s line complaint
    | .ok n => return s.withStatus ((s.ended.lookup (n : Int)).getD 127)

/-! ### The course of scripts -/

/-- The status that an argument says, or the last one. -/
def endWith (jump : Jump) : Builtin := fun s line arguments =>
  match arguments.head?.map count with
  | some (.error complaint) => failing s line complaint
  | some (.ok n) => return { s with status := ((n % 256 : Nat) : Int), jump := some jump }
  | none => return { s with jump := some jump }

/-- Ends loops. -/
def endLoops (jump : Nat → Jump) : Builtin := fun s line arguments =>
  let number : Except String Nat := match arguments with
    | [] => .ok 1
    | argument :: _ => do
      let n ← count argument
      if n = 0 then .error ("Illegal number: " ++ argument) else pure n
  match number with
  | .error complaint => failing s line complaint
  | .ok n =>
    let n := n.min s.depth
    return { s with jump := if n = 0 then none else some (jump n), status := 0 }

/-- A command that does nothing but to have a status. -/
def constantly (status : Int) : Builtin := fun s _ _ => return s.withStatus status

/-! ### Tests -/

/-- Whether words are true. -/
def tests : Builtin := fun s line words => do
  match ({ files := ← Program.survey, cwd := s.cwd } : TestWorld).evaluate false words with
  | .ok b => return s.withStatus (if b then 0 else 1)
  | .error complaint => failing s line complaint

/-- Whether words before a closing bracket are true. -/
def testsInBrackets : Builtin := fun s line words =>
  if words.getLast?.any (·.startsWith "]") then tests s line words.dropLast
  else failing s line "missing ]"

/-! ### All of them -/

/-- Writes how long the shell has run, which is no time. -/
def showTimes : Builtin := fun s _ _ => do
  Program.say 1 (String.join (List.replicate 2 "0m0.000000s 0m0.000000s\n"))
  return s.withStatus 0

/-- There are no jobs that could be resumed. -/
def noJob : Builtin := fun s line _ => failing s line "No current job"

/-- The commands that are part of the language. After an error in one of them, the script ends. -/
def special? (name : String) : Option Builtin :=
  match name with
  | ":" => some (constantly 0)
  | "break" => some (endLoops .breaks)
  | "continue" => some (endLoops .continues)
  | "exit" => some (endWith .exits)
  | "export" => some exportNames
  | "local" => some hideNames
  | "readonly" => some fixNames
  | "return" => some (endWith .returns)
  | "set" => some setOptions
  | "shift" => some shiftArguments
  | "times" => some showTimes
  | "trap" => some setTraps
  | "unset" => some forget
  | _ => none

/-- The other commands that a shell does itself. -/
def regular? (name : String) : Option Builtin :=
  match name with
  | "true" | "alias" | "unalias" | "jobs" => some (constantly 0)
  | "false" => some (constantly 1)
  | "bg" | "fg" => some noJob
  | "cd" | "chdir" => some changeDirectory
  | "echo" => some echoWords
  | "getopts" => some nextOption
  | "kill" => some sendSignal
  | "printf" => some fillFormat
  | "pwd" => some showDirectory
  | "read" => some readFields
  | "test" => some tests
  | "[" => some testsInBrackets
  | "ulimit" => some fun s _ _ => do
    Program.say 1 "unlimited\n"
    return s.withStatus 0
  | "umask" => some showMask
  | "wait" => some waitFor
  | _ => none

/-- A command that does nothing succeeds. -/
theorem special?_colon : special? ":" = some (constantly 0) := rfl

end LineShell.Userland.Script
