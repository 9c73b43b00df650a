import LineShell.Userland.Listing
import LineShell.Userland.Output
import LineShell.Userland.Script.Redirect

namespace LineShell.Userland.Script

open Text (Bytes)

/-!
# Running shell scripts

* `Finder` — what finds the programs that a script calls by name;
* `Runner` — what runs parts of a script;
* `runSimple` — runs a simple command: a function, something that the shell does itself, or a
  program;
* `run` — runs a script;
* `sh` — runs a script that is given as an argument, as a file or as the standard input.
-/

/-- Finds the program for some words, seen from a directory. -/
abbrev Finder := FileSystem → Path → Environment → List String → Except Nat (Program Int)

/-- Runs a script. It is told whether something depends on the script's success. -/
abbrev Runner := Bool → Script → ScriptState → Program ScriptState

/-! ### Texts of scripts -/

/-- Runs the lines of a script, each of which is read when the ones before it have run. -/
def runLines (run : Runner) (tested : Bool) : Nat → Rest → ScriptState → Program ScriptState
  | 0, _, s => return s
  | fuel + 1, rest, s =>
    match nextLine rest with
    | .error e => failing s e.line e.text
    | .ok none => return s
    | .ok (some (script, rest)) => do
      let s ← run tested script s
      if s.jump.isSome then return s else runLines run tested fuel rest s

/-- Runs a text, of which the first line has some number. One without commands succeeds. -/
def runText (run : Runner) (tested : Bool) (line : Nat) (text : String) (s : ScriptState) :
    Program ScriptState :=
  let ts := scriptTokens line text
  match skipLines ts with
  | [] | (.fileEnd, _) :: _ => return s.withStatus 0
  | ts => runLines run tested (ts.length + 1) ts s

/-- The end of a shell: what is to be run then is run, and its status is the script's, unless that
ends with another one. -/
def conclude (run : Runner) (s : ScriptState) : Program Int := do
  let last ← match s.traps.lookup 0 with
    | some action =>
      let t ← runText run false 1 action { s.landed with traps := s.traps.filter (·.1 != 0) }
      pure (if t.jump == some .exits then t else t.withStatus s.status)
    | none => pure s
  return (← settle last).status

/-- Finds out what commands write, as a copy of the shell does that runs them. -/
def capture (run : Runner) : Capture := fun s line text => do
  let inner : Program Int := do
    conclude run (← runText run false line text (s.forked.keeping 1))
  let (bytes, status) ← inner.caught.collected []
  return (bytes, Program.seenStatus status)

/-- Runs an expansion, and goes on with what comes of it. -/
def expanding {α : Type} (e : Expansion α) (s : ScriptState)
    (go : α → ScriptState → Program ScriptState) : Program ScriptState := do
  match ← e.run s with
  | (some a, s) => go a s
  | (none, s) => return s

/-- The state after a command that counts for the option by which errors end the script. -/
def checked (tested : Bool) (s : ScriptState) : ScriptState :=
  if !tested && s.isSet 'e' && s.status != 0 && s.jump.isNone then s.leaving s.status else s

/-! ### Programs -/

/-- A descriptor of a program that a script runs. Those that it opens itself are kept apart from
the script's. -/
def innerStream (opened fd : Nat) : Nat := if fd < 3 then fd else fd + 1000 * (opened + 1)

/-- Runs a program that is called by name, perhaps in place of the shell. A file that is no program
is a script. -/
def call (find : Finder) (inPlace : Bool) (s : ScriptState) (line : Nat) (words : List String) :
    Program ScriptState := do
  let files ← Program.survey
  let name := words.headD ""
  let found := match find files s.cwd s.environment words with
    | .error e =>
      if e = Fault.notExecutable && name.toList.contains '/' then
        find files s.cwd s.environment ("/bin/sh" :: words)
      else .error e
    | found => found
  match found with
  | .error e =>
    report s line (name ++ ": " ++ if isMissing e then "not found" else systemText e)
    -- a name that was looked for and not found is unknown, whatever the reason
    return s.withStatus (if isMissing e || !name.toList.contains '/' then 127 else 126)
  | .ok program =>
    let status ← program.caught.onStreams (innerStream s.opened)
    if inPlace then .exit status
    else
      announce status
      return s.withStatus (Program.seenStatus status)

/-- Where the file of a program is that is called by name. -/
def programPath? (files : FileSystem) (s : ScriptState) (name : String) : Option String :=
  if name.toList.contains '/' then
    match files.lookup s.cwd true name with
    | .ok _ => some name
    | .error _ => none
  else
    let paths := ((s.get? "PATH").getD "/bin:/usr/bin").splitOn ":" |>.map fun directory =>
      if directory == "" then name else directory ++ "/" ++ name
    paths.find? fun path =>
      match files.lookup s.cwd true path with
      | .ok i => match files.node? i with
        | some (.file _ true) => true
        | _ => false
      | .error _ => false

/-- What a command is, in words or as short as can be. -/
def describe (files : FileSystem) (s : ScriptState) (inWords : Bool) (name : String) :
    Option String :=
  let told (what : String) : Option String :=
    some (if inWords then name ++ " is " ++ what else name)
  if isKeyword name then told "a shell keyword"
  else if (s.functions.lookup name).isSome then told "a shell function"
  else if specialNames.contains name then told "a special shell builtin"
  else if (regular? name).isSome || ["command", "hash", "type"].contains name then
    told "a shell builtin"
  else (programPath? files s name).map fun path =>
    if inWords then name ++ " is " ++ path else path

/-- Says what commands are. -/
def describeAll (inWords : Bool) (s : ScriptState) (names : List String) :
    Program ScriptState := do
  let files ← Program.survey
  names.foldlM (fun s name => do
    match describe files s inWords name with
    | some text =>
      Program.say 1 (text ++ "\n")
      return s
    | none =>
      if inWords then Program.say 1 (name ++ ": not found\n")
      return s.withStatus 127) (s.withStatus 0)

/-- Looks for programs. -/
def lookFor : Builtin := withOptions "rv" "" fun s line _ names => do
  let files ← Program.survey
  match names.find? fun name => (describe files s true name).isNone with
  | some name => do
    report s line (name ++ ": not found")
    return s.withStatus 1
  | none => return s.withStatus 0

/-! ### Simple commands -/

/-- The words of a command. Behind commands that set variables, words that do so stand for one text
each. -/
def expandCommand (x : Expander) : List Word → Expansion (List String)
  | [] => return []
  | w :: ws => do
    let first ← x.expand [w]
    match first with
    | [] => expandCommand x ws
    | name :: _ =>
      if ["export", "local", "readonly", "alias"].contains name then
        let rest ← ws.mapM fun w =>
          if (assignment? w).isSome then (fun t => [t]) <$> x.expandText w else x.expand [w]
        return first ++ rest.flatten
      else return first ++ (← x.expand ws)

/-- Sets variables, in the environment or not. The answer is what they were set to. -/
def assign (x : Expander) (shares : Bool) :
    List (String × Word) → Expansion (List (String × String))
  | [] => return []
  | (name, w) :: rest => do
    let value ← x.expandText (expandTildes true w)
    if (← get).isFixed name then x.refuse (name ++ ": is read only")
    else
      modify fun s => if shares then s.setShared name value else s.set name value
      return (name, value) :: (← assign x shares rest)

/-- Writes a command as it runs. -/
def trace (x : Expander) (values : List (String × String)) (words : List String) :
    Expansion Unit := do
  let s ← get
  if s.isSet 'x' then
    let sign := (s.get? "PS4").getD "+ "
    let lead ← match textPieces true (sign.length + 1) sign.toList with
      | .ok w => x.expandText w
      | .error _ => pure sign
    let parts := values.map (fun v => v.1 ++ "=" ++ v.2) ++ words
    (Program.say 2 (lead ++ " ".intercalate parts ++ "\n") : Program Unit)

/-- The words behind the command that runs others as if they were no functions; nothing if it does
something else. -/
def unwrapped? : List String → Option (List String)
  | "command" :: rest =>
    let rec skip : List String → Option (List String)
      | [] => none
      | w :: ws =>
        if w == "--" then some ws
        else if w.startsWith "-" && w.length > 1 then
          if (w.toList.drop 1).all (· == 'p') then skip ws else none
        else some (w :: ws)
    (skip rest).filter (!·.isEmpty)
  | _ => none

/-- The words of a command without commands that run others as if they were no functions, and
whether there were some. -/
def unwrap : Nat → Bool → List String → Bool × List String
  | 0, wrapped, words => (wrapped, words)
  | fuel + 1, wrapped, words =>
    match unwrapped? words with
    | some words => unwrap fuel true words
    | none => (wrapped, words)

/-- How deep functions may call each other. -/
def deepestCall : Nat := 1000

/-- Runs a function. -/
def runFunction (run : Runner) (tested : Bool) (line : Nat) (body : Script)
    (arguments : List String) (s : ScriptState) : Program ScriptState := do
  if deepestCall ≤ s.calls then
    failing s line ("Maximum function recursion depth (" ++ toString deepestCall ++ ") reached")
  else
    let t ← run tested body { s with
      positional := arguments, depth := 0, hidden := [], calls := s.calls + 1 }
    let t := t.hidden.foldl ScriptState.restore t
    return { t with
      positional := s.positional, depth := s.depth, hidden := s.hidden, calls := s.calls
      jump := if t.jump == some .exits then t.jump else none }

/-- Runs a file of commands in the shell itself. -/
def runFile (run : Runner) (tested : Bool) (line : Nat) (name : String) (s : ScriptState) :
    Program ScriptState := do
  let files ← Program.survey
  let path? := if name.toList.contains '/' then some name
    else (((s.get? "PATH").getD "").splitOn ":").findSome? fun directory =>
      let path := if directory == "" then name else directory ++ "/" ++ name
      match files.lookup s.cwd true path with
      | .ok i => if (files.content? i).isSome then some path else none
      | .error _ => none
  match path? with
  | none => failing s line (name ++ ": not found")
  | some path => do
    let fresh := firstTarget + s.opened
    match ← Program.openAs fresh (s.cwd.textFrom path) .read with
    | some e =>
      failing s line ("cannot open " ++ path ++ ": " ++
        if isMissing e then "No such file" else systemText e)
    | none => do
      let bytes ← readAll fresh
      Program.shut fresh
      let t ← runText run tested 1 (Text.decodeLossy bytes) { s with command := path }
      return if t.jump == some .returns then t.landed else t

/-- Runs commands of the shell that run others, or are about them. -/
def control? (find : Finder) (run : Runner) (tested : Bool) (line : Nat) (name : String)
    (arguments : List String) : Option (ScriptState → Program ScriptState) :=
  match name with
  | "eval" => some fun s =>
    runText run tested 1 (" ".intercalate arguments) { s with command := "eval" }
  | "." => some fun s =>
    match arguments with
    | [] => return s.withStatus 0
    | file :: _ => runFile run tested line file { s with command := "." }
  | "command" => some fun s =>
    withOptions "pvV" "" (fun s _ options names =>
      let given (letter : Char) : Bool := options.any (·.1 == letter)
      if given 'v' || given 'V' then describeAll (given 'V') s (names.take 1)
      else return s.withStatus 0) { s with command := name } line arguments
  | "type" => some fun s => describeAll true s arguments
  | "hash" => some fun s => lookFor { s with command := name } line arguments
  | "exec" => some fun s =>
    match arguments with
    | [] => return s.withStatus 0
    | words => do
      let t ← call find true { s with command := name } line words
      return t.leaving t.status
  | _ => none

/-- Runs a command by its words. -/
def invoke (find : Finder) (run : Runner) (tested : Bool) (line : Nat) (wrapped : Bool)
    (words : List String) (s : ScriptState) : Program ScriptState :=
  match words with
  | [] => return s
  | name :: arguments =>
    match if wrapped then none else s.functions.lookup name with
    | some body => runFunction run tested line body arguments s
    | none => do
      let named := { s with command := name }
      let special := special? name
      let t ← match control? find run tested line name arguments, special <|> regular? name with
        | some p, _ => p s
        | none, some p =>
          let refused (_ : Nat) : Program ScriptState := do
            report named line (name ++ ": I/O error")
            return s.withStatus 1
          ((p named line arguments).buffered false []).guarded (some refused)
        | none, none => call find false s line words
      -- an error in a command that is not part of the language leaves the script in order
      let isSpecial := !wrapped && specialNames.contains name
      let leaves := isSpecial || ["exec", "exit", "eval"].contains name || t.jump != some .exits
      return { t with command := s.command, jump := if leaves then t.jump else none }

/-- Runs what is to be run where signals come. -/
def attend (run : Runner) (s : ScriptState) : Program ScriptState :=
  s.received.foldlM (fun s signal =>
    match s.traps.lookup signal with
    | some action => do
      let t ← runText run false 1 action s
      return if t.jump == some .exits then t else t.withStatus s.status
    | none => return s) { s with received := [] }

/-- Runs a simple command. -/
def runSimple (find : Finder) (run : Runner) (tested : Bool) (c : Simple) (s : ScriptState) :
    Program ScriptState := s.within fun s => do
  let x : Expander := { capture := capture run, line := c.line }
  let prepared : Expansion (List String × List Target) := do
    let words ← expandCommand x c.words
    return (words, ← x.expandTargets c.redirections)
  expanding prepared { s with substituted := 0 } fun (words, targets) before => do
    let (wrapped, words) := unwrap words.length false words
    let name := words.headD ""
    let isFunction := !wrapped && (before.functions.lookup name).isSome
    let isSpecial := !wrapped && !isFunction && specialNames.contains name
    match ← connect before c.line targets { held := before.held } with
    | none => return if isSpecial then before.leaving 2 else before.withStatus 2
    | some plumbing =>
      let shares := !words.isEmpty && !isSpecial
      let inner := { before with
        held := plumbing.held, opened := before.opened + plumbing.opened.length +
          plumbing.texts.length }
      let assigned : Expansion Unit := do
        let values ← assign x shares c.assignments
        trace x values (if wrapped then "command" :: words else words)
      expanding assigned inner fun _ inner => do
        if words == ["exec"] then
          -- where descriptors lead now, they lead for good
          return { inner with
            streams := if targets.isEmpty then none else some plumbing.streams, status := 0 }
        else
          let body : Program ScriptState :=
            if words.isEmpty then pure (inner.withStatus inner.substituted)
            else invoke find run tested c.line wrapped words inner
          let after ← if targets.isEmpty then body else do
            let after ← plumbing.around body
            plumbing.done
            pure after
          let after := if shares then
              (c.assignments.map fun a => before.saved a.1).foldl ScriptState.restore after
            else after
          attend run { after with
            held := if targets.isEmpty then after.held else before.held
            opened := if targets.isEmpty then after.opened else before.opened }

/-! ### Scripts -/

/-- Whether a loop goes on after its body has run, and the state then. -/
def afterBody (s : ScriptState) : Bool × ScriptState :=
  match s.jump with
  | none => (true, s)
  | some (.breaks n) => (false, { s with jump := if n ≤ 1 then none else some (.breaks (n - 1)) })
  | some (.continues n) =>
    if n ≤ 1 then (true, s.landed) else (false, { s with jump := some (.continues (n - 1)) })
  | some _ => (false, s)

/-- Runs a loop as long as its condition says, from one status on. -/
def repeated (run : Runner) (tested : Bool) (condition : Script) (expected : Bool)
    (body : Script) : Nat → Int → ScriptState → Program ScriptState
  | 0, _, s => return s
  | fuel + 1, last, s => do
    -- a loop never goes on without the rest of the world
    let _ ← Program.survey
    match afterBody (← run true condition s) with
    | (false, s) => return if s.jump.isSome then s else s.withStatus last
    | (true, s) =>
      if (s.status == 0) != expected then return s.withStatus last
      else match afterBody (← run tested body s) with
        | (true, s) => repeated run tested condition expected body fuel s.status s
        | (false, s) => return s

/-- Runs a loop over words. -/
def repeatedFor (run : Runner) (tested : Bool) (name : String) (body : Script) :
    List String → ScriptState → Program ScriptState
  | [], s => return s
  | w :: ws, s => do
    match afterBody (← run tested body (s.set name w)) with
    | (true, s) => repeatedFor run tested name body ws s
    | (false, s) => return s

/-- The body of the first branch that a text matches. -/
def matchingBranch (x : Expander) (subject : String) : Script → Expansion Script
  | .branch patterns body rest => do
    let found ← patterns.anyM fun w => do
      return globMatches (patternOf (← x.expandChars w)) subject.toList
    if found then return body else matchingBranch x subject rest
  | _ => return .nothing

/-- How many pipes there are between commands. -/
def pipes : Script → Nat
  | .piped a _ => pipes a + 1
  | _ => 0

/-- The room between the descriptors of two commands with a pipe between them. -/
def pipeRoom : Nat := 100

/-- Runs a script. -/
def run (find : Finder) : Nat → Runner
  | 0, _, _, s => return s
  | fuel + 1, tested, script, s =>
    let next := run find fuel
    let inside (body : Program ScriptState) : Program ScriptState := do
      return { ← body with depth := s.depth }
    if s.jump.isSome || s.isSet 'n' then return s
    else match script with
    | .nothing => return s
    | .simple c => do return checked tested (← runSimple find next tested c s)
    | .both a b => do next tested b (← next tested a s)
    | .andThen a b => do
      let s ← next true a s
      if s.status == 0 then next tested b s else return s
    | .orElse a b => do
      let s ← next true a s
      if s.status == 0 then return s else next tested b s
    | .inverted a => do
      let s ← next true a s
      return if s.jump.isSome then s else s.withStatus (if s.status == 0 then 1 else 0)
    | .redirected a redirections line => s.within fun s => do
      let x : Expander := { capture := capture next, line }
      expanding (x.expandTargets redirections) s fun targets s => do
        match ← connect s line targets { held := s.held } with
        | none => return checked tested (s.withStatus 2)
        | some plumbing => do
          let after ← plumbing.around do
            settle (← next tested a { s with
              held := plumbing.held, opened := s.opened + plumbing.opened.length +
                plumbing.texts.length })
          plumbing.done
          return { after with held := s.held, opened := s.opened, streams := none }
    | .grouped a => do
      let inner : Program Int := do conclude next (← next tested a s.forked)
      let status ← inner.caught
      -- a copy of the shell that a signal has ended was meant to end the shell
      if status < 0 && status != Program.signalled Program.pipeSignal then .exit status
      else return checked tested (s.withStatus (Program.seenStatus status))
    | .aside a => do
      let n := s.latest.elim (s.pid + 1) (· + 1)
      let inner : Program Int := do conclude next (← next false a (s.forked.keeping 0))
      return { s with
        asides := s.asides ++ [(n, inner.fed 0 none [] [])], latest := some n, status := 0 }
    | .piped a b => do
      let part (p : Script) (s : ScriptState) : Program Int := do
        conclude next (← next true p s)
      let right := { s.forked.keeping 0 with opened := s.opened + pipeRoom * (pipes a + 1) }
      let both := Program.connected readings (part a (s.forked.keeping 1)) [] (part b right)
      return checked tested (s.withStatus (Program.seenStatus (← both.caught)))
    | .choose condition yes no => do
      let s ← next true condition s
      if s.jump.isSome then return s
      else if s.status == 0 then next tested yes s
      else match no with
        | .nothing => return s.withStatus 0
        | no => next tested no s
    | .loop condition expected body =>
      inside (repeated next tested condition expected body readings 0
        { s with depth := s.depth + 1 })
    | .each name words body line =>
      let x : Expander := { capture := capture next, line }
      inside (s.within fun s => expanding (x.expand words) s fun words s =>
        if s.isFixed name && !words.isEmpty then failing s line (name ++ ": is read only")
        else repeatedFor next tested name body words
          ({ s with depth := s.depth + 1 }.withStatus 0))
    | .select subject branches line =>
      let x : Expander := { capture := capture next, line }
      let chosen : Expansion Script := do matchingBranch x (← x.expandText subject) branches
      s.within fun s => expanding chosen s fun body s => next tested body (s.withStatus 0)
    | .branch .. => return s
    | .define name body =>
      return { s with functions := (name, body) :: s.functions.filter (·.1 != name), status := 0 }

/-! ### The shell -/

/-- The variables that a shell sets for itself. -/
def initialVariables : List (String × String) :=
  [("IFS", " \t\n"), ("OPTIND", "1"), ("PS1", "# "), ("PS2", "> "), ("PS4", "+ ")]

/-- Runs a script that is given as an argument, as a file or as the standard input. -/
def sh (find : Finder) : Utility := fun c => do
  let pid ← Program.identify .done
  let cwd ← workingDirectory c
  let start : ScriptState := ({
    name := c.name, environment := c.environment, cwd, pid
    locals := initialVariables : ScriptState }).setShared "PWD" cwd.toString
  let refuse (text : String) : Program Int := do
    Program.say 2 (c.name ++ ": 0: " ++ text ++ "\n")
    return 2
  let runner := run find readings
  let whole (s : ScriptState) (text : String) : Program Int := do
    conclude runner (← runText runner false 1 text s)
  match OptionReader.read true (c.arguments.length + 1)
    { state := start, rest := c.arguments } with
  | .error complaint => refuse complaint
  | .ok r =>
    let s := r.state
    match r.takesText, s.isSet 's', r.rest with
    | true, _, [] => refuse "-c requires an argument"
    | true, _, text :: rest =>
      whole { s with name := rest.headD c.name, positional := rest.tail } text
    | false, true, positional => do
      whole { s with positional } (Text.decodeLossy (← readAll 0))
    | false, false, [] => do whole s (Text.decodeLossy (← readAll 0))
    | false, false, file :: positional => do
      match ← Program.openAs operandStream (c.locate file) .read with
      | some e => do
        -- a directory can be opened, and there is nothing to read in it
        if e = Fault.isDirectory then return 0
        refuse ("cannot open " ++ file ++ ": " ++
          if isMissing e then "No such file" else systemText e)
      | none => do
        let bytes ← readAll operandStream
        Program.shut operandStream
        whole { s with name := file, positional } (Text.decodeLossy bytes)

/-- Where something has ended the commands, there is nothing left to run. -/
theorem run_jump (find : Finder) (fuel : Nat) (tested : Bool) (script : Script) (s : ScriptState)
    (h : s.jump.isSome = true) : run find (fuel + 1) tested script s = pure s := by
  unfold run
  simp [h]

end LineShell.Userland.Script
