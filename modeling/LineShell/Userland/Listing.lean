import LineShell.FileSystem.Canonical
import LineShell.Userland.Arguments
import LineShell.Userland.Glob
import LineShell.Userland.Layout
import LineShell.Userland.Order

namespace LineShell.Userland

open Text (Bytes)

/-!
# Directories

* `pwd` — writes the working directory;
* `ListingStyle` — which names are listed, in which order, and how they are shown;
* `ls` — writes what is in directories.
-/

/-- The working directory as the system knows it: without links. -/
def workingDirectory (c : Context) : Program Path := do
  return ((← Program.survey).canonical c.cwd).toOption.getD c.cwd

/-- Writes the working directory. -/
def pwd : Utility := fun c => do
  let a ← parseArguments c { flags := "LP" } 1
  if !a.operands.isEmpty then complain c "ignoring non-option arguments"
  Program.say 1 ((← workingDirectory c).toString ++ "\n")
  return 0

/-! ### What is listed -/

/-- The orders of what is listed. -/
inductive ListingOrder
  | none
  | byName
  | bySize
  /-- The latest first. -/
  | byAge
  | byEnding
  | byVersion
  | byWidth
  deriving DecidableEq, Repr

/-- The marks behind names. -/
inductive ListingMarks
  | none
  /-- Only behind directories. -/
  | slash
  /-- Not behind programs. -/
  | kinds
  | all
  deriving DecidableEq, Repr

/-- How names are shown. -/
inductive ListingNames
  | plain
  | shell
  | shellAlways
  | marked
  | escaped
  deriving DecidableEq, Repr

/-- When links stand for what they lead to. -/
inductive ListingLinks
  | never
  | always
  /-- Where they are operands. -/
  | operands
  /-- Where they are operands and lead to directories. -/
  | directories
  deriving DecidableEq, Repr

/-- How directories are listed. -/
structure ListingStyle where
  order : ListingOrder := .byName
  reverse : Bool := false
  directoriesFirst : Bool := false
  /-- Whether names that start with a point are shown, and whether the two that every directory has
  are. -/
  hidden : Bool := false
  special : Bool := false
  /-- The names that are left out. -/
  ignored : List (List GlobPiece) := []
  marks : ListingMarks := .none
  names : ListingNames := .plain
  /-- Whether what has no picture is shown as a question mark. -/
  masks : Bool := false
  links : ListingLinks := .directories
  layout : Layout := .single
  line : Nat := 80
  /-- Whether directories are listed as such. -/
  itself : Bool := false
  recursive : Bool := false
  /-- Whether names end with NUL. -/
  zero : Bool := false
  deriving DecidableEq, Repr

/-- An entry of a list: its name, and its node. -/
abbrev Entry := String × Inode

/-- A text with escapes: quotation marks or spaces may need one too. -/
def escapedText (special : Char → Bool) (s : String) : String :=
  String.ofList <| s.toList.flatMap fun c =>
    if special c || c == '\\' then ['\\', c]
    else if Text.isPrintable c then [c]
    else escapeOf c

namespace ListingStyle

/-- The size of a node in bytes. -/
def size (files : FileSystem) (i : Inode) : Nat :=
  match files.node? i with
  | some (.file content _) => content.length
  | some (.directory ..) => 4096
  | some (.link target) => target.utf8ByteSize
  | _ => 0

/-- The ending of a name, from its last point on. -/
def ending (name : String) : Bytes :=
  let cs := name.toList
  if cs.contains '.' then
    Text.encode (String.ofList ('.' :: (cs.reverse.takeWhile (· != '.')).reverse))
  else []

/-- The order of two entries that are not directories before others. -/
def compareEntries (s : ListingStyle) (files : FileSystem) (a b : Entry) : Ordering :=
  let byName := compareBytes (Text.encode a.1) (Text.encode b.1)
  match s.order with
  | .none => .eq
  | .byName => byName
  | .bySize => (compare (size files b.2) (size files a.2)).then byName
  | .byAge => compare b.2 a.2
  | .byEnding => (compareBytes (ending a.1) (ending b.1)).then byName
  | .byVersion => (compareVersions (Text.encode a.1) (Text.encode b.1)).then byName
  | .byWidth => (compare (textWidth a.1) (textWidth b.1)).then byName

/-- Whether an entry of a directory counts as one itself where those come first: a link does if it
leads to one. -/
def isFirst (s : ListingStyle) (files : FileSystem) (directory : Inode) (e : Entry) : Bool :=
  s.directoriesFirst && (files.isDirectoryNode e.2 || match files.node? e.2 with
    | some (.link target) =>
      let start := if Path.startsAtRoot target then FileSystem.root else directory
      match files.walk .followed FileSystem.maxLinks start (FileSystem.steps target.toList) with
      | .ok (.found i) => files.isDirectoryNode i
      | _ => false
    | _ => false)

/-- Entries of a directory in order. -/
def sorted (s : ListingStyle) (files : FileSystem) (directory : Inode) (entries : List Entry) :
    List Entry :=
  let ordered := entries.mergeSort fun a b => s.compareEntries files a b != .gt
  let ordered := if s.reverse then ordered.reverse else ordered
  let (first, rest) := ordered.partition (s.isFirst files directory)
  first ++ rest

/-- What is behind a name. -/
def mark (s : ListingStyle) (files : FileSystem) (i : Inode) : String :=
  match s.marks, files.node? i with
  | .none, _ => ""
  | _, some (.directory ..) => "/"
  | .slash, _ => ""
  | _, some (.link _) => "@"
  | .all, some (.file _ true) => "*"
  | _, _ => ""

/-- A name as it is shown. -/
def shown (s : ListingStyle) (name : String) : String :=
  let text := match s.names with
    | .plain => name
    | .shell => shellName name
    | .shellAlways => quotedName name
    | .marked => "\"" ++ escapedText (·.toNat == 34) name ++ "\""
    | .escaped => escapedText (· == ' ') name
  if s.masks then String.ofList (text.toList.map fun c => if Text.isPrintable c then c else '?')
  else text

/-- Entries as they are shown. -/
def text (s : ListingStyle) (files : FileSystem) (entries : List Entry) : String :=
  let names := entries.map fun e => s.shown e.1 ++ s.mark files e.2
  if s.zero then String.join (names.map (· ++ "\x00")) else s.layout.text s.line names

/-- Whether a name is listed. -/
def lists (s : ListingStyle) (name : String) : Bool :=
  (s.hidden || !name.startsWith ".") && !s.ignored.any (globMatches · name.toList)

/-- What is listed of a directory, in order. -/
def entries (s : ListingStyle) (files : FileSystem) (i : Inode) : List Entry :=
  match files.node? i with
  | some (.directory parent entries) =>
    let own := if s.special then [(".", i), ("..", parent)] else []
    s.sorted files i ((own ++ entries).filter fun e => s.lists e.1)
  | _ => []

/-- The lists of a directory and of those in it. Each has a head where several are listed. -/
def blocks (s : ListingStyle) (files : FileSystem) (headed : Bool) :
    Nat → String → Inode → List String
  | 0, _, _ => []
  | fuel + 1, name, i =>
    let entries := s.entries files i
    let head := if headed then s.shown name ++ ":\n" else ""
    let deeper := if !s.recursive then [] else
      entries.filter fun e => files.isDirectoryNode e.2 && e.1 != "." && e.1 != ".."
    let within (e : Entry) : List String :=
      blocks s files true fuel (if name.endsWith "/" then name ++ e.1 else name ++ "/" ++ e.1) e.2
    (head ++ s.text files entries) :: deeper.flatMap within

/-- What an operand stands for. -/
def target (s : ListingStyle) (c : Context) (files : FileSystem) (operand : String) :
    Except Nat Inode :=
  let itself := files.lookup c.cwd false (c.locate operand)
  let followed := files.lookup c.cwd true (c.locate operand)
  let orItself (keep : Inode → Bool) : Except Nat Inode :=
    match followed with
    | .ok i => if keep i then .ok i else itself
    | .error e => if e = Fault.noEntry || e = Fault.tooManyLinks then itself else .error e
  match s.links with
  | .never => itself
  | .always => followed
  | .operands => orItself fun _ => true
  | .directories => orItself files.isDirectoryNode

/-- Nothing is listed of nothing. -/
@[simp] theorem sorted_nil (s : ListingStyle) (files : FileSystem) (directory : Inode) :
    s.sorted files directory [] = [] := by
  simp [sorted]

end ListingStyle

/-! ### `ls` -/

open LongOption in
/-- The options of `ls`. -/
def lsOptions : OptionTable where
  flags := "abcdfghiklmnopqrstuvxABCDFGHLNQRSUXZ1"
  valued := "wIT"
  long := [plain "all" "a", plain "escape" "b", plain "directory" "d", plain "dired" "D",
    plain "full-time", plain "group-directories-first", plain "human-readable" "h",
    plain "inode" "i", plain "kibibytes" "k", plain "numeric-uid-gid" "n", plain "no-group" "G",
    plain "hide-control-chars" "q", plain "reverse" "r", plain "size" "s", valued "width" "w",
    plain "almost-all" "A", plain "ignore-backups" "B", optional "classify", plain "file-type",
    plain "si", plain "dereference-command-line" "H",
    plain "dereference-command-line-symlink-to-dir", valued "hide", valued "ignore" "I",
    valued "indicator-style", plain "dereference" "L", plain "literal" "N", plain "quote-name" "Q",
    valued "quoting-style", plain "recursive" "R", valued "format", plain "show-control-chars",
    valued "sort", valued "tabsize" "T", valued "time", valued "time-style", plain "zero",
    optional "color", optional "hyperlink", valued "block-size", plain "context" "Z",
    plain "author"]

/-- What `--sort` can be. -/
def lsOrders : Choice where
  option := "--sort"
  words := [("none", "U"), ("time", "t"), ("size", "S"), ("extension", "X"), ("version", "v"),
    ("width", "width")]

/-- What `--format` can be. -/
def lsFormats : Choice where
  option := "--format"
  words := [("verbose", "l"), ("long", "l"), ("commas", "m"), ("horizontal", "x"), ("across", "x"),
    ("vertical", "C"), ("single-column", "1")]

/-- What `--indicator-style` can be. -/
def lsMarks : Choice where
  option := "--indicator-style"
  words := [("none", "none"), ("slash", "p"), ("file-type", "file-type"), ("classify", "F")]

/-- What `--quoting-style` can be. -/
def lsQuotes : Choice where
  option := "--quoting-style"
  words := [("literal", "N"), ("shell", "shell"), ("shell-always", "shell-always"),
    ("shell-escape", "shell-escape"), ("shell-escape-always", "shell-escape-always"), ("c", "Q"),
    ("c-maybe", "c-maybe"), ("escape", "b"), ("locale", "locale"), ("clocale", "clocale")]

/-- What is asked for that depends on a terminal. -/
def lsWhen (option : String) : Choice where
  option
  words := [("always", "always"), ("yes", "always"), ("force", "always"), ("never", "never"),
    ("no", "never"), ("none", "never"), ("auto", "auto"), ("tty", "auto"), ("if-tty", "auto")]

/-- What is wrong with an option. -/
def lsMistake? (c : Context) (key value : String) : Option (Program Arguments) :=
  match key with
  | "sort" => lsOrders.refuse c value 1
  | "format" => lsFormats.refuse c value 1
  | "indicator-style" => lsMarks.refuse c value 1
  | "quoting-style" => lsQuotes.refuse c value 1
  | "classify" | "color" | "hyperlink" =>
    if value == "" then none else (lsWhen ("--" ++ key)).refuse c value 1
  | "w" | "T" =>
    if (natural? value).isSome then none
    else some do
      complain c (if key == "w" then "invalid line width: " ++ curled value
        else "invalid tab size: " ++ curled value)
      .exit 2
  | _ => none

/-- The options in the place of those that only have another name or form for them. -/
def lsMeaning (o : String × String) : String × String :=
  let meaning (ch : Choice) : String × String := ((ch.meaning? o.2).getD "", "")
  match o.1 with
  | "sort" => meaning lsOrders
  | "format" => meaning lsFormats
  | "indicator-style" => meaning lsMarks
  | "quoting-style" => meaning lsQuotes
  | "classify" =>
    let wanted := o.2 == "" || (lsWhen "").meaning? o.2 == some "always"
    if wanted then ("F", "") else ("no-classify", "")
  | _ => o

/-- How options ask for directories to be listed. -/
def listingStyle (c : Context) (a : Arguments) : ListingStyle :=
  let a := { a with options := a.options.map lsMeaning }
  let ignored := a.values "I" ++ (if a.has "B" then ["*~", ".*~"] else []) ++
    (if a.has "a" || a.has "A" || a.has "f" then [] else a.values "hide")
  let marks : ListingMarks := match a.lastOf? ["F", "p", "file-type", "none"] with
    | some "F" => .all
    | some "p" => .slash
    | some "file-type" => .kinds
    | _ => .none
  { order := match a.lastOf? ["U", "f", "t", "c", "u", "S", "X", "v", "width"] with
      | some "U" | some "f" => .none
      | some "t" | some "c" | some "u" => .byAge
      | some "S" => .bySize
      | some "X" => .byEnding
      | some "v" => .byVersion
      | some "width" => .byWidth
      | _ => .byName
    reverse := a.has "r"
    directoriesFirst := a.has "group-directories-first"
    hidden := a.has "a" || a.has "A" || a.has "f"
    special := match a.lastOf? ["a", "A", "f"] with
      | some key => key != "A"
      | none => false
    ignored := ignored.map globText
    marks
    names := match a.lastOf? ["N", "Q", "b", "shell", "shell-escape", "shell-always",
        "shell-escape-always"] with
      | some "Q" => .marked
      | some "b" => .escaped
      | some "shell" | some "shell-escape" => .shell
      | some "shell-always" | some "shell-escape-always" => .shellAlways
      | _ => .plain
    masks := a.lastOf? ["q", "show-control-chars"] == some "q"
    links := match a.lastOf? ["L", "H", "dereference-command-line-symlink-to-dir"] with
      | some "L" => .always
      | some "H" => .operands
      | some _ => .directories
      | none => if a.has "d" || marks = .all then .never else .directories
    layout := match a.lastOf? ["1", "C", "x", "m"] with
      | some "C" => .down
      | some "x" => .across
      | some "m" => .commas
      | _ => .single
    line := (((a.value? "w") <|> c.environment.get? "COLUMNS").bind natural?).getD 80
    itself := a.has "d"
    recursive := a.has "R"
    zero := a.has "zero" }

/-- How deep directories are listed. -/
def deepestList : Nat := 200

/-- Writes what is in directories. -/
def ls : Utility := fun c => do
  let a ← parseArguments c lsOptions 2 (firstWrong (lsMistake? c))
  let s := listingStyle c a
  let files ← Program.survey
  let operands := if a.operands.isEmpty then ["."] else a.operands
  let found := operands.map fun name => (name, s.target c files name)
  let missing := found.filterMap fun (name, r) => match r with
    | .error e => some (name, e)
    | .ok _ => none
  missing.forM fun (name, e) =>
    complain c ("cannot access " ++ quotedName name ++ ": " ++ systemText e)
  let there := found.filterMap fun (name, r) => match r with
    | .ok i => some (name, i)
    | .error _ => none
  let isDirectory (e : Entry) : Bool := !s.itself && files.isDirectoryNode e.2
  let here := match files.lookup c.cwd true "." with
    | .ok i => i
    | .error _ => FileSystem.root
  let (directories, others) := (s.sorted files here there).partition isDirectory
  let headed := s.recursive || 1 < operands.length
  let lists := directories.flatMap fun e => s.blocks files headed deepestList e.1 e.2
  let blocks := (if others.isEmpty then [] else [s.text files others]) ++ lists
  emit (Text.encode ("\n".intercalate blocks))
  return if missing.isEmpty then 0 else 2

end LineShell.Userland
