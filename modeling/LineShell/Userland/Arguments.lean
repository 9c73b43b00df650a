import LineShell.Userland.Extended
import LineShell.Userland.Lines

namespace LineShell.Userland

/-!
# Options of programs

* `OptionTable` — the options that a program knows, by letters and by long names;
* `Arguments` — the options that were given, in order, and the operands;
* `OptionTable.parse` — arguments as options and operands, which may be mixed unless told not to;
* `parseArguments` — the same for a program, which ends where its arguments make no sense;
* `Choice` — the words that an option's value can be.
-/

/-- Whether an option comes with a value. -/
inductive ValueNeed
  | never
  | always
  /-- Only where it is attached to the option. -/
  | attached
  deriving DecidableEq, Repr

/-- An option by its long name, and the key that it counts as. -/
structure LongOption where
  name : String
  key : String
  need : ValueNeed
  deriving DecidableEq, Repr

namespace LongOption

/-- An option without a value. -/
def plain (name : String) (key : String := name) : LongOption := ⟨name, key, .never⟩

/-- An option with a value. -/
def valued (name : String) (key : String := name) : LongOption := ⟨name, key, .always⟩

/-- An option that may have a value. -/
def optional (name : String) (key : String := name) : LongOption := ⟨name, key, .attached⟩

end LongOption

/-- The options that a program knows. The key of an option with a letter is that letter. -/
structure OptionTable where
  /-- The letters of options without a value. -/
  flags : String := ""
  /-- The letters of options with a value. -/
  valued : String := ""
  /-- The letters of options that may have a value. -/
  optional : String := ""
  /-- Long names, in the order in which messages list them. -/
  long : List LongOption := []
  /-- Whether options may follow operands. -/
  mixed : Bool := true
  deriving DecidableEq, Repr

/-- The options that were given, in order, and the operands. -/
structure Arguments where
  options : List (String × String) := []
  operands : List String := []
  /-- What is wrong with the first argument that makes no sense, behind which nothing is read. -/
  mistake : Option String := none
  deriving DecidableEq, Repr

namespace Arguments

/-- Whether an option was given. -/
def has (a : Arguments) (key : String) : Bool := a.options.any (·.1 == key)

/-- The value that was given last to an option. -/
def value? (a : Arguments) (key : String) : Option String :=
  (a.options.reverse.find? (·.1 == key)).map (·.2)

/-- All values given to an option. -/
def values (a : Arguments) (key : String) : List String :=
  (a.options.filter (·.1 == key)).map (·.2)

/-- Which of some options was given last. -/
def lastOf? (a : Arguments) (keys : List String) : Option String :=
  (a.options.reverse.find? fun o => keys.contains o.1).map (·.1)

/-- The arguments with one more option before all others. -/
def withOption (key value : String) (a : Arguments) : Arguments :=
  { a with options := (key, value) :: a.options }

/-- The arguments with one more operand before all others. -/
def withOperand (operand : String) (a : Arguments) : Arguments :=
  { a with operands := operand :: a.operands }

end Arguments

namespace OptionTable

/-- The long names that are known, with those that every program knows. -/
def names (t : OptionTable) : List LongOption := t.long ++ [.plain "help", .plain "version"]

/-- The complaint about a letter that is no option. -/
def unknownLetter (c : Char) : String := "invalid option -- '" ++ c.toString ++ "'"

/-- What comes of the start of an argument: options, and what is wrong or missing after them. -/
inductive Reading
  | complete (options : List (String × String))
  /-- An option that needs the next argument as its value, and the complaint if there is none. -/
  | lacking (options : List (String × String)) (key complaint : String)
  | wrong (options : List (String × String)) (complaint : String)
  deriving DecidableEq, Repr

/-- The reading with one more option before all others. -/
def Reading.withOption (key : String) : Reading → Reading
  | complete options => complete ((key, "") :: options)
  | lacking options k complaint => lacking ((key, "") :: options) k complaint
  | wrong options complaint => wrong ((key, "") :: options) complaint

/-- What the letters after a dash stand for. -/
def letters (t : OptionTable) : List Char → Reading
  | [] => .complete []
  | c :: cs =>
    let key := c.toString
    if t.valued.toList.contains c then
      if cs.isEmpty then .lacking [] key ("option requires an argument -- '" ++ key ++ "'")
      else .complete [(key, String.ofList cs)]
    else if t.optional.toList.contains c then .complete [(key, String.ofList cs)]
    else if t.flags.toList.contains c then (t.letters cs).withOption key
    else .wrong [] (unknownLetter c)

/-- The long option that a name is, or is short for, or the complaint that there is none. -/
def named (t : OptionTable) (name whole : String) : Except String LongOption :=
  match t.names.find? (·.name == name) with
  | some o => .ok o
  | none =>
    match t.names.filter (·.name.startsWith name) with
    | [] => .error ("unrecognized option '--" ++ whole ++ "'")
    | o :: others =>
      match others.filter fun p => p.key != o.key || p.need != o.need with
      | [] => .ok o
      | different =>
        let listed := (o :: different).map fun p => " '--" ++ p.name ++ "'"
        .error ("option '--" ++ whole ++ "' is ambiguous; possibilities:" ++ String.join listed)

/-- What a long name stands for, perhaps with a value behind an equals sign. -/
def longName (t : OptionTable) (cs : List Char) : Reading :=
  let name := String.ofList (cs.takeWhile (· != '='))
  match t.named name (String.ofList cs) with
  | .error complaint => .wrong [] complaint
  | .ok o =>
    let shown := "option '--" ++ o.name ++ "' "
    match cs.dropWhile (· != '='), o.need with
    | [], .always => .lacking [] o.key (shown ++ "requires an argument")
    | [], _ => .complete [(o.key, "")]
    | _ :: _, .never => .wrong [] (shown ++ "doesn't allow an argument")
    | _ :: value, _ => .complete [(o.key, String.ofList value)]

/-- Arguments as options and operands. -/
def parse (t : OptionTable) : List String → Arguments
  | [] => {}
  | argument :: rest =>
    let before (options : List (String × String)) (a : Arguments) : Arguments :=
      { a with options := options ++ a.options }
    let given : Reading → Arguments
      | .complete options => before options (t.parse rest)
      | .wrong options complaint => { options, mistake := some complaint }
      | .lacking options key complaint =>
        match rest with
        | value :: rest => before (options ++ [(key, value)]) (t.parse rest)
        | [] => { options, mistake := some complaint }
    match argument.toList with
    | ['-', '-'] => { operands := rest }
    | '-' :: '-' :: cs => given (t.longName cs)
    | '-' :: c :: cs => given (t.letters (c :: cs))
    | _ => if t.mixed then (t.parse rest).withOperand argument
      else { operands := argument :: rest }

@[simp] theorem parse_nil (t : OptionTable) : t.parse [] = {} := rfl

/-- Behind two dashes everything is an operand. -/
@[simp] theorem parse_dashes (t : OptionTable) (rest : List String) :
    t.parse ("--" :: rest) = { operands := rest } := by simp [parse]

end OptionTable

/-- The options that were given, in order, each with its value. -/
abbrev GivenOptions := List (String × String)

/-- The arguments of a program, or its end if they make no sense. What `wrong` says about options
comes before what is wrong behind them. Options that ask for help end the program. -/
def parseArguments (c : Context) (t : OptionTable) (status : Int)
    (wrong : GivenOptions → Option (Program Arguments) := fun _ => none) : Program Arguments :=
  let a := t.parse c.arguments
  let before := a.options.takeWhile fun o => o.1 != "help" && o.1 != "version"
  match wrong before, a.mistake with
  | some p, _ => p
  | none, complaint =>
    if before.length < a.options.length then .exit 0
    else match complaint with
      | some text => misuse c text status
      | none => pure a

/-- What is wrong with the first option with which something is wrong on its own. -/
def firstWrong {α : Type} (wrong : String → String → Option α) (options : GivenOptions) :
    Option α :=
  options.findSome? fun o => wrong o.1 o.2

/-! ### Values -/

/-- What an option's value can be: words, each with what it stands for. -/
structure Choice where
  /-- The option, as messages name it. -/
  option : String
  words : List (String × String)
  deriving DecidableEq, Repr

namespace Choice

/-- What a value stands for: the word that it is, or is short for. Otherwise the kind of the
mistake. -/
def meaning (ch : Choice) (value : String) : Except String String :=
  match ch.words.lookup value with
  | some m => .ok m
  | none =>
    match (ch.words.filter (·.1.startsWith value)).map (·.2) with
    | [] => .error "invalid"
    | m :: others => if others.all (· == m) then .ok m else .error "ambiguous"

/-- What a value stands for, if it does. -/
def meaning? (ch : Choice) (value : String) : Option String := (ch.meaning value).toOption

/-- The words in lines; those that stand for the same are in one. -/
def listed : Option String → List (String × String) → String
  | _, [] => "\n"
  | last, (word, m) :: words =>
    (if last == some m then ", " else "\n  - ") ++ curled word ++ listed (some m) words

/-- The end of a program with a value that stands for nothing. -/
def refuse {α : Type} (ch : Choice) (c : Context) (value : String) (status : Int)
    (usage : String := "") : Option (Program α) :=
  match ch.meaning value with
  | .ok _ => none
  | .error kind => some do
    complain c (kind ++ " argument " ++ curled value ++ " for " ++ curled ch.option)
    Program.say 2 ("Valid arguments are:" ++ listed none ch.words ++ usage ++
      "Try '" ++ c.name ++ " --help' for more information.\n")
    .exit status

end Choice

/-- The number that a text starts with, behind blanks and perhaps a plus, and the text behind it. -/
def countPrefix? (cs : List Char) : Option (Nat × List Char) :=
  let cs := match cs.dropWhile Extended.isSpace with
    | '+' :: cs => cs
    | cs => cs
  let digits := cs.takeWhile Char.isDigit
  if digits.isEmpty then none
  else some (Extended.digitsValue 10 digits, cs.drop digits.length)

/-- The number that a text is. -/
def count? (s : String) : Option Nat :=
  match countPrefix? s.toList with
  | some (n, []) => some n
  | _ => none

/-- A text as a number in decimal digits. -/
def natural? (s : String) : Option Nat :=
  let cs := s.toList
  if cs != [] && cs.all Char.isDigit then
    some (cs.foldl (fun n c => n * 10 + (c.toNat - '0'.toNat)) 0)
  else none

end LineShell.Userland
