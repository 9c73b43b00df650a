namespace LineShell.Userland.Script

/-!
# Shell scripts

* `Piece`, `Word` — words with quotes and what stands for other text;
* `Script` — commands, lists of commands, conditions, loops and functions.
-/

/-- A piece of a word. -/
inductive Piece
  | text (s : String) (quoted : Bool)
  /-- The value of a parameter, perhaps changed by an operator with the text of a word. -/
  | parameter (name operator word : String) (quoted : Bool)
  /-- What the commands of a text write. -/
  | commands (text : String) (quoted : Bool)
  /-- What a text comes to as an arithmetic expression. -/
  | arithmetic (text : String) (quoted : Bool)
  deriving DecidableEq, Repr

/-- A word: its pieces in order. -/
abbrev Word := List Piece

/-- What is done to a descriptor before a command runs. -/
inductive Redirection
  | input (fd : Nat) (target : Word)
  | output (fd : Nat) (target : Word) (append : Bool)
  | copy (fd : Nat) (source : Word)
  /-- The descriptor reads a text that is part of the script. -/
  | here (fd : Nat) (body : Word)
  deriving DecidableEq, Repr

/-- A simple command: variables that are set, words, redirections, and the line it stands in. -/
structure Simple where
  assignments : List (String × Word) := []
  words : List Word := []
  redirections : List Redirection := []
  line : Nat := 1
  deriving DecidableEq, Repr

/-- The text of a word, if it stands for nothing else. -/
def literal? (w : Word) : Option String :=
  let text? : Piece → Option String
    | .text s _ => some s
    | _ => none
  (w.mapM text?).map String.join

/-- The text of a word that can be a keyword: nothing in it is quoted. -/
def keyword? (w : Word) : Option String :=
  let text? : Piece → Option String
    | .text s false => some s
    | _ => none
  (w.mapM text?).map String.join

/-- Whether something in a word is quoted. -/
def isQuoted (w : Word) : Bool :=
  w.any fun
    | .text _ quoted => quoted
    | _ => false

@[simp] theorem literal?_nil : literal? [] = some "" := rfl

end LineShell.Userland.Script

namespace LineShell.Userland

open Script

/-- A script. -/
inductive Script
  | nothing
  | simple (s : Simple)
  | both (a b : Script)
  | andThen (a b : Script)
  | orElse (a b : Script)
  | inverted (a : Script)
  /-- Commands whose effects on the shell itself are lost. -/
  | grouped (a : Script)
  /-- Commands that are not waited for. -/
  | aside (a : Script)
  | piped (a b : Script)
  | redirected (a : Script) (redirections : List Script.Redirection) (line : Nat)
  | choose (condition yes no : Script)
  | loop (condition : Script) (expected : Bool) (body : Script)
  | each (name : String) (words : List Word) (body : Script) (line : Nat)
  /-- The first branch with a pattern that the subject matches. -/
  | select (subject : Word) (branches : Script) (line : Nat)
  | branch (patterns : List Word) (body rest : Script)
  | define (name : String) (body : Script)
  deriving Repr

end LineShell.Userland
