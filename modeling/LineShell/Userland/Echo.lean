import LineShell.Userland.Arguments
import LineShell.Userland.Escape

namespace LineShell.Userland

open Text (Bytes)

/-!
# Programs that write their arguments

* `echo` — writes its arguments in a line;
* `yes` — does so again and again.
-/

/-- Whether an argument is made of options only. -/
def isEchoOption (s : String) : Bool :=
  match s.toList with
  | '-' :: c :: cs => (c :: cs).all fun c => c == 'n' || c == 'e' || c == 'E'
  | _ => false

/-- Whether a program was called with nothing but a wish for help. -/
def Context.asksForHelp (c : Context) : Bool :=
  c.arguments == ["--help"] || c.arguments == ["--version"]

/-- Writes its arguments in a line. -/
def echo : Utility := fun c => do
  if c.asksForHelp then return 0
  let options := c.arguments.takeWhile isEchoOption
  let letters := options.flatMap fun o => o.toList.drop 1
  let bytes := Text.encode (" ".intercalate (c.arguments.drop options.length))
  let escaped := (letters.filter (· != 'n')).getLast? == some 'e'
  let text := if escaped then unescape .echoed bytes.length bytes else { out := bytes }
  emit (if text.goes && !letters.contains 'n' then text.out ++ [newline] else text.out)
  return 0

/-- Writes the same lines again and again. -/
def repeatLine (lines : Bytes) : Nat → Program Int
  | 0 => pure 0
  | fuel + 1 => do
    emit lines
    repeatLine lines fuel

/-- Writes its arguments in a line, without end. -/
def yes : Utility := fun c => do
  let a ← parseArguments c {} 1
  let words := if a.operands.isEmpty then ["y"] else a.operands
  let line := Text.encode (" ".intercalate words ++ "\n")
  repeatLine (List.replicate (1024 / line.length + 1) line).flatten readings

end LineShell.Userland
