import LineShell.Text.Utf8

namespace LineShell.History

open Text (Bytes)

/-!
# The file of typed lines

* `bindings` — the keys that walk through the lines typed before;
* `entries` — the lines that a file holds: what is empty or not ended by a newline is none;
* `render` — the file of some lines;
* `keepLast` — a file cut to its last lines.
-/

/-- What the keys of the line editor are bound to. -/
def bindings : List String := [
  "\\e[A: previous-history", "\\e[B: next-history", "\\e[1;5D: backward-word",
  "\\e[1;5C: forward-word", "set editing-mode emacs"]

/-- The byte that ends a line. -/
abbrev newline : UInt8 := 10

/-- The byte of a carriage return. -/
abbrev carriageReturn : UInt8 := 13

/-- The lines of a file that are ended by a newline, without it. -/
def endedLines : Bytes → List Bytes
  | [] => []
  | b :: bs =>
    if b = newline then [] :: endedLines bs
    else match endedLines bs with
      | [] => []
      | l :: ls => (b :: l) :: ls

/-- A line without a carriage return at its end, up to its first NUL. -/
def cleanLine (l : Bytes) : Bytes :=
  (if l.getLast? = some carriageReturn then l.dropLast else l).takeWhile (· != 0)

/-- Whether a line looks like the time mark of the line after it: `#` and a digit. -/
def isTimeMark : Bytes → Bool
  | 35 :: d :: _ => 48 ≤ d && d ≤ 57
  | _ => false

/-- The lines that a file holds. In a file that starts with a time mark, time marks are none. -/
def entries (file : Bytes) : List Bytes :=
  let ls := ((endedLines file).map cleanLine).filter (· != [])
  if isTimeMark file then ls.filter (!isTimeMark ·) else ls

/-- The file of some lines. -/
def render (ls : List Bytes) : Bytes := ls.flatMap (· ++ [newline])

/-- What stands after the newline that has `n` newlines between it and the end of the file, if
there is one. -/
def afterNewline : Nat → Bytes → Option Bytes
  | _, [] => none
  | n, b :: bs =>
    match afterNewline n bs with
    | some rest => some rest
    | none => if b = newline && bs.count newline == n then some bs else none

/-- A file cut to its last `n` lines. A newline that starts the file is not looked at. -/
def keepLast (n : Nat) (file : Bytes) : Bytes :=
  match file with
  | [] => []
  | _ :: bs => (afterNewline n bs).getD file

@[simp] theorem entries_nil : entries [] = [] := rfl

@[simp] theorem render_nil : render [] = [] := rfl

theorem render_append (ls ms : List Bytes) : render (ls ++ ms) = render ls ++ render ms := by
  simp [render]

end LineShell.History
