import LineShell.Text.Width

namespace LineShell.Userland

/-!
# Names in lines

* `Layout` — one name in a line, in columns downwards or across, or with commas between them;
* `Layout.text` — names in lines;
* `columnWidths` — how wide columns have to be, and `columnCount` — how many there is room for.
-/

/-- How names are put in lines. -/
inductive Layout
  | single
  | down
  | across
  | commas
  deriving DecidableEq, Repr

/-- How many columns a text takes. -/
def textWidth (s : String) : Nat := s.toList.foldl (fun n c => n + Text.columns c) 0

/-! ### Columns -/

/-- The column of a name among `count`, by its place among `total`. -/
def columnOf (down : Bool) (count total place : Nat) : Nat :=
  if down then place / ((total + count - 1) / count) else place % count

/-- How wide columns have to be for names of some widths. There is a gap behind all but the last. -/
def columnWidths (down : Bool) (count : Nat) (widths : List Nat) : List Nat :=
  (List.range count).map fun j =>
    let inside := widths.zipIdx.filter fun w => columnOf down count widths.length w.2 == j
    inside.foldl (fun most w => max most (w.1 + if j + 1 = count then 0 else 2)) 3

/-- The largest number of columns, up to some, for which a line has room; one at least. -/
def columnCount (down : Bool) (line : Nat) (widths : List Nat) : Nat → Nat
  | 0 => 1
  | count + 1 =>
    if count = 0 then 1
    else if (columnWidths down (count + 1) widths).foldl (· + ·) 0 < line then count + 1
    else columnCount down line widths count

/-- What leads from one column of a line to another: tabs as long as they do not lead too far, and
spaces. -/
def indent (source target : Nat) : List Char :=
  if target ≤ source then []
  else if (source + 1) / 8 < target / 8 then '\t' :: indent (source + (8 - source % 8)) target
  else ' ' :: indent (source + 1) target
termination_by target - source
decreasing_by all_goals omega

/-- Names in one line, each in its column. -/
def columnLine (widths : List Nat) : Nat → List String → String
  | _, [] => ""
  | _, [name] => name
  | start, name :: names =>
    let next := start + widths.headD 0
    name ++ String.ofList (indent (start + textWidth name) next) ++
      columnLine widths.tail next names

/-- Names in columns. -/
def columnLines (down : Bool) (line : Nat) (names : List String) : List String :=
  let widths := names.map textWidth
  let most := min (line / 3 + if line % 3 = 0 then 0 else 1) names.length
  let count := columnCount down line widths most
  let columns := columnWidths down count widths
  let rows := (names.length + count - 1) / count
  (List.range rows).map fun row =>
    let inside := names.zipIdx.filter fun n =>
      if down then n.2 % rows == row else n.2 / count == row
    columnLine columns 0 (inside.map (·.1))

/-! ### Commas -/

/-- Names with commas between them, behind some columns of a line. -/
def commaText (line : Nat) : Nat → List String → String
  | _, [] => ""
  | _, [name] => name
  | start, name :: next :: names =>
    let here := start + textWidth name
    let fits := here + textWidth next + 2 < line
    name ++ (if fits then ", " else ",\n") ++
      commaText line (if fits then here + 2 else 0) (next :: names)

namespace Layout

/-- Names in lines that have so many columns. -/
def text (layout : Layout) (line : Nat) (names : List String) : String :=
  let ended (lines : List String) : String := String.join (lines.map (· ++ "\n"))
  match layout with
  | single => ended names
  | down => ended (columnLines true line names)
  | across => ended (columnLines false line names)
  | commas => if names.isEmpty then "" else commaText line 0 names ++ "\n"

@[simp] theorem text_single_nil (line : Nat) : single.text line [] = "" := rfl

end Layout

end LineShell.Userland
