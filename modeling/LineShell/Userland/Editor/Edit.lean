import LineShell.Userland.Editor.Grammar

namespace LineShell.Userland.Editor

/-!
# Editing a line

* `Sought.search` — the leftmost match of a pattern, or of the one that was used last;
* `Casing`, `replacementText` — what takes the place of a match, with its letters changed;
* `replaceMatches` — a line with matches replaced;
* `RangeState`, `concerns` — whether a command is for a line;
* `listed` — a line in characters that can all be seen.
-/

/-- The pattern that is meant, if there was one before. -/
def Sought.resolve (p : Sought) (before : Option Sought) : Option Sought :=
  match p.pattern with
  | some _ => some p
  | none => before.map fun q => { q with fold := q.fold || p.fold }

/-- The leftmost match in a text from some place on. -/
def Sought.search (p : Sought) (before rest : List Char) : Option (Place × Place) :=
  p.pattern.bind fun q => q.search p.fold (fun _ _ => true) before rest

/-! ### Replacements -/

/-- How letters are changed from here on: all of them, and the next one. -/
structure Casing where
  all : CaseChange := .stop
  next : Option CaseChange := none
  deriving DecidableEq, Repr

/-- A letter as a change makes it. -/
def CaseChange.apply : CaseChange → Char → Char
  | upper, c | upperNext, c => Text.capital c
  | lower, c | lowerNext, c => Text.small c
  | stop, c => c

/-- The casing behind a change. -/
def Casing.after (k : Casing) : CaseChange → Casing
  | .upperNext => { k with next := some .upperNext }
  | .lowerNext => { k with next := some .lowerNext }
  | change => { k with all := change, next := none }

/-- A text as a casing makes it, and the casing behind it. -/
def Casing.text (k : Casing) : List Char → List Char × Casing
  | [] => ([], k)
  | c :: cs => ((k.next.getD k.all).apply c :: cs.map k.all.apply, { k with next := none })

/-- What takes the place of a match. -/
def replacementText (s t : Place) (ps : List Piece) : List Char :=
  let step (done : List Char × Casing) (p : Piece) : List Char × Casing :=
    let put (cs : List Char) : List Char × Casing :=
      let (cs, k) := done.2.text cs
      (done.1 ++ cs, k)
    match p with
    | .text c => put [c]
    | .group 0 => put (Pattern.between s t)
    | .group n => put ((t.groups.lookup n).getD [])
    | .change c => (done.1, done.2.after c)
  (ps.foldl step ([], {})).1

/-- A text with matches replaced, and whether any was. `k` matches have been passed, the last of
which ended here if `touching`. -/
def replaceMatches (r : Substitution) (p : Sought) :
    Nat → Nat → Bool → List Char → List Char → List Char × Bool
  | 0, _, _, _, rest => (rest, false)
  | fuel + 1, k, touching, before, rest =>
    match p.search before rest with
    | none => (rest, false)
    | some (s, t) =>
      let passed := rest.take (rest.length - s.rest.length)
      let isEmpty := s.rest.length == t.rest.length
      let again := isEmpty && touching && passed.isEmpty
      let k := if again then k else k + 1
      let hit := !again && (k == r.nth || (r.all && r.nth < k))
      let text := if hit then replacementText s t r.replacement else Pattern.between s t
      if hit && !r.all then (passed ++ text ++ t.rest, true)
      else if isEmpty then
        match t.rest with
        | [] => (passed ++ text, hit)
        | c :: cs =>
          let (more, later) := replaceMatches r p fuel k false (c :: t.before) cs
          (passed ++ text ++ c :: more, hit || later)
      else
        let (more, later) := replaceMatches r p fuel k true t.before t.rest
        (passed ++ text ++ more, hit || later)

/-- A text with matches replaced, and whether any was. -/
def Substitution.apply (r : Substitution) (p : Sought) (text : List Char) : List Char × Bool :=
  replaceMatches r p (2 * text.length + 2) 0 false [] text

/-! ### Addresses -/

/-- The line that is edited, as addresses see it. -/
structure Standing where
  number : Nat
  isLast : Bool
  space : List Char
  /-- The pattern that was used last. -/
  before : Option Sought := none
  deriving DecidableEq, Repr

/-- Whether an address is the line's, and the pattern that was used last then; nothing if a pattern
is meant that was not there. -/
def Address.fits (s : Standing) : Address → Option (Bool × Option Sought)
  | line n => some (n == s.number, s.before)
  | steps first step =>
    some (first ≤ s.number && (s.number - first) % step == 0, s.before)
  | last => some (s.isLast, s.before)
  | later _ | multiple _ => some (false, s.before)
  | matching p => do
    let q ← p.resolve s.before
    return ((q.search [] s.space).isSome, some q)

/-- How far a range of lines has come. -/
inductive RangeState
  | outside
  /-- Within the range, which ends with a line of this number if that is known. -/
  | inside (stop : Option Nat)
  | closed
  deriving DecidableEq, Repr

/-- The number of the last line of a range that starts with a line, if it is known then. -/
def Address.stop? (number : Nat) : Address → Option Nat
  | line n => some n
  | later n => some (number + n)
  | multiple n => some (if n = 0 then number else (number + n - 1) / n * n)
  | _ => none

/-- Whether a command is for the line, how far its range has come then, and the pattern that was
used last. -/
def concerns (c : Command) (r : RangeState) (s : Standing) :
    Option (Bool × RangeState × Option Sought) := do
  let answer (inside : Bool) (r : RangeState) (p : Option Sought) :
      Option (Bool × RangeState × Option Sought) := some (inside != c.negated, r, p)
  match c.first, c.second with
  | none, _ => answer true r s.before
  | some a, none => do
    let (fits, p) ← a.fits s
    answer fits r p
  | some a, some b =>
    match r with
    | .inside (some stop) =>
      answer (s.number ≤ stop) (if stop ≤ s.number then .closed else r) s.before
    | .inside none => do
      let (fits, p) ← b.fits s
      answer true (if fits then .closed else r) p
    | _ => do
      let (fits, p) ← a.fits s
      if !fits then answer false r p
      else match b.stop? s.number with
        | some stop => answer true (if s.number < stop then .inside (some stop) else r) p
        | none => answer true (.inside none) p

/-- How far the range of a command has come before the first line. -/
def Command.startState (c : Command) : RangeState :=
  match c.first with
  | some (.line 0) => .inside none
  | _ => .outside

/-! ### Lines in characters that can be seen -/

/-- A byte in characters that can be seen. -/
def visibleByte (b : UInt8) : List Char :=
  let letters : List (Nat × Char) :=
    [(92, '\\'), (7, 'a'), (8, 'b'), (12, 'f'), (10, 'n'), (13, 'r'), (9, 't'), (11, 'v')]
  match letters.lookup b.toNat with
  | some letter => ['\\', letter]
  | none =>
    if 32 ≤ b && b < 127 then [Char.ofNat b.toNat]
    else '\\' :: [b.toNat / 64, b.toNat / 8 % 8, b.toNat % 8].map Nat.digitChar

/-- A line in characters that can be seen, broken so that no part is wider than asked for. -/
def listed (width : Nat) (bs : Text.Bytes) : List Char :=
  let step (done : List Char × Nat) (b : UInt8) : List Char × Nat :=
    let shown := visibleByte b
    if 0 < width && width < done.2 + shown.length + 1 then
      (done.1 ++ ['\\', '\n'] ++ shown, shown.length)
    else (done.1 ++ shown, done.2 + shown.length)
  (bs.foldl step ([], 0)).1 ++ ['$']

/-- Where nothing matches, nothing is replaced. -/
theorem Substitution.apply_of_no_match {p : Sought} {text : List Char}
    (h : p.search [] text = none) (r : Substitution) : r.apply p text = (text, false) := by
  simp [apply, replaceMatches, h]

end LineShell.Userland.Editor
