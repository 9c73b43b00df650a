import LineShell.Userland.Pattern.Bracket

namespace LineShell.Userland

/-!
# File name patterns

* `GlobPiece` — a piece of a pattern: a character, any character, one of some, or any text;
* `globPieces` — the pieces of a text in which some characters may be quoted;
* `globMatches` — whether pieces match a text, and `globEnds` — what they leave of one.
-/

/-- A piece of a pattern. -/
inductive GlobPiece
  | exactly (c : Char)
  | any
  | among (test : CharTest)
  | anything
  deriving DecidableEq, Repr

/-- The pieces of characters, each of which may be quoted and then stands for itself. -/
def globPieces : Nat → List (Char × Bool) → List GlobPiece
  | 0, _ => []
  | _, [] => []
  | fuel + 1, (c, quoted) :: cs =>
    if quoted then .exactly c :: globPieces fuel cs
    else if c == '?' then .any :: globPieces fuel cs
    else if c == '*' then .anything :: globPieces fuel cs
    else if c == '[' then
      let body := cs.map fun (d, q) => if q && (d == ']' || d == '-') then '\x00' else d
      let (negated, body) := match body with
        | '!' :: body => (true, body)
        | '^' :: body => (true, body)
        | body => (false, body)
      match Pattern.members {} (body.length + 1) true body with
      | .ok (ranges, rest) =>
        .among (.set negated ranges) :: globPieces fuel (cs.drop (cs.length - rest.length))
      | .error _ => .exactly c :: globPieces fuel cs
    else .exactly c :: globPieces fuel cs

/-- The pieces of a text in which a backslash quotes what follows. -/
def globText (s : String) : List GlobPiece :=
  let rec mark : List Char → List (Char × Bool)
    | '\\' :: c :: cs => (c, true) :: mark cs
    | c :: cs => (c, false) :: mark cs
    | [] => []
  let marked := mark s.toList
  globPieces (marked.length + 1) marked

/-- What pieces can leave of a text behind them, the longest rest first. -/
def globEnds : List GlobPiece → List Char → List (List Char)
  | [], cs => [cs]
  | .anything :: ps, cs =>
    let rec tails : List Char → List (List Char)
      | [] => [[]]
      | c :: cs => (c :: cs) :: tails cs
    (tails cs).flatMap (globEnds ps)
  | .any :: ps, _ :: cs => globEnds ps cs
  | .exactly d :: ps, c :: cs => if c == d then globEnds ps cs else []
  | .among test :: ps, c :: cs => if Pattern.passes false c test then globEnds ps cs else []
  | _ :: _, [] => []

/-- Whether pieces match a whole text. -/
def globMatches (ps : List GlobPiece) (cs : List Char) : Bool := (globEnds ps cs).contains []

/-- Whether pieces are more than characters that stand for themselves. -/
def hasWildcard (ps : List GlobPiece) : Bool :=
  ps.any fun
    | .exactly _ => false
    | _ => true

/-- Characters that stand for themselves match themselves and nothing else. -/
theorem globMatches_exactly (ds cs : List Char) :
    globMatches (ds.map .exactly) cs = true ↔ cs = ds := by
  have h : ∀ ds cs : List Char, globEnds (ds.map .exactly) cs =
      if ds <+: cs then [cs.drop ds.length] else [] := by
    intro ds
    induction ds with
    | nil => intro cs; simp [globEnds]
    | cons d ds ih =>
      intro cs
      cases cs with
      | nil => simp [globEnds]
      | cons c cs =>
        simp only [List.map_cons, globEnds, ih, List.cons_prefix_cons, List.length_cons,
          List.drop_succ_cons, beq_iff_eq]
        by_cases hc : c = d
        · subst hc; simp
        · simp [hc, Ne.symm hc]
  simp only [globMatches, h]
  by_cases hp : ds <+: cs
  · obtain ⟨t, rfl⟩ := hp
    simp
  · simp only [hp, if_false, List.contains_nil, Bool.false_eq_true, false_iff]
    intro e
    exact hp (e ▸ List.prefix_refl _)

end LineShell.Userland
