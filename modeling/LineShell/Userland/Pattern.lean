import LineShell.Text.Uppercase
import LineShell.Text.Utf8
import LineShell.Userland.Extended

namespace LineShell.Userland

open Text (Bytes)

/-!
# Regular expressions

* `CharTest`, `Pattern` — what a character and what a piece of text can match;
* `Place` — a place in a text, with what the groups have matched up to there;
* `Pattern.ends` — the places where a match from a place can end;
* `Pattern.search` — the leftmost match, and of those the longest.
-/

/-- The number from which on characters stand for bytes that are no text. -/
def strayBase : Nat := 0x10FF00

/-- Whether a character stands for a byte that is no text. -/
def isStray (c : Char) : Bool := strayBase ≤ c.toNat

/-- What a single character can match. -/
inductive CharTest
  | exactly (c : Char)
  | anything
  | set (negated : Bool) (members : List (Char × Char))
  deriving DecidableEq, Repr

/-- What a piece of text can match. -/
inductive Pattern
  | empty
  | one (test : CharTest)
  | both (p q : Pattern)
  | either (p q : Pattern)
  | times (p : Pattern) (least : Nat) (most : Option Nat)
  | group (n : Nat) (p : Pattern)
  /-- What a group has matched, once more. -/
  | again (n : Nat)
  | lineStart
  | lineEnd
  | behindNewline
  | beforeNewline
  | wordStart
  | wordEnd
  | wordEdge (there : Bool)
  deriving DecidableEq, Repr

/-- A place in a text, with what the groups have matched up to there. -/
structure Place where
  /-- What comes before, the last character first. -/
  before : List Char
  rest : List Char
  groups : List (Nat × List Char) := []
  deriving DecidableEq, Repr

namespace Pattern

/-- Whether a character is part of a word. -/
def isWordChar (c : Char) : Bool := c.isAlphanum || c == '_' || (127 < c.toNat && !isStray c)

/-- Both cases of a character. -/
def cases (fold : Bool) (c : Char) : List Char :=
  if fold then [c, Text.small c, Text.capital c] else [c]

/-- Whether a character passes a test. What is no text passes none. -/
def passes (fold : Bool) (c : Char) : CharTest → Bool
  | .exactly d => (cases fold c).contains d
  | .anything => !isStray c
  | .set negated members => !isStray c &&
    ((cases fold c).any fun c => members.any fun (a, b) => a ≤ c && c ≤ b) != negated

/-- Whether a place is at the start, and at the end, of a word. -/
def wordSides (s : Place) : Bool × Bool :=
  let left := s.before.head?.any isWordChar
  let right := s.rest.head?.any isWordChar
  (!left && right, left && !right)

/-- Places without those that have as much text left as one before. -/
def distinct : List Place → List Place
  | [] => []
  | s :: ss => s :: (distinct ss).filter fun t => t.rest.length != s.rest.length

/-- The places that repeated steps lead to, those after more steps first. A step that may be left
out must get ahead. -/
def repeated (step : Place → List Place) : Nat → Nat → Option Nat → List Place → List Place
  | 0, least, _, here => if least = 0 then here else []
  | fuel + 1, least, most, here =>
    let ending := if least = 0 then here else []
    if here.isEmpty || most = some 0 then ending
    else
      let next := here.flatMap fun s =>
        (step s).filter fun t => 0 < least || t.rest.length < s.rest.length
      repeated step fuel (least - 1) (most.map (· - 1)) (distinct next) ++ ending

/-- What stands between a place and a later one. -/
def between (s t : Place) : List Char := s.rest.take (s.rest.length - t.rest.length)

/-- The places where a match from a place can end. -/
def ends (fold : Bool) : Pattern → Place → List Place
  | empty, s => [s]
  | one test, s =>
    match s.rest with
    | [] => []
    | c :: cs => if passes fold c test then [{ s with before := c :: s.before, rest := cs }] else []
  | both p q, s => (p.ends fold s).flatMap (q.ends fold)
  | either p q, s => p.ends fold s ++ q.ends fold s
  | times p least most, s => repeated (p.ends fold) (s.rest.length + least + 1) least most [s]
  | group n p, s =>
    (p.ends fold s).map fun t =>
      { t with groups := (n, between s t) :: t.groups.filter (·.1 != n) }
  | again n, s =>
    match s.groups.lookup n with
    | none => []
    | some text =>
      if text.isPrefixOf s.rest then
        [{ s with before := text.reverse ++ s.before, rest := s.rest.drop text.length }]
      else []
  | lineStart, s => if s.before.isEmpty then [s] else []
  | lineEnd, s => if s.rest.isEmpty then [s] else []
  | behindNewline, s => if s.before.head? == some '\n' then [s] else []
  | beforeNewline, s => if s.rest.head? == some '\n' then [s] else []
  | wordStart, s => if (wordSides s).1 then [s] else []
  | wordEnd, s => if (wordSides s).2 then [s] else []
  | wordEdge there, s => if ((wordSides s).1 || (wordSides s).2) == there then [s] else []

/-- The place of some places that is furthest on. -/
def furthest : List Place → Option Place
  | [] => none
  | s :: ss =>
    match furthest ss with
    | none => some s
    | some t => if t.rest.length < s.rest.length then some t else some s

/-- The leftmost match from some place on that is accepted, and of those the longest: where it
starts and where it ends. -/
def search (fold : Bool) (p : Pattern) (accept : Place → Place → Bool) :
    List Char → List Char → Option (Place × Place)
  | before, rest =>
    let start : Place := { before, rest }
    match furthest ((p.ends fold start).filter (accept start)) with
    | some t => some (start, t)
    | none =>
      match rest with
      | [] => none
      | c :: cs => search fold p accept (c :: before) cs
termination_by _ rest => rest.length

/-- A pattern that matches exactly a text. -/
def literal : List Char → Pattern
  | [] => empty
  | c :: cs => both (one (.exactly c)) (literal cs)

@[simp] theorem ends_empty (fold : Bool) (s : Place) : empty.ends fold s = [s] := rfl

/-- Where a literal text matches, it stands. -/
theorem rest_of_mem_ends_literal {cs : List Char} {s t : Place}
    (h : t ∈ (literal cs).ends false s) : s.rest = cs ++ t.rest := by
  induction cs generalizing s with
  | nil =>
    simp only [literal, ends, List.mem_singleton] at h
    simp [h]
  | cons c cs ih =>
    simp only [literal, ends, List.mem_flatMap] at h
    obtain ⟨u, hu, ht⟩ := h
    split at hu
    · cases hu
    · rename_i d ds hd
      split at hu
      · rename_i hp
        simp only [List.mem_singleton] at hu
        subst hu
        have := ih ht
        simp only [passes, cases, Bool.false_eq_true, if_false, List.contains_cons,
          List.contains_nil, Bool.or_false, beq_iff_eq] at hp
        subst hp
        simpa [hd] using this
      · cases hu

end Pattern

/-! ### Lines as characters -/

/-- The characters of a line. A byte that is no text is a character of its own. -/
def glyphs : Bytes → List Char
  | [] => []
  | b :: bs =>
    let stray := Char.ofNat (strayBase + b.toNat) :: glyphs bs
    if b < 128 then Char.ofNat b.toNat :: glyphs bs
    else match Text.Lead.ofByte? b with
      | none => stray
      | some lead =>
        match h : Text.continuation lead.count lead.low lead.high lead.bits bs with
        | (some n, rest) =>
          have : rest.length ≤ bs.length := by
            have := Text.length_continuation_le lead.count lead.low lead.high lead.bits bs
            rw [h] at this
            exact this
          Char.ofNat n :: glyphs rest
        | (none, _) => stray
termination_by bs => bs.length

/-- The bytes of characters that come from lines. -/
def unglyph (cs : List Char) : Bytes :=
  cs.flatMap fun c =>
    if isStray c then [UInt8.ofNat (c.toNat - strayBase)] else Text.encode c.toString

@[simp] theorem glyphs_nil : glyphs [] = [] := by simp [glyphs]

@[simp] theorem unglyph_nil : unglyph [] = [] := rfl

/-- Characters in a row have the bytes of each in a row. -/
theorem unglyph_append (cs ds : List Char) : unglyph (cs ++ ds) = unglyph cs ++ unglyph ds := by
  simp [unglyph]

end LineShell.Userland
