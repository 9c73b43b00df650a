import LineShell.Proofs.Operators
import LineShell.Token.Lexer

namespace LineShell.Token

/-!
# Where tokens stand on their line

The lexer tells where a token ends from how far its stream has come, whatever has ended the token: a
gap that was dropped, a character that was put back, or the end of the line.

* `Lexer.At` — the lexer at the reader's place in the line: what it has put back, what its stream
  has left and how far the stream has come;
* `Lexer.At.tokens_eq`, `readings_eq` — that the two go on alike, so that the lexer's tokens end
  where the lexemes do;
* `Span`, `spansOf` — the words and the runs of a line in their places;
* `readings_exact` — that the tokens are read from spans which lie in order on the line, with every
  character in one of them that is not a gap, and end where these spans end.
-/

/-! ### The lexer follows the reader -/

namespace Lexer

variable {l l' : Lexer} {s : State} {offset : Nat} {c : Char} {cs : List Char}

/-- That the lexer is where the reader is, with the same characters of a token. -/
def Stands (l : Lexer) : State → Prop
  | .gap => l.mode = .gap ∧ l.read = [] ∧ l.quoted = false
  | .word read => l.mode = .word ∧ l.read = read ∧ l.holds = true
  | .run read => l.mode = .run ∧ l.read = read ∧ l.holds = true
  | .quotation mark read => l.mode = .quotation mark ∧ l.read = read
  | .escape read => l.mode = .escape none ∧ l.read = read
  | .quotedEscape read => l.mode = .escape (some '"') ∧ l.read = read

/-- That the stream has come to an offset, with nothing put back and no end met. -/
structure Taken (l : Lexer) (offset : Nat) (cs : List Char) : Prop where
  nothing : l.putBack = []
  rest : l.stream.rest = cs
  position : l.stream.position = offset
  going : l.stream.exhausted = false

/-- The lexer at the reader's place in the line. In a gap the character before the stream's position
may have been put back. -/
inductive At (l : Lexer) (s : State) (offset : Nat) : List Char → Prop
  | taken {cs : List Char} : l.Stands s → l.Taken offset cs → l.At s offset cs
  | putBack {c : Char} {cs : List Char} : l.Stands s → s = .gap → l.putBack = [c] →
    ({ l with putBack := [] } : Lexer).Taken (offset + 1) cs → l.At s offset (c :: cs)

theorem At.stands (h : l.At s offset cs) : l.Stands s := by
  cases h <;> assumption

/-- Either way the next character is taken. -/
theorem At.take (h : l.At s offset (c :: cs)) : l.take.1 = some c ∧ l.take.2.Stands s ∧
    l.take.2.Taken (offset + 1) cs := by
  cases h with
  | taken hs ht =>
    obtain ⟨h₁, h₂, h₃, h₄⟩ := ht
    have htake : l.take = (some c, { l with stream := ⟨cs, offset + 1, false⟩ }) := by
      simp [Lexer.take, Stream.take, h₁, h₂, h₃, h₄]
    rw [htake]
    exact ⟨rfl, by cases s <;> exact hs, h₁, rfl, rfl, rfl⟩
  | putBack hs hgap hput ht =>
    have htake : l.take = (some c, { l with putBack := [] }) := by simp [Lexer.take, hput]
    rw [htake]
    exact ⟨rfl, by cases s <;> exact hs, ht⟩

/-- A character that ends no lexeme ends no token, and brings the lexer along. -/
theorem handle_more (hs : l.Stands s) (ht : l.Taken offset cs) (hnext : (s.next c).1 = none) :
    ∃ l', l.handle l.mode (some c) = .more l' ∧ l'.Stands (s.next c).2 ∧ l'.Taken offset cs := by
  cases s <;> grind [Stands, Taken, handle, State.next, State.first, endToken, holds, isQuoteMark,
    isOperatorChar, isGap]

/-- A character that ends a lexeme ends a token. If it is no gap it has been put back. -/
theorem handle_over {value : List Char} (hs : l.Stands s) (ht : l.Taken offset cs)
    (hnext : (s.next c).1 = some value) :
    ∃ l', l.handle l.mode (some c) = .over l' ∧ l'.value? = some value ∧
      l'.stop = (offset : Int) - 1 ∧ (s.next c).2 = State.first c ∧ l'.restart.Stands .gap ∧
      (l'.Taken offset cs ∧ isGap c = true ∨
        l'.putBack = [c] ∧ ({ l' with putBack := [] } : Lexer).Taken offset cs) := by
  cases s <;> grind [Stands, Taken, handle, State.next, State.first, endToken, holds, value?, stop,
    restart, isQuoteMark, isOperatorChar, isGap]

/-- The lexer at the reader's place goes on to the reader's next place. -/
theorem At.step_more (h : l.At s offset (c :: cs)) (hnext : (s.next c).1 = none) :
    ∃ l', l.step = .more l' ∧ l'.At (s.next c).2 (offset + 1) cs := by
  obtain ⟨hc, hs, ht⟩ := h.take
  obtain ⟨l', hstep, hs', ht'⟩ := handle_more hs ht hnext
  refine ⟨l', ?_, .taken hs' ht'⟩
  rw [step, hc, ← take_mode]
  exact hstep

/-- A token ends where the lexeme does. The character that has ended it is dropped, or it has been
put back and is the next one. -/
theorem At.step_over {value : List Char} (h : l.At s offset (c :: cs))
    (hnext : (s.next c).1 = some value) :
    ∃ l', l.step = .over l' ∧ l'.value? = some value ∧ l'.stop = offset ∧
      (s.next c).2 = State.first c ∧
      (isGap c = true ∧ l'.restart.At .gap (offset + 1) cs ∨
        l'.restart.At .gap offset (c :: cs)) := by
  obtain ⟨hc, hs, ht⟩ := h.take
  obtain ⟨l', hstep, hvalue, hstop, hfirst, hgap, hleft⟩ := handle_over hs ht hnext
  refine ⟨l', ?_, hvalue, by simp [hstop], hfirst, ?_⟩
  · rw [step, hc, ← take_mode]
    exact hstep
  · rcases hleft with ⟨ht', hc'⟩ | ⟨hput, ht'⟩
    · exact .inl ⟨hc', .taken hgap ⟨ht'.nothing, ht'.rest, ht'.position, ht'.going⟩⟩
    · exact .inr (.putBack hgap rfl hput ⟨ht'.nothing, ht'.rest, ht'.position, ht'.going⟩)

theorem tokens_of_more (h : l.step = .more l') : l.tokens = l'.tokens := by
  rw [tokens]
  split <;> simp_all

theorem tokens_of_failed {e : LineError} (h : l.step = .failed e) : l.tokens = ⟨[], some e⟩ := by
  rw [tokens]
  split <;> simp_all

theorem tokens_of_none (h : l.step = .over l') (hvalue : l'.value? = none) :
    l.tokens = ⟨[], none⟩ := by
  rw [tokens]
  split <;> simp_all
  split <;> simp_all

theorem tokens_of_some {value : List Char} (h : l.step = .over l')
    (hvalue : l'.value? = some value) :
    l.tokens = { l'.restart.tokens with read := ⟨value, l'.stop⟩ :: l'.restart.tokens.read } := by
  rw [tokens]
  split <;> simp_all
  split <;> simp_all

end Lexer

/-- The tokens that lexemes are read as. -/
def Lexemes.readings (ls : Lexemes) : Readings :=
  ⟨ls.read.map fun l => ⟨l.value, l.stop⟩, ls.failure⟩

namespace Lexer

variable {l l' : Lexer} {s : State} {offset : Nat} {c : Char} {cs : List Char}

/-- Past the end of the line there are no tokens. -/
theorem tokens_ended (h : l.mode = .ended) : l.tokens = ⟨[], none⟩ := by
  have hstep : l.step = .over { l.take.2 with read := [], quoted := false } := by
    rw [step, h]
    rfl
  exact tokens_of_none hstep rfl

/-- What the end of the line makes of the lexer's place is what it makes of the reader's. -/
theorem tokens_finish (hs : l.Stands s) (ht : l.Taken offset []) :
    l.tokens = (s.finish offset).readings := by
  obtain ⟨h₁, h₂, h₃, h₄⟩ := ht
  have htake : l.take = (none, { l with stream := ⟨[], offset, true⟩ }) := by
    simp [Lexer.take, Stream.take, h₁, h₂, h₃]
  -- a token that has been read ends with the line, and nothing follows it
  have hover : ∀ read, l.read = read → l.holds = true → l.step =
        .over { l with stream := ⟨[], offset, true⟩, mode := .ended } →
      l.tokens = ⟨[⟨read.reverse, offset⟩], none⟩ := by
    rintro read rfl hholds hstep
    have hvalue : ({ l with stream := ⟨[], offset, true⟩, mode := .ended } : Lexer).value? =
        some l.read.reverse := if_pos hholds
    rw [tokens_of_some hstep hvalue, tokens_ended rfl]
    rfl
  cases s with
  | gap =>
    obtain ⟨hmode, hread, hquoted⟩ := hs
    have hstep : l.step = .over { l with stream := ⟨[], offset, true⟩, mode := .ended } := by
      rw [step, htake, hmode]
      rfl
    exact tokens_of_none hstep (by simp [value?, holds, hread, hquoted])
  | word read =>
    obtain ⟨hmode, hread, hholds⟩ := hs
    exact hover read hread hholds (by rw [step, htake, hmode]; rfl)
  | run read =>
    obtain ⟨hmode, hread, hholds⟩ := hs
    exact hover read hread hholds (by rw [step, htake, hmode]; rfl)
  | quotation mark read => exact tokens_of_failed (by rw [step, htake, hs.1]; rfl)
  | escape read => exact tokens_of_failed (by rw [step, htake, hs.1]; rfl)
  | quotedEscape read => exact tokens_of_failed (by rw [step, htake, hs.1]; rfl)

/-- From the same place the lexer and the reader go on alike. -/
theorem At.tokens_eq (h : l.At s offset cs) : l.tokens = (lexemesFrom offset s cs).readings := by
  induction cs generalizing l s offset with
  | nil =>
    cases h with
    | taken hs ht => exact tokens_finish hs ht
  | cons c cs ih =>
    rw [lexemesFrom]
    split
    · next next hnext =>
      obtain ⟨l', hstep, h'⟩ := h.step_more (by rw [hnext])
      rw [tokens_of_more hstep, ih h', hnext]
    · next value next hnext =>
      obtain ⟨l', hstep, hvalue, hstop, hfirst, hrest⟩ := h.step_over (by rw [hnext])
      -- what was put back is taken at once, as the first character of what follows
      have hrest : l'.restart.tokens = (lexemesFrom (offset + 1) next cs).readings := by
        rw [hnext] at hfirst
        obtain rfl : next = State.first c := hfirst
        rcases hrest with ⟨hgap, h'⟩ | h'
        · rw [ih h', State.first, if_pos hgap]
        · obtain ⟨l'', hstep, h''⟩ := h'.step_more rfl
          rw [tokens_of_more hstep, ih h'']
          rfl
      rw [tokens_of_some hstep hvalue, hrest, hstop]
      rfl

theorem ofLine_at (line : List Char) : (ofLine line).At .gap 0 line :=
  .taken ⟨rfl, rfl, rfl⟩ ⟨rfl, rfl, rfl, rfl⟩

end Lexer

/-- **Tokens and lexemes.** The lexer gives the lexemes of a line. Where it tells the end of each
from its stream, the end is where the lexeme ends. -/
theorem readings_eq (line : List Char) : readings line = (lexemes line).readings :=
  (Lexer.ofLine_at line).tokens_eq

/-! ### Spans -/

/-- What a segment adds to the values of the tokens. -/
def Segment.value : Segment → List Char
  | .gap _ => []
  | .word pieces => valueOf pieces
  | .run chars => chars

/-- A word or a run on a line, from the offset of its first character on. -/
structure Span where
  segment : Segment
  start : Nat
  deriving DecidableEq, Repr

namespace Span

/-- The offset just past the last character. -/
def stop (p : Span) : Nat := p.start + p.segment.source.length

/-- Whether the character at an offset belongs to the span. -/
def Covers (p : Span) (i : Nat) : Prop := p.start ≤ i ∧ i < p.stop

/-- Whether no character stands between the spans. -/
def Glued (p q : Span) : Prop := ∀ i, ¬(p.stop ≤ i ∧ i < q.start)

/-- The lexeme that the span is read as. -/
def lexeme (p : Span) : Lexeme := ⟨p.segment.value, p.stop⟩

/-- The token that the span is read as. -/
def reading (p : Span) : Reading := ⟨p.segment.value, p.stop⟩

theorem glued_iff {p q : Span} (h : p.stop ≤ q.start) : p.Glued q ↔ p.stop = q.start := by
  constructor
  · intro hglued
    have := hglued p.stop
    omega
  · rintro heq i ⟨hle, hlt⟩
    omega

/-- A run starts where it would start if its source were its value. -/
theorem start_reading {p : Span} {chars : List Char} (h : p.segment = .run chars) :
    p.reading.start = p.start := by
  simp [Reading.start, reading, stop, h, Segment.value, Segment.source]

end Span

/-- The words and runs of segments from an offset on. -/
def spansOf (offset : Nat) : List Segment → List Span
  | [] => []
  | .gap _ :: gs => spansOf (offset + 1) gs
  | .word pieces :: gs => ⟨.word pieces, offset⟩ :: spansOf (offset + (sourceOf pieces).length) gs
  | .run chars :: gs => ⟨.run chars, offset⟩ :: spansOf (offset + chars.length) gs

theorem lexemesOf_eq_map (offset : Nat) (gs : List Segment) :
    lexemesOf offset gs = (spansOf offset gs).map Span.lexeme := by
  induction gs generalizing offset with
  | nil => rfl
  | cons g gs ih =>
    cases g with
    | gap c => exact ih _
    | word pieces => exact congrArg (_ :: ·) (ih _)
    | run chars => exact congrArg (_ :: ·) (ih _)

/-- The spans are segments in their places. -/
theorem exists_append_of_mem_spansOf {offset : Nat} {gs : List Segment} {p : Span}
    (h : p ∈ spansOf offset gs) : ∃ before after, gs = before ++ p.segment :: after ∧
      p.start = offset + (textOf before).length := by
  induction gs generalizing offset with
  | nil => exact absurd h List.not_mem_nil
  | cons g gs ih =>
    have hbehind : p ∈ spansOf (offset + g.source.length) gs → ∃ before after,
        g :: gs = before ++ p.segment :: after ∧ p.start = offset + (textOf before).length := by
      intro h
      obtain ⟨before, after, rfl, hstart⟩ := ih h
      refine ⟨g :: before, after, rfl, ?_⟩
      rw [hstart, textOf_cons, List.length_append, Nat.add_assoc]
    cases g with
    | gap c => exact hbehind h
    | word | run =>
      rcases List.mem_cons.1 h with rfl | h
      · exact ⟨[], gs, rfl, rfl⟩
      · exact hbehind h

/-- No word and no run is empty, and its value is no longer than its source. -/
theorem Segmented.length_source {e : Edge} {g : Segment} {gs : List Segment}
    (h : Segmented e (g :: gs)) : 0 < g.source.length ∧ g.value.length ≤ g.source.length := by
  cases h with
  | gap => exact ⟨Nat.one_pos, Nat.zero_le _⟩
  | word _ hne hp => exact ⟨length_sourceOf_pos hne hp, length_valueOf_le _⟩
  | run _ hne => exact ⟨List.length_pos_iff.2 hne, Nat.le_refl _⟩

theorem le_start_of_mem_spansOf {offset : Nat} {gs : List Segment} {p : Span}
    (h : p ∈ spansOf offset gs) : offset ≤ p.start := by
  obtain ⟨before, after, -, hstart⟩ := exists_append_of_mem_spansOf h
  omega

/-- Spans follow each other. -/
theorem spansOf_pairwise (offset : Nat) (gs : List Segment) :
    (spansOf offset gs).Pairwise fun p q => p.stop ≤ q.start := by
  induction gs generalizing offset with
  | nil => exact .nil
  | cons g gs ih =>
    cases g with
    | gap c => exact ih _
    | word | run => exact .cons (fun q hq => le_start_of_mem_spansOf hq) (ih _)

/-- A character outside all spans is a gap. -/
theorem isGap_of_not_covers {e : Edge} {gs : List Segment} (h : Segmented e gs) (offset : Nat)
    {i : Nat} {c : Char} (hc : (textOf gs)[i]? = some c)
    (hout : ∀ p ∈ spansOf offset gs, ¬p.Covers (offset + i)) : isGap c = true := by
  induction gs generalizing e offset i with
  | nil => cases hc
  | cons g gs ih =>
    -- a character is in the first segment or behind it
    have hbehind : ∀ {e'}, Segmented e' gs → g.source.length ≤ i →
        (∀ p ∈ spansOf (offset + g.source.length) gs, ¬p.Covers (offset + i)) → isGap c = true := by
      intro e' hgs hi hout
      rw [textOf_cons, List.getElem?_append_right hi] at hc
      refine ih hgs (offset + g.source.length) hc ?_
      rwa [show offset + g.source.length + (i - g.source.length) = offset + i from by omega]
    cases h with
    | gap _ hgap hgs =>
      cases i with
      | zero =>
        cases hc
        exact hgap
      | succ i => exact hbehind hgs (Nat.le_add_left _ _) hout
    | word _ _ _ hgs | run _ _ _ hgs =>
      refine hbehind hgs ?_ fun p hp => hout p (.tail _ hp)
      by_contra hi
      refine hout _ (.head _) ⟨Nat.le_add_right _ _, ?_⟩
      show offset + i < offset + _
      simp only [Segment.source] at *
      omega

/-- No two spans have a character in common. -/
theorem eq_of_covers {offset i : Nat} {gs : List Segment} {p q : Span} (hp : p ∈ spansOf offset gs)
    (hq : q ∈ spansOf offset gs) (hpi : p.Covers i) (hqi : q.Covers i) : p = q := by
  have hapart : p = q ∨ p.stop ≤ q.start ∨ q.stop ≤ p.start :=
    List.Pairwise.forall_of_forall_of_flip (R := fun p q : Span =>
        p = q ∨ p.stop ≤ q.start ∨ q.stop ≤ p.start)
      (fun _ _ => .inl rfl) ((spansOf_pairwise offset gs).imp fun h => .inr (.inl h))
      ((spansOf_pairwise offset gs).imp fun h => .inr (.inr h)) hp hq
  obtain ⟨hp₁, hp₂⟩ := hpi
  obtain ⟨hq₁, hq₂⟩ := hqi
  rcases hapart with h | h | h
  · exact h
  all_goals omega

/-- A span that is taken for an operator is a run. -/
theorem exists_run_of_isOperator {gs : List Segment} {p : Span} (h : Segmented .gap gs)
    (hp : p ∈ spansOf 0 gs)
    (hop : isOperator (textOf gs) p.lexeme = true) : ∃ chars, p.segment = .run chars := by
  obtain ⟨before, after, rfl, hstart⟩ := exists_append_of_mem_spansOf hp
  obtain ⟨e, hsegment⟩ := h.right
  obtain ⟨segment, start⟩ := p
  cases segment with
  | gap c => cases hop
  | word pieces =>
    obtain rfl : start = (textOf before).length := hstart.trans (Nat.zero_add _)
    cases hsegment with
    | word _ hne hp =>
      have hword := isOperator_word hne hp (textOf before) (textOf after)
      rw [textOf_append, textOf_cons] at hop
      exact absurd hop (by rw [Bool.not_eq_true]; exact hword)
  | run chars => exact ⟨chars, rfl⟩

/-- **Offsets.** The tokens of a line are read from its spans. Each ends, as the lexer tells it,
just past the last character of its span, and does not start before the line. The spans lie in order
on the line, every character belongs to just one of them unless it is a gap outside them all, and an
operator starts where the token before it ends just if no character stands between the two. -/
theorem readings_exact {text : List Char} {ts : List Token} (h : scan text = .ok ts) :
    ∃ gs, Segmented .gap gs ∧ textOf gs = text ∧
      readings text = ⟨(spansOf 0 gs).map Span.reading, none⟩ ∧
      (∀ p ∈ spansOf 0 gs, p.start < p.stop ∧ p.stop ≤ text.length ∧
        (text.drop p.start).take (p.stop - p.start) = p.segment.source ∧ 0 ≤ p.reading.start) ∧
      ((spansOf 0 gs).Pairwise fun p q => p.stop ≤ q.start) ∧
      (∀ i c, text[i]? = some c → (∃! p, p ∈ spansOf 0 gs ∧ p.Covers i) ∨
        isGap c = true ∧ ∀ p ∈ spansOf 0 gs, ¬p.Covers i) ∧
      (∀ p ∈ spansOf 0 gs, isOperator text p.lexeme = true → ∃ chars, p.segment = .run chars) ∧
      ∀ before p q after chars, spansOf 0 gs = before ++ p :: q :: after →
        q.segment = .run chars → (p.reading.stop = q.reading.start ↔ p.Glued q) := by
  obtain ⟨hread, -⟩ := exists_placed_of_scan h
  obtain ⟨gs, hgs, rfl⟩ := exists_segmented hread
  refine ⟨gs, hgs, rfl, ?_, fun p hp => ?_, spansOf_pairwise 0 gs, ?_,
    fun p hp => exists_run_of_isOperator hgs hp, ?_⟩
  · rw [readings_eq, lexemes_segments hgs, lexemesOf_eq_map]
    simp [Lexemes.readings, Span.lexeme, Span.reading]
  · obtain ⟨before, after, rfl, hstart⟩ := exists_append_of_mem_spansOf hp
    obtain ⟨e, hsegment⟩ := hgs.right
    obtain ⟨hpos, hvalue⟩ := hsegment.length_source
    have hstop : p.stop = p.start + p.segment.source.length := rfl
    rw [Nat.zero_add] at hstart
    refine ⟨by omega, ?_, ?_, ?_⟩
    · rw [hstop, hstart, textOf_append, textOf_cons]
      simp
    · rw [hstop, Nat.add_sub_cancel_left, hstart, textOf_append, textOf_cons, List.drop_left,
        List.take_left]
    · simp only [Reading.start, Span.reading]
      omega
  · intro i c hc
    by_cases hcover : ∃ p ∈ spansOf 0 gs, p.Covers i
    · obtain ⟨p, hp, hcovers⟩ := hcover
      exact .inl ⟨p, ⟨hp, hcovers⟩, fun q hq => eq_of_covers hq.1 hp hq.2 hcovers⟩
    · have hout : ∀ p ∈ spansOf 0 gs, ¬p.Covers i := fun p hp hcovers => hcover ⟨p, hp, hcovers⟩
      exact .inr ⟨isGap_of_not_covers hgs 0 hc (by rwa [Nat.zero_add]), hout⟩
  · intro before p q after chars hspans hrun
    have hpairwise := spansOf_pairwise 0 gs
    rw [hspans, List.pairwise_append] at hpairwise
    have hle : p.stop ≤ q.start := List.rel_of_pairwise_cons hpairwise.2.1 (.head _)
    rw [Span.start_reading hrun, Span.glued_iff hle]
    exact Int.natCast_inj

/-- Tokens that end at a gap, before a character that is put back, and with the line. -/
theorem readings_exact_of_glued :
    readings gluedLine = ⟨[⟨['>'], 2⟩, ⟨['|'], 3⟩, ⟨['b'], 4⟩, ⟨['2'], 6⟩, ⟨['>'], 7⟩, ⟨['c'], 10⟩],
        none⟩ ∧
      ∃ gs, Segmented .gap gs ∧ textOf gs = gluedLine ∧
        readings gluedLine = ⟨(spansOf 0 gs).map Span.reading, none⟩ := by
  have hscan : scan gluedLine = .ok [.word ">", .pipe, .word "b", .redirect .error, .word "c"] := by
    rfl
  obtain ⟨gs, hgs, htext, hread, -⟩ := readings_exact hscan
  exact ⟨by rw [readings_eq]; rfl, gs, hgs, htext, hread⟩

end LineShell.Token
