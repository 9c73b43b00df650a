import LineShell.Token.Lexeme
import Mathlib.Tactic.SplitIfs

namespace LineShell.Token

/-!
# How a line is spelled

What the reader takes apart, one character at a time, put together again.

* `Inner`, `Piece` — the ways to write the characters of a word: between double quote marks, or as
  they are, behind a backslash, between quote marks;
* `Segment`, `Segmented` — a gap, a word in pieces or a run of operator characters, and a line that
  consists of them, with words and runs as long as they can be;
* `State.Reads` — characters that the reader takes without coming to the end of a lexeme;
* `lexemes_segments` — that the lexemes of segments are their words and runs;
* `exists_segmented` — that every line which can be read to its end has segments.
-/

/-! ### Pieces of words -/

/-- A character between double quote marks, as it is written. -/
inductive Inner
  | char (c : Char)
  | escape (c : Char)
  deriving DecidableEq, Repr

namespace Inner

/-- The characters on the line. -/
def source : Inner → List Char
  | char c => [c]
  | escape c => ['\\', c]

/-- What they stand for. A backslash before any other character stands for itself. -/
def value : Inner → List Char
  | char c => [c]
  | escape c => if c == '\\' || c == '"' then [c] else ['\\', c]

/-- Only a backslash brings in a quote mark or another backslash. -/
def Proper : Inner → Prop
  | char c => c ≠ '"' ∧ c ≠ '\\'
  | escape _ => True

end Inner

/-- A piece of a word, as it is written. -/
inductive Piece
  | plain (c : Char)
  | escaped (c : Char)
  | single (text : List Char)
  | double (inners : List Inner)
  deriving DecidableEq, Repr

namespace Piece

/-- The characters on the line. -/
def source : Piece → List Char
  | plain c => [c]
  | escaped c => ['\\', c]
  | single text => '\'' :: (text ++ ['\''])
  | double inners => '"' :: (inners.flatMap Inner.source ++ ['"'])

/-- What they stand for. -/
def value : Piece → List Char
  | plain c => [c]
  | escaped c => [c]
  | single text => text
  | double inners => inners.flatMap Inner.value

/-- A plain character is one that means nothing else, and no quotation holds its own mark. -/
def Proper : Piece → Prop
  | plain c => isGap c = false ∧ isOperatorChar c = false ∧ c ≠ '\\' ∧ isQuoteMark c = false
  | escaped _ => True
  | single text => '\'' ∉ text
  | double inners => ∀ i ∈ inners, i.Proper

/-- A piece starts inside a word wherever it stands. -/
theorem exists_source_eq {p : Piece} (h : p.Proper) :
    ∃ c cs, p.source = c :: cs ∧ isGap c = false ∧ isOperatorChar c = false := by
  cases p with
  | plain c => exact ⟨c, [], rfl, h.1, h.2.1⟩
  | escaped c => exact ⟨'\\', [c], rfl, rfl, rfl⟩
  | single text => exact ⟨'\'', _, rfl, rfl, rfl⟩
  | double inners => exact ⟨'"', _, rfl, rfl, rfl⟩

end Piece

/-- The source of a word in pieces. -/
def sourceOf (pieces : List Piece) : List Char := pieces.flatMap Piece.source

/-- The value of a word in pieces. -/
def valueOf (pieces : List Piece) : List Char := pieces.flatMap Piece.value

@[simp] theorem sourceOf_nil : sourceOf [] = [] := rfl

@[simp] theorem sourceOf_cons (p : Piece) (ps : List Piece) :
    sourceOf (p :: ps) = p.source ++ sourceOf ps := rfl

@[simp] theorem valueOf_nil : valueOf [] = [] := rfl

@[simp] theorem valueOf_cons (p : Piece) (ps : List Piece) :
    valueOf (p :: ps) = p.value ++ valueOf ps := rfl

theorem sourceOf_append (ps qs : List Piece) :
    sourceOf (ps ++ qs) = sourceOf ps ++ sourceOf qs := List.flatMap_append

theorem valueOf_append (ps qs : List Piece) : valueOf (ps ++ qs) = valueOf ps ++ valueOf qs :=
  List.flatMap_append

/-! ### Segments of lines -/

/-- A part of a line: a character between words, a word, or a run of operator characters. -/
inductive Segment
  | gap (c : Char)
  | word (pieces : List Piece)
  | run (chars : List Char)
  deriving DecidableEq, Repr

/-- The characters on the line. -/
def Segment.source : Segment → List Char
  | gap c => [c]
  | word pieces => sourceOf pieces
  | run chars => chars

/-- The text of segments. -/
def textOf (segments : List Segment) : List Char := segments.flatMap Segment.source

@[simp] theorem textOf_nil : textOf [] = [] := rfl

@[simp] theorem textOf_cons (g : Segment) (gs : List Segment) :
    textOf (g :: gs) = g.source ++ textOf gs := rfl

theorem textOf_append (gs hs : List Segment) : textOf (gs ++ hs) = textOf gs ++ textOf hs :=
  List.flatMap_append

/-- What stands before a segment: a gap or nothing, a word, a run. -/
inductive Edge
  | gap
  | word
  | run
  deriving DecidableEq, Repr

/-- Segments that follow each other, the first one behind an edge: no word continues a word, no run
continues a run. -/
inductive Segmented : Edge → List Segment → Prop
  | nil (e : Edge) : Segmented e []
  | gap (e : Edge) {c : Char} {gs : List Segment} : isGap c = true → Segmented .gap gs →
    Segmented e (.gap c :: gs)
  | word {e : Edge} {pieces : List Piece} {gs : List Segment} : e ≠ .word → pieces ≠ [] →
    (∀ p ∈ pieces, p.Proper) → Segmented .word gs → Segmented e (.word pieces :: gs)
  | run {e : Edge} {chars : List Char} {gs : List Segment} : e ≠ .run → chars ≠ [] →
    (∀ c ∈ chars, isOperatorChar c = true) → Segmented .run gs → Segmented e (.run chars :: gs)

/-- Segments up to a place. -/
theorem Segmented.left {e : Edge} {front back : List Segment} (h : Segmented e (front ++ back)) :
    Segmented e front := by
  induction front generalizing e with
  | nil => exact .nil e
  | cons g gs ih =>
    cases h with
    | gap _ hc hgs => exact .gap _ hc (ih hgs)
    | word he hne hp hgs => exact .word he hne hp (ih hgs)
    | run he hne hc hgs => exact .run he hne hc (ih hgs)

/-- Segments from a place on, behind whatever edge stands before them. -/
theorem Segmented.right {e : Edge} {front back : List Segment} (h : Segmented e (front ++ back)) :
    ∃ e', Segmented e' back := by
  induction front generalizing e with
  | nil => exact ⟨e, h⟩
  | cons g gs ih =>
    cases h with
    | gap _ _ hgs | word _ _ _ hgs | run _ _ _ hgs => exact ih hgs

/-- The words and runs of segments from an offset on, with where each ends. -/
def lexemesOf (offset : Nat) : List Segment → List Lexeme
  | [] => []
  | .gap _ :: gs => lexemesOf (offset + 1) gs
  | .word pieces :: gs =>
    let stop := offset + (sourceOf pieces).length
    ⟨valueOf pieces, stop⟩ :: lexemesOf stop gs
  | .run chars :: gs =>
    let stop := offset + chars.length
    ⟨chars, stop⟩ :: lexemesOf stop gs

/-! ### Reading without coming to the end of a lexeme -/

namespace State

/-- The characters bring the reader from one place to another, and no lexeme ends before any of
them. -/
def Reads : State → List Char → State → Prop
  | s, [], s' => s = s'
  | s, c :: cs, s' => (s.next c).1 = none ∧ (s.next c).2.Reads cs s'

variable {s s' s'' : State} {cs cs' : List Char}

theorem Reads.append (h : s.Reads cs s') (h' : s'.Reads cs' s'') : s.Reads (cs ++ cs') s'' := by
  induction cs generalizing s with
  | nil =>
    obtain rfl : s = s' := h
    exact h'
  | cons c cs ih => exact ⟨h.1, ih h.2⟩

theorem Reads.lexemesFrom_append (h : s.Reads cs s') (offset : Nat) (rest : List Char) :
    lexemesFrom offset s (cs ++ rest) = lexemesFrom (offset + cs.length) s' rest := by
  induction cs generalizing s offset with
  | nil =>
    obtain rfl : s = s' := h
    rfl
  | cons c cs ih =>
    obtain ⟨hnone, h⟩ := h
    have hnext : s.next c = (none, (s.next c).2) := Prod.ext hnone rfl
    rw [List.cons_append, lexemesFrom, hnext]
    simp only [ih h, List.length_cons]
    congr 1
    omega

theorem reads_single {text : List Char} (h : '\'' ∉ text) (read : List Char) :
    (quotation '\'' read).Reads text (quotation '\'' (text.reverse ++ read)) := by
  induction text generalizing read with
  | nil => rfl
  | cons c cs ih =>
    rw [List.mem_cons, not_or] at h
    have hc : (c == '\'') = false := beq_eq_false_iff_ne.2 (Ne.symm h.1)
    have hnext : (quotation '\'' read).next c = (none, quotation '\'' (c :: read)) := by
      simp [next, hc]
    refine ⟨by rw [hnext], ?_⟩
    rw [hnext, List.reverse_cons, List.append_assoc]
    exact ih h.2 (c :: read)

theorem reads_inner {i : Inner} (h : i.Proper) (read : List Char) :
    (quotation '"' read).Reads i.source (quotation '"' (i.value.reverse ++ read)) := by
  cases i with
  | char c =>
    have hq : (c == '"') = false := beq_eq_false_iff_ne.2 h.1
    have hb : (c == '\\') = false := beq_eq_false_iff_ne.2 h.2
    simp [Reads, Inner.source, Inner.value, next, hq, hb]
  | escape c =>
    by_cases hc : (c == '\\' || c == '"') = true
    · simp [Reads, Inner.source, Inner.value, next, hc]
    · simp [Reads, Inner.source, Inner.value, next, hc]

theorem reads_inners {inners : List Inner} (h : ∀ i ∈ inners, i.Proper) (read : List Char) :
    (quotation '"' read).Reads (inners.flatMap Inner.source)
      (quotation '"' ((inners.flatMap Inner.value).reverse ++ read)) := by
  induction inners generalizing read with
  | nil => rfl
  | cons i is ih =>
    obtain ⟨hi, his⟩ := List.forall_mem_cons.1 h
    rw [List.flatMap_cons, List.flatMap_cons, List.reverse_append, List.append_assoc]
    exact (reads_inner hi read).append (ih his _)

/-- Within a word a piece adds its value. -/
theorem reads_piece {p : Piece} (h : p.Proper) (read : List Char) :
    (word read).Reads p.source (word (p.value.reverse ++ read)) := by
  cases p with
  | plain c =>
    obtain ⟨hgap, hop, hb, hq⟩ := h
    have hb : (c == '\\') = false := beq_eq_false_iff_ne.2 hb
    simp [Reads, Piece.source, Piece.value, next, hgap, hop, hb, hq]
  | escaped c => exact ⟨rfl, rfl, rfl⟩
  | single text =>
    refine ⟨rfl, (reads_single h read).append ?_⟩
    exact ⟨rfl, rfl⟩
  | double inners =>
    refine ⟨rfl, (reads_inners h read).append ?_⟩
    exact ⟨rfl, rfl⟩

theorem reads_pieces {ps : List Piece} (h : ∀ p ∈ ps, p.Proper) (read : List Char) :
    (word read).Reads (sourceOf ps) (word ((valueOf ps).reverse ++ read)) := by
  induction ps generalizing read with
  | nil => rfl
  | cons p ps ih =>
    obtain ⟨hp, hps⟩ := List.forall_mem_cons.1 h
    rw [sourceOf_cons, valueOf_cons, List.reverse_append, List.append_assoc]
    exact (reads_piece hp read).append (ih hps _)

/-- A word starts as it goes on. -/
theorem gap_reads_word {ps : List Piece} (hne : ps ≠ []) (h : ∀ p ∈ ps, p.Proper) :
    gap.Reads (sourceOf ps) (word (valueOf ps).reverse) := by
  have hword := reads_pieces h []
  rw [List.append_nil] at hword
  obtain ⟨p, ps, rfl⟩ := List.exists_cons_of_ne_nil hne
  obtain ⟨c, cs, hsource, hgap, hop⟩ := Piece.exists_source_eq (h p (.head _))
  have hnext : gap.next c = (word []).next c := by
    simp only [next, first, hgap, hop, Bool.or_self, Bool.false_eq_true, if_false]
    split_ifs <;> rfl
  rw [sourceOf_cons, hsource, List.cons_append] at hword ⊢
  rw [Reads, hnext]
  exact hword

theorem run_reads {chars : List Char} (h : ∀ c ∈ chars, isOperatorChar c = true)
    (read : List Char) : (run read).Reads chars (run (chars.reverse ++ read)) := by
  induction chars generalizing read with
  | nil => rfl
  | cons c cs ih =>
    obtain ⟨hc, hcs⟩ := List.forall_mem_cons.1 h
    have hnext : (run read).next c = (none, run (c :: read)) := by simp [next, hc]
    rw [Reads, hnext, List.reverse_cons, List.append_assoc]
    exact ⟨rfl, ih hcs _⟩

theorem not_isGap_of_isOperatorChar {c : Char} (h : isOperatorChar c = true) :
    isGap c = false ∧ c ≠ '\\' ∧ isQuoteMark c = false := by
  simp only [isOperatorChar, Bool.or_eq_true, beq_iff_eq] at h
  rcases h with ((rfl | rfl) | rfl) | rfl <;> decide

theorem gap_reads_run {chars : List Char} (hne : chars ≠ [])
    (h : ∀ c ∈ chars, isOperatorChar c = true) : gap.Reads chars (run chars.reverse) := by
  obtain ⟨c, cs, rfl⟩ := List.exists_cons_of_ne_nil hne
  obtain ⟨hc, hcs⟩ := List.forall_mem_cons.1 h
  obtain ⟨hgap, hb, -⟩ := not_isGap_of_isOperatorChar hc
  have hb : (c == '\\') = false := beq_eq_false_iff_ne.2 hb
  have hnext : gap.next c = (none, run [c]) := by simp [next, first, hgap, hb, hc]
  rw [Reads, hnext, List.reverse_cons]
  exact ⟨rfl, run_reads hcs [c]⟩

end State

/-! ### From segments to lexemes -/

/-- The place of the reader behind an edge, with what has been read there. -/
def Edge.state (read : List Char) : Edge → State
  | .gap => .gap
  | .word => .word read
  | .run => .run read

/-- The lexeme that may end behind an edge. -/
def Edge.pending (read : List Char) (offset : Nat) : Edge → List Lexeme
  | .gap => []
  | _ => [⟨read.reverse, offset⟩]

/-- Whether a character ends what stands before it. -/
def Edge.endsBefore (c : Char) : Edge → Bool
  | .gap => true
  | .word => isGap c || isOperatorChar c
  | .run => !isOperatorChar c

/-- A lexeme that ends leaves the reader as if there were nothing before. -/
theorem lexemesFrom_of_endsBefore {e : Edge} {c : Char} (h : e.endsBefore c = true)
    (read : List Char) (offset : Nat) (cs : List Char) :
    lexemesFrom offset (e.state read) (c :: cs) =
      { lexemesFrom offset .gap (c :: cs) with
        read := e.pending read offset ++ (lexemesFrom offset .gap (c :: cs)).read } := by
  cases e with
  | gap => rfl
  | word =>
    have h : (isGap c || isOperatorChar c) = true := h
    simp [lexemesFrom, Edge.state, State.next, h, Edge.pending, Lexemes.cons]
  | run =>
    have h : isOperatorChar c = false := by simpa [Edge.endsBefore] using h
    simp [lexemesFrom, Edge.state, State.next, h, Edge.pending, Lexemes.cons]

/-- The first character of a segment ends what stands before the segment. -/
theorem Segmented.exists_endsBefore {e : Edge} {g : Segment} {gs : List Segment}
    (h : Segmented e (g :: gs)) : ∃ c cs, g.source = c :: cs ∧ e.endsBefore c = true := by
  cases h with
  | gap _ hc =>
    -- a gap ends words and runs alike
    refine ⟨_, [], rfl, ?_⟩
    cases e with
    | gap => rfl
    | word => simp [Edge.endsBefore, hc]
    | run =>
      rename_i c _
      cases hop : isOperatorChar c with
      | false => simp [Edge.endsBefore, hop]
      | true => simp [(State.not_isGap_of_isOperatorChar hop).1] at hc
  | word he hne hp =>
    obtain ⟨p, ps, rfl⟩ := List.exists_cons_of_ne_nil hne
    obtain ⟨c, cs, hsource, -, hop⟩ := Piece.exists_source_eq (hp p (.head _))
    refine ⟨c, cs ++ sourceOf ps, by rw [Segment.source, sourceOf_cons, hsource]; rfl, ?_⟩
    cases e with
    | gap => rfl
    | word => exact absurd rfl he
    | run => simp [Edge.endsBefore, hop]
  | run he hne hc =>
    obtain ⟨c, cs, rfl⟩ := List.exists_cons_of_ne_nil hne
    refine ⟨c, cs, rfl, ?_⟩
    cases e with
    | gap => rfl
    | word => simp [Edge.endsBefore, hc c (.head _)]
    | run => exact absurd rfl he

/-- Behind an edge, segments are read into the lexeme that ends there and their own. -/
theorem lexemesFrom_segments {e : Edge} {gs : List Segment} (h : Segmented e gs)
    (read : List Char) (offset : Nat) : lexemesFrom offset (e.state read) (textOf gs) =
      ⟨e.pending read offset ++ lexemesOf offset gs, none⟩ := by
  induction gs generalizing e read offset with
  | nil => cases e <;> rfl
  | cons g gs ih =>
    -- what stands before the first segment ends there, so the segment is read from a gap
    have hgap : lexemesFrom offset .gap (g.source ++ textOf gs) =
        ⟨lexemesOf offset (g :: gs), none⟩ := by
      cases h with
      | gap _ hc hgs =>
        rw [Segment.source, List.singleton_append, lexemesFrom_gap hc]
        exact ih hgs [] (offset + 1)
      | word _ hne hp hgs =>
        rw [Segment.source, (State.gap_reads_word hne hp).lexemesFrom_append]
        simpa [Edge.state, Edge.pending, lexemesOf] using ih hgs (valueOf _).reverse _
      | run _ hne hc hgs =>
        rw [Segment.source, (State.gap_reads_run hne hc).lexemesFrom_append]
        simpa [Edge.state, Edge.pending, lexemesOf] using ih hgs (List.reverse _) _
    obtain ⟨c, cs, hsource, hends⟩ := h.exists_endsBefore
    rw [hsource, List.cons_append] at hgap
    rw [textOf_cons, hsource, List.cons_append, lexemesFrom_of_endsBefore hends, hgap]

/-- **Reading segments.** The lexemes of a line in segments are its words and runs. -/
theorem lexemes_segments {gs : List Segment} (h : Segmented .gap gs) :
    lexemes (textOf gs) = ⟨lexemesOf 0 gs, none⟩ :=
  lexemesFrom_segments h [] 0

/-! ### From a line to its segments -/

/-- Within a word: pieces, and then segments that do not go on with the word. -/
def InWord (cs : List Char) : Prop :=
  ∃ ps gs, (∀ p ∈ ps, Piece.Proper p) ∧ Segmented .word gs ∧ cs = sourceOf ps ++ textOf gs

/-- At the start of a word. -/
def StartsWord (cs : List Char) : Prop :=
  ∃ (p : Piece) (rest : List Char), p.Proper ∧ InWord rest ∧ cs = p.source ++ rest

/-- What may stand between two quote marks. -/
def Quotes (mark : Char) (inside : List Char) : Prop :=
  if mark = '"' then ∃ inners : List Inner, (∀ i ∈ inners, i.Proper) ∧
    inside = inners.flatMap Inner.source
  else mark ∉ inside

/-- What follows the reader's place on a line that can be read to its end. -/
def State.Completes : State → List Char → Prop
  | .gap, cs => ∃ gs, Segmented .gap gs ∧ cs = textOf gs
  | .word _, cs => InWord cs
  | .run _, cs => ∃ chars gs, (∀ c ∈ chars, isOperatorChar c = true) ∧ Segmented .run gs ∧
      cs = chars ++ textOf gs
  | .quotation mark _, cs => ∃ inside rest, Quotes mark inside ∧ InWord rest ∧
      cs = inside ++ mark :: rest
  | .escape _, cs => ∃ c rest, InWord rest ∧ cs = c :: rest
  | .quotedEscape _, cs => ∃ c inside rest, Quotes '"' inside ∧ InWord rest ∧
      cs = c :: (inside ++ '"' :: rest)

variable {c : Char} {cs inside : List Char} {e : Edge}

theorem StartsWord.inWord (h : StartsWord cs) : InWord cs := by
  obtain ⟨p, _, hp, ⟨ps, gs, hps, hgs, rfl⟩, rfl⟩ := h
  exact ⟨p :: ps, gs, List.forall_mem_cons.2 ⟨hp, hps⟩, hgs, by rw [sourceOf_cons, List.append_assoc]⟩

theorem StartsWord.exists_segmented (h : StartsWord cs) (he : e ≠ .word) :
    ∃ gs, Segmented e gs ∧ cs = textOf gs := by
  obtain ⟨p, _, hp, ⟨ps, gs, hps, hgs, rfl⟩, rfl⟩ := h
  refine ⟨.word (p :: ps) :: gs, .word he (List.cons_ne_nil _ _)
    (List.forall_mem_cons.2 ⟨hp, hps⟩) hgs, ?_⟩
  rw [textOf_cons, Segment.source, sourceOf_cons, List.append_assoc]

theorem Quotes.cons_char (h : Quotes '"' inside) (hq : c ≠ '"') (hb : c ≠ '\\') :
    Quotes '"' (c :: inside) := by
  obtain ⟨inners, hinners, rfl⟩ := (if_pos rfl).mp h
  exact (if_pos rfl).mpr ⟨.char c :: inners, List.forall_mem_cons.2 ⟨⟨hq, hb⟩, hinners⟩, rfl⟩

theorem Quotes.cons_escape (h : Quotes '"' inside) : Quotes '"' ('\\' :: c :: inside) := by
  obtain ⟨inners, hinners, rfl⟩ := (if_pos rfl).mp h
  exact (if_pos rfl).mpr ⟨.escape c :: inners, List.forall_mem_cons.2 ⟨trivial, hinners⟩, rfl⟩

/-- A quotation is a piece of a word. -/
theorem Quotes.startsWord {mark : Char} {rest : List Char} (hmark : isQuoteMark mark = true)
    (h : Quotes mark inside) (hrest : InWord rest) :
    StartsWord (mark :: (inside ++ mark :: rest)) := by
  simp only [isQuoteMark, Bool.or_eq_true, beq_iff_eq] at hmark
  rcases hmark with rfl | rfl
  · exact ⟨.single inside, rest, h, hrest, by simp [Piece.source]⟩
  · obtain ⟨inners, hinners, rfl⟩ := (if_pos rfl).mp h
    exact ⟨.double inners, rest, hinners, hrest, by simp [Piece.source]⟩

namespace State

/-- A character that is neither a gap nor an operator's starts a word. -/
theorem startsWord_of_completes (hgap : isGap c = false) (hop : isOperatorChar c = false)
    (h : (first c).Completes cs) : StartsWord (c :: cs) := by
  simp only [first, hgap, hop, Bool.false_eq_true, if_false] at h
  -- the character escapes the next one, opens a quotation, or stands for itself
  split_ifs at h with hb hq
  · obtain ⟨d, rest, hrest, rfl⟩ := h
    obtain rfl : c = '\\' := beq_iff_eq.1 hb
    exact ⟨.escaped d, rest, trivial, hrest, rfl⟩
  · obtain ⟨inside, rest, hinside, hrest, rfl⟩ := h
    exact hinside.startsWord hq hrest
  · have hb : c ≠ '\\' := fun h => hb (beq_iff_eq.2 h)
    exact ⟨.plain c, cs, ⟨hgap, hop, hb, Bool.eq_false_iff.2 hq⟩, h, rfl⟩

/-- A character that ends no run starts the next segments behind one. -/
theorem exists_segmented_of_completes (he : e ≠ .word) (hop : isOperatorChar c = false)
    (h : (first c).Completes cs) : ∃ gs, Segmented e gs ∧ c :: cs = textOf gs := by
  cases hgap : isGap c with
  | true =>
    simp only [first, hgap, if_true] at h
    obtain ⟨gs, hgs, rfl⟩ := h
    exact ⟨.gap c :: gs, .gap e hgap hgs, rfl⟩
  | false => exact (startsWord_of_completes hgap hop h).exists_segmented he

/-- An operator's character starts a run. -/
theorem exists_run_of_completes (he : e ≠ .run) (hop : isOperatorChar c = true)
    (h : (first c).Completes cs) : ∃ gs, Segmented e gs ∧ c :: cs = textOf gs := by
  obtain ⟨hgap, hb, -⟩ := not_isGap_of_isOperatorChar hop
  have hb : (c == '\\') = false := beq_eq_false_iff_ne.2 hb
  simp only [first, hgap, hb, hop, Bool.false_eq_true, if_false, if_true] at h
  obtain ⟨chars, gs, hchars, hgs, rfl⟩ := h
  exact ⟨.run (c :: chars) :: gs, .run he (List.cons_ne_nil _ _)
    (List.forall_mem_cons.2 ⟨hop, hchars⟩) hgs, rfl⟩

/-- In a word a character ends it or goes on with it. -/
theorem completes_word {read : List Char} (h : ((word read).next c).2.Completes cs) :
    (word read).Completes (c :: cs) := by
  cases hends : isGap c || isOperatorChar c with
  | true =>
    -- no pieces more, and the character begins the segments behind the word
    simp only [next, hends, if_true] at h
    cases hop : isOperatorChar c with
    | true =>
      obtain ⟨gs, hgs, hcs⟩ := exists_run_of_completes (e := .word) (by decide) hop h
      exact ⟨[], gs, by simp, hgs, hcs⟩
    | false =>
      have hgap : isGap c = true := by simpa [hop] using hends
      simp only [first, hgap, if_true] at h
      obtain ⟨gs, hgs, rfl⟩ := h
      exact ⟨[], .gap c :: gs, by simp, .gap .word hgap hgs, rfl⟩
  | false =>
    -- within a word a character is read as at its start
    obtain ⟨hgap, hop⟩ := Bool.or_eq_false_iff.1 hends
    refine (startsWord_of_completes hgap hop ?_).inWord
    simp only [next, hends, Bool.false_eq_true, if_false] at h
    simp only [first, hgap, hop, Bool.false_eq_true, if_false]
    split_ifs at h ⊢ <;> exact h

/-- So it does in a run of operator characters. -/
theorem completes_run {read : List Char} (h : ((run read).next c).2.Completes cs) :
    (run read).Completes (c :: cs) := by
  cases hop : isOperatorChar c with
  | true =>
    simp only [next, hop, if_true] at h
    obtain ⟨chars, gs, hchars, hgs, rfl⟩ := h
    exact ⟨c :: chars, gs, List.forall_mem_cons.2 ⟨hop, hchars⟩, hgs, rfl⟩
  | false =>
    simp only [next, hop, Bool.false_eq_true, if_false] at h
    obtain ⟨gs, hgs, hcs⟩ := exists_segmented_of_completes (e := .run) (by decide) hop h
    exact ⟨[], gs, by simp, hgs, hcs⟩

/-- Between quotes a character closes them, escapes the next one, or is one of those quoted. -/
theorem completes_quotation {mark : Char} {read : List Char}
    (h : ((quotation mark read).next c).2.Completes cs) :
    (quotation mark read).Completes (c :: cs) := by
  simp only [next] at h
  split_ifs at h with hclose hescape
  · obtain rfl : c = mark := beq_iff_eq.1 hclose
    refine ⟨[], cs, ?_, h, rfl⟩
    unfold Quotes
    split
    · exact ⟨[], by simp, rfl⟩
    · exact List.not_mem_nil
  · obtain ⟨rfl, rfl⟩ : c = '\\' ∧ mark = '"' := by simpa using hescape
    obtain ⟨d, inside, rest, hinside, hrest, rfl⟩ := h
    exact ⟨'\\' :: d :: inside, rest, hinside.cons_escape, hrest, rfl⟩
  · have hclose : c ≠ mark := fun h => hclose (beq_iff_eq.2 h)
    obtain ⟨inside, rest, hinside, hrest, rfl⟩ := h
    refine ⟨c :: inside, rest, ?_, hrest, rfl⟩
    by_cases hmark : mark = '"'
    · subst hmark
      exact hinside.cons_char hclose fun hb => hescape (by simp [hb])
    · rw [Quotes, if_neg hmark] at hinside ⊢
      exact fun hmem => (List.mem_cons.1 hmem).elim hclose.symm hinside

/-- What follows a character follows it also with the character before. -/
theorem completes_cons {s : State} (h : (s.next c).2.Completes cs) : s.Completes (c :: cs) := by
  cases s with
  | gap =>
    -- in a gap the character is the first one of the next segment
    cases hop : isOperatorChar c with
    | true => exact exists_run_of_completes (by decide) hop h
    | false => exact exists_segmented_of_completes (by decide) hop h
  | word read => exact completes_word h
  | run read => exact completes_run h
  | quotation mark read => exact completes_quotation h
  | escape read => exact ⟨c, cs, h, rfl⟩
  | quotedEscape read =>
    simp only [next] at h
    split_ifs at h
    all_goals
      obtain ⟨inside, rest, hinside, hrest, rfl⟩ := h
      exact ⟨c, inside, rest, hinside, hrest, rfl⟩

end State

/-- A line that can be read to its end goes on from everywhere as it should. -/
theorem completes_of_failure_eq_none {s : State} {offset : Nat}
    (h : (lexemesFrom offset s cs).failure = none) : s.Completes cs := by
  induction cs generalizing s offset with
  | nil =>
    cases s with
    | gap => exact ⟨[], .nil _, rfl⟩
    | word read => exact ⟨[], [], nofun, .nil _, rfl⟩
    | run read => exact ⟨[], [], nofun, .nil _, rfl⟩
    | quotation | escape | quotedEscape => cases h
  | cons c cs ih =>
    have hrest : (lexemesFrom (offset + 1) (s.next c).2 cs).failure = none := by
      rw [lexemesFrom] at h
      split at h
      · next hnext => rwa [hnext]
      · next hnext => rwa [hnext]
    exact State.completes_cons (ih hrest)

/-- **Segments of a line.** Every line that can be read to its end consists of segments. -/
theorem exists_segmented {line : List Char} (h : (lexemes line).failure = none) :
    ∃ gs, Segmented .gap gs ∧ line = textOf gs :=
  completes_of_failure_eq_none (s := .gap) h

end LineShell.Token
