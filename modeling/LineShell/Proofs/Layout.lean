import LineShell.CommandLine.Parse
import LineShell.Proofs.Operators

namespace LineShell

/-!
# Command lines as they are written

* `Sign`, `Writes` — a word in pieces or an operator, and a text that writes signs in order with
  spaces between them;
* `Item`, `Layout` — what stands in a stage, in any order, and the stages of a line;
* `Layout.Spells` — that a layout has the words and the redirections of a command line;
* `scan_writes` — that a text is read as the signs that it writes;
* `Draft.Has` — what has been read of a line so far, whatever the order was;
* `parse_writes` — that a text is parsed as the command line that its layout spells.
-/

namespace Token

/-- A piece with no blank at its ends. Such a blank would be lost at an end of the line. -/
def Piece.Visible : Piece → Prop
  | .plain c | .escaped c => Text.isBlank c = false
  | _ => True

theorem Piece.exists_visible_ends {p : Piece} (h : p.Visible) :
    (∃ c cs, p.source = c :: cs ∧ Text.isBlank c = false) ∧
      ∃ c cs, p.source = cs ++ [c] ∧ Text.isBlank c = false := by
  cases p with
  | plain c => exact ⟨⟨c, [], rfl, h⟩, c, [], rfl, h⟩
  | escaped c => exact ⟨⟨'\\', [c], rfl, by decide⟩, c, ['\\'], rfl, h⟩
  | single text =>
    exact ⟨⟨'\'', _, rfl, by decide⟩, '\'', '\'' :: text, rfl, by decide⟩
  | double inners =>
    exact ⟨⟨'"', _, rfl, by decide⟩, '"', '"' :: inners.flatMap Inner.source, rfl, by decide⟩

theorem lexemesOf_append (offset : Nat) (gs hs : List Segment) :
    lexemesOf offset (gs ++ hs) =
      lexemesOf offset gs ++ lexemesOf (offset + (textOf gs).length) hs := by
  induction gs generalizing offset with
  | nil => rfl
  | cons g gs ih =>
    have hlen : (textOf (g :: gs)).length = g.source.length + (textOf gs).length := by
      rw [textOf_cons, List.length_append]
    rw [hlen, List.cons_append, ← Nat.add_assoc]
    cases g with
    | gap c => exact ih (offset + 1)
    | word pieces => exact congrArg (_ :: ·) (ih (offset + (sourceOf pieces).length))
    | run chars => exact congrArg (_ :: ·) (ih (offset + chars.length))

theorem before?_append (before rest : List Char) :
    before? (before ++ rest) before.length = before.getLast? := by
  rcases List.eq_nil_or_concat before with rfl | ⟨cs, c, rfl⟩
  · rfl
  · simp [before?]

end Token

open Token

/-! ### Signs -/

/-- Something that is written on a line. -/
inductive Sign
  | word (pieces : List Piece)
  | pipe
  | background
  | redirect (op : Redirection)
  deriving DecidableEq, Repr

namespace Sign

/-- The characters on the line. -/
def source : Sign → List Char
  | word pieces => sourceOf pieces
  | pipe => ['|']
  | background => ['&']
  | redirect .input => ['<']
  | redirect .output => ['>']
  | redirect .append => ['>', '>']
  | redirect .error => ['2', '>']

/-- The segments of the line. Before `>` the `2` is a word of its own. -/
def segments : Sign → List Segment
  | word pieces => [.word pieces]
  | redirect .error => [.word [.plain '2'], .run ['>']]
  | sign => [.run sign.source]

/-- What the characters are to be read as. -/
def token : Sign → Token
  | word pieces => .word (String.ofList (valueOf pieces))
  | pipe => .pipe
  | background => .background
  | redirect op => .redirect op

/-- A word has a piece at least. -/
def Proper : Sign → Prop
  | word pieces => pieces ≠ [] ∧ ∀ p ∈ pieces, p.Proper ∧ p.Visible
  | _ => True

variable {sign : Sign}

theorem textOf_segments (sign : Sign) : textOf sign.segments = sign.source := by
  cases sign with
  | word pieces => exact List.append_nil _
  | pipe | background => rfl
  | redirect op => cases op <;> rfl

theorem exists_visible_ends (h : sign.Proper) :
    (∃ c cs, sign.source = c :: cs ∧ Text.isBlank c = false) ∧
      ∃ c cs, sign.source = cs ++ [c] ∧ Text.isBlank c = false := by
  cases sign with
  | word pieces =>
    obtain ⟨hne, hp⟩ := h
    refine ⟨?_, ?_⟩
    · obtain ⟨p, ps, rfl⟩ := List.exists_cons_of_ne_nil hne
      obtain ⟨c, cs, hsource, hc⟩ := (Piece.exists_visible_ends (hp p (.head _)).2).1
      exact ⟨c, cs ++ sourceOf ps, by rw [source, sourceOf_cons, hsource]; rfl, hc⟩
    · obtain ⟨ps, p, rfl⟩ := List.eq_nil_or_concat pieces |>.resolve_left hne
      obtain ⟨c, cs, hsource, hc⟩ := (Piece.exists_visible_ends (hp p (by simp)).2).2
      exact ⟨c, sourceOf ps ++ cs, by simp [source, sourceOf_append, hsource], hc⟩
  | pipe => exact ⟨⟨_, _, rfl, by decide⟩, _, [], rfl, by decide⟩
  | background => exact ⟨⟨_, _, rfl, by decide⟩, _, [], rfl, by decide⟩
  | redirect op =>
    cases op with
    | input => exact ⟨⟨_, _, rfl, by decide⟩, _, [], rfl, by decide⟩
    | output => exact ⟨⟨_, _, rfl, by decide⟩, _, [], rfl, by decide⟩
    | append => exact ⟨⟨_, _, rfl, by decide⟩, _, ['>'], rfl, by decide⟩
    | error => exact ⟨⟨_, _, rfl, by decide⟩, _, ['2'], rfl, by decide⟩

/-- Behind a gap a sign stands as its segments. -/
theorem segmented_append (h : sign.Proper) {gs : List Segment}
    (hgs : ∀ e, Segmented e gs) : Segmented .gap (sign.segments ++ gs) := by
  have hrun : ∀ {e : Edge} {chars : List Char}, e ≠ .run → chars ≠ [] →
      (∀ c ∈ chars, isOperatorChar c = true) → Segmented e (.run chars :: gs) :=
    fun he hne hc => .run he hne hc (hgs _)
  cases sign with
  | word pieces => exact .word (by decide) h.1 (fun p hp => (h.2 p hp).1) (hgs _)
  | pipe => exact hrun (by decide) (by decide) (List.all_eq_true.1 rfl)
  | background => exact hrun (by decide) (by decide) (List.all_eq_true.1 rfl)
  | redirect op =>
    cases op with
    | input => exact hrun (by decide) (by decide) (List.all_eq_true.1 rfl)
    | output => exact hrun (by decide) (by decide) (List.all_eq_true.1 rfl)
    | append => exact hrun (by decide) (by decide) (List.all_eq_true.1 rfl)
    | error =>
      -- the `2` is a word, and the run behind it needs no gap
      refine .word (by decide) (by decide) (fun p hp => ?_)
        (hrun (by decide) (by decide) (List.all_eq_true.1 rfl))
      cases List.mem_singleton.1 hp
      exact ⟨by decide, by decide, by decide, by decide⟩

end Sign

/-! ### Reading signs -/

/-- Nothing before a place bears on what is read there. -/
structure Apart (before : List Char) (previous : Option (Token × Nat)) : Prop where
  backslash : before.getLast? ≠ some '\\'
  stop : ∀ q ∈ previous, q.2 < before.length

variable {line before after : List Char} {previous : Option (Token × Nat)} {ls : List Lexeme}

/-- A lexeme that leaves the token before it alone. -/
theorem scanFrom_of_classify {l : Lexeme} {t : Token}
    (h : classify line previous l = .ok (t, false)) :
    scanFrom line previous (l :: ls) =
      (scanFrom line (some (t, l.stop)) ls).map (previous.toList.map Prod.fst ++ ·) := by
  rw [scanFrom, h]
  show (scanFrom line (some (t, l.stop)) ls >>= _) = _
  cases scanFrom line (some (t, l.stop)) ls <;> rfl

/-- A word that stands somewhere on the line. -/
theorem classify_word {pieces : List Piece} (hne : pieces ≠ []) (hp : ∀ p ∈ pieces, p.Proper)
    (hline : line = before ++ (sourceOf pieces ++ after)) :
    classify line previous ⟨valueOf pieces, before.length + (sourceOf pieces).length⟩ =
      .ok (.word (String.ofList (valueOf pieces)), false) := by
  subst hline
  exact classify_of_not_isOperator (isOperator_word hne hp before after)

/-- A run apart from what stands before it is the operator of its characters. -/
theorem classify_run {chars : List Char} {t : Token} (h : Apart before previous)
    (hrun : ofRun? chars = some t) (hc : ∀ c ∈ chars, isOperatorChar c = true)
    (hline : line = before ++ (chars ++ after)) :
    classify line previous ⟨chars, before.length + chars.length⟩ = .ok (t, false) := by
  have hne : chars ≠ [] := by
    rintro rfl
    cases hrun
  have hop : isOperator line ⟨chars, before.length + chars.length⟩ = true := by
    rw [hline, isOperator_run hne hc, before?_append]
    exact bne_iff_ne.2 h.backslash
  have hglued : isGluedToTwo line previous ⟨chars, before.length + chars.length⟩ = false := by
    rcases previous with _ | ⟨t, stop⟩
    · rfl
    · have hstop : stop < before.length := h.stop _ rfl
      have hne : (stop == before.length) = false := beq_eq_false_iff_ne.2 (by omega)
      cases t <;> simp [isGluedToTwo, Lexeme.start, hne]
  rw [classify, if_pos hop]
  dsimp only
  rw [hrun, hglued]
  unfold ofRun? at hrun
  split at hrun <;> cases hrun <;> rfl

/-- The `>` behind a `2` redirects the error stream. -/
theorem classify_error (hline : line = before ++ ('2' :: '>' :: after)) :
    classify line (some (.word "2", before.length + 1)) ⟨['>'], before.length + 2⟩ =
      .ok (.redirect .error, true) := by
  have hbefore : before? line (before.length + 1) = some '2' := by
    subst hline
    simp [before?]
  have hop : isOperator line ⟨['>'], before.length + 2⟩ = true := by
    have := isOperator_run (List.cons_ne_nil '>' []) (List.all_eq_true.1 rfl) (before ++ ['2']) after
    rw [List.append_assoc, List.length_append] at this
    subst hline
    exact this.trans (bne_iff_ne.2 (by
      show before? _ (before.length + 1) ≠ _
      rw [List.singleton_append, List.singleton_append, hbefore]
      decide))
  have hglued : isGluedToTwo line (some (.word "2", before.length + 1))
      ⟨['>'], before.length + 2⟩ = true := by
    simp [isGluedToTwo, Lexeme.start, hbefore]
  rw [classify, if_pos hop]
  show (if isGluedToTwo _ _ _ then _ else _) = _
  rw [if_pos hglued]

/-- **Reading a sign.** Apart from what stands before it, a sign is read as its token. -/
theorem scanFrom_sign {sign : Sign} (hsign : sign.Proper) (h : Apart before previous)
    (hline : line = before ++ (sign.source ++ after)) :
    scanFrom line previous (lexemesOf before.length sign.segments ++ ls) =
      (scanFrom line (some (sign.token, before.length + sign.source.length)) ls).map
        (previous.toList.map Prod.fst ++ ·) := by
  cases sign with
  | word pieces =>
    exact scanFrom_of_classify (classify_word hsign.1 (fun p hp => (hsign.2 p hp).1) hline)
  | pipe => exact scanFrom_of_classify (classify_run h rfl (List.all_eq_true.1 rfl) hline)
  | background => exact scanFrom_of_classify (classify_run h rfl (List.all_eq_true.1 rfl) hline)
  | redirect op =>
    cases op with
    | input => exact scanFrom_of_classify (classify_run h rfl (List.all_eq_true.1 rfl) hline)
    | output => exact scanFrom_of_classify (classify_run h rfl (List.all_eq_true.1 rfl) hline)
    | append => exact scanFrom_of_classify (classify_run h rfl (List.all_eq_true.1 rfl) hline)
    | error =>
      have htwo : classify line previous ⟨['2'], before.length + 1⟩ = .ok (.word "2", false) :=
        classify_word (List.cons_ne_nil (.plain '2') []) (by
          intro p hp
          cases List.mem_singleton.1 hp
          exact ⟨by decide, by decide, by decide, by decide⟩) hline
      show scanFrom line previous (⟨['2'], before.length + 1⟩ :: ⟨['>'], before.length + 2⟩ :: ls) = _
      rw [scanFrom_of_classify htwo, scanFrom, classify_error hline]
      show Except.map _ (scanFrom line _ ls >>= _) =
        Except.map _ (scanFrom line (some (.redirect .error, before.length + 2)) ls)
      cases scanFrom line (some (.redirect .error, before.length + 2)) ls <;> rfl

/-! ### Texts that write signs -/

/-- A text writes signs in order, with one or more spaces between them. -/
inductive Writes : List Sign → List Char → Prop
  | one (sign : Sign) : Writes [sign] sign.source
  | cons (sign : Sign) (n : Nat) {signs : List Sign} {text : List Char} : Writes signs text →
    Writes (sign :: signs) (sign.source ++ (List.replicate (n + 1) ' ' ++ text))

/-- The gaps before a sign. -/
def gaps (n : Nat) : List Segment := List.replicate n (.gap ' ')

theorem textOf_gaps (n : Nat) : textOf (gaps n) = List.replicate n ' ' := by
  induction n with
  | zero => rfl
  | succ n ih => exact congrArg (' ' :: ·) ih

theorem lexemesOf_gaps (n offset : Nat) : lexemesOf offset (gaps n) = [] := by
  induction n generalizing offset with
  | zero => rfl
  | succ n ih => exact ih (offset + 1)

theorem segmented_gaps_append (n : Nat) {gs : List Segment} (h : Segmented .gap gs) (e : Edge) :
    Segmented e (gaps (n + 1) ++ gs) := by
  induction n generalizing e with
  | zero => exact .gap e rfl h
  | succ n ih => exact .gap e rfl (ih .gap)

section Writing

variable {signs : List Sign} {text : List Char}

/-- A text that writes signs has their segments, and behind anything that they are apart from it is
read as their tokens. -/
theorem Writes.exists_segmented (h : Writes signs text) (hsigns : ∀ s ∈ signs, s.Proper) :
    ∃ gs, Segmented .gap gs ∧ text = textOf gs ∧ ∀ {before previous},
      Apart before previous → scanFrom (before ++ text) previous (lexemesOf before.length gs) =
        .ok (previous.toList.map Prod.fst ++ signs.map Sign.token) := by
  induction h with
  | one sign =>
    have hsign := hsigns sign (.head _)
    refine ⟨sign.segments, ?_, (Sign.textOf_segments sign).symm, fun {before previous} hapart => ?_⟩
    · have := Sign.segmented_append hsign Segmented.nil
      rwa [List.append_nil] at this
    · have hline : before ++ sign.source = before ++ (sign.source ++ []) := by rw [List.append_nil]
      rw [← List.append_nil (lexemesOf _ _), scanFrom_sign hsign hapart hline]
      rfl
  | @cons sign n signs text _ ih =>
    obtain ⟨hsign, hsigns⟩ := List.forall_mem_cons.1 hsigns
    obtain ⟨gs, hgs, rfl, hscan⟩ := ih hsigns
    refine ⟨sign.segments ++ (gaps (n + 1) ++ gs), ?_, ?_, fun {before previous} hapart => ?_⟩
    · exact Sign.segmented_append hsign (segmented_gaps_append n hgs)
    · rw [textOf_append, textOf_append, Sign.textOf_segments, textOf_gaps]
    · rw [lexemesOf_append, Sign.textOf_segments, scanFrom_sign hsign hapart rfl,
        lexemesOf_append, lexemesOf_gaps, List.nil_append, textOf_gaps]
      -- what is behind the sign is apart from it because of the spaces
      have hbehind : Apart (before ++ (sign.source ++ List.replicate (n + 1) ' '))
          (some (sign.token, before.length + sign.source.length)) := by
        constructor
        · rw [List.replicate_succ', ← List.append_assoc, ← List.append_assoc, List.getLast?_concat]
          decide
        · rintro _ ⟨⟩
          simp only [List.length_append, List.length_replicate]
          omega
      have := hscan hbehind
      simp only [List.append_assoc, List.length_append, List.length_replicate,
        ← Nat.add_assoc] at this ⊢
      rw [this]
      rfl

/-- **Reading signs.** A text that writes signs is read as their tokens. -/
theorem scan_writes (h : Writes signs text) (hsigns : ∀ s ∈ signs, s.Proper) :
    scan text = .ok (signs.map Sign.token) := by
  obtain ⟨gs, hgs, rfl, hscan⟩ := h.exists_segmented hsigns
  rw [scan, lexemes_segments hgs]
  have hapart : Apart [] none := ⟨by simp, by simp⟩
  have := hscan hapart
  rw [List.nil_append, List.length_nil] at this
  show (scanFrom (textOf gs) none (lexemesOf 0 gs) >>= _) = _
  rw [this]
  rfl

/-- Nothing is trimmed from a text that writes signs. -/
theorem trim_writes (h : Writes signs text) (hsigns : ∀ s ∈ signs, s.Proper) :
    Text.trim text = text := by
  have hends : (∃ c cs, text = c :: cs ∧ Text.isBlank c = false) ∧
      ∃ c cs, text = cs ++ [c] ∧ Text.isBlank c = false := by
    induction h with
    | one sign => exact Sign.exists_visible_ends (hsigns sign (.head _))
    | @cons sign n signs text _ ih =>
      obtain ⟨hsign, hsigns⟩ := List.forall_mem_cons.1 hsigns
      obtain ⟨c, cs, hc⟩ := (Sign.exists_visible_ends hsign).1
      obtain ⟨d, ds, rfl, hd⟩ := (ih hsigns).2
      refine ⟨⟨c, _, by rw [hc.1]; rfl, hc.2⟩, d, sign.source ++ (List.replicate (n + 1) ' ' ++ ds),
        ?_, hd⟩
      rw [List.append_assoc, List.append_assoc]
  obtain ⟨⟨c, cs, hstart, hc⟩, d, ds, hstop, hd⟩ := hends
  have hfirst : Text.trimStart text = text := by
    rw [hstart, Text.trimStart, List.dropWhile_cons_of_neg (by simp [hc])]
  rw [Text.trim, hfirst, hstop, List.reverse_append, Text.trimStart, List.reverse_singleton,
    List.singleton_append, List.dropWhile_cons_of_neg (by simp [hd]), List.reverse_cons,
    List.reverse_reverse]

end Writing

/-! ### Layouts -/

/-- Something that is written in a stage: a word, or a redirection and the name of its file. -/
inductive Item
  | word (pieces : List Piece)
  | redirect (op : Redirection) (file : List Piece)
  deriving DecidableEq, Repr

namespace Item

/-- The signs of an item. -/
def signs : Item → List Sign
  | word pieces => [.word pieces]
  | redirect op file => [.redirect op, .word file]

/-- The word that an item adds to its stage. -/
def word? : Item → Option String
  | word pieces => some (String.ofList (valueOf pieces))
  | redirect .. => none

/-- The redirection that an item adds to the line. -/
def redirection? : Item → Option (Redirection × String)
  | word _ => none
  | redirect op file => some (op, String.ofList (valueOf file))

/-- The words of an item have a piece at least. -/
def Proper : Item → Prop
  | word pieces => (Sign.word pieces).Proper
  | redirect _ file => (Sign.word file).Proper

theorem proper_signs {item : Item} (h : item.Proper) : ∀ s ∈ item.signs, s.Proper := by
  cases item with
  | word pieces => exact List.forall_mem_singleton.2 h
  | redirect op file => exact List.forall_mem_cons.2 ⟨trivial, List.forall_mem_singleton.2 h⟩

end Item

/-- What is written on a line: the items of its stages, and whether there is a background mark. -/
structure Layout where
  first : List Item
  others : List (List Item) := []
  background : Bool := false

/-- The redirections of a line, whatever their order is. -/
def CommandLine.redirections (line : CommandLine) : List (Redirection × String) :=
  line.input.toList.map (.input, ·) ++
    line.output.toList.map (if line.append then .append else .output, ·) ++
      line.error.toList.map (.error, ·)

namespace Layout

/-- All items in order. -/
def items (l : Layout) : List Item := l.first ++ l.others.flatten

/-- The signs in order. -/
def signs (l : Layout) : List Sign :=
  l.first.flatMap Item.signs ++
    (l.others.flatMap (.pipe :: ·.flatMap Item.signs) ++ if l.background then [.background] else [])

/-- The layout spells a line: its stages hold the words of the line's commands in order, its
redirections are those of the line, each at some place, and its background mark is the line's. -/
structure Spells (l : Layout) (line : CommandLine) : Prop where
  proper : ∀ i ∈ l.items, i.Proper
  first : l.first.filterMap Item.word? = line.first.argv
  others : l.others.map (·.filterMap Item.word?) = line.others.map Command.argv
  redirections : (l.items.filterMap Item.redirection?).Perm line.redirections
  background : l.background = line.background
  append : line.append = true → line.output.isSome = true

end Layout

/-! ### Drafts of laid out lines -/

/-- The file that a redirection names for the input. -/
def inputOf : Redirection × String → Option String
  | (.input, file) => some file
  | _ => none

/-- The file that a redirection names for the output, and whether it is appended to. -/
def outputOf : Redirection × String → Option (String × Bool)
  | (.output, file) => some (file, false)
  | (.append, file) => some (file, true)
  | _ => none

/-- The file that a redirection names for the error stream. -/
def errorOf : Redirection × String → Option String
  | (.error, file) => some file
  | _ => none

/-- What has been read of a line: closed stages, the words of the open one, and redirections. -/
structure Draft.Has (d : Draft) (closed : List Command) (words : List String)
    (redirections : List (Redirection × String)) : Prop where
  closed : d.closed = closed.reverse
  words : d.words = words.reverse
  input : d.input = (redirections.filterMap inputOf).getLast?
  output : d.output = (redirections.filterMap outputOf).getLast?
  error : d.error = (redirections.filterMap errorOf).getLast?

namespace Draft

variable {d : Draft} {closed : List Command} {words : List String}
  {redirections : List (Redirection × String)}

theorem Has.nil : ({} : Draft).Has [] [] [] := ⟨rfl, rfl, rfl, rfl, rfl⟩

theorem Has.addWord (h : d.Has closed words redirections) (w : String) :
    (d.addWord w).Has closed (words ++ [w]) redirections :=
  ⟨h.closed, by simp [Draft.addWord, h.words], h.input, h.output, h.error⟩

theorem Has.redirect (h : d.Has closed words redirections) (op : Redirection) (file : String) :
    (d.redirect file op).Has closed words (redirections ++ [(op, file)]) := by
  cases op <;> exact
    ⟨h.closed, h.words, by simp [Draft.redirect, inputOf, h.input],
      by simp [Draft.redirect, outputOf, h.output], by simp [Draft.redirect, errorOf, h.error]⟩

theorem Has.open?_eq (h : d.Has closed words redirections) : d.open? = Command.ofArgv? words := by
  rw [Draft.open?, h.words, List.reverse_reverse]

theorem Has.close (h : d.Has closed words redirections) (c : Command) :
    { d with closed := c :: d.closed, words := [] }.Has (closed ++ [c]) [] redirections :=
  ⟨by simp [h.closed], rfl, h.input, h.output, h.error⟩

/-- The tokens of items. -/
def tokensOf (items : List Item) : List Token := (items.flatMap Item.signs).map Sign.token

/-- **Reading a stage.** Its words go to the open stage, its redirections to the line. -/
theorem Has.read_items (h : d.Has closed words redirections) (items : List Item) :
    ∃ d' : Draft, d'.Has closed (words ++ items.filterMap Item.word?)
        (redirections ++ items.filterMap Item.redirection?) ∧
      ∀ ts, d.read (tokensOf items ++ ts) = d'.read ts := by
  induction items generalizing d words redirections with
  | nil =>
    refine ⟨d, ?_, fun ts => rfl⟩
    rwa [List.filterMap_nil, List.filterMap_nil, List.append_nil, List.append_nil]
  | cons item items ih =>
    cases item with
    | word pieces =>
      obtain ⟨d', hd', hread⟩ := ih (h.addWord (String.ofList (valueOf pieces)))
      refine ⟨d', ?_, fun ts => (hread ts)⟩
      simpa [Item.word?, Item.redirection?, List.filterMap_cons] using hd'
    | redirect op file =>
      obtain ⟨d', hd', hread⟩ := ih (h.redirect op (String.ofList (valueOf file)))
      refine ⟨d', ?_, fun ts => (hread ts)⟩
      simpa [Item.word?, Item.redirection?, List.filterMap_cons] using hd'

/-- **Reading stages.** Each mark between stages closes the one before it. -/
theorem Has.read_stages (h : d.Has closed words redirections) {c : Command}
    (hwords : words = c.argv) {stages : List (List Item)} {cs : List Command}
    (hstages : stages.map (·.filterMap Item.word?) = cs.map Command.argv) :
    ∃ (d' : Draft) (closed' : List Command) (last : Command),
      closed' ++ [last] = closed ++ c :: cs ∧
      d'.Has closed' last.argv (redirections ++ stages.flatten.filterMap Item.redirection?) ∧
      ∀ ts, d.read ((stages.flatMap (.pipe :: ·.flatMap Item.signs)).map Sign.token ++ ts) =
        d'.read ts := by
  induction stages generalizing d closed words redirections c cs with
  | nil =>
    obtain rfl : cs = [] := List.map_eq_nil_iff.1 hstages.symm
    subst hwords
    exact ⟨d, closed, c, rfl, by simpa using h, fun ts => rfl⟩
  | cons items stages ih =>
    cases cs with
    | nil => cases hstages
    | cons c' cs =>
      obtain ⟨hitems, hstages⟩ := List.cons.inj hstages
      -- the mark closes the open stage, and the items behind it make the next one
      obtain ⟨d₁, hd₁, hread₁⟩ := (h.close c).read_items items
      rw [List.nil_append] at hd₁
      obtain ⟨d', closed', last, hclosed, hd', hread'⟩ := ih hd₁ hitems hstages
      refine ⟨d', closed', last, by rw [hclosed, List.append_assoc]; rfl, ?_, fun ts => ?_⟩
      · simpa using hd'
      · have hopen : d.open? = some c := by rw [h.open?_eq, hwords, Command.ofArgv?_argv]
        have hmark : ∀ ts, d.read (.pipe :: ts) = Draft.read { d with
            closed := c :: d.closed, words := [] } ts := fun ts => by rw [Draft.read, hopen]
        rw [List.flatMap_cons, List.map_append, List.append_assoc]
        exact (hmark _).trans ((hread₁ _).trans (hread' ts))

/-- What is read of a line amounts to its commands and, for each stream, to the last file named. -/
theorem Has.finish {last : Command} (h : d.Has closed last.argv redirections)
    {line : CommandLine} (hcommands : closed ++ [last] = line.commands)
    (hinput : (redirections.filterMap inputOf).getLast? = line.input)
    (houtput : (redirections.filterMap outputOf).getLast? = line.output.map (·, line.append))
    (herror : (redirections.filterMap errorOf).getLast? = line.error)
    (happend : line.append = true → line.output.isSome = true) :
    d.finish line.background = .ok (some line) := by
  obtain ⟨first, others, input, output, append, error, background⟩ := line
  have hopen : d.open? = some last := by rw [h.open?_eq, Command.ofArgv?_argv]
  have hclosed : d.closed.reverse = closed := by rw [h.closed, List.reverse_reverse]
  have hfiles : d.output.map (·.1) = output ∧ d.output.any (·.2) = append := by
    rw [h.output, houtput]
    cases output with
    | none =>
      -- a line that names no output file does not append
      refine ⟨rfl, ?_⟩
      cases append with
      | false => rfl
      | true => cases happend rfl
    | some file => exact ⟨rfl, rfl⟩
  rw [Draft.finish, hopen]
  dsimp only
  rw [hclosed, hfiles.1, hfiles.2, h.input, h.error, hinput, herror]
  cases closed with
  | nil =>
    obtain ⟨rfl, rfl⟩ := List.cons.inj hcommands
    rfl
  | cons c cs =>
    obtain ⟨rfl, rfl⟩ := List.cons.inj hcommands
    rfl

end Draft

/-! ### Reading laid out lines -/

theorem splitBackground_of_not_mem {ts : List Token} (h : Token.background ∉ ts) :
    CommandLine.splitBackground ts = (ts, false) := by
  unfold CommandLine.splitBackground
  split
  · next hlast => exact absurd (List.mem_of_getLast? hlast) h
  · rfl

/-- A list whose elements are those of a list of at most one element ends as that list does. -/
theorem getLast?_filterMap_of_perm {α β : Type} {l l' : List α} (h : l.Perm l') {f : α → Option β}
    {b : Option β} (hf : l'.filterMap f = b.toList) : (l.filterMap f).getLast? = b := by
  have hperm := h.filterMap f
  rw [hf] at hperm
  cases b with
  | none => rw [List.perm_nil.1 hperm]; rfl
  | some b => rw [List.perm_singleton.1 hperm]; rfl

namespace CommandLine

variable (line : CommandLine)

theorem inputOf_redirections : line.redirections.filterMap inputOf = line.input.toList := by
  obtain ⟨-, -, input, output, append, error, -⟩ := line
  cases input <;> cases output <;> cases append <;> cases error <;> rfl

theorem outputOf_redirections :
    line.redirections.filterMap outputOf = (line.output.map (·, line.append)).toList := by
  obtain ⟨-, -, input, output, append, error, -⟩ := line
  cases input <;> cases output <;> cases append <;> cases error <;> rfl

theorem errorOf_redirections : line.redirections.filterMap errorOf = line.error.toList := by
  obtain ⟨-, -, input, output, append, error, -⟩ := line
  cases input <;> cases output <;> cases append <;> cases error <;> rfl

end CommandLine

namespace Layout

variable {l : Layout} {line : CommandLine}

/-- The tokens of the stages. -/
def stageTokens (l : Layout) : List Token :=
  Draft.tokensOf l.first ++
    (l.others.flatMap (.pipe :: ·.flatMap Item.signs)).map Sign.token

theorem map_token_signs (l : Layout) : l.signs.map Sign.token =
    l.stageTokens ++ if l.background then [.background] else [] := by
  rw [signs, List.map_append, List.map_append, stageTokens, List.append_assoc]
  cases l.background <;> rfl

theorem background_not_mem_stageTokens (l : Layout) : Token.background ∉ l.stageTokens := by
  have hitems : ∀ items : List Item, Token.background ∉ Draft.tokensOf items := by
    intro items h
    simp only [Draft.tokensOf, List.mem_map, List.mem_flatMap] at h
    obtain ⟨sign, ⟨item, -, hsign⟩, htoken⟩ := h
    cases item <;> simp only [Item.signs, List.mem_cons, List.not_mem_nil, or_false] at hsign
    · subst hsign
      cases htoken
    · rcases hsign with rfl | rfl <;> cases htoken
  intro h
  rcases List.mem_append.1 h with h | h
  · exact hitems _ h
  · simp only [List.mem_map, List.mem_flatMap, List.mem_cons] at h
    obtain ⟨sign, ⟨items, -, rfl | hsign⟩, htoken⟩ := h
    · cases htoken
    · exact hitems items (List.mem_map.2 ⟨sign, List.mem_flatMap.2 hsign, htoken⟩)

/-- The words of a layout have a piece at least. -/
theorem proper_signs (h : ∀ i ∈ l.items, i.Proper) : ∀ s ∈ l.signs, s.Proper := by
  have hitem : ∀ items : List Item, (∀ i ∈ items, i ∈ l.items) →
      ∀ s ∈ items.flatMap Item.signs, s.Proper := by
    intro items hmem s hs
    obtain ⟨i, hi, hs⟩ := List.mem_flatMap.1 hs
    exact Item.proper_signs (h i (hmem i hi)) s hs
  intro s hs
  rcases List.mem_append.1 hs with hs | hs
  · exact hitem _ (fun i hi => List.mem_append_left _ hi) s hs
  rcases List.mem_append.1 hs with hs | hs
  · obtain ⟨items, hitems, hs⟩ := List.mem_flatMap.1 hs
    rcases List.mem_cons.1 hs with rfl | hs
    · trivial
    · refine hitem items (fun i hi => List.mem_append_right _ ?_) s hs
      exact List.mem_flatten.2 ⟨items, hitems, hi⟩
  · split at hs
    · cases List.mem_singleton.1 hs
      trivial
    · exact absurd hs List.not_mem_nil

/-- **Parsing signs.** The tokens of a layout make the command line that it spells. -/
theorem Spells.ofTokens_eq (h : l.Spells line) :
    CommandLine.ofTokens (l.signs.map Sign.token) = .ok (some line) := by
  obtain ⟨d₁, hd₁, hread₁⟩ := Draft.Has.nil.read_items l.first
  obtain ⟨d, closed, last, hclosed, hd, hread⟩ := hd₁.read_stages
    ((List.nil_append _).trans h.first) h.others
  have hsplit : CommandLine.splitBackground (l.signs.map Sign.token) =
      (l.stageTokens, line.background) := by
    rw [map_token_signs, ← h.background]
    cases l.background with
    | true => exact CommandLine.splitBackground_concat_background _
    | false =>
      rw [if_neg (by decide), List.append_nil]
      exact splitBackground_of_not_mem l.background_not_mem_stageTokens
  have hdraft : ({} : Draft).read l.stageTokens = .ok d := by
    have := hread []
    rw [List.append_nil] at this
    exact (hread₁ _).trans this
  rw [CommandLine.ofTokens, hsplit]
  show (({} : Draft).read l.stageTokens >>= fun draft => draft.finish line.background) = _
  rw [hdraft]
  -- wherever the redirections stand, they are those of the line
  have hperm : ([] ++ l.first.filterMap Item.redirection? ++
      l.others.flatten.filterMap Item.redirection?).Perm line.redirections := by
    rw [List.nil_append, ← List.filterMap_append]
    exact h.redirections
  exact hd.finish hclosed (getLast?_filterMap_of_perm hperm line.inputOf_redirections)
    (getLast?_filterMap_of_perm hperm line.outputOf_redirections)
    (getLast?_filterMap_of_perm hperm line.errorOf_redirections) h.append

end Layout

/-- **Round trip.** However a command line is written, with whatever quotation of its words and its
redirections wherever they stand, it is parsed as itself. -/
theorem parse_writes {layout : Layout} {line : CommandLine} {text : String}
    (hspells : layout.Spells line) (hwrites : Writes layout.signs text.toList) :
    CommandLine.parse text = .ok (some line) := by
  have hsigns := Layout.proper_signs hspells.proper
  rw [CommandLine.parse, trim_writes hwrites hsigns, scan_writes hwrites hsigns]
  exact hspells.ofTokens_eq

/-- A layout with an operator in quotes, an empty word, escapes of both kinds and redirections before,
between and behind the words. -/
def mixedLayout : Layout where
  first := [.redirect .error [.single ['e', ' ', 'f']],
    .word [.plain 'a', .escaped '|', .double [.char '\'', .escape '"']], .word [.single []]]
  others := [[.word [.escaped '\\'], .redirect .append [.plain '2']]]
  background := true

/-- The line that it spells. -/
def mixedLine : CommandLine where
  first := ⟨"a|'\"", [""]⟩
  others := [⟨"\\", []⟩]
  output := some "2"
  append := true
  error := some "e f"
  background := true

/-- A text that writes it. -/
def mixedText : String := "2>  'e f' a\\|\"'\\\"\" '' | \\\\   >> 2 &"

theorem parse_writes_of_mixed : mixedLayout.Spells mixedLine ∧
    Writes mixedLayout.signs mixedText.toList ∧
    CommandLine.parse mixedText = .ok (some mixedLine) := by
  have hspells : mixedLayout.Spells mixedLine := {
    proper := by
      intro i hi
      simp only [Layout.items, mixedLayout, List.flatten_cons, List.flatten_nil, List.cons_append,
        List.nil_append, List.mem_cons, List.not_mem_nil, or_false] at hi
      rcases hi with rfl | rfl | rfl | rfl | rfl <;>
        simp [Item.Proper, Sign.Proper, Piece.Proper, Piece.Visible, Inner.Proper] <;> decide
    first := by rfl
    others := by rfl
    redirections := by
      show ([(.error, "e f"), (.append, "2")] : List (Redirection × String)).Perm
        [(.append, "2"), (.error, "e f")]
      exact .swap _ _ []
    background := rfl
    append := fun _ => rfl }
  have hwrites : Writes mixedLayout.signs mixedText.toList :=
    .cons _ 1 (.cons _ 0 (.cons _ 0 (.cons _ 0 (.cons _ 0 (.cons _ 2 (.cons _ 0 (.cons _ 0
      (.one _))))))))
  exact ⟨hspells, hwrites, parse_writes hspells hwrites⟩

end LineShell
