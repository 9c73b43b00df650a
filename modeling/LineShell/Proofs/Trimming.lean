import LineShell.Proofs.Locality
import Mathlib.Data.List.TakeWhile

namespace LineShell

/-!
# What trimming takes away

* `Text.leading`, `Text.trailing` — the blanks that trimming takes away at the two ends;
* `CommandLine.parseUntrimmed` — a text read as a command line, with its blanks;
* `Skippable` — that these blanks are gaps on the line, or stand in a quotation that is not closed;
* `Lexemes.size`, `inkOf` — how much lexemes hold, and how much of a text is no gap;
* `KeepsLexemes`, `KeepsLexemes.skippable` — only such blanks can go without changing a lexeme;
* `parse_eq_parseUntrimmed` — that a text means the same without such blanks.

There are more blanks than gaps, and a gap may be escaped. Such a blank belongs to a word, and
trimming takes it from the word.
-/

namespace Text

/-- The blanks that a text starts with. -/
def leading (cs : List Char) : List Char := cs.takeWhile isBlank

/-- The blanks that a text ends with, behind something else. -/
def trailing (cs : List Char) : List Char := ((trimStart cs).reverse.takeWhile isBlank).reverse

/-- What trimming takes away and what it leaves. -/
theorem leading_append_trim_append_trailing (cs : List Char) :
    leading cs ++ (trim cs ++ trailing cs) = cs := by
  have hbehind : trim cs ++ trailing cs = trimStart cs := by
    rw [trim, trailing, ← List.reverse_append]
    exact (congrArg List.reverse List.takeWhile_append_dropWhile).trans (List.reverse_reverse _)
  rw [hbehind]
  exact List.takeWhile_append_dropWhile

theorem isBlank_of_mem_trailing {cs : List Char} {c : Char} (h : c ∈ trailing cs) :
    isBlank c = true :=
  List.mem_takeWhile_imp (List.mem_reverse.1 h)

end Text

namespace CommandLine

/-- A text read as a command line, with the blanks at its ends. -/
def parseUntrimmed (text : String) : Except LineError (Option CommandLine) := do
  ofTokens (← Token.scan text.toList)

end CommandLine

namespace Token

/-! ### Gaps at the ends of a line -/

section

variable {cs ds : List Char}

theorem lexemesFrom_gaps (h : ∀ c ∈ ds, isGap c = true) (offset : Nat) :
    lexemesFrom offset .gap ds = ⟨[], none⟩ := by
  induction ds generalizing offset with
  | nil => rfl
  | cons c ds ih =>
    obtain ⟨hc, hds⟩ := List.forall_mem_cons.1 h
    rw [lexemesFrom_gap hc]
    exact ih hds _

/-- Gaps before a line shift its lexemes. -/
theorem lexemes_gaps_append (h : ∀ c ∈ ds, isGap c = true) (cs : List Char) :
    lexemes (ds ++ cs) = (lexemes cs).shift ds.length := by
  suffices ∀ offset, lexemesFrom offset .gap (ds ++ cs) =
      lexemesFrom (ds.length + offset) .gap cs by
    rw [lexemes, this 0]
    exact lexemesFrom_add ds.length 0 .gap cs
  induction ds with
  | nil => exact fun offset => by rw [List.nil_append, List.length_nil, Nat.zero_add]
  | cons c ds ih =>
    obtain ⟨hc, hds⟩ := List.forall_mem_cons.1 h
    intro offset
    rw [List.cons_append, lexemesFrom_gap hc, ih hds, List.length_cons]
    congr 1
    omega

/-- Gaps behind a line that can be read to its end are skipped. -/
theorem lexemes_append_gaps (hread : (lexemes cs).failure = none)
    (h : ∀ c ∈ ds, isGap c = true) : lexemes (cs ++ ds) = lexemes cs := by
  cases ds with
  | nil => rw [List.append_nil]
  | cons c ds =>
    obtain ⟨hc, hds⟩ := List.forall_mem_cons.1 h
    have hnil : lexemes ds = ⟨[], none⟩ := lexemesFrom_gaps hds 0
    rw [lexemes_append_gap hc hread, hnil, ← hread]
    simp [Lexemes.shift]

/-- A quotation that is never closed goes on to the end of the line. -/
theorem lexemesFrom_append_of_unclosed {s : State} {offset : Nat} (hs : s.Fits offset)
    (hread : (lexemesFrom offset s cs).failure = some .unclosedQuote)
    (h : ∀ c ∈ ds, isQuoteMark c = false ∧ c ≠ '\\') :
    lexemesFrom offset s (cs ++ ds) = lexemesFrom offset s cs := by
  induction cs generalizing s offset with
  | nil =>
    cases s with
    | gap | word | run | escape | quotedEscape => cases hread
    | quotation mark read =>
      obtain ⟨hmark, -⟩ := hs
      rw [List.nil_append]
      induction ds generalizing offset read with
      | nil => rfl
      | cons c ds ih =>
        obtain ⟨⟨hquote, hback⟩, hds⟩ := List.forall_mem_cons.1 h
        -- only the mark closes the quotation, and only a backslash escapes in it
        have hclose : (c == mark) = false := by
          refine beq_eq_false_iff_ne.2 ?_
          rintro rfl
          rw [hmark] at hquote
          cases hquote
        have hnext : (State.quotation mark read).next c = (none, .quotation mark (c :: read)) := by
          simp [State.next, hclose, hback]
        have hcons : lexemesFrom offset (.quotation mark read) (c :: ds) =
            lexemesFrom (offset + 1) (.quotation mark (c :: read)) ds := by
          rw [lexemesFrom, hnext]
        rw [hcons]
        exact ih hds _ rfl
  | cons c cs ih =>
    have hfits := (hs.next c).1
    rw [lexemesFrom] at hread
    rw [List.cons_append, lexemesFrom, lexemesFrom]
    split
    · next hnext =>
      rw [hnext] at hread hfits
      exact ih hfits hread
    · next hnext =>
      rw [hnext] at hread hfits
      rw [ih hfits hread]

/-- What adds no lexeme to a line adds no token either. -/
theorem scan_append_of_lexemes (h : lexemes (cs ++ ds) = lexemes cs) :
    scan (cs ++ ds) = scan cs := by
  rw [scan, scan, h, scanFrom_eq_map, scanFrom_eq_map,
    placeFrom_append_line _ within_of_mem_lexemes]

theorem scan_gaps_append (h : ∀ c ∈ ds, isGap c = true) (cs : List Char) :
    scan (ds ++ cs) = scan cs := by
  induction ds with
  | nil => rfl
  | cons c ds ih =>
    obtain ⟨hc, hds⟩ := List.forall_mem_cons.1 h
    have hbehind : scan ([] ++ c :: (ds ++ cs)) = _ := scan_append hc rfl (ds ++ cs)
    rw [List.nil_append] at hbehind
    rw [List.cons_append, hbehind, ih hds]
    cases scan cs <;> rfl

end

/-! ### How much lexemes hold -/

theorem not_special_of_isBlank {c : Char} (h : Text.isBlank c = true) :
    isOperatorChar c = false ∧ isQuoteMark c = false ∧ c ≠ '\\' := by
  have hne : ∀ d : Char, Text.isBlank d = false → c ≠ d := by
    rintro d hd rfl
    rw [hd] at h
    cases h
  refine ⟨?_, ?_, hne '\\' rfl⟩
  · simp [isOperatorChar, hne '|' rfl, hne '&' rfl, hne '<' rfl, hne '>' rfl]
  · simp [isQuoteMark, hne '\'' rfl, hne '"' rfl]

/-- A blank at the start of a lexeme is a gap, or a word starts with it. -/
theorem State.first_of_isBlank {c : Char} (h : Text.isBlank c = true) :
    State.first c = if isGap c then .gap else .word [c] := by
  obtain ⟨hop, hquote, hback⟩ := not_special_of_isBlank h
  simp [State.first, hop, hquote, hback]

/-- How many characters the values of lexemes have together. -/
def Lexemes.size (ls : Lexemes) : Nat := (ls.read.flatMap (·.value)).length

/-- How many characters of a text are no gaps. -/
def inkOf (cs : List Char) : Nat := cs.countP fun c => !isGap c

/-- A reader that holds some more characters, which it has read before all others of its word. -/
def State.under (extra : List Char) : State → State
  | .gap => .word extra
  | .word read => .word (read ++ extra)
  | .run read => .run (read ++ extra)
  | .quotation mark read => .quotation mark (read ++ extra)
  | .escape read => .escape (read ++ extra)
  | .quotedEscape read => .quotedEscape (read ++ extra)

section

variable {cs ds : List Char}

@[simp] theorem Lexemes.size_cons (l : Lexeme) (ls : Lexemes) :
    (ls.cons l).size = l.value.length + ls.size := by
  simp [Lexemes.size, Lexemes.cons]

theorem Lexemes.size_shift (n : Nat) (ls : Lexemes) : (ls.shift n).size = ls.size := by
  simp [Lexemes.size, Lexemes.shift, Lexeme.shift, Function.comp_def]

theorem inkOf_cons (c : Char) (cs : List Char) :
    inkOf (c :: cs) = (if isGap c then 0 else 1) + inkOf cs := by
  rw [inkOf, inkOf, List.countP_cons, Nat.add_comm]
  cases isGap c <;> rfl

theorem inkOf_eq_zero_iff : inkOf cs = 0 ↔ ∀ c ∈ cs, isGap c = true := by
  rw [inkOf, List.countP_eq_zero]
  simp

theorem State.under_under (s : State) (read extra : List Char) :
    (s.under read).under extra = s.under (read ++ extra) := by
  cases s <;> simp [State.under]

/-- A word goes on as if its last character were the first one behind what it holds. -/
theorem State.next_word {c : Char} (h : ¬(isGap c || isOperatorChar c) = true)
    (read : List Char) : (State.word read).next c = (none, (State.first c).under read) := by
  have hgap : ¬isGap c = true := fun hgap => h (by rw [hgap, Bool.true_or])
  have hop : ¬isOperatorChar c = true := fun hop => h (by rw [hop, Bool.or_true])
  rw [State.next, State.first, if_neg h, if_neg hgap, if_neg hop]
  split_ifs <;> rfl

/-- The characters held before the others stay there until their lexeme ends. -/
theorem State.next_under (s : State) (extra : List Char) (c : Char) :
    (s.under extra).next c = (none, (s.next c).2.under extra) ∧ (s.next c).1 = none ∨
    ∃ value, (s.under extra).next c = (some (extra.reverse ++ value), (s.next c).2) ∧
      ((s.next c).1 = some value ∨ (s.next c).1 = none ∧ value = []) := by
  cases s with
  | gap =>
    by_cases hends : (isGap c || isOperatorChar c) = true
    · exact .inr ⟨[], by simp [State.under, State.next, hends], .inr ⟨rfl, rfl⟩⟩
    · exact .inl ⟨State.next_word hends extra, rfl⟩
  | word read =>
    by_cases hends : (isGap c || isOperatorChar c) = true
    · exact .inr ⟨read.reverse, by simp [State.under, State.next, hends],
        .inl (by simp [State.next, hends])⟩
    · rw [State.next_word hends, State.under_under]
      exact .inl ⟨State.next_word hends _, rfl⟩
  | run read =>
    by_cases hop : isOperatorChar c = true
    · exact .inl ⟨by simp [State.under, State.next, hop], by simp [State.next, hop]⟩
    · exact .inr ⟨read.reverse, by simp [State.under, State.next, hop],
        .inl (by simp [State.next, hop])⟩
  | quotation mark read =>
    refine .inl ?_
    simp only [State.under, State.next]
    split_ifs <;> exact ⟨rfl, rfl⟩
  | escape read => exact .inl ⟨rfl, rfl⟩
  | quotedEscape read =>
    refine .inl ?_
    simp only [State.under, State.next]
    split_ifs <;> exact ⟨rfl, rfl⟩

/-- What is held before the rest of a lexeme is in its value. -/
theorem lexemesFrom_under (s : State) (offset : Nat) (extra cs : List Char) :
    (lexemesFrom offset (s.under extra) cs).failure = (lexemesFrom offset s cs).failure ∧
      ((lexemesFrom offset s cs).failure = none →
        (lexemesFrom offset (s.under extra) cs).size =
          extra.length + (lexemesFrom offset s cs).size) := by
  induction cs generalizing s offset with
  | nil => cases s <;> simp [lexemesFrom, State.under, State.finish, Lexemes.size]
  | cons c cs ih =>
    rw [lexemesFrom, lexemesFrom]
    rcases s.next_under extra c with ⟨hunder, hnext⟩ | ⟨value, hunder, hnext⟩
    · -- no lexeme ends here, so more is held behind the character as well
      rw [hunder]
      generalize s.next c = next at hnext ⊢
      obtain ⟨ended, s'⟩ := next
      obtain rfl : ended = none := hnext
      exact ih s' _
    · rw [hunder]
      generalize s.next c = next at hnext ⊢
      obtain ⟨ended, s'⟩ := next
      rcases hnext with hended | ⟨hended, rfl⟩
      · obtain rfl : ended = some value := hended
        exact ⟨rfl, fun _ => by simp [Nat.add_assoc]⟩
      · obtain rfl : ended = none := hended
        exact ⟨rfl, fun _ => by simp⟩

/-- Blanks that are no gaps are read as the first characters of a word. -/
theorem lexemesFrom_blanks (hds : ∀ c ∈ ds, Text.isBlank c = true) (offset : Nat) :
    (lexemesFrom offset .gap (ds ++ cs)).failure = (lexemes cs).failure ∧
      ((lexemes cs).failure = none →
        (lexemesFrom offset .gap (ds ++ cs)).size = inkOf ds + (lexemes cs).size) := by
  induction ds generalizing offset with
  | nil =>
    have h : lexemesFrom offset .gap cs = (lexemes cs).shift offset :=
      lexemesFrom_add offset 0 .gap cs
    rw [List.nil_append, h, Lexemes.size_shift]
    exact ⟨rfl, fun _ => (Nat.zero_add _).symm⟩
  | cons c ds ih =>
    obtain ⟨hc, hds⟩ := List.forall_mem_cons.1 hds
    obtain ⟨hfailure, hsize⟩ := ih hds (offset + 1)
    have hcons : lexemesFrom offset .gap (c :: ds ++ cs) =
        lexemesFrom (offset + 1) (State.first c) (ds ++ cs) := rfl
    rw [hcons, inkOf_cons, State.first_of_isBlank hc]
    cases isGap c with
    | true =>
      rw [if_pos rfl, if_pos rfl, Nat.zero_add]
      exact ⟨hfailure, hsize⟩
    | false =>
      obtain ⟨hfailure', hsize'⟩ := lexemesFrom_under .gap (offset + 1) [c] (ds ++ cs)
      rw [if_neg Bool.false_ne_true, if_neg Bool.false_ne_true, Nat.add_assoc]
      refine ⟨hfailure'.trans hfailure, fun hread => ?_⟩
      rw [← hsize hread]
      exact hsize' (hfailure.trans hread)

/-- Blanks behind a text that can be read to its end are gaps, or characters of words. -/
theorem size_append_blanks (hds : ∀ c ∈ ds, Text.isBlank c = true) {s : State} {offset : Nat}
    (hread : (lexemesFrom offset s cs).failure = none) :
    (lexemesFrom offset s (cs ++ ds)).size = (lexemesFrom offset s cs).size + inkOf ds := by
  induction cs generalizing s offset with
  | nil =>
    have hblanks : (lexemesFrom offset .gap ds).failure = none ∧
        (lexemesFrom offset .gap ds).size = inkOf ds := by
      simpa [Lexemes.size] using @lexemesFrom_blanks [] ds hds offset
    cases s with
    | quotation | escape | quotedEscape => cases hread
    | gap => simpa [lexemesFrom, State.finish, Lexemes.size] using hblanks.2
    | word read =>
      have hsize : (lexemesFrom offset (.word read) ds).size = _ :=
        (lexemesFrom_under .gap offset read ds).2 hblanks.1
      rw [hblanks.2] at hsize
      simpa [lexemesFrom, State.finish, Lexemes.size] using hsize
    | run read =>
      cases ds with
      | nil => rfl
      | cons c ds =>
        -- a blank ends the run, as it would end a gap
        obtain ⟨hop, -⟩ := not_special_of_isBlank (List.forall_mem_cons.1 hds).1
        have hends : lexemesFrom offset (.run read) (c :: ds) =
            (lexemesFrom offset .gap (c :: ds)).cons ⟨read.reverse, offset⟩ := by
          simp [lexemesFrom, State.next, hop]
        rw [List.nil_append, hends, Lexemes.size_cons, hblanks.2]
        simp [lexemesFrom, State.finish, Lexemes.size]
  | cons c cs ih =>
    rw [lexemesFrom] at hread
    rw [List.cons_append, lexemesFrom, lexemesFrom]
    split
    · next hnext =>
      rw [hnext] at hread
      exact ih hread
    · next hnext =>
      rw [hnext] at hread
      rw [Lexemes.size_cons, Lexemes.size_cons, ih hread, Nat.add_assoc]

end

end Token

open Token

/-- What trimming takes from a text would be skipped on the line: it is gaps before the trimmed
text, gaps behind it where it can be read to its end, and nothing behind it where it ends in a
backslash. What goes on with a quotation that is never closed may be any blanks. -/
structure Skippable (text : List Char) : Prop where
  leading : ∀ c ∈ Text.leading text, isGap c = true
  trailing : (lexemes (Text.trim text)).failure = none →
    ∀ c ∈ Text.trailing text, isGap c = true
  escape : (lexemes (Text.trim text)).failure = some .danglingEscape → Text.trailing text = []

/-- The lexemes of a line end with it, or what fails is a quotation or a backslash. -/
theorem lexemesFrom_failure_cases (offset : Nat) (s : State) (cs : List Char) :
    (lexemesFrom offset s cs).failure = none ∨
      (lexemesFrom offset s cs).failure = some .unclosedQuote ∨
      (lexemesFrom offset s cs).failure = some .danglingEscape := by
  induction cs generalizing offset s with
  | nil => cases s <;> simp [lexemesFrom, State.finish]
  | cons c cs ih =>
    rw [lexemesFrom]
    split <;> exact ih _ _

/-- Behind the trimmed text nothing is read. -/
theorem Skippable.lexemes_append_trailing {text : List Char} (h : Skippable text) :
    lexemes (Text.trim text ++ Text.trailing text) = lexemes (Text.trim text) := by
  rcases lexemesFrom_failure_cases 0 .gap (Text.trim text) with hread | hread | hread
  · exact lexemes_append_gaps hread (h.trailing hread)
  · exact lexemesFrom_append_of_unclosed (s := .gap) trivial hread fun c hc =>
      (not_special_of_isBlank (Text.isBlank_of_mem_trailing hc)).2
  · rw [h.escape hread, List.append_nil]

/-- Trimming leaves the lexemes of a text as they are, at their places in the text. -/
def KeepsLexemes (text : List Char) : Prop :=
  lexemes text = (lexemes (Text.trim text)).shift (Text.leading text).length

theorem Skippable.keepsLexemes {text : List Char} (h : Skippable text) : KeepsLexemes text := by
  have hsplit := Text.leading_append_trim_append_trailing text
  rw [KeepsLexemes, ← h.lexemes_append_trailing, ← lexemes_gaps_append h.leading, hsplit]

/-- Where a text can be read to its end, whatever else trimming takes away is missed. -/
theorem KeepsLexemes.skippable {text : List Char} (h : KeepsLexemes text)
    (hread : (lexemes text).failure = none) : Skippable text := by
  have hsplit := Text.leading_append_trim_append_trailing text
  have hleading : ∀ c ∈ Text.leading text, Text.isBlank c = true :=
    fun c hc => List.mem_takeWhile_imp hc
  have htrailing : ∀ c ∈ Text.trailing text, Text.isBlank c = true :=
    fun c => Text.isBlank_of_mem_trailing
  have htrim : (lexemes (Text.trim text)).failure = none := by
    rw [h] at hread
    exact hread
  -- what is no gap adds to a word, at either end
  have hend : (lexemes (Text.trim text ++ Text.trailing text)).size =
      (lexemes (Text.trim text)).size + inkOf (Text.trailing text) :=
    size_append_blanks htrailing htrim
  have hstart := @lexemesFrom_blanks (Text.trim text ++ Text.trailing text) _ hleading 0
  rw [hsplit] at hstart
  have hsize : (lexemes text).size = _ := hstart.2 (hstart.1.symm.trans hread)
  have hsame : (lexemes text).size = (lexemes (Text.trim text)).size := by
    rw [h, Lexemes.size_shift]
  have hink : inkOf (Text.leading text) = 0 ∧ inkOf (Text.trailing text) = 0 := by
    omega
  refine ⟨inkOf_eq_zero_iff.1 hink.1, fun _ => inkOf_eq_zero_iff.1 hink.2, fun hescape => ?_⟩
  rw [htrim] at hescape
  cases hescape

/-- **Trimming.** Where a text only loses what would be skipped, it means the same, and its lexemes
are those of the trimmed text, at their places in the text. They are so only there, if the text can
be read to its end. -/
theorem parse_eq_parseUntrimmed (text : String) :
    (Skippable text.toList → CommandLine.parse text = CommandLine.parseUntrimmed text ∧
      KeepsLexemes text.toList) ∧
    ((lexemes text.toList).failure = none → KeepsLexemes text.toList → Skippable text.toList) := by
  refine ⟨fun h => ⟨?_, h.keepsLexemes⟩, fun hread h => h.skippable hread⟩
  have hsplit := Text.leading_append_trim_append_trailing text.toList
  rw [CommandLine.parse, CommandLine.parseUntrimmed,
    ← scan_append_of_lexemes h.lexemes_append_trailing, ← scan_gaps_append h.leading, hsplit]

/-- A text with gaps at its ends means the same without them. -/
theorem parse_eq_parseUntrimmed_of_gaps : Skippable "\tls a \n".toList ∧
    CommandLine.parse "\tls a \n" = CommandLine.parseUntrimmed "\tls a \n" ∧
    KeepsLexemes "\tls a \n".toList := by
  have h : Skippable "\tls a \n".toList :=
    ⟨List.all_eq_true.1 rfl, fun _ => List.all_eq_true.1 rfl, by decide⟩
  exact ⟨h, (parse_eq_parseUntrimmed "\tls a \n").1 h⟩

/-- A text does not always mean the same without its blanks. A no-break space is part of a word, and
so is a space behind a backslash. -/
theorem parse_ne_parseUntrimmed :
    CommandLine.parse "ls\u00a0" ≠ CommandLine.parseUntrimmed "ls\u00a0" ∧
      CommandLine.parse "echo a\\ " ≠ CommandLine.parseUntrimmed "echo a\\ " := by
  have hplain : CommandLine.parse "ls\u00a0" = .ok (some { first := ⟨"ls", []⟩ }) := by rfl
  have hspace : CommandLine.parseUntrimmed "ls\u00a0" =
      .ok (some { first := ⟨"ls\u00a0", []⟩ }) := by rfl
  have hescape : CommandLine.parse "echo a\\ " = .error .danglingEscape := by rfl
  have hword : CommandLine.parseUntrimmed "echo a\\ " =
      .ok (some { first := ⟨"echo", ["a "]⟩ }) := by rfl
  rw [hplain, hspace, hescape, hword]
  exact ⟨by simp, by simp⟩

end LineShell
