import LineShell.Proofs.Locality

namespace LineShell.Token

/-!
# Which `>` redirects the error stream

* `SpellsTwo`, `EndsInTwo` — the words that are taken for the `2` of `2>`, and that such a word
  stands at the end of a part of a line;
* `isGluedToTwo_iff` — that a run behind some segments is glued to a `2` just if they end in one;
* `redirects_error_iff` — what each `>` of a line redirects, and what becomes of the word before it.

A word of the value `2` is meant to be an argument unless it is written as it is. Only the end of
its source is looked at, so what makes no difference to the value makes none here either.
-/

/-! ### Words that spell a two -/

/-- A word that is taken for the `2` of `2>`: empty quotations, and then a `2` as it is or behind a
backslash. -/
def SpellsTwo (ps : List Piece) : Prop :=
  ∃ quotes last, ps = quotes ++ [last] ∧ (∀ q ∈ quotes, q = .single [] ∨ q = .double []) ∧
    (last = .plain '2' ∨ last = .escaped '2')

/-- A part of a line ends in a word that spells a two. -/
def EndsInTwo (front : List Segment) : Prop :=
  ∃ before ps, front = before ++ [.word ps] ∧ SpellsTwo ps

theorem Piece.source_ne_nil (p : Piece) : p.source ≠ [] := by
  cases p <;> exact List.cons_ne_nil _ _

/-- Only an empty quotation adds nothing to a word. -/
theorem Piece.value_eq_nil_iff {p : Piece} : p.value = [] ↔ p = .single [] ∨ p = .double [] := by
  cases p with
  | plain c | escaped c => simp [value]
  | single text => simp [value]
  | double inners =>
    have hinner : ∀ i : Inner, i.value ≠ [] := by
      intro i
      cases i with
      | char c => exact List.cons_ne_nil _ _
      | escape c =>
        rw [Inner.value]
        split <;> exact List.cons_ne_nil _ _
    cases inners with
    | nil => simp [value]
    | cons i is => simp [value, hinner i]

theorem valueOf_eq_nil_iff {ps : List Piece} :
    valueOf ps = [] ↔ ∀ p ∈ ps, p = .single [] ∨ p = .double [] := by
  simp only [valueOf, List.flatMap_eq_nil_iff, Piece.value_eq_nil_iff]

/-- The words that spell a two are those of the value `2` whose source ends in it. -/
theorem spellsTwo_iff {ps : List Piece} :
    SpellsTwo ps ↔ valueOf ps = ['2'] ∧ (sourceOf ps).getLast? = some '2' := by
  constructor
  · rintro ⟨quotes, last, rfl, hquotes, hlast⟩
    rw [valueOf_append, sourceOf_append, valueOf_eq_nil_iff.2 hquotes]
    rcases hlast with rfl | rfl
    · exact ⟨rfl, by simp [Piece.source]⟩
    · exact ⟨rfl, by simp [Piece.source]⟩
  · rintro ⟨hvalue, hsource⟩
    have hne : ps ≠ [] := by
      rintro rfl
      cases hvalue
    obtain ⟨quotes, last, rfl⟩ := List.eq_nil_or_concat ps |>.resolve_left hne
    rw [List.concat_eq_append] at hvalue hsource ⊢
    rw [valueOf_append] at hvalue
    rw [sourceOf_append, sourceOf_cons, sourceOf_nil, List.append_nil] at hsource
    -- the source of a quotation ends in its mark, so the `2` is a character outside quotations
    have hlast : (last = .plain '2' ∨ last = .escaped '2') ∧ last.value = ['2'] := by
      cases last with
      | plain c =>
        obtain rfl : c = '2' := by simpa [Piece.source] using hsource
        exact ⟨.inl rfl, rfl⟩
      | escaped c =>
        obtain rfl : c = '2' := by simpa [Piece.source] using hsource
        exact ⟨.inr rfl, rfl⟩
      | single text | double inners =>
        rw [Piece.source, ← List.cons_append, ← List.append_assoc, List.getLast?_concat] at hsource
        cases hsource
    refine ⟨quotes, last, rfl, valueOf_eq_nil_iff.1 ?_, hlast.1⟩
    rwa [valueOf_cons, valueOf_nil, List.append_nil, hlast.2, List.append_left_eq_self] at hvalue

/-- Without empty quotations and backslashes it is the word that is written `2`. -/
theorem spellsTwo_iff_sourceOf {ps : List Piece}
    (h : ∀ p ∈ ps, p.value ≠ [] ∧ p ≠ .escaped '2') : SpellsTwo ps ↔ sourceOf ps = ['2'] := by
  constructor
  · rintro ⟨quotes, last, rfl, hquotes, hlast⟩
    have hnil : quotes = [] := by
      refine List.eq_nil_iff_forall_not_mem.2 fun q hq => ?_
      exact (h q (List.mem_append_left _ hq)).1 (Piece.value_eq_nil_iff.2 (hquotes q hq))
    subst hnil
    rcases hlast with rfl | rfl
    · rfl
    · exact absurd rfl (h (.escaped '2') (by simp)).2
  · intro hsource
    cases ps with
    | nil => cases hsource
    | cons p ps =>
      cases p with
      | plain c =>
        cases ps with
        | nil =>
          obtain rfl : c = '2' := by simpa [Piece.source] using hsource
          exact ⟨[], _, rfl, List.forall_mem_nil _, .inl rfl⟩
        | cons q qs =>
          have hq : sourceOf (q :: qs) = [] := (List.cons.inj hsource).2
          rw [sourceOf_cons] at hq
          exact absurd (List.append_eq_nil_iff.1 hq).1 q.source_ne_nil
      | escaped c | single text | double inners => simp [Piece.source] at hsource

/-! ### The run behind a part of a line -/

section

variable {line : List Char} {previous : Option (Token × Nat)} {placed : List (Token × Nat)}
  {ls : List Lexeme} {l : Lexeme}

/-- A word at the end of some lexemes is the token that is held back. -/
theorem getLast?_of_placeFrom (h : placeFrom line previous (ls ++ [l]) = .ok placed)
    (hl : isOperator line l = false) :
    placed.getLast? = some (.word (String.ofList l.value), l.stop) := by
  induction ls generalizing previous placed with
  | nil =>
    obtain ⟨t, takes, placed, hclass, hplaced, rfl⟩ := placeFrom_cons h
    rw [classify_of_not_isOperator hl] at hclass
    cases hclass
    cases hplaced
    exact List.getLast?_concat
  | cons k ls ih =>
    obtain ⟨t, takes, placed, -, hplaced, rfl⟩ := placeFrom_cons h
    have ih := ih hplaced
    cases takes with
    | true => exact ih
    | false =>
      rw [if_neg Bool.false_ne_true, List.getLast?_append, ih]
      rfl

/-- The tokens of a lexeme and those behind it. -/
theorem scanFrom_cons {ts : List Token} (h : scanFrom line previous (l :: ls) = .ok ts) :
    ∃ t takes ts', classify line previous l = .ok (t, takes) ∧
      scanFrom line (some (t, l.stop)) ls = .ok ts' ∧
      ts = if takes then ts' else previous.toList.map Prod.fst ++ ts' := by
  rw [scanFrom] at h
  obtain ⟨⟨t, takes⟩, hclass, h⟩ := exists_of_bind_eq_ok h
  obtain ⟨ts', hrest, h⟩ := exists_of_bind_eq_ok h
  exact ⟨t, takes, ts', hclass, hrest, (Except.ok.inj h).symm⟩

/-- An operator that is held back stays. -/
theorem exists_cons_of_scanFrom {t : Token} {stop : Nat} {ts : List Token}
    (h : scanFrom line (some (t, stop)) ls = .ok ts) (ht : t.isWord = false) :
    ∃ later, ts = t :: later := by
  cases ls with
  | nil => exact ⟨[], (Except.ok.inj h).symm⟩
  | cons l ls =>
    obtain ⟨u, takes, ts', hclass, -, rfl⟩ := scanFrom_cons h
    cases takes with
    | false => exact ⟨ts', rfl⟩
    | true =>
      -- only a word is taken
      rcases classify_cases hclass with ⟨-, -, -, hglued⟩ | ⟨-, -, h⟩
      · have := isWord_of_isGluedToTwo (hglued rfl) _ rfl
        rw [ht] at this
        cases this
      · cases h

/-- What `>` is, it is whatever follows, and it takes along the word that it is glued to. -/
theorem exists_later_of_scanFrom {ts : List Token} (hvalue : l.value = ['>'])
    (hop : isOperator line l = true) (h : scanFrom line previous (l :: ls) = .ok ts) :
    ∃ later, ts = if isGluedToTwo line previous l then .redirect .error :: later
      else previous.toList.map Prod.fst ++ .redirect .output :: later := by
  obtain ⟨t, takes, ts', hclass, hrest, rfl⟩ := scanFrom_cons h
  have hgreater : classify line previous l = if isGluedToTwo line previous l
      then .ok (.redirect .error, true) else .ok (.redirect .output, false) := by
    rw [classify, if_pos hop, hvalue]
    rfl
  rw [hgreater] at hclass
  cases hglued : isGluedToTwo line previous l with
  | true =>
    rw [hglued] at hclass
    cases hclass
    exact exists_cons_of_scanFrom hrest rfl
  | false =>
    rw [hglued] at hclass
    cases hclass
    obtain ⟨later, rfl⟩ := exists_cons_of_scanFrom hrest rfl
    exact ⟨later, rfl⟩

end

/-- The last character of a part of a line that does not end in a word is no `2`. -/
theorem getLast?_textOf_ne {front : List Segment} (h : Segmented .gap front)
    (hfront : ∀ before ps, front ≠ before ++ [.word ps]) : (textOf front).getLast? ≠ some '2' := by
  rcases List.eq_nil_or_concat front with rfl | ⟨before, g, rfl⟩
  · exact nofun
  · rw [List.concat_eq_append] at h hfront ⊢
    obtain ⟨e, hlast⟩ := h.right
    rw [textOf_append, textOf_cons, textOf_nil, List.append_nil]
    cases hlast with
    | word => exact absurd rfl (hfront before _)
    | @gap _ c _ hc =>
      rw [Segment.source, List.getLast?_concat]
      rintro ⟨⟩
      cases hc
    | run _ hne hop =>
      obtain ⟨chars, c, rfl⟩ := List.eq_nil_or_concat _ |>.resolve_left hne
      rw [Segment.source, List.concat_eq_append, ← List.append_assoc, List.getLast?_concat]
      rintro ⟨⟩
      cases hop '2' (by simp)

section

variable {before : List Segment} {ps : List Piece}

theorem Segmented.word_of_concat (h : Segmented .gap (before ++ [.word ps])) :
    ps ≠ [] ∧ ∀ p ∈ ps, p.Proper := by
  obtain ⟨e, hlast⟩ := h.right
  cases hlast with
  | word _ hne hp _ => exact ⟨hne, hp⟩

theorem textOf_concat_word (before : List Segment) (ps : List Piece) :
    textOf (before ++ [.word ps]) = textOf before ++ sourceOf ps := by
  rw [textOf_append]
  exact congrArg (textOf before ++ ·) (List.append_nil _)

theorem endsInTwo_concat_word : EndsInTwo (before ++ [.word ps]) ↔ SpellsTwo ps := by
  constructor
  · rintro ⟨before', ps', heq, hps⟩
    cases (List.append_inj' heq rfl).2
    exact hps
  · exact fun hps => ⟨before, ps, rfl, hps⟩

/-- A word at the end of a part of a line is the token that is held back there. -/
theorem getLast?_of_placeFrom_word {line after : List Char} {placed : List (Token × Nat)}
    (h : Segmented .gap (before ++ [.word ps]))
    (hline : line = textOf (before ++ [.word ps]) ++ after)
    (hplaced : placeFrom line none (lexemesOf 0 (before ++ [.word ps])) = .ok placed) :
    placed.getLast? =
      some (.word (String.ofList (valueOf ps)), (textOf (before ++ [.word ps])).length) := by
  obtain ⟨hne, hp⟩ := h.word_of_concat
  rw [textOf_concat_word] at hline ⊢
  have hop := isOperator_word hne hp (textOf before) after
  rw [← List.append_assoc, ← hline] at hop
  rw [lexemesOf_append, Nat.zero_add] at hplaced
  rw [getLast?_of_placeFrom hplaced hop, List.length_append]

end

/-- A run behind segments is glued to a `2` just if they end in a word that spells one. -/
theorem isGluedToTwo_iff {front : List Segment} {line after : List Char}
    {placed : List (Token × Nat)} (h : Segmented .gap front) (hline : line = textOf front ++ after)
    (hplaced : placeFrom line none (lexemesOf 0 front) = .ok placed) :
    isGluedToTwo line placed.getLast? ⟨['>'], (textOf front).length + 1⟩ = true ↔
      EndsInTwo front := by
  have hbefore : before? line (textOf front).length = (textOf front).getLast? := by
    rw [hline, before?_append]
  by_cases hfront : ∃ before ps, front = before ++ [.word ps]
  · obtain ⟨before, ps, rfl⟩ := hfront
    rw [getLast?_of_placeFrom_word h hline hplaced]
    have htext : String.ofList (valueOf ps) = String.ofList ['2'] ↔ valueOf ps = ['2'] :=
      String.ofList_inj
    have htwo : String.ofList ['2'] = "2" := rfl
    have hsource : (textOf (before ++ [.word ps])).getLast? = (sourceOf ps).getLast? := by
      have hpos := length_sourceOf_pos h.word_of_concat.1 h.word_of_concat.2
      obtain ⟨cs, c, hcs⟩ := List.eq_nil_or_concat (sourceOf ps) |>.resolve_left
        (List.length_pos_iff.1 hpos)
      rw [textOf_concat_word, hcs, List.concat_eq_append, ← List.append_assoc,
        List.getLast?_concat, List.getLast?_concat]
    rw [endsInTwo_concat_word, spellsTwo_iff, ← htext, htwo, ← hsource, ← hbefore]
    simp [isGluedToTwo, Lexeme.start]
  · rw [not_exists] at hfront
    have hlast := getLast?_textOf_ne h fun before ps heq => hfront before ⟨ps, heq⟩
    have hends : ¬EndsInTwo front := by
      rintro ⟨before, ps, heq, -⟩
      exact hfront before ⟨ps, heq⟩
    refine iff_of_false (fun hglued => hlast ?_) hends
    rw [← hbefore]
    unfold isGluedToTwo at hglued
    split at hglued
    · simp only [Bool.and_eq_true, beq_iff_eq] at hglued
      exact hglued.2
    · cases hglued

/-- **What `>` redirects.** It redirects the error stream, and takes the word before it along, just
if that word stands right before it and spells a two. Otherwise it redirects the output, and the
word before it stays as it is. -/
theorem redirects_error_iff {line : List Char} {ts : List Token} (h : scan line = .ok ts) :
    ∃ gs, Segmented .gap gs ∧ line = textOf gs ∧ ∀ front back, gs = front ++ .run ['>'] :: back →
      before? line (textOf front).length ≠ some '\\' →
      ∃ earlier later, scan (textOf front) = .ok earlier ∧
        (EndsInTwo front → ts = earlier.dropLast ++ .redirect .error :: later) ∧
        (¬EndsInTwo front → ts = earlier ++ .redirect .output :: later) ∧
        ∀ before ps, front = before ++ [.word ps] →
          earlier.getLast? = some (.word (String.ofList (valueOf ps))) ∧
          ((∀ p ∈ ps, p.value ≠ [] ∧ p ≠ .escaped '2') →
            (EndsInTwo front ↔ sourceOf ps = ['2'])) := by
  obtain ⟨hread, -⟩ := exists_placed_of_scan h
  obtain ⟨gs, hgs, rfl⟩ := exists_segmented hread
  refine ⟨gs, hgs, rfl, ?_⟩
  rintro front back rfl hback
  have hfront := hgs.left
  have hline : textOf (front ++ .run ['>'] :: back) = textOf front ++ ('>' :: textOf back) :=
    textOf_append front _
  have hlexemes : lexemes (textOf front) = ⟨lexemesOf 0 front, none⟩ := lexemes_segments hfront
  have hscan : scanFrom (textOf (front ++ .run ['>'] :: back)) none
      (lexemesOf 0 (front ++ .run ['>'] :: back)) = .ok ts := by
    obtain ⟨-, placed, -, hplaced, rfl⟩ := exists_placed_of_scan h
    rw [lexemes_segments hgs] at hplaced
    rw [scanFrom_eq_map, hplaced]
    rfl
  have hwithin := @within_of_mem_lexemes (textOf front)
  rw [hlexemes] at hwithin
  rw [lexemesOf_append, Nat.zero_add, scanFrom_append] at hscan
  generalize textOf (front ++ .run ['>'] :: back) = line at *
  obtain ⟨placed, hplaced, hbehind⟩ := exists_of_bind_eq_ok hscan
  have hearlier : scan (textOf front) = .ok (placed.map Prod.fst) := by
    rw [hline, placeFrom_append_line _ hwithin] at hplaced
    rw [scan_eq_of_failure (by rw [hlexemes]), hlexemes, hplaced]
    rfl
  have hop : isOperator line ⟨['>'], (textOf front).length + 1⟩ = true := by
    have := isOperator_run (List.cons_ne_nil '>' []) (List.all_eq_true.1 rfl) (textOf front)
      (textOf back)
    rw [List.singleton_append, ← hline] at this
    exact this.trans (bne_iff_ne.2 hback)
  have hglued := isGluedToTwo_iff hfront hline hplaced
  cases hrest : scanFrom line placed.getLast?
      (lexemesOf (textOf front).length (.run ['>'] :: back)) with
  | error e =>
    rw [hrest] at hbehind
    cases hbehind
  | ok us =>
    rw [hrest] at hbehind
    obtain rfl : placed.dropLast.map Prod.fst ++ us = ts := Except.ok.inj hbehind
    obtain ⟨later, rfl⟩ := exists_later_of_scanFrom rfl hop hrest
    refine ⟨_, later, hearlier, fun htwo => ?_, fun htwo => ?_, ?_⟩
    · rw [if_pos (hglued.2 htwo), List.map_dropLast]
    · rw [if_neg (mt hglued.1 htwo), ← List.append_assoc, map_dropLast_append_getLast?]
    · rintro before ps rfl
      rw [List.getLast?_map, getLast?_of_placeFrom_word hfront hline hplaced]
      exact ⟨rfl, fun hplain => endsInTwo_concat_word.trans (spellsTwo_iff_sourceOf hplain)⟩

/-- A line on which one `2` is written as it is and another one between quotes. -/
def twosLine : List Char := "a 2>f '2'>g".toList

/-- Each `>` of the line is told what it redirects. -/
theorem redirects_error_iff_of_twos :
    scan twosLine = .ok [.word "a", .redirect .error, .word "f", .word "2", .redirect .output,
      .word "g"] ∧
    ∃ gs, Segmented .gap gs ∧ twosLine = textOf gs ∧ ∀ front back,
      gs = front ++ .run ['>'] :: back → before? twosLine (textOf front).length ≠ some '\\' →
      ∃ earlier, scan (textOf front) = .ok earlier := by
  have h : scan twosLine = .ok [.word "a", .redirect .error, .word "f", .word "2",
      .redirect .output, .word "g"] := by rfl
  obtain ⟨gs, hgs, hline, hsigns⟩ := redirects_error_iff h
  refine ⟨h, gs, hgs, hline, fun front back heq hback => ?_⟩
  obtain ⟨earlier, -, hearlier, -⟩ := hsigns front back heq hback
  exact ⟨earlier, hearlier⟩

/-- A word that is not written `2` is taken for one, behind a backslash or behind an empty
quotation. -/
theorem scan_two_not_bare :
    (Segmented .gap [.word [.escaped '2'], .run ['>'], .word [.plain 'f']] ∧
      textOf [.word [.escaped '2'], .run ['>'], .word [.plain 'f']] = "\\2>f".toList ∧
      sourceOf [.escaped '2'] ≠ ['2'] ∧
      scan "\\2>f".toList = .ok [.redirect .error, .word "f"]) ∧
    (Segmented .gap [.word [.single [], .plain '2'], .run ['>'], .word [.plain 'f']] ∧
      textOf [.word [.single [], .plain '2'], .run ['>'], .word [.plain 'f']] =
        "''2>f".toList ∧
      sourceOf [.single [], .plain '2'] ≠ ['2'] ∧
      scan "''2>f".toList = .ok [.redirect .error, .word "f"]) := by
  have hbehind : Segmented .word [.run ['>'], .word [.plain 'f']] := by
    refine .run (by decide) (by decide) (List.all_eq_true.1 rfl)
      (.word (by decide) (by decide) (fun p hp => ?_) (.nil _))
    cases List.mem_singleton.1 hp
    exact ⟨by decide, by decide, by decide, by decide⟩
  refine ⟨⟨.word (by decide) (by decide) (fun p hp => ?_) hbehind, by rfl, by decide, by rfl⟩,
    .word (by decide) (by decide) (fun p hp => ?_) hbehind, by rfl, by decide, by rfl⟩
  · cases List.mem_singleton.1 hp
    exact trivial
  · rcases List.mem_cons.1 hp with rfl | hp
    · exact List.not_mem_nil
    · cases List.mem_singleton.1 hp
      exact ⟨by decide, by decide, by decide, by decide⟩

end LineShell.Token
