import LineShell.Proofs.Layout

namespace LineShell.Token

/-!
# What a part of a line is read as

* `State.Fits`, `Lexeme.Within` — what a reader may hold at an offset, and that a lexeme lies on a
  part of the line;
* `scanFrom_append` — that the lexemes of two parts are classified one part after the other, the
  last token of the first part being held back;
* `placeFrom_append_line` — that what comes behind a part of a line does not bear on its tokens;
* `scanFrom_shift` — that what comes before a gap does not bear on the tokens behind it;
* `scan_append` — the tokens on both sides of a gap.
-/

/-! ### Where lexemes lie -/

/-- What a reader may hold when it has taken so many characters. -/
def State.Fits (offset : Nat) : State → Prop
  | .gap => True
  | .word read | .run read | .escape read => read.length ≤ offset
  | .quotation mark read => isQuoteMark mark = true ∧ read.length ≤ offset
  | .quotedEscape read => read.length < offset

/-- A lexeme lies on the first characters of a line, and its value is no longer than its source
can be. -/
structure Lexeme.Within (n : Nat) (l : Lexeme) : Prop where
  length_le : l.value.length ≤ l.stop
  stop_le : l.stop ≤ n

theorem State.first_fits (c : Char) (offset : Nat) : (State.first c).Fits (offset + 1) := by
  unfold State.first
  split_ifs with _ _ _ hq
  · trivial
  · exact Nat.zero_le _
  · exact Nat.le_add_left 1 offset
  · exact ⟨hq, Nat.zero_le _⟩
  · exact Nat.le_add_left 1 offset

/-- One more character is held, or two where a backslash turns out to be one of them. -/
theorem State.Fits.next {s : State} {offset : Nat} (h : s.Fits offset) (c : Char) :
    (s.next c).2.Fits (offset + 1) ∧ ∀ v ∈ (s.next c).1, v.length ≤ offset := by
  have hnone : ∀ v ∈ (none : Option (List Char)), v.length ≤ offset := by simp
  cases s with
  | gap => exact ⟨first_fits c offset, hnone⟩
  | word read =>
    have h : read.length ≤ offset := h
    simp only [State.next]
    split_ifs with _ _ hq
    · exact ⟨first_fits c offset, by simpa using h⟩
    · exact ⟨Nat.le_succ_of_le h, hnone⟩
    · exact ⟨⟨hq, Nat.le_succ_of_le h⟩, hnone⟩
    · exact ⟨Nat.succ_le_succ h, hnone⟩
  | run read =>
    have h : read.length ≤ offset := h
    simp only [State.next]
    split_ifs
    · exact ⟨Nat.succ_le_succ h, hnone⟩
    · exact ⟨first_fits c offset, by simpa using h⟩
  | quotation mark read =>
    obtain ⟨hmark, h⟩ := h
    simp only [State.next]
    split_ifs
    · exact ⟨Nat.le_succ_of_le h, hnone⟩
    · exact ⟨Nat.lt_succ_of_le h, hnone⟩
    · exact ⟨⟨hmark, Nat.succ_le_succ h⟩, hnone⟩
  | escape read => exact ⟨Nat.succ_le_succ h, hnone⟩
  | quotedEscape read =>
    have h : read.length < offset := h
    simp only [State.next]
    split_ifs
    · exact ⟨⟨rfl, Nat.succ_le_succ (Nat.le_of_lt h)⟩, hnone⟩
    · exact ⟨⟨rfl, Nat.succ_le_succ h⟩, hnone⟩

/-- The lexemes of a line lie on it. -/
theorem within_of_mem_lexemesFrom {s : State} {offset : Nat} {cs : List Char}
    (h : s.Fits offset) :
    ∀ l ∈ (lexemesFrom offset s cs).read, l.Within (offset + cs.length) := by
  induction cs generalizing s offset with
  | nil =>
    intro l hl
    cases s with
    | gap | quotation | escape | quotedEscape => cases hl
    | word read | run read =>
      obtain rfl := List.mem_singleton.1 hl
      exact ⟨by rw [List.length_reverse]; exact h, Nat.le_refl _⟩
  | cons c cs ih =>
    obtain ⟨hfits, hvalue⟩ := h.next c
    have ih := ih hfits
    rw [show offset + 1 + cs.length = offset + (c :: cs).length by rw [List.length_cons]; omega]
      at ih
    rw [lexemesFrom]
    split
    · next hnext => rwa [hnext] at ih
    · next hnext =>
      rw [hnext] at ih hvalue
      refine List.forall_mem_cons.2 ⟨⟨hvalue _ rfl, ?_⟩, ih⟩
      exact Nat.le_add_right _ _

theorem within_of_mem_lexemes {cs : List Char} :
    ∀ l ∈ (lexemes cs).read, l.Within cs.length := by
  intro l hl
  have hstart : State.gap.Fits 0 := trivial
  simpa using within_of_mem_lexemesFrom hstart l hl

/-- A lexeme on a line that has so many more characters before it. -/
def Lexeme.shift (n : Nat) (l : Lexeme) : Lexeme := { l with stop := n + l.stop }

/-- Lexemes on a line that has so many more characters before it. -/
def Lexemes.shift (n : Nat) (ls : Lexemes) : Lexemes := { ls with read := ls.read.map (·.shift n) }

theorem Lexeme.Within.start_shift {l : Lexeme} {m : Nat} (h : l.Within m) (n : Nat) :
    (l.shift n).start = n + l.start :=
  Nat.add_sub_assoc h.length_le n

theorem lexemesFrom_add (n offset : Nat) (s : State) (cs : List Char) :
    lexemesFrom (n + offset) s cs = (lexemesFrom offset s cs).shift n := by
  induction cs generalizing s offset with
  | nil => cases s <;> rfl
  | cons c cs ih =>
    rw [lexemesFrom, lexemesFrom, Nat.add_assoc]
    split
    · exact ih _ _
    · rw [ih]
      rfl

/-- A gap ends what stands before it, and what stands behind it is read as a line of its own. -/
theorem lexemesFrom_append_gap {s : State} {offset : Nat} {cs : List Char} {c : Char}
    (hc : isGap c = true) (h : (lexemesFrom offset s cs).failure = none) (ds : List Char) :
    lexemesFrom offset s (cs ++ c :: ds) =
      { lexemesFrom (offset + cs.length + 1) .gap ds with
        read := (lexemesFrom offset s cs).read ++
          (lexemesFrom (offset + cs.length + 1) .gap ds).read } := by
  induction cs generalizing s offset with
  | nil =>
    have hfirst : State.first c = .gap := by rw [State.first, if_pos hc]
    have hop : isOperatorChar c = false := by
      cases hop : isOperatorChar c with
      | false => rfl
      | true => simp [(State.not_isGap_of_isOperatorChar hop).1] at hc
    -- what is open when the gap comes is a gap, a word or a run, and it ends here
    cases s with
    | quotation | escape | quotedEscape => cases h
    | gap => simp [lexemesFrom, State.next, hfirst, State.finish]
    | word read => simp [lexemesFrom, State.next, hfirst, hc, State.finish, Lexemes.cons]
    | run read => simp [lexemesFrom, State.next, hfirst, hop, State.finish, Lexemes.cons]
  | cons d cs ih =>
    have hindex : offset + 1 + cs.length = offset + (d :: cs).length := by
      rw [List.length_cons]
      omega
    rw [lexemesFrom] at h
    rw [List.cons_append, lexemesFrom, lexemesFrom]
    split
    · next hnext =>
      rw [hnext] at h
      rw [ih h, hindex]
    · next hnext =>
      rw [hnext] at h
      rw [ih h, hindex]
      rfl

theorem lexemes_append_gap {cs : List Char} {c : Char} (hc : isGap c = true)
    (h : (lexemes cs).failure = none) (ds : List Char) :
    lexemes (cs ++ c :: ds) = ⟨(lexemes cs).read ++ ((lexemes ds).shift (cs.length + 1)).read,
      (lexemes ds).failure⟩ := by
  have hbehind : lexemesFrom (0 + cs.length + 1) .gap ds = (lexemes ds).shift (cs.length + 1) := by
    rw [Nat.zero_add]
    exact lexemesFrom_add (cs.length + 1) 0 .gap ds
  have hgap : lexemesFrom 0 .gap (cs ++ c :: ds) = _ := lexemesFrom_append_gap hc h ds
  rwa [hbehind] at hgap

/-! ### What bears on a lexeme -/

/-- All that the line and the token before bear on is whether the lexeme is bare and whether it is
glued. -/
theorem classify_congr {line line' : List Char} {previous previous' : Option (Token × Nat)}
    {l l' : Lexeme} (hvalue : l.value = l'.value) (hbare : isBare line l = isBare line' l')
    (hglued : isGluedToTwo line previous l = isGluedToTwo line' previous' l') :
    classify line previous l = classify line' previous' l' := by
  have hop : isOperator line l = isOperator line' l' := by
    rw [isOperator, isOperator, hvalue, hbare]
  unfold classify
  rw [hop, hvalue, hglued]

section

variable {cs ds : List Char} {l : Lexeme}

theorem before?_append_left {i : Nat} (h : i ≤ cs.length) :
    before? (cs ++ ds) i = before? cs i := by
  cases i with
  | zero => rfl
  | succ i => exact List.getElem?_append_left h

/-- Behind some characters, the character before is that of the rest, or else the last of them. -/
theorem before?_append_right (i : Nat) :
    before? (cs ++ ds) (cs.length + i) = if i = 0 then cs.getLast? else before? ds i := by
  cases i with
  | zero => exact before?_append cs ds
  | succ i =>
    show (cs ++ ds)[cs.length + i]? = ds[i]?
    rw [List.getElem?_append_right (Nat.le_add_right _ _), Nat.add_sub_cancel_left]

/-- What comes behind a lexeme does not bear on it. -/
theorem classify_append_line (h : l.Within cs.length) (previous : Option (Token × Nat)) :
    classify (cs ++ ds) previous l = classify cs previous l := by
  have hstart : l.start ≤ cs.length := Nat.le_trans (Nat.sub_le _ _) h.stop_le
  have hbefore : before? (cs ++ ds) l.start = before? cs l.start := before?_append_left hstart
  have hlength : l.value.length ≤ (cs.drop l.start).length := by
    have := h.length_le
    have := h.stop_le
    rw [List.length_drop, Lexeme.start]
    omega
  refine classify_congr rfl ?_ ?_
  · rw [isBare, isBare, hbefore, List.drop_append_of_le_length hstart,
      List.take_append_of_le_length hlength]
  · unfold isGluedToTwo
    rw [hbefore]

/-- Nor does what comes before, when a gap stands between. -/
theorem classify_shift {c : Char} (hc : isGap c = true) {m : Nat} (h : l.Within m)
    (previous : Option (Token × Nat)) :
    classify (cs ++ c :: ds) (previous.map fun q => (q.1, cs.length + 1 + q.2))
      (l.shift (cs.length + 1)) = classify ds previous l := by
  have hline : cs ++ c :: ds = (cs ++ [c]) ++ ds := by simp
  have hn : cs.length + 1 = (cs ++ [c]).length := by simp
  have hlast : (cs ++ [c]).getLast? = some c := List.getLast?_concat
  have hbefore : ∀ d : Char, isGap d = false →
      (before? (cs ++ c :: ds) (l.shift (cs.length + 1)).start = some d ↔
        before? ds l.start = some d) := by
    intro d hd
    rw [h.start_shift, hline, hn, before?_append_right, hlast]
    split
    · next hzero =>
      have hne : c ≠ d := by
        rintro rfl
        rw [hc] at hd
        cases hd
      simp [hzero, before?, hne]
    · rfl
  -- the gap itself is neither the backslash nor the `2` that is looked for
  refine classify_congr rfl ?_ ?_
  · have hback : (before? (cs ++ c :: ds) (l.shift (cs.length + 1)).start != some '\\') =
        (before? ds l.start != some '\\') := by
      rw [Bool.eq_iff_iff, bne_iff_ne, bne_iff_ne]
      exact not_congr (hbefore '\\' rfl)
    have hdrop : (cs ++ c :: ds).drop (l.shift (cs.length + 1)).start = ds.drop l.start := by
      rw [h.start_shift, hline, hn, List.drop_length_add_append]
    rw [isBare, isBare, hback, hdrop]
    rfl
  · have htwo : (before? (cs ++ c :: ds) (l.shift (cs.length + 1)).start == some '2') =
        (before? ds l.start == some '2') := by
      rw [Bool.eq_iff_iff, beq_iff_eq, beq_iff_eq]
      exact hbefore '2' rfl
    rcases previous with _ | ⟨t, stop⟩
    · rfl
    · have hstop : (cs.length + 1 + stop == (l.shift (cs.length + 1)).start) =
          (stop == l.start) := by
        rw [Bool.eq_iff_iff, beq_iff_eq, beq_iff_eq, h.start_shift]
        omega
      cases t with
      | word text => simp only [isGluedToTwo, Option.map_some, htwo, hstop]
      | pipe | background | redirect => rfl

/-- A lexeme that starts behind the token before it is not glued to it. -/
theorem isGluedToTwo_eq_false {line : List Char} {previous : Option (Token × Nat)}
    (h : ∀ q ∈ previous, q.2 < l.start) : isGluedToTwo line previous l = false := by
  rcases previous with _ | ⟨t, stop⟩
  · rfl
  · have hstop : (stop == l.start) = false := beq_eq_false_iff_ne.2 (Nat.ne_of_lt (h _ rfl))
    cases t <;> simp [isGluedToTwo, hstop]

end

/-! ### Lexemes in parts -/

/-- Some token is placed where one was held back. -/
theorem ne_nil_of_placeFrom {line : List Char} {q : Token × Nat} {ls : List Lexeme}
    {placed : List (Token × Nat)} (h : placeFrom line (some q) ls = .ok placed) : placed ≠ [] := by
  induction ls generalizing q placed with
  | nil =>
    cases h
    exact List.cons_ne_nil _ _
  | cons l ls ih =>
    obtain ⟨t, takes, placed, -, hplaced, rfl⟩ := placeFrom_cons h
    cases takes with
    | true => exact ih hplaced
    | false => exact List.cons_ne_nil _ _

/-- The lexemes of two parts are classified one part after the other, and the last token of the
first part may be taken by the second one. -/
theorem scanFrom_append (line : List Char) (previous : Option (Token × Nat))
    (ls ls' : List Lexeme) :
    scanFrom line previous (ls ++ ls') = (placeFrom line previous ls >>= fun placed =>
      (scanFrom line placed.getLast? ls').map (placed.dropLast.map Prod.fst ++ ·)) := by
  induction ls generalizing previous with
  | nil =>
    show _ = (scanFrom line previous.toList.getLast? ls').map _
    have hid : ∀ x : Except LineError (List Token), x.map ([] ++ ·) = x := by
      intro x
      cases x <;> rfl
    cases previous <;> exact (hid _).symm
  | cons l ls ih =>
    rw [List.cons_append, scanFrom, placeFrom]
    cases classify line previous l with
    | error e => rfl
    | ok r =>
      obtain ⟨t, takes⟩ := r
      show (scanFrom line (some (t, l.stop)) (ls ++ ls') >>= _) =
        ((placeFrom line (some (t, l.stop)) ls >>= _) >>= _)
      rw [ih]
      cases hplaced : placeFrom line (some (t, l.stop)) ls with
      | error e => rfl
      | ok placed =>
        -- the lexeme's own token or a later one is held back, so the one before it is not
        have hne := ne_nil_of_placeFrom hplaced
        show ((scanFrom line placed.getLast? ls').map _ >>= _) =
          (scanFrom line (if takes then placed else previous.toList ++ placed).getLast? ls').map _
        have hlast : (if takes then placed else previous.toList ++ placed).getLast? =
            placed.getLast? := by
          cases takes with
          | true => rfl
          | false =>
            obtain ⟨front, q, rfl⟩ := List.eq_nil_or_concat placed |>.resolve_left hne
            simp [← List.append_assoc]
        rw [hlast]
        cases scanFrom line placed.getLast? ls' with
        | error e => rfl
        | ok ts =>
          cases takes with
          | true => rfl
          | false =>
            show Except.ok (_ ++ (_ ++ ts)) =
              Except.ok ((previous.toList ++ placed).dropLast.map _ ++ ts)
            rw [List.dropLast_append_of_ne_nil hne, List.map_append, List.append_assoc]

/-- A result of two steps comes from a result of the first one. -/
theorem exists_of_bind_eq_ok {ε α β : Type} {x : Except ε α} {f : α → Except ε β} {b : β}
    (h : (x >>= f) = .ok b) : ∃ a, x = .ok a ∧ f a = .ok b := by
  cases x with
  | error e => cases h
  | ok a => exact ⟨a, rfl, h⟩

/-- Tokens are placed where their lexemes end. -/
theorem exists_stop_of_mem_placeFrom {line : List Char} {previous : Option (Token × Nat)}
    {ls : List Lexeme} {placed : List (Token × Nat)} (h : placeFrom line previous ls = .ok placed) :
    ∀ q ∈ placed, q ∈ previous ∨ ∃ l ∈ ls, q.2 = l.stop := by
  induction ls generalizing previous placed with
  | nil =>
    cases h
    exact fun q hq => .inl (Option.mem_toList.1 hq)
  | cons l ls ih =>
    obtain ⟨t, takes, placed, -, hplaced, rfl⟩ := placeFrom_cons h
    have hlater : ∀ q ∈ placed, ∃ l' ∈ l :: ls, q.2 = l'.stop := by
      intro q hq
      rcases ih hplaced q hq with hq | ⟨l', hl', hstop⟩
      · cases hq
        exact ⟨l, .head _, rfl⟩
      · exact ⟨l', .tail _ hl', hstop⟩
    intro q hq
    split at hq
    · exact .inr (hlater q hq)
    · exact (List.mem_append.1 hq).imp Option.mem_toList.1 (hlater q)

/-- What comes behind a part of a line does not bear on its tokens. -/
theorem placeFrom_append_line {cs : List Char} (ds : List Char) {ls : List Lexeme}
    (h : ∀ l ∈ ls, l.Within cs.length) (previous : Option (Token × Nat)) :
    placeFrom (cs ++ ds) previous ls = placeFrom cs previous ls := by
  induction ls generalizing previous with
  | nil => rfl
  | cons l ls ih =>
    obtain ⟨hl, hls⟩ := List.forall_mem_cons.1 h
    simp only [placeFrom, classify_append_line hl, ih hls]

/-- What comes before a gap does not bear on the tokens behind it. -/
theorem scanFrom_shift (cs : List Char) {c : Char} (hc : isGap c = true) {ds : List Char}
    {ls : List Lexeme} (h : ∀ l ∈ ls, l.Within ds.length) (previous : Option (Token × Nat)) :
    scanFrom (cs ++ c :: ds) (previous.map fun q => (q.1, cs.length + 1 + q.2))
      (ls.map (·.shift (cs.length + 1))) = scanFrom ds previous ls := by
  induction ls generalizing previous with
  | nil => cases previous <;> rfl
  | cons l ls ih =>
    obtain ⟨hl, hls⟩ := List.forall_mem_cons.1 h
    have htokens : (previous.map fun q => (q.1, cs.length + 1 + q.2)).toList.map Prod.fst =
        previous.toList.map Prod.fst := by
      cases previous <;> rfl
    rw [List.map_cons, scanFrom, scanFrom, classify_shift hc hl, htokens]
    have ih := fun t => ih hls (some (t, l.stop))
    exact congrArg _ (funext fun r => congrArg (· >>= _) (ih r.1))

/-- A first lexeme that is not glued to what stands before it leaves it alone. -/
theorem scanFrom_apart {line : List Char} {previous : Option (Token × Nat)} {ls : List Lexeme}
    (h : ∀ l ∈ ls.head?, isGluedToTwo line previous l = false) :
    scanFrom line previous ls =
      (scanFrom line none ls).map (previous.toList.map Prod.fst ++ ·) := by
  cases ls with
  | nil =>
    show Except.ok _ = Except.ok (_ ++ [])
    rw [List.append_nil]
  | cons l ls =>
    have hglued := h l rfl
    have hsame : classify line previous l = classify line none l := classify_congr rfl rfl hglued
    rw [scanFrom, scanFrom, hsame]
    cases hclass : classify line none l with
    | error e => rfl
    | ok r =>
      obtain ⟨t, takes⟩ := r
      obtain rfl : takes = false := by
        rcases classify_cases hclass with ⟨-, -, -, htakes⟩ | ⟨-, -, rfl⟩
        · cases takes with
          | false => rfl
          | true => cases htakes rfl
        · rfl
      show (scanFrom line (some (t, l.stop)) ls >>= _) =
        (scanFrom line (some (t, l.stop)) ls >>= _).map _
      cases scanFrom line (some (t, l.stop)) ls <;> rfl

/-- The tokens of a line whose characters can be read to the end. -/
theorem scan_eq_of_failure {cs : List Char} (h : (lexemes cs).failure = none) :
    scan cs = (placeFrom cs none (lexemes cs).read).map (·.map Prod.fst) := by
  rw [scan, h, scanFrom_eq_map]
  cases placeFrom cs none (lexemes cs).read <;> rfl

/-- The tokens placed are those before the last one, and the last one. -/
theorem map_dropLast_append_getLast? (placed : List (Token × Nat)) :
    placed.dropLast.map Prod.fst ++ placed.getLast?.toList.map Prod.fst = placed.map Prod.fst := by
  rw [← List.map_append]
  rcases List.eq_nil_or_concat placed with rfl | ⟨front, q, rfl⟩
  · rfl
  · simp

/-- **Tokens on both sides of a gap.** Where a line can be read up to a gap, its tokens are those
before the gap and those behind it, each side being read by itself. -/
theorem scan_append {cs : List Char} {c : Char} (hc : isGap c = true)
    (h : (lexemes cs).failure = none) (ds : List Char) :
    scan (cs ++ c :: ds) = (do
      let before ← scan cs
      let behind ← scan ds
      return before ++ behind) := by
  have hbehind : scanFrom (cs ++ c :: ds) none ((lexemes ds).shift (cs.length + 1)).read =
      scanFrom ds none (lexemes ds).read := scanFrom_shift cs hc within_of_mem_lexemes none
  rw [scan_eq_of_failure h, scan, scan, lexemes_append_gap hc h, scanFrom_append,
    placeFrom_append_line _ within_of_mem_lexemes]
  cases hplaced : placeFrom cs none (lexemes cs).read with
  | error e => rfl
  | ok placed =>
    -- the token held back ends before the gap, and what is behind it starts behind the gap
    have hapart : ∀ l ∈ ((lexemes ds).shift (cs.length + 1)).read.head?,
        isGluedToTwo (cs ++ c :: ds) placed.getLast? l = false := by
      intro l hl
      obtain ⟨k, hk, rfl⟩ := List.mem_map.1 (List.mem_of_mem_head? hl)
      refine isGluedToTwo_eq_false fun q hq => ?_
      rw [(within_of_mem_lexemes k hk).start_shift]
      rcases exists_stop_of_mem_placeFrom hplaced q (List.mem_of_mem_getLast? hq) with
        hnone | ⟨l, hl, hstop⟩
      · cases hnone
      · have := (within_of_mem_lexemes l hl).stop_le
        omega
    show ((scanFrom (cs ++ c :: ds) placed.getLast? _).map _ >>= _) = _
    rw [scanFrom_apart hapart, hbehind]
    cases scanFrom ds none (lexemes ds).read with
    | error e => rfl
    | ok ts =>
      cases (lexemes ds).failure with
      | some failure => rfl
      | none =>
        show Except.ok (_ ++ (_ ++ ts)) = Except.ok (_ ++ ts)
        rw [← List.append_assoc, map_dropLast_append_getLast?]

end LineShell.Token
