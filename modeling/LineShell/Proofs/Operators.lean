import LineShell.Proofs.Spelling
import LineShell.Token.Scan
import Mathlib.Data.List.Pairwise
import Mathlib.Tactic.ByContra

namespace LineShell.Token

/-!
# Which characters are operators

* `Place`, `IsActive` — where a character stands, and whether it is an operator's character outside
  quotations that no backslash escapes;
* `IsRun` — active characters in a row, as many as there are;
* `scanPlaced` — the tokens of a line, each with the offset just past its source;
* `isOperator_word`, `isOperator_run` — that a word is never taken for an operator, and a run always
  is, unless a backslash stands before it;
* `operators_iff` — that operators come from runs, and runs make operators, unless a backslash
  stands before them.

A backslash just before a run is itself an escaped one, so it ought not to matter. It does.
-/

/-! ### Words and runs as lexemes -/

theorem Piece.length_value_le (p : Piece) : p.value.length ≤ p.source.length := by
  cases p with
  | plain c => exact Nat.le_refl _
  | escaped c => exact Nat.le_succ _
  | single text => simp only [value, source, List.length_cons, List.length_append]; omega
  | double inners =>
    have h : (inners.flatMap Inner.value).length ≤ (inners.flatMap Inner.source).length := by
      induction inners with
      | nil => exact Nat.le_refl _
      | cons i is ih =>
        have hi : i.value.length ≤ i.source.length := by
          cases i with
          | char c => exact Nat.le_refl _
          | escape c => simp only [Inner.value, Inner.source]; split <;> simp
        rw [List.flatMap_cons, List.flatMap_cons, List.length_append, List.length_append]
        omega
    simp only [value, source, List.length_cons, List.length_append]
    omega

theorem length_valueOf_le (ps : List Piece) : (valueOf ps).length ≤ (sourceOf ps).length := by
  induction ps with
  | nil => exact Nat.le_refl _
  | cons p ps ih =>
    have := p.length_value_le
    rw [valueOf_cons, sourceOf_cons, List.length_append, List.length_append]
    omega

theorem length_sourceOf_pos {ps : List Piece} (hne : ps ≠ []) (hp : ∀ p ∈ ps, p.Proper) :
    0 < (sourceOf ps).length := by
  obtain ⟨p, qs, rfl⟩ := List.exists_cons_of_ne_nil hne
  obtain ⟨c, cs, hsource, -⟩ := Piece.exists_source_eq (hp p (.head _))
  simp [hsource]

/-- The characters that a bare lexeme's value is made of stand on the line. -/
theorem getElem?_of_isBare {text : List Char} {l : Lexeme} (h : isBare text l = true) {i : Nat}
    (hi : i < l.value.length) : text[l.start + i]? = l.value[i]? := by
  have hslice := beq_iff_eq.1 (Bool.and_eq_true_iff.1 h).1
  rw [← hslice, List.getElem?_take_of_lt hi, List.getElem?_drop]

/-- A word is not taken for an operator, whatever its last piece is. -/
theorem isOperator_piece {p : Piece} (hp : p.Proper) {before value : List Char}
    (hvalue : value.length ≤ before.length) (after : List Char) :
    isOperator (before ++ (p.source ++ after))
      ⟨value ++ p.value, before.length + p.source.length⟩ = false := by
  rw [Bool.eq_false_iff]
  intro h
  simp only [isOperator, Bool.and_eq_true, bne_iff_ne, List.all_eq_true] at h
  obtain ⟨⟨hne, hop⟩, hbare⟩ := h
  have hlen := p.length_value_le
  -- the character `k` places before the end of the word is an operator's, if the value is so long
  have hchar : ∀ {k : Nat} {c : Char}, k < p.source.length → k < value.length + p.value.length →
      p.source[p.source.length - 1 - k]? = some c → isOperatorChar c = true := by
    intro k c hk hk' hc
    have hget := getElem?_of_isBare hbare (i := value.length + p.value.length - 1 - k)
      (by rw [List.length_append]; omega)
    have hindex : before.length + p.source.length - (value ++ p.value).length +
        (value.length + p.value.length - 1 - k) = before.length + (p.source.length - 1 - k) := by
      rw [List.length_append]
      omega
    rw [Lexeme.start, hindex, List.getElem?_append_right (Nat.le_add_right _ _),
      Nat.add_sub_cancel_left, List.getElem?_append_left (by omega), hc] at hget
    exact hop c (List.mem_of_getElem? hget.symm)
  have hpos : 0 < value.length + p.value.length := by
    rw [← List.length_append]
    exact List.length_pos_iff.2 hne
  cases p with
  | plain c =>
    have := hop c (List.mem_append_right _ (.head _))
    rw [hp.2.1] at this
    cases this
  | escaped c =>
    by_cases hv : value = []
    · -- the backslash stands just before the value
      subst hv
      have hback := bne_iff_ne.1 (Bool.and_eq_true_iff.1 hbare).2
      refine hback ?_
      show before? _ (before.length + 2 - 1) = _
      rw [show before.length + 2 - 1 = before.length + 1 from by omega, before?]
      simp [Piece.source]
    · have hv := List.length_pos_iff.2 hv
      cases hchar (k := 1) (c := '\\') (by simp [Piece.source])
        (by simp only [Piece.value, List.length_singleton]; omega) (by simp [Piece.source])
  | single text =>
    cases hchar (k := 0) (c := '\'') (by simp [Piece.source]) hpos (by simp [Piece.source])
  | double inners =>
    cases hchar (k := 0) (c := '"') (by simp [Piece.source]) hpos (by simp [Piece.source])

/-- **Words.** No word is taken for an operator. -/
theorem isOperator_word {ps : List Piece} (hne : ps ≠ []) (hp : ∀ p ∈ ps, p.Proper)
    (before after : List Char) : isOperator (before ++ (sourceOf ps ++ after))
      ⟨valueOf ps, before.length + (sourceOf ps).length⟩ = false := by
  obtain ⟨qs, p, rfl⟩ := List.eq_nil_or_concat ps |>.resolve_left hne
  rw [List.concat_eq_append] at hp ⊢
  have hvalue : (valueOf qs).length ≤ (before ++ sourceOf qs).length := by
    have := length_valueOf_le qs
    rw [List.length_append]
    omega
  have := isOperator_piece (hp p (by simp)) hvalue after
  simpa [sourceOf_append, valueOf_append, Nat.add_assoc] using this

/-- **Runs.** A run is an operator unless a backslash stands before it. -/
theorem isOperator_run {chars : List Char} (hne : chars ≠ [])
    (hc : ∀ c ∈ chars, isOperatorChar c = true) (before after : List Char) :
    isOperator (before ++ (chars ++ after)) ⟨chars, before.length + chars.length⟩ =
      (before? (before ++ (chars ++ after)) before.length != some '\\') := by
  have hall : chars.all isOperatorChar = true := List.all_eq_true.2 hc
  have hne : (chars != []) = true := bne_iff_ne.2 hne
  simp [isOperator, isBare, Lexeme.start, hall, hne]

/-! ### Tokens with their offsets -/

/-- The tokens of lexemes, each with the offset just past its source. -/
def placeFrom (line : List Char) (previous : Option (Token × Nat)) :
    List Lexeme → Except LineError (List (Token × Nat))
  | [] => .ok previous.toList
  | l :: ls => do
    let (token, takesPrevious) ← classify line previous l
    let placed ← placeFrom line (some (token, l.stop)) ls
    return if takesPrevious then placed else previous.toList ++ placed

/-- The tokens of a line, each with the offset just past its source. -/
def scanPlaced (line : List Char) : Except LineError (List (Token × Nat)) := do
  let ls := lexemes line
  let placed ← placeFrom line none ls.read
  match ls.failure with
  | some failure => .error failure
  | none => return placed

theorem scanFrom_eq_map (line : List Char) (previous : Option (Token × Nat)) (ls : List Lexeme) :
    scanFrom line previous ls = (placeFrom line previous ls).map (·.map Prod.fst) := by
  induction ls generalizing previous with
  | nil => rfl
  | cons l ls ih =>
    rw [scanFrom, placeFrom]
    cases classify line previous l with
    | error e => rfl
    | ok r =>
      obtain ⟨token, takes⟩ := r
      show (scanFrom line (some (token, l.stop)) ls >>= _) = Except.map _ (placeFrom _ _ ls >>= _)
      rw [ih]
      cases placeFrom line (some (token, l.stop)) ls with
      | error e => rfl
      | ok placed => cases takes <;> simp [Except.map, bind, Except.bind, pure, Except.pure]

/-- The offsets belong to the tokens of the line. -/
theorem scan_eq_map (line : List Char) :
    scan line = (scanPlaced line).map (·.map Prod.fst) := by
  rw [scan, scanPlaced, scanFrom_eq_map]
  cases placeFrom line none (lexemes line).read with
  | error e => rfl
  | ok placed => cases (lexemes line).failure <;> rfl

/-- A run of characters as an operator: by itself, or `>` together with what stands before it. -/
inductive Marks : Token → List Char → Prop
  | own {t : Token} {chars : List Char} : ofRun? chars = some t → Marks t chars
  | merged : Marks (.redirect .error) ['>']

/-- Whether a token is a word. -/
def isWord : Token → Bool
  | .word _ => true
  | _ => false

/-- What a lexeme is: an operator, or else the word of its value. -/
theorem classify_cases {line : List Char} {previous : Option (Token × Nat)} {l : Lexeme}
    {t : Token} {takes : Bool} (h : classify line previous l = .ok (t, takes)) :
    (isOperator line l = true ∧ t.isWord = false ∧ Marks t l.value ∧
      (takes = true → isGluedToTwo line previous l = true)) ∨
    (isOperator line l = false ∧ t = .word (String.ofList l.value) ∧ takes = false) := by
  cases hop : isOperator line l with
  | false =>
    rw [classify_of_not_isOperator hop] at h
    cases h
    exact .inr ⟨rfl, rfl, rfl⟩
  | true =>
    refine .inl ⟨rfl, ?_⟩
    have hword : ∀ {t : Token}, ofRun? l.value = some t → t.isWord = false := by
      intro t ht
      unfold ofRun? at ht
      split at ht <;> cases ht <;> rfl
    have hvalue : ofRun? l.value = some (.redirect .output) → l.value = ['>'] := by
      intro ht
      unfold ofRun? at ht
      split at ht <;> first | assumption | cases ht
    simp only [classify, hop, if_true] at h
    split at h
    · cases h
    · next hrun =>
      split at h
      · next hglued =>
        cases h
        rw [hvalue hrun]
        exact ⟨rfl, .merged, fun _ => hglued⟩
      · cases h
        exact ⟨rfl, .own hrun, by simp⟩
    · next hrun =>
      split at h
      · cases h
      · cases h
        exact ⟨rfl, .own hrun, by simp⟩
    · next hrun =>
      cases h
      exact ⟨hword hrun, .own hrun, by simp⟩

/-! ### Operators and runs -/

/-- The runs of segments from an offset on, with where each starts. -/
def runsOf (offset : Nat) : List Segment → List (Nat × List Char)
  | [] => []
  | .run chars :: gs => (offset, chars) :: runsOf (offset + chars.length) gs
  | g :: gs => runsOf (offset + g.source.length) gs

/-- What has become of the tokens from an offset on, where a token before it was held back: it is
kept if it is an operator, and the operators behind it are the runs without a backslash before. -/
structure Placed (line : List Char) (previous : Option (Token × Nat)) (offset : Nat)
    (runs : List (Nat × List Char)) (placed : List (Token × Nat)) : Prop where
  sorted : (∀ q ∈ previous, q.2 ≤ offset) → placed.Pairwise fun a b => a.2 < b.2
  behind : ∀ q ∈ placed, q ∈ previous ∨ offset < q.2
  kept : ∀ q ∈ previous, q.1.isWord = false → q ∈ placed
  ofRun : ∀ start chars, (start, chars) ∈ runs → before? line start ≠ some '\\' →
    ∃ t, (t, start + chars.length) ∈ placed ∧ t.isWord = false ∧ Marks t chars
  isRun : ∀ q ∈ placed, q.1.isWord = false → q ∈ previous ∨
    ∃ start chars, (start, chars) ∈ runs ∧ before? line start ≠ some '\\' ∧
      q.2 = start + chars.length ∧ Marks q.1 chars

theorem Placed.mono {line : List Char} {previous : Option (Token × Nat)} {offset offset' : Nat}
    {runs : List (Nat × List Char)} {placed : List (Token × Nat)} (hle : offset ≤ offset')
    (h : Placed line previous offset' runs placed) : Placed line previous offset runs placed where
  sorted hprevious := h.sorted fun q hq => Nat.le_trans (hprevious q hq) hle
  behind q hq := (h.behind q hq).imp_right (Nat.lt_of_le_of_lt hle)
  kept := h.kept
  ofRun := h.ofRun
  isRun := h.isRun

/-- One more token, which is an operator just if it is a run of its own. -/
theorem Placed.cons {line : List Char} {previous : Option (Token × Nat)} {offset stop : Nat}
    {t : Token} {takes : Bool} {runs : List (Nat × List Char)} {placed : List (Token × Nat)}
    (own : List (Nat × List Char)) (hstop : offset < stop)
    (htakes : takes = true → ∀ q ∈ previous, q.1.isWord = true)
    (hown : ∀ start chars, (start, chars) ∈ own → stop = start + chars.length ∧
      (before? line start ≠ some '\\' → t.isWord = false ∧ Marks t chars))
    (hop : t.isWord = false → ∃ start chars, (start, chars) ∈ own ∧
      before? line start ≠ some '\\' ∧ stop = start + chars.length ∧ Marks t chars)
    (h : Placed line (some (t, stop)) stop runs placed) :
    Placed line previous offset (own ++ runs)
      (if takes then placed else previous.toList ++ placed) := by
  have hlater : ∀ q ∈ placed, stop ≤ q.2 := by
    intro q hq
    rcases h.behind q hq with hq | hq
    · cases hq
      exact Nat.le_refl _
    · exact Nat.le_of_lt hq
  have hmem : ∀ {q : Token × Nat}, q ∈ (if takes then placed else previous.toList ++ placed) →
      q ∈ previous ∨ q ∈ placed := by
    intro q hq
    split at hq
    · exact .inr hq
    · exact (List.mem_append.1 hq).imp_left Option.mem_toList.1
  have hplaced : ∀ {q : Token × Nat}, q ∈ placed →
      q ∈ (if takes then placed else previous.toList ++ placed) := by
    intro q hq
    split
    · exact hq
    · exact List.mem_append_right _ hq
  constructor
  · intro hprevious
    have hsorted := h.sorted fun q hq => by cases hq; exact Nat.le_refl _
    split
    · exact hsorted
    · refine List.pairwise_append.2 ⟨by cases previous <;> simp, hsorted, fun a ha b hb => ?_⟩
      have := hprevious a (Option.mem_toList.1 ha)
      have := hlater b hb
      omega
  · intro q hq
    exact (hmem hq).imp_right fun hq => Nat.lt_of_lt_of_le hstop (hlater q hq)
  · intro q hq hword
    have htakes : takes ≠ true := fun htrue => by
      rw [htakes htrue q hq] at hword
      cases hword
    rw [if_neg htakes]
    exact List.mem_append_left _ (Option.mem_toList.2 hq)
  · intro start chars hrun hback
    rcases List.mem_append.1 hrun with hrun | hrun
    · obtain ⟨rfl, hmarks⟩ := hown start chars hrun
      obtain ⟨hword, hmarks⟩ := hmarks hback
      exact ⟨t, hplaced (h.kept _ rfl hword), hword, hmarks⟩
    · obtain ⟨u, hu, hword, hmarks⟩ := h.ofRun start chars hrun hback
      exact ⟨u, hplaced hu, hword, hmarks⟩
  · intro q hq hword
    refine (hmem hq).imp_right fun hq => ?_
    rcases h.isRun q hq hword with hq | ⟨start, chars, hrun, hrest⟩
    · cases hq
      obtain ⟨start, chars, hrun, hrest⟩ := hop hword
      exact ⟨start, chars, List.mem_append_left _ hrun, hrest⟩
    · exact ⟨start, chars, List.mem_append_right _ hrun, hrest⟩

/-- A lexeme that takes the token before it takes a word. -/
theorem isWord_of_isGluedToTwo {line : List Char} {previous : Option (Token × Nat)} {l : Lexeme}
    (h : isGluedToTwo line previous l = true) : ∀ q ∈ previous, q.1.isWord = true := by
  rintro ⟨t, stop⟩ hq
  obtain rfl : previous = some (t, stop) := hq
  cases t <;> first | rfl | cases h

/-- The tokens of a lexeme and those behind it. -/
theorem placeFrom_cons {line : List Char} {previous : Option (Token × Nat)} {l : Lexeme}
    {ls : List Lexeme} {placed : List (Token × Nat)}
    (h : placeFrom line previous (l :: ls) = .ok placed) : ∃ t takes placed',
      classify line previous l = .ok (t, takes) ∧
      placeFrom line (some (t, l.stop)) ls = .ok placed' ∧
      placed = if takes then placed' else previous.toList ++ placed' := by
  rw [placeFrom] at h
  cases hclass : classify line previous l with
  | error e =>
    rw [hclass] at h
    cases h
  | ok r =>
    obtain ⟨t, takes⟩ := r
    rw [hclass] at h
    cases hrest : placeFrom line (some (t, l.stop)) ls with
    | error e =>
      have h : (placeFrom line (some (t, l.stop)) ls >>= _) = _ := h
      rw [hrest] at h
      cases h
    | ok placed' =>
      have h : (placeFrom line (some (t, l.stop)) ls >>= _) = _ := h
      rw [hrest] at h
      cases h
      exact ⟨t, takes, placed', rfl, hrest, rfl⟩

section

variable {line before rest : List Char} {ls : List Lexeme} {previous : Option (Token × Nat)}
  {placed : List (Token × Nat)} {runs : List (Nat × List Char)}

/-- A word is one more token, and no operator. -/
theorem Placed.word {pieces : List Piece} (hne : pieces ≠ []) (hp : ∀ p ∈ pieces, p.Proper)
    (hline : line = before ++ (sourceOf pieces ++ rest))
    (h : placeFrom line previous
      (⟨valueOf pieces, before.length + (sourceOf pieces).length⟩ :: ls) = .ok placed)
    (hrest : ∀ {previous placed}, placeFrom line previous ls = .ok placed →
      Placed line previous (before.length + (sourceOf pieces).length) runs placed) :
    Placed line previous before.length runs placed := by
  obtain ⟨t, takes, placed', hclass, hplaced, rfl⟩ := placeFrom_cons h
  have hnot := isOperator_word hne hp before rest
  rw [← hline] at hnot
  rcases classify_cases hclass with ⟨hop, -⟩ | ⟨-, rfl, rfl⟩
  · rw [hop] at hnot
    cases hnot
  · exact Placed.cons [] (Nat.lt_add_of_pos_right (length_sourceOf_pos hne hp)) nofun
      (fun _ _ h => absurd h List.not_mem_nil) (fun hword => by cases hword) (hrest hplaced)

/-- A run is one more token. It is an operator unless a backslash stands before it. -/
theorem Placed.run {chars : List Char} (hne : chars ≠ [])
    (hc : ∀ c ∈ chars, isOperatorChar c = true) (hline : line = before ++ (chars ++ rest))
    (h : placeFrom line previous (⟨chars, before.length + chars.length⟩ :: ls) = .ok placed)
    (hrest : ∀ {previous placed}, placeFrom line previous ls = .ok placed →
      Placed line previous (before.length + chars.length) runs placed) :
    Placed line previous before.length ((before.length, chars) :: runs) placed := by
  obtain ⟨t, takes, placed', hclass, hplaced, rfl⟩ := placeFrom_cons h
  have hiff := isOperator_run hne hc before rest
  rw [← hline] at hiff
  refine Placed.cons [(before.length, chars)]
    (Nat.lt_add_of_pos_right (List.length_pos_iff.2 hne)) ?_ ?_ ?_ (hrest hplaced)
  · intro htrue
    rcases classify_cases hclass with ⟨-, -, -, hglued⟩ | ⟨-, -, rfl⟩
    · exact isWord_of_isGluedToTwo (hglued htrue)
    · cases htrue
  · intro start own hmem
    cases List.mem_singleton.1 hmem
    refine ⟨rfl, fun hback => ?_⟩
    rcases classify_cases hclass with ⟨-, hword, hmarks, -⟩ | ⟨hnot, -⟩
    · exact ⟨hword, hmarks⟩
    · rw [hnot, eq_comm, bne_eq_false_iff_eq] at hiff
      exact absurd hiff hback
  · intro hword
    rcases classify_cases hclass with ⟨hop, -, hmarks, -⟩ | ⟨-, rfl, -⟩
    · rw [hop, eq_comm, bne_iff_ne] at hiff
      exact ⟨_, _, .head _, hiff, rfl, hmarks⟩
    · cases hword

end

/-- **Tokens of segments.** Runs without a backslash before them are the operators. -/
theorem placed_segments {e : Edge} {gs : List Segment} (hgs : Segmented e gs)
    {line : List Char} (before : List Char) (hline : line = before ++ textOf gs)
    {previous : Option (Token × Nat)} {placed : List (Token × Nat)}
    (h : placeFrom line previous (lexemesOf before.length gs) = .ok placed) :
    Placed line previous before.length (runsOf before.length gs) placed := by
  induction gs generalizing e before previous placed with
  | nil =>
    cases h
    exact {
      sorted := fun _ => by cases previous <;> simp
      behind := fun q hq => .inl (Option.mem_toList.1 hq)
      kept := fun q hq _ => Option.mem_toList.2 hq
      ofRun := fun _ _ h => absurd h List.not_mem_nil
      isRun := fun q hq _ => .inl (Option.mem_toList.1 hq) }
  | cons g gs ih =>
    rw [textOf_cons] at hline
    -- behind the segment, wherever it ends
    have ih : ∀ {e : Edge} {previous : Option (Token × Nat)} {placed : List (Token × Nat)},
        Segmented e gs → placeFrom line previous
          (lexemesOf (before.length + g.source.length) gs) = .ok placed →
        Placed line previous (before.length + g.source.length)
          (runsOf (before.length + g.source.length) gs) placed := by
      intro e previous placed hgs h
      rw [← List.length_append] at h ⊢
      exact ih hgs _ (by rw [hline, List.append_assoc]) h
    cases hgs with
    | gap _ _ hgs => exact (ih hgs h).mono (Nat.le_add_right _ _)
    | word _ hne hp hgs => exact Placed.word hne hp hline h fun h => ih hgs h
    | run _ hne hc hgs => exact Placed.run hne hc hline h fun h => ih hgs h

/-! ### Characters that are neither quoted nor escaped -/

/-- Where a character of a line stands. -/
inductive Place
  | outside
  | escaped
  | single
  | double
  | doubleEscaped
  deriving DecidableEq, Repr

/-- Where the next character stands. -/
def Place.next : Place → Char → Place
  | .outside, '\\' => .escaped
  | .outside, '\'' => .single
  | .outside, '"' => .double
  | .outside, _ => .outside
  | .escaped, _ => .outside
  | .single, '\'' => .outside
  | .single, _ => .single
  | .double, '"' => .outside
  | .double, '\\' => .doubleEscaped
  | .double, _ => .double
  | .doubleEscaped, _ => .double

/-- Where the character behind some characters stands. -/
def Place.after (p : Place) (cs : List Char) : Place := cs.foldl next p

/-- An operator's character stands at an offset, outside quotations and not escaped. -/
def IsActive (text : List Char) (i : Nat) : Prop :=
  Place.outside.after (text.take i) = .outside ∧ ∃ c ∈ text[i]?, isOperatorChar c = true

/-- Active characters stand from one offset up to another, and none next to them. -/
structure IsRun (line : List Char) (start stop : Nat) : Prop where
  lt : start < stop
  active : ∀ i, start ≤ i → i < stop → IsActive line i
  left : ∀ i, i + 1 = start → ¬IsActive line i
  right : ¬IsActive line stop

/-- Which of some characters are active, the first of them standing at a place. -/
def activity (p : Place) : List Char → List Bool
  | [] => []
  | c :: cs => (p == .outside && isOperatorChar c) :: activity (p.next c) cs

theorem activity_append (p : Place) (cs ds : List Char) :
    activity p (cs ++ ds) = activity p cs ++ activity (p.after cs) ds := by
  induction cs generalizing p with
  | nil => rfl
  | cons c cs ih => rw [List.cons_append, activity, ih]; rfl

theorem isActive_iff {text : List Char} {i : Nat} :
    IsActive text i ↔ (activity .outside text)[i]? = some true := by
  suffices ∀ p : Place, (p.after (text.take i) = .outside ∧
      ∃ c ∈ text[i]?, isOperatorChar c = true) ↔ (activity p text)[i]? = some true from
    this .outside
  induction text generalizing i with
  | nil => simp [activity]
  | cons c cs ih =>
    intro p
    cases i with
    | zero => simp [activity, Place.after]
    | succ i => exact ih (p.next c)

/-- Characters of which none is active lead from one place to another. -/
def Leads (p : Place) (cs : List Char) (p' : Place) : Prop :=
  activity p cs = List.replicate cs.length false ∧ p.after cs = p'

theorem Leads.nil (p : Place) : Leads p [] p := ⟨rfl, rfl⟩

theorem Leads.append {p p' p'' : Place} {cs ds : List Char} (h : Leads p cs p')
    (h' : Leads p' ds p'') : Leads p (cs ++ ds) p'' := by
  obtain ⟨hactivity, rfl⟩ := h
  obtain ⟨hactivity', rfl⟩ := h'
  refine ⟨?_, List.foldl_append⟩
  rw [activity_append, hactivity, hactivity', List.length_append, List.replicate_append_replicate]

theorem Leads.cons {p p' : Place} {c : Char} {cs : List Char}
    (hc : p = .outside → isOperatorChar c = false) (h : Leads (p.next c) cs p') :
    Leads p (c :: cs) p' := by
  refine ⟨?_, h.2⟩
  rw [activity, h.1, List.length_cons, List.replicate_succ]
  congr 1
  cases p <;> first | exact hc rfl | rfl

theorem leads_single {text : List Char} (h : '\'' ∉ text) : Leads .single text .single := by
  induction text with
  | nil => exact .nil _
  | cons c cs ih =>
    rw [List.mem_cons, not_or] at h
    refine .cons nofun ?_
    have hnext : Place.single.next c = .single := by
      unfold Place.next
      split <;> simp_all
    rw [hnext]
    exact ih h.2

theorem leads_inner {i : Inner} (h : i.Proper) : Leads .double i.source .double := by
  cases i with
  | char c =>
    refine .cons nofun ?_
    have hnext : Place.double.next c = .double := by
      obtain ⟨hq, hb⟩ := h
      unfold Place.next
      split <;> simp_all
    rw [hnext]
    exact .nil _
  | escape c => exact .cons nofun (.cons nofun (.nil _))

theorem leads_inners {inners : List Inner} (h : ∀ i ∈ inners, i.Proper) :
    Leads .double (inners.flatMap Inner.source) .double := by
  induction inners with
  | nil => exact .nil _
  | cons i is ih =>
    obtain ⟨hi, his⟩ := List.forall_mem_cons.1 h
    exact (leads_inner hi).append (ih his)

theorem leads_piece {p : Piece} (h : p.Proper) : Leads .outside p.source .outside := by
  cases p with
  | plain c =>
    obtain ⟨-, hop, hb, hq⟩ := h
    refine .cons (fun _ => hop) ?_
    have hnext : Place.outside.next c = .outside := by
      unfold Place.next
      split <;> simp_all [isQuoteMark]
    rw [hnext]
    exact .nil _
  | escaped c => exact .cons (fun _ => rfl) (.cons (fun h => by cases h) (.nil _))
  | single text =>
    exact .cons (fun _ => rfl) ((leads_single h).append (.cons (fun h => by cases h) (.nil _)))
  | double inners =>
    exact .cons (fun _ => rfl) ((leads_inners h).append (.cons (fun h => by cases h) (.nil _)))

/-- No character of a word is active. -/
theorem leads_word {ps : List Piece} (h : ∀ p ∈ ps, p.Proper) :
    Leads .outside (sourceOf ps) .outside := by
  induction ps with
  | nil => exact .nil _
  | cons p ps ih =>
    obtain ⟨hp, hps⟩ := List.forall_mem_cons.1 h
    exact (leads_piece hp).append (ih hps)

theorem leads_gap {c : Char} (h : isGap c = true) : Leads .outside [c] .outside := by
  simp only [isGap, Bool.or_eq_true, beq_iff_eq] at h
  rcases h with ((rfl | rfl) | rfl) | rfl <;> exact ⟨rfl, rfl⟩

/-- All characters of a run are active. -/
theorem activity_run {chars : List Char} (h : ∀ c ∈ chars, isOperatorChar c = true) :
    activity .outside chars = List.replicate chars.length true ∧
      Place.outside.after chars = .outside := by
  induction chars with
  | nil => exact ⟨rfl, rfl⟩
  | cons c cs ih =>
    obtain ⟨hc, hcs⟩ := List.forall_mem_cons.1 h
    have hnext : Place.outside.next c = .outside := by
      simp only [isOperatorChar, Bool.or_eq_true, beq_iff_eq] at hc
      rcases hc with ((rfl | rfl) | rfl) | rfl <;> rfl
    obtain ⟨hactivity, hafter⟩ := ih hcs
    rw [activity, Place.after, List.foldl_cons, hnext, hactivity, hc]
    exact ⟨rfl, hafter⟩

/-! ### Runs of active characters -/

/-- Between the runs of segments there is always something else. -/
theorem runsOf_apart {e : Edge} {gs : List Segment} (h : Segmented e gs) (offset : Nat) :
    ((runsOf offset gs).Pairwise fun r r' => r.1 + r.2.length < r'.1) ∧
      ∀ r ∈ runsOf offset gs, r.2 ≠ [] ∧ offset ≤ r.1 ∧ (e = .run → offset < r.1) := by
  induction gs generalizing e offset with
  | nil => exact ⟨.nil, nofun⟩
  | cons g gs ih =>
    have hskip : ∀ {e' : Edge} {n : Nat}, Segmented e' gs → 0 < n →
        ((runsOf (offset + n) gs).Pairwise fun r r' => r.1 + r.2.length < r'.1) ∧
          ∀ r ∈ runsOf (offset + n) gs, r.2 ≠ [] ∧ offset ≤ r.1 ∧ (e = .run → offset < r.1) := by
      intro e' n hgs hn
      obtain ⟨hapart, hmem⟩ := ih hgs (offset + n)
      refine ⟨hapart, fun r hr => ?_⟩
      obtain ⟨hne, hle, -⟩ := hmem r hr
      exact ⟨hne, by omega, fun _ => by omega⟩
    cases h with
    | gap _ _ hgs => exact hskip hgs Nat.one_pos
    | word _ hne hp hgs => exact hskip hgs (length_sourceOf_pos hne hp)
    | @run _ chars _ he hne hc hgs =>
      obtain ⟨hapart, hmem⟩ := ih hgs (offset + chars.length)
      refine ⟨List.pairwise_cons.2 ⟨fun r hr => (hmem r hr).2.2 rfl, hapart⟩, ?_⟩
      intro r hr
      rcases List.mem_cons.1 hr with rfl | hr
      · exact ⟨hne, Nat.le_refl _, fun h => absurd h he⟩
      · obtain ⟨hne', hle, hlt⟩ := hmem r hr
        exact ⟨hne', by omega, fun _ => by have := hlt rfl; omega⟩

/-- The active characters of segments are those of their runs. -/
theorem activity_segments {e : Edge} {gs : List Segment} (h : Segmented e gs) (offset : Nat)
    {i : Nat} : (activity .outside (textOf gs))[i]? = some true ↔
      ∃ r ∈ runsOf offset gs, r.1 ≤ offset + i ∧ offset + i < r.1 + r.2.length := by
  induction gs generalizing e offset i with
  | nil => simp [activity, runsOf]
  | cons g gs ih =>
    -- a segment without active characters only shifts those behind it
    have hskip : ∀ {e' : Edge}, Segmented e' gs → Leads .outside g.source .outside →
        ((activity .outside (textOf (g :: gs)))[i]? = some true ↔
          ∃ r ∈ runsOf (offset + g.source.length) gs,
            r.1 ≤ offset + i ∧ offset + i < r.1 + r.2.length) := by
      intro e' hgs hleads
      have hbehind := (runsOf_apart hgs (offset + g.source.length)).2
      rw [textOf_cons, activity_append, hleads.1, hleads.2]
      by_cases hi : i < g.source.length
      · rw [List.getElem?_append_left (by rwa [List.length_replicate]),
          List.getElem?_replicate_of_lt hi]
        refine iff_of_false (by simp) ?_
        rintro ⟨r, hr, hle, -⟩
        have := (hbehind r hr).2.1
        omega
      · rw [List.getElem?_append_right (by rw [List.length_replicate]; omega),
          List.length_replicate, ih hgs (offset + g.source.length)]
        have : offset + g.source.length + (i - g.source.length) = offset + i := by omega
        rw [this]
    cases h with
    | gap _ hc hgs => exact hskip hgs (leads_gap hc)
    | word _ _ hp hgs => exact hskip hgs (leads_word hp)
    | @run _ chars _ he hne hc hgs =>
      obtain ⟨hactivity, hafter⟩ := activity_run hc
      have hbehind := (runsOf_apart hgs (offset + chars.length)).2
      rw [textOf_cons, Segment.source, activity_append, hactivity, hafter, runsOf]
      by_cases hi : i < chars.length
      · rw [List.getElem?_append_left (by rwa [List.length_replicate]),
          List.getElem?_replicate_of_lt hi]
        exact iff_of_true rfl ⟨_, .head _, Nat.le_add_right _ _, by simpa using hi⟩
      · rw [List.getElem?_append_right (by rw [List.length_replicate]; omega),
          List.length_replicate, ih hgs (offset + chars.length)]
        have hindex : offset + chars.length + (i - chars.length) = offset + i := by omega
        rw [hindex]
        constructor
        · rintro ⟨r, hr, hin⟩
          exact ⟨r, .tail _ hr, hin⟩
        · rintro ⟨r, hr, hle, hlt⟩
          rcases List.mem_cons.1 hr with rfl | hr
          · dsimp only at hlt
            omega
          · exact ⟨r, hr, hle, hlt⟩

/-- **Runs.** The runs of a line are those of its segments. -/
theorem isRun_iff {gs : List Segment} (h : Segmented .gap gs) {start stop : Nat} :
    IsRun (textOf gs) start stop ↔
      ∃ chars, (start, chars) ∈ runsOf 0 gs ∧ stop = start + chars.length := by
  have hactive : ∀ i, IsActive (textOf gs) i ↔
      ∃ r ∈ runsOf 0 gs, r.1 ≤ i ∧ i < r.1 + r.2.length := fun i => by
    rw [isActive_iff, activity_segments h 0, Nat.zero_add]
  obtain ⟨hapart, hne⟩ := runsOf_apart h 0
  -- two runs are the same, or one of them ends well before the other one starts
  have heither : ∀ r ∈ runsOf 0 gs, ∀ r' ∈ runsOf 0 gs,
      r = r' ∨ r.1 + r.2.length < r'.1 ∨ r'.1 + r'.2.length < r.1 := fun r hr r' hr' =>
    List.Pairwise.forall_of_forall_of_flip (R := fun r r' : Nat × List Char =>
        r = r' ∨ r.1 + r.2.length < r'.1 ∨ r'.1 + r'.2.length < r.1)
      (fun _ _ => .inl rfl) (hapart.imp fun h => .inr (.inl h))
      (hapart.imp fun h => .inr (.inr h)) hr hr'
  constructor
  · intro hrun
    obtain ⟨⟨s, chars⟩, hmem, hle, hlt⟩ :=
      (hactive start).1 (hrun.active start (Nat.le_refl _) hrun.lt)
    dsimp only at hle hlt
    have hstart : s = start := by
      by_contra hne
      refine hrun.left (start - 1) (by omega) ((hactive _).2 ⟨_, hmem, ?_, ?_⟩)
      all_goals dsimp only; omega
    subst hstart
    refine ⟨chars, hmem, ?_⟩
    by_contra hstop
    rcases Nat.lt_or_gt_of_ne hstop with hstop | hstop
    · exact hrun.right ((hactive _).2 ⟨_, hmem, Nat.le_of_lt hrun.lt, hstop⟩)
    · obtain ⟨r, hr, hle', hlt'⟩ :=
        (hactive _).1 (hrun.active (s + chars.length) (Nat.le_add_right _ _) hstop)
      rcases heither _ hmem r hr with rfl | h | h
      · dsimp only at hlt'
        omega
      all_goals dsimp only at h; omega
  · rintro ⟨chars, hmem, rfl⟩
    have hpos := List.length_pos_iff.2 (hne _ hmem).1
    dsimp only at hpos
    refine ⟨by omega, fun i hi hi' => (hactive i).2 ⟨_, hmem, hi, hi'⟩, ?_, ?_⟩
    · intro i hi hact
      obtain ⟨r, hr, hle, hlt⟩ := (hactive i).1 hact
      rcases heither _ hmem r hr with rfl | h | h
      all_goals dsimp only at *; omega
    · intro hact
      obtain ⟨r, hr, hle, hlt⟩ := (hactive _).1 hact
      rcases heither _ hmem r hr with rfl | h | h
      all_goals dsimp only at *; omega

/-- The characters of a run of segments stand on the line. -/
theorem slice_of_mem_runsOf {gs : List Segment} (before : List Char) {start : Nat}
    {chars : List Char} (h : (start, chars) ∈ runsOf before.length gs) :
    ((before ++ textOf gs).drop start).take chars.length = chars := by
  induction gs generalizing before with
  | nil => exact absurd h List.not_mem_nil
  | cons g gs ih =>
    have hskip : (start, chars) ∈ runsOf (before.length + g.source.length) gs →
        ((before ++ textOf (g :: gs)).drop start).take chars.length = chars := by
      intro h
      rw [← List.length_append] at h
      rw [textOf_cons, ← List.append_assoc]
      exact ih _ h
    cases g with
    | gap c => exact hskip h
    | word pieces => exact hskip h
    | run own =>
      rcases List.mem_cons.1 h with h | h
      · cases h
        simp [Segment.source]
      · exact hskip h

/-- A line with tokens can be read to its end, and these are the tokens of its lexemes. -/
theorem exists_placed_of_scan {line : List Char} {ts : List Token} (h : scan line = .ok ts) :
    (lexemes line).failure = none ∧ ∃ placed, scanPlaced line = .ok placed ∧
      placeFrom line none (lexemes line).read = .ok placed ∧ placed.map Prod.fst = ts := by
  have hscan : scanPlaced line = (placeFrom line none (lexemes line).read >>= fun placed =>
      match (lexemes line).failure with
      | some failure => .error failure
      | none => .ok placed) := rfl
  rw [scan_eq_map, hscan] at h
  rw [hscan]
  cases hplaced : placeFrom line none (lexemes line).read with
  | error e =>
    rw [hplaced] at h
    cases h
  | ok placed =>
    rw [hplaced] at h
    cases hfailure : (lexemes line).failure with
    | some failure =>
      rw [hfailure] at h
      cases h
    | none =>
      rw [hfailure] at h
      cases h
      exact ⟨rfl, placed, rfl, rfl, rfl⟩

/-- **Which characters are operators.** The operators of a line are its runs of operator characters
that are neither quoted nor escaped, but for those with a backslash before them. -/
theorem operators_iff {line : List Char} {ts : List Token} (h : scan line = .ok ts) :
    ∃ placed, scanPlaced line = .ok placed ∧ placed.map Prod.fst = ts ∧
      (placed.Pairwise fun a b => a.2 < b.2) ∧
      (∀ start stop, IsRun line start stop → before? line start ≠ some '\\' →
        ∃ t, (t, stop) ∈ placed ∧ t.isWord = false ∧
          Marks t ((line.drop start).take (stop - start))) ∧
      ∀ t stop, (t, stop) ∈ placed → t.isWord = false →
        ∃ start, IsRun line start stop ∧ before? line start ≠ some '\\' ∧
          Marks t ((line.drop start).take (stop - start)) := by
  obtain ⟨hread, placed, hscan, hplaced, hts⟩ := exists_placed_of_scan h
  obtain ⟨gs, hgs, rfl⟩ := exists_segmented hread
  rw [lexemes_segments hgs] at hplaced
  have hsound : Placed (textOf gs) none 0 (runsOf 0 gs) placed :=
    placed_segments hgs [] rfl hplaced
  have hslice : ∀ {start : Nat} {chars : List Char}, (start, chars) ∈ runsOf 0 gs →
      ((textOf gs).drop start).take (start + chars.length - start) = chars := by
    intro start chars hmem
    rw [Nat.add_sub_cancel_left]
    exact slice_of_mem_runsOf [] hmem
  refine ⟨placed, hscan, hts, hsound.sorted nofun, ?_, ?_⟩
  · intro start stop hrun hback
    obtain ⟨chars, hmem, rfl⟩ := (isRun_iff hgs).1 hrun
    rw [hslice hmem]
    exact hsound.ofRun start chars hmem hback
  · intro t stop hmem hword
    rcases hsound.isRun _ hmem hword with hnone | ⟨start, chars, hrun, hback, rfl, hmarks⟩
    · cases hnone
    · refine ⟨start, (isRun_iff hgs).2 ⟨chars, hrun, rfl⟩, hback, ?_⟩
      rwa [hslice hrun]

/-- A line with an escaped operator, a glued pipe and a redirection of the error stream. -/
def gluedLine : List Char := "\\>|b 2>'c'".toList

/-- Its operators are its two runs, and what is escaped is none. -/
theorem operators_iff_of_glued :
    scan gluedLine = .ok [.word ">", .pipe, .word "b", .redirect .error, .word "c"] ∧
      ∃ placed, scanPlaced gluedLine = .ok placed ∧ ∀ t stop, (t, stop) ∈ placed →
        t.isWord = false → ∃ start, IsRun gluedLine start stop := by
  have h : scan gluedLine = .ok [.word ">", .pipe, .word "b", .redirect .error, .word "c"] := by rfl
  obtain ⟨placed, hplaced, -, -, -, hruns⟩ := operators_iff h
  refine ⟨h, placed, hplaced, fun t stop hmem hword => ?_⟩
  obtain ⟨start, hrun, -⟩ := hruns t stop hmem hword
  exact ⟨start, hrun⟩

/-- A line with a run that is neither quoted nor escaped behind an escaped backslash. -/
def backslashLine : List Char := "a\\\\<f".toList

/-- Such a run is a word. -/
theorem scan_run_behind_backslash : IsRun backslashLine 3 4 ∧
    scan backslashLine = .ok [.word "a\\", .word "<", .word "f"] := by
  refine ⟨⟨by decide, ?_, ?_, ?_⟩, by rfl⟩
  · intro i hi hi'
    obtain rfl : i = 3 := by omega
    exact isActive_iff.2 (by decide)
  · intro i hi
    obtain rfl : i = 2 := by omega
    exact fun h => absurd (isActive_iff.1 h) (by decide)
  · exact fun h => absurd (isActive_iff.1 h) (by decide)

end LineShell.Token
