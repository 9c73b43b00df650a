import LineShell.Proofs.Grammar
import LineShell.Proofs.Trimming

namespace LineShell

/-!
# Lines joined by a pipe sign

* `Text.trim_append` — what trimming leaves of two texts together;
* `Draft.behind`, `Draft.read_behind` — what is read behind a part of a line is what would be read
  of a line of its own, behind what that part has left;
* `Draft.finish_of_open?` — the line that a draft with an open stage makes;
* `Joins`, `parse_join` — the line that two lines with a pipe sign between them make.
-/

namespace Text

variable {cs ds : List Char}

theorem trimStart_append (h : trimStart cs ≠ []) : trimStart (cs ++ ds) = trimStart cs ++ ds := by
  have hsome : (cs.dropWhile isBlank).isEmpty = false := by
    rw [List.isEmpty_eq_false_iff]
    exact h
  rw [trimStart, List.dropWhile_append, hsome]
  rfl

theorem trimStart_ne_nil (h : trim cs ≠ []) : trimStart cs ≠ [] := by
  intro hnil
  rw [trim, hnil] at h
  exact h rfl

theorem trimStart_reverse_ne_nil (h : trim cs ≠ []) : trimStart (trimStart cs).reverse ≠ [] := by
  intro hnil
  rw [trim, hnil] at h
  exact h rfl

theorem trim_append_trailing (cs : List Char) : trim cs ++ trailing cs = trimStart cs :=
  List.append_cancel_left ((leading_append_trim_append_trailing cs).trans
    List.takeWhile_append_dropWhile.symm)

/-- Between two texts that are not blank the blanks stay. -/
theorem trim_append (hcs : trim cs ≠ []) (hds : trim ds ≠ []) :
    trim (cs ++ ds) = trim cs ++ (trailing cs ++ (leading ds ++ trim ds)) := by
  -- a text without the blanks at its end only
  have hend : trimStart ds.reverse = trimStart (trimStart ds).reverse ++ (leading ds).reverse := by
    rw [← trimStart_append (trimStart_reverse_ne_nil hds), ← List.reverse_append]
    exact congrArg (fun cs => trimStart cs.reverse) List.takeWhile_append_dropWhile.symm
  have hne : trimStart ds.reverse ≠ [] := by
    rw [hend]
    exact List.append_ne_nil_of_left_ne_nil (trimStart_reverse_ne_nil hds) _
  rw [trim, trimStart_append (trimStart_ne_nil hcs), List.reverse_append, trimStart_append hne,
    List.reverse_append, List.reverse_reverse, hend, List.reverse_append, List.reverse_reverse,
    ← trim_append_trailing cs, List.append_assoc]
  rfl

end Text

open Token

/-! ### Drafts behind each other -/

namespace Draft

/-- What has been read behind a part of a line, together with what that part has left. -/
def behind (d e : Draft) : Draft where
  closed := d.closed ++ e.closed
  words := d.words
  input := d.input.or e.input
  output := d.output.or e.output
  error := d.error.or e.error

/-- Reading goes on behind a part of a line as at the start of one. -/
theorem read_behind (d e : Draft) (ts : List Token) :
    (d.behind e).read ts = (d.read ts).map (·.behind e) := by
  fun_induction Draft.read d ts with
  | case1 d => rfl
  | case2 d w ts ih => exact ih
  | case3 d ts hopen =>
    have hopen : (d.behind e).open? = none := hopen
    rw [Draft.read, hopen]
    rfl
  | case4 d ts c hopen ih =>
    have hopen : (d.behind e).open? = some c := hopen
    rw [Draft.read, hopen]
    exact ih
  | case5 d ts => rfl
  | case6 d op file ts ih =>
    have hredirect : (d.behind e).redirect file op = (d.redirect file op).behind e := by
      cases op <;> rfl
    rw [Draft.read, hredirect]
    exact ih
  | case7 d op ts hts =>
    rw [Draft.read]
    · rfl
    · exact hts

/-- Tokens that can be read are read before those behind them. -/
theorem read_append {d d' : Draft} {ts : List Token} (h : d.read ts = .ok d') (ts' : List Token) :
    d.read (ts ++ ts') = d'.read ts' := by
  fun_induction Draft.read d ts with
  | case1 d =>
    cases h
    rfl
  | case2 d w ts ih => exact ih h
  | case3 d ts hopen => cases h
  | case4 d ts c hopen ih =>
    rw [List.cons_append, Draft.read, hopen]
    exact ih h
  | case5 d ts => cases h
  | case6 d op file ts ih => exact ih h
  | case7 d op ts hts => cases h

/-- The line that a draft with an open stage makes. -/
structure Makes (d : Draft) (last : Command) (background : Bool) (line : CommandLine) : Prop where
  commands : line.commands = d.closed.reverse ++ [last]
  input : line.input = d.input
  output : line.output = d.output.map Prod.fst
  append : line.append = d.output.any Prod.snd
  error : line.error = d.error
  background : line.background = background

variable {d : Draft} {background : Bool}

theorem finish_of_open? {last : Command} (h : d.open? = some last) (background : Bool) :
    ∃ line, d.finish background = .ok (some line) ∧ d.Makes last background line := by
  rw [Draft.finish, h]
  cases hclosed : d.closed.reverse with
  | nil => exact ⟨_, rfl, by rw [hclosed]; rfl, rfl, rfl, rfl, rfl, rfl⟩
  | cons first between => exact ⟨_, rfl, by rw [hclosed]; rfl, rfl, rfl, rfl, rfl, rfl⟩

/-- A draft that makes a line has an open stage. -/
theorem makes_of_finish {line : CommandLine} (h : d.finish background = .ok (some line)) :
    ∃ last, d.open? = some last ∧ d.Makes last background line := by
  cases hopen : d.open? with
  | some last =>
    obtain ⟨line', hfinish, hmakes⟩ := finish_of_open? hopen background
    rw [hfinish] at h
    cases h
    exact ⟨last, rfl, hmakes⟩
  | none =>
    rw [Draft.finish, hopen] at h
    dsimp only at h
    split_ifs at h
    all_goals cases h

end Draft

/-! ### Lines with a pipe sign between them -/

namespace CommandLine

theorem splitBackground_concat (ts : List Token) (t : Token) :
    splitBackground (ts ++ [t]) = if t = .background then (ts, true) else (ts ++ [t], false) := by
  unfold splitBackground
  rw [List.getLast?_concat]
  cases t with
  | background => simp
  | word | pipe | redirect => rfl

/-- A background mark behind a pipe sign is one at the end of what follows the sign. -/
theorem splitBackground_append_pipe (ts ts' : List Token) :
    splitBackground (ts ++ .pipe :: ts') =
      (ts ++ .pipe :: (splitBackground ts').1, (splitBackground ts').2) := by
  rcases List.eq_nil_or_concat ts' with rfl | ⟨us, t, rfl⟩
  · simp [splitBackground]
  · have hconcat : ts ++ .pipe :: (us ++ [t]) = (ts ++ .pipe :: us) ++ [t] := by simp
    rw [List.concat_eq_append, hconcat, splitBackground_concat, splitBackground_concat]
    split <;> simp

theorem splitBackground_of_eq_false {ts : List Token} (h : (splitBackground ts).2 = false) :
    (splitBackground ts).1 = ts := by
  unfold splitBackground at h ⊢
  split at h
  · cases h
  · rfl

/-- What a text that is a line is made of. -/
structure Read (text : String) (line : CommandLine) (ts : List Token) (d : Draft)
    (last : Command) : Prop where
  scan : scan (Text.trim text.toList) = .ok ts
  read : ({} : Draft).read (splitBackground ts).1 = .ok d
  open? : d.open? = some last
  makes : d.Makes last (splitBackground ts).2 line

theorem exists_read {text : String} {line : CommandLine} (h : parse text = .ok (some line)) :
    ∃ ts d last, Read text line ts d last := by
  obtain ⟨ts, hscan, h⟩ := exists_of_bind_eq_ok h
  obtain ⟨d, hread, h⟩ := exists_of_bind_eq_ok h
  obtain ⟨last, hopen, hmakes⟩ := Draft.makes_of_finish h
  exact ⟨ts, d, last, hscan, hread, hopen, hmakes⟩

end CommandLine

open CommandLine

/-- A line has the stages of two lines one after the other. The second one tells whether it runs in
the background, and for each stream it is asked first. -/
structure Joins (left right line : CommandLine) : Prop where
  commands : line.commands = left.commands ++ right.commands
  background : line.background = right.background
  input : line.input = right.input.or left.input
  output : (line.output, line.append) =
    if right.output.isSome then (right.output, right.append) else (left.output, left.append)
  error : line.error = right.error.or left.error

/-- The tokens of two lines with a pipe sign between them make the line that has the stages of
both. -/
theorem ofTokens_append_pipe {left right : String} {l r : CommandLine} {ts ts' : List Token}
    {d d' : Draft} {last last' : Command} (hleft : Read left l ts d last)
    (hright : Read right r ts' d' last') (hl : l.background = false) :
    ∃ line, ofTokens (ts ++ .pipe :: ts') = .ok (some line) ∧ Joins l r line := by
  obtain ⟨-, hread, hopen, hmakes⟩ := hleft
  obtain ⟨-, hread', hopen', hmakes'⟩ := hright
  rw [splitBackground_of_eq_false (hmakes.background.symm.trans hl)] at hread
  -- the pipe sign closes the stage that the first line leaves open
  let closed : Draft := { d with closed := last :: d.closed, words := [] }
  have hpipe : d.read (.pipe :: (splitBackground ts').1) = .ok (d'.behind closed) := by
    rw [Draft.read, hopen]
    show (({} : Draft).behind closed).read _ = _
    rw [Draft.read_behind, hread']
    rfl
  have hopen : (d'.behind closed).open? = some last' := hopen'
  obtain ⟨line, hfinish, hline⟩ := Draft.finish_of_open? hopen (splitBackground ts').2
  refine ⟨line, ?_, ?_⟩
  · rw [ofTokens, splitBackground_append_pipe]
    show (({} : Draft).read (ts ++ .pipe :: (splitBackground ts').1) >>= _) = _
    rw [Draft.read_append hread, hpipe]
    exact hfinish
  · constructor
    · rw [hline.commands, hmakes.commands, hmakes'.commands]
      simp [Draft.behind, closed]
    · rw [hline.background, hmakes'.background]
    · rw [hline.input, hmakes.input, hmakes'.input]
      rfl
    · rw [hline.output, hline.append, hmakes.output, hmakes.append, hmakes'.output,
        hmakes'.append]
      show ((d'.output.or d.output).map _, (d'.output.or d.output).any _) = _
      cases d'.output <;> rfl
    · rw [hline.error, hmakes.error, hmakes'.error]
      rfl

/-- Behind some gaps a line is read as a line of its own. -/
theorem scan_append_gaps {cs gaps : List Char} (h : (lexemes cs).failure = none) (hne : gaps ≠ [])
    (hgaps : ∀ c ∈ gaps, isGap c = true) (ds : List Char) :
    scan (cs ++ (gaps ++ ds)) = (do
      let before ← scan cs
      let behind ← scan ds
      return before ++ behind) := by
  obtain ⟨c, gaps, rfl⟩ := List.exists_cons_of_ne_nil hne
  obtain ⟨hc, hgaps⟩ := List.forall_mem_cons.1 hgaps
  rw [List.cons_append, scan_append hc h, scan_gaps_append hgaps]

/-- **Joining lines.** Two lines with a pipe sign between them make a line with the stages of both,
if the first one is not to run in the background, and only gaps stand next to the sign. -/
theorem parse_join {left right : String} {l r : CommandLine} (hleft : parse left = .ok (some l))
    (hright : parse right = .ok (some r)) (hl : l.background = false)
    (htrailing : ∀ c ∈ Text.trailing left.toList, isGap c = true)
    (hleading : ∀ c ∈ Text.leading right.toList, isGap c = true) :
    ∃ line, parse (left ++ " | " ++ right) = .ok (some line) ∧ Joins l r line := by
  have hblank : ∀ {text : String} {line : CommandLine}, parse text = .ok (some line) →
      Text.trim text.toList ≠ [] := by
    intro text line hparse hnil
    rw [(parse_eq_none_iff text).2 hnil] at hparse
    cases hparse
  obtain ⟨ts, d, last, hread⟩ := exists_read hleft
  obtain ⟨ts', d', last', hread'⟩ := exists_read hright
  have htext : (left ++ " | " ++ right).toList =
      left.toList ++ ([' ', '|', ' '] ++ right.toList) := by
    simp
  -- all blanks stay but those at the start of the first line and at the end of the second one
  have hinner : Text.trim ([' ', '|', ' '] ++ right.toList) =
      ['|'] ++ ((' ' :: Text.leading right.toList) ++ Text.trim right.toList) :=
    Text.trim_append (by decide) (hblank hright)
  have htrim : Text.trim (left ++ " | " ++ right).toList =
      Text.trim left.toList ++ ((Text.trailing left.toList ++ [' ']) ++
        Text.trim ([' ', '|', ' '] ++ right.toList)) := by
    rw [htext, Text.trim_append (hblank hleft) (by rw [hinner]; exact List.cons_ne_nil _ _),
      List.append_assoc]
    rfl
  have hend : (lexemes (Text.trim left.toList)).failure = none :=
    (exists_placed_of_scan hread.scan).1
  have hbehind : scan (Text.trim ([' ', '|', ' '] ++ right.toList)) = .ok (.pipe :: ts') := by
    rw [hinner, scan_append_gaps rfl (List.cons_ne_nil _ _)
      (List.forall_mem_cons.2 ⟨rfl, hleading⟩), hread'.scan]
    rfl
  have hscan : scan (Text.trim (left ++ " | " ++ right).toList) = .ok (ts ++ .pipe :: ts') := by
    rw [htrim, scan_append_gaps hend (by simp)
      (List.forall_mem_append.2 ⟨htrailing, by simp [isGap]⟩), hread.scan, hbehind]
    rfl
  rw [parse_of_scan hscan]
  exact ofTokens_append_pipe hread hread' hl

/-- A line that reads its input from a file, and one that appends to a file in the background. -/
theorem parse_join_of_files : ∃ line,
    parse ("a <in 2>x | 'b b' " ++ " | " ++ "\tc 2>y >>out &") = .ok (some line) ∧
    Joins { first := ⟨"a", []⟩, others := [⟨"b b", []⟩], input := "in", error := "x" }
      { first := ⟨"c", []⟩, output := "out", append := true, error := "y", background := true }
      line :=
  parse_join (by rfl) (by rfl) rfl (List.all_eq_true.1 rfl) (List.all_eq_true.1 rfl)

/-- It is not enough that the first and the last character of each line are no blanks but gaps. A
no-break space behind a gap is a blank at the start of a line, and behind a pipe sign it is part of
a word. -/
theorem parse_join_deep_blank :
    parse "a" = .ok (some { first := ⟨"a", []⟩ }) ∧
    parse " \u00a0b" = .ok (some { first := ⟨"b", []⟩ }) ∧
    (∀ text ∈ ["a", " \u00a0b"], ∀ c, text.toList.head? = some c ∨ text.toList.getLast? = some c →
      Text.isBlank c = true → isGap c = true) ∧
    ¬∃ line, parse ("a" ++ " | " ++ " \u00a0b") = .ok (some line) ∧
      Joins { first := ⟨"a", []⟩ } { first := ⟨"b", []⟩ } line := by
  refine ⟨by rfl, by rfl, ?_, ?_⟩
  · intro text htext c hc hblank
    simp only [List.mem_cons, List.not_mem_nil, or_false] at htext
    rcases htext with rfl | rfl
    · obtain rfl : 'a' = c := by simpa using hc
      cases hblank
    · have hc : ' ' = c ∨ 'b' = c := by simpa using hc
      rcases hc with rfl | rfl
      · rfl
      · cases hblank
  · rintro ⟨line, hline, hjoins⟩
    have hparse : parse ("a" ++ " | " ++ " \u00a0b") =
        .ok (some { first := ⟨"a", []⟩, others := [⟨"\u00a0b", []⟩] }) := by rfl
    rw [hparse] at hline
    cases hline
    exact absurd hjoins.commands (by decide)

end LineShell
