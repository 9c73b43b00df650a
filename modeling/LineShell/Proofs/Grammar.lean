import LineShell.Proofs.Layout

namespace LineShell

/-!
# The grammar of command lines

* `Token.stages`, `Token.redirections` — what stands between the pipe signs once the redirections
  are taken out, and the redirections;
* `Grammatical` — which tokens make a line, apart from a background mark behind them;
* `flaw?` — what breaks the grammar at a place, `Breaks` — what breaks it first;
* `Draft.Reached` — what has been read of tokens when a reader is in their midst;
* `Draft.Reached.read` — a reader comes to the end of the tokens, or else to their first flaw;
* `Amounts` — the command line that tokens amount to;
* `Judgement`, `parse_judgement` — that a text is accepted just where its tokens are grammatical,
  what it is read as, and what is said of it otherwise.
-/

namespace Token

/-! ### What the grammar speaks of -/

/-- The text of a word. -/
def word? : Token → Option String
  | word text => some text
  | _ => none

/-- The tokens without each redirection operator and its operand. -/
def plain : List Token → List Token
  | .redirect _ :: .word _ :: ts => plain ts
  | .redirect _ :: ts => plain ts
  | t :: ts => t :: plain ts
  | [] => []

/-- The redirections in order, each with its operand. -/
def redirections : List Token → List (Redirection × String)
  | .redirect op :: .word file :: ts => (op, file) :: redirections ts
  | _ :: ts => redirections ts
  | [] => []

/-- What stands between the pipe signs. -/
def stages (ts : List Token) : List (List Token) := (plain ts).splitOn .pipe

/-- Each redirection operator has a word right behind it. -/
def Supplied (ts : List Token) : Prop :=
  ∀ before op after, ts = before ++ .redirect op :: after → ∃ file rest, after = .word file :: rest

/-- The tokens before a background mark at their end. -/
def body (ts : List Token) : List Token :=
  if ts.getLast? = some .background then ts.dropLast else ts

/-- Whether there is a background mark at the end. -/
def isMarked (ts : List Token) : Bool := ts.getLast? = some .background

@[simp] theorem body_nil : body [] = [] := rfl

theorem splitBackground_eq (ts : List Token) :
    CommandLine.splitBackground ts = (body ts, isMarked ts) := by
  unfold CommandLine.splitBackground body isMarked
  split
  · next h => simp [h]
  · next h =>
    have hne : ts.getLast? ≠ some .background := h
    simp [hne]

end Token

open Token

/-- The tokens make a line, apart from a background mark behind them. -/
structure Grammatical (ts : List Token) : Prop where
  foreground : Token.background ∉ ts
  supplied : Supplied ts
  filled : ∀ stage ∈ stages ts, stage ≠ []

/-- What breaks the grammar at the place with some tokens before it and others behind it. That a
stage is empty shows where it ends. -/
def flaw? (before : List Token) : List Token → Option LineError
  | .word _ :: _ => none
  | .redirect _ :: .word _ :: _ => none
  | .redirect op :: _ => some (.missingFile op)
  | .background :: _ => some .misplacedBackground
  | .pipe :: _ | [] => if (stages before).getLast? = some [] then some .emptyCommand else none

/-- What breaks the grammar first. -/
def Breaks (ts : List Token) (e : LineError) : Prop :=
  ∃ before after, ts = before ++ after ∧ flaw? before after = some e ∧
    ∀ before' after', ts = before' ++ after' → before'.length < before.length →
      flaw? before' after' = none

namespace Token

variable {ts ts' : List Token}

/-! ### Tokens in parts -/

theorem supplied_nil : Supplied [] := by
  intro before op after h
  cases before <;> cases h

theorem Supplied.tail {t : Token} (h : Supplied (t :: ts)) : Supplied ts := by
  intro before op after hts
  exact h (t :: before) op after (by rw [hts, List.cons_append])

theorem supplied_singleton {t : Token} (ht : ∀ op, t ≠ .redirect op) : Supplied [t] := by
  intro before op after h
  rcases List.cons_eq_append_iff.1 h with ⟨-, h⟩ | ⟨_, -, h⟩
  · exact absurd (List.cons.inj h).1.symm (ht op)
  · exact absurd h.symm (by simp)

theorem supplied_redirect (op : Redirection) (file : String) :
    Supplied [.redirect op, .word file] := by
  intro before op' after h
  rcases List.cons_eq_append_iff.1 h with ⟨-, h⟩ | ⟨before', -, h⟩
  · cases h
    exact ⟨file, [], rfl⟩
  · exact supplied_singleton (by simp) before' op' after h

theorem Supplied.append (h : Supplied ts) (h' : Supplied ts') : Supplied (ts ++ ts') := by
  intro before op after heq
  rcases List.append_eq_append_iff.1 heq with ⟨between, rfl, hts'⟩ | ⟨between, hts, hafter⟩
  · exact h' between op after hts'
  · cases between with
    | nil => exact h' [] op after hafter.symm
    | cons t between =>
      obtain ⟨rfl, rfl⟩ := List.cons.inj hafter
      obtain ⟨file, rest, rfl⟩ := h before op between hts
      exact ⟨file, rest ++ ts', rfl⟩

/-- An operator without an operand is the only thing that reaches over to what follows. -/
theorem plain_append (h : Supplied ts) (ts' : List Token) :
    plain (ts ++ ts') = plain ts ++ plain ts' := by
  fun_induction plain ts with
  | case1 op file ts ih => exact ih h.tail.tail
  | case2 op ts hts _ =>
    obtain ⟨file, rest, rfl⟩ := h [] op ts rfl
    exact absurd rfl (hts file rest)
  | case3 t ts _ hts ih =>
    cases t with
    | redirect op => exact absurd rfl (hts op)
    | _ => exact congrArg (_ :: ·) (ih h.tail)
  | case4 => rfl

theorem redirections_append (h : Supplied ts) (ts' : List Token) :
    redirections (ts ++ ts') = redirections ts ++ redirections ts' := by
  fun_induction redirections ts with
  | case1 op file ts ih => exact congrArg (_ :: ·) (ih h.tail.tail)
  | case2 t ts hts ih =>
    cases t with
    | redirect op =>
      obtain ⟨file, rest, rfl⟩ := h [] op ts rfl
      exact absurd rfl (hts op file rest rfl)
    | _ => exact ih h.tail
  | case3 => rfl

/-- Nothing stands between pipe signs and nothing is redirected only where there is no token. -/
theorem eq_nil_of_plain (h : Supplied ts) (hplain : plain ts = []) (hfiles : redirections ts = []) :
    ts = [] := by
  cases ts with
  | nil => rfl
  | cons t ts =>
    cases t with
    | redirect op =>
      obtain ⟨file, rest, rfl⟩ := h [] op ts rfl
      exact absurd hfiles (by simp [redirections])
    | _ => exact absurd hplain (by simp [plain])

/-- Each word is an argument or an operand. -/
theorem words_perm (h : Supplied ts) : (ts.filterMap word?).Perm
    ((plain ts).filterMap word? ++ (redirections ts).map Prod.snd) := by
  fun_induction plain ts with
  | case1 op file ts ih =>
    exact ((ih h.tail.tail).cons file).trans List.perm_middle.symm
  | case2 op ts hts _ =>
    obtain ⟨file, rest, rfl⟩ := h [] op ts rfl
    exact absurd rfl (hts file rest)
  | case3 t ts _ hts ih =>
    have ih := ih h.tail
    cases t with
    | redirect op => exact absurd rfl (hts op)
    | word w => exact ih.cons w
    | _ => exact ih
  | case4 => exact .refl _

/-- The words between pipe signs are those of the stages. -/
theorem filterMap_word?_plain (ts : List Token) :
    (plain ts).filterMap word? = (stages ts).flatMap (·.filterMap word?) := by
  have hjoin : ∀ l : List (List Token),
      (([Token.pipe] : List Token).intercalate l).filterMap word? =
        l.flatMap (·.filterMap word?) := by
    intro l
    induction l with
    | nil => rfl
    | cons stage l ih =>
      cases l with
      | nil => simp
      | cons next l => simpa [List.intercalate_cons_cons, List.filterMap_cons, word?] using ih
  rw [← hjoin, stages, List.intercalate_splitOn]

end Token

/-! ### Reading up to a place -/

namespace Draft

/-- What has been read of a line when some of its tokens have: closed stages, the words of the open
one, and redirections that all have their operands. What is still to come changes no closed
stage. -/
structure Reached (before : List Token) (d : Draft) (closed : List Command)
    (words : List String) : Prop where
  has : d.Has closed words (redirections before)
  supplied : Supplied before
  foreground : Token.background ∉ before
  split : ∃ front, plain before = front ++ words.map Token.word ∧
    ∀ rest : List Token, (front ++ rest).splitOn .pipe =
      closed.map (·.argv.map Token.word) ++ rest.splitOn .pipe

variable {before : List Token} {d : Draft} {closed : List Command} {words : List String}

theorem splitOn_words (words : List String) :
    (words.map Token.word).splitOn .pipe = [words.map Token.word] :=
  List.splitOn_eq_singleton (by simp)

theorem Reached.stages_eq (h : Reached before d closed words) :
    stages before = closed.map (·.argv.map Token.word) ++ [words.map Token.word] := by
  obtain ⟨front, hplain, hsplit⟩ := h.split
  rw [stages, hplain, hsplit, splitOn_words]

/-- Whether the open stage is empty shows in the tokens. -/
theorem Reached.getLast?_stages (h : Reached before d closed words) :
    (stages before).getLast? = some [] ↔ words = [] := by
  rw [h.stages_eq, List.getLast?_concat, Option.some_inj, List.map_eq_nil_iff]

theorem Reached.nil : Reached [] {} [] [] :=
  ⟨Has.nil, supplied_nil, List.not_mem_nil, [], rfl, fun _ => rfl⟩

theorem Reached.word (h : Reached before d closed words) (w : String) :
    Reached (before ++ [.word w]) (d.addWord w) closed (words ++ [w]) := by
  obtain ⟨front, hplain, hsplit⟩ := h.split
  refine ⟨?_, h.supplied.append (supplied_singleton (by simp)), ?_, front, ?_, hsplit⟩
  · rw [redirections_append h.supplied]
    exact (List.append_nil (redirections before)).symm ▸ h.has.addWord w
  · simpa using h.foreground
  · rw [plain_append h.supplied, hplain, List.map_append, List.append_assoc]
    rfl

theorem Reached.redirect (h : Reached before d closed words) (op : Redirection) (file : String) :
    Reached (before ++ [.redirect op, .word file]) (d.redirect file op) closed words := by
  obtain ⟨front, hplain, hsplit⟩ := h.split
  refine ⟨?_, h.supplied.append (supplied_redirect op file), ?_, front, ?_, hsplit⟩
  · rw [redirections_append h.supplied]
    exact h.has.redirect op file
  · simpa using h.foreground
  · rw [plain_append h.supplied, hplain]
    exact List.append_nil _

theorem Reached.pipe (h : Reached before d closed words) {c : Command} (hc : words = c.argv) :
    Reached (before ++ [.pipe]) { d with closed := c :: d.closed, words := [] }
      (closed ++ [c]) [] := by
  obtain ⟨front, hplain, hsplit⟩ := h.split
  refine ⟨?_, h.supplied.append (supplied_singleton (by simp)), ?_,
    front ++ (words.map Token.word ++ [.pipe]), ?_, fun rest => ?_⟩
  · rw [redirections_append h.supplied]
    exact (List.append_nil (redirections before)).symm ▸ h.has.close c
  · simpa using h.foreground
  · rw [plain_append h.supplied, hplain, List.append_assoc, List.map_nil, List.append_nil]
    rfl
  · rw [List.append_assoc, hsplit, List.append_assoc, List.singleton_append,
      List.splitOn_append_cons_self, splitOn_words, hc, List.map_append, List.append_assoc]
    rfl

/-- The grammar is not broken from one place on, before another one. -/
inductive Clean : List Token → List Token → List Token → List Token → Prop
  | here (before after : List Token) : Clean before after before after
  | step {before before' after after' : List Token} {t : Token} :
    flaw? before (t :: after) = none → Clean (before ++ [t]) after before' after' →
    Clean before (t :: after) before' after'

/-- **Reading tokens.** A reader comes to the end, or else to the first flaw. -/
theorem Reached.read (h : Reached before d closed words) (ts : List Token) :
    ∃ before' after d' closed' words', Clean before ts before' after ∧
      Reached before' d' closed' words' ∧
        ((d.read ts = .ok d' ∧ after = []) ∨
          ∃ e, d.read ts = .error e ∧ flaw? before' after = some e ∧ after ≠ []) := by
  fun_induction Draft.read d ts generalizing before closed words with
  | case1 d => exact ⟨before, [], d, closed, words, .here _ _, h, .inl ⟨rfl, rfl⟩⟩
  | case2 d w ts ih =>
    obtain ⟨before', after, d', closed', words', hclean, hreached, hread⟩ := ih (h.word w)
    exact ⟨before', after, d', closed', words', .step rfl hclean, hreached, hread⟩
  | case3 d ts hopen =>
    have hwords : words = [] := by
      rw [h.has.open?_eq] at hopen
      cases words with
      | nil => rfl
      | cons => cases hopen
    refine ⟨before, _, d, closed, words, .here _ _, h, .inr ⟨_, rfl, ?_, List.cons_ne_nil _ _⟩⟩
    exact if_pos (h.getLast?_stages.2 hwords)
  | case4 d ts c hopen ih =>
    have hc : words = c.argv := by
      rw [h.has.open?_eq] at hopen
      exact Command.ofArgv?_eq_some_iff.1 hopen
    obtain ⟨before', after, d', closed', words', hclean, hreached, hread⟩ := ih (h.pipe hc)
    refine ⟨before', after, d', closed', words', .step (if_neg ?_) hclean, hreached, hread⟩
    rw [h.getLast?_stages, hc]
    exact c.argv_ne_nil
  | case5 d ts =>
    exact ⟨before, _, d, closed, words, .here _ _, h, .inr ⟨_, rfl, rfl, List.cons_ne_nil _ _⟩⟩
  | case6 d op file ts ih =>
    obtain ⟨before', after, d', closed', words', hclean, hreached, hread⟩ := ih (h.redirect op file)
    refine ⟨before', after, d', closed', words', .step rfl (.step rfl ?_), hreached, hread⟩
    rwa [List.append_assoc]
  | case7 d op ts hts =>
    refine ⟨before, _, d, closed, words, .here _ _, h, .inr ⟨_, rfl, ?_, List.cons_ne_nil _ _⟩⟩
    cases ts with
    | nil => rfl
    | cons t ts =>
      cases t with
      | word file => exact absurd rfl (hts file ts)
      | _ => rfl

theorem Clean.append_eq {after before' after' : List Token}
    (h : Clean before after before' after') :
    before ++ after = before' ++ after' := by
  induction h with
  | here => rfl
  | step _ _ ih => rw [← ih, List.append_assoc, List.singleton_append]

/-- The grammar is broken at none of the places in between. -/
theorem Clean.flaw?_eq_none {after before' after' : List Token}
    (h : Clean before after before' after') {b a : List Token} (hsplit : before ++ after = b ++ a)
    (hstart : before.length ≤ b.length) (hstop : b.length < before'.length) :
    flaw? b a = none := by
  induction h with
  | here => omega
  | @step before before' after after' t hflaw hclean ih =>
    by_cases hlen : before.length = b.length
    · obtain ⟨rfl, rfl⟩ := List.append_inj hsplit hlen
      exact hflaw
    · refine ih ?_ ?_ hstop
      · rw [List.append_assoc]
        exact hsplit
      · rw [List.length_append, List.length_singleton]
        omega

/-- Grammatical tokens have no flaw at a place that can be reached. -/
theorem Reached.flaw?_eq_none {after : List Token} (h : Reached before d closed words)
    (hgood : Grammatical (before ++ after)) : flaw? before after = none := by
  have hplain := plain_append h.supplied after
  have hlast : ∀ stage, (stages before).getLast? = some stage →
      (∃ ts, stages (before ++ after) = stages before ++ ts) → stage ≠ [] := by
    rintro stage hstage ⟨ts, hts⟩
    refine hgood.filled stage ?_
    rw [hts]
    exact List.mem_append_left _ (List.mem_of_getLast? hstage)
  cases after with
  | nil => exact if_neg fun hopen => hlast [] hopen ⟨[], by simp⟩ rfl
  | cons t after =>
    cases t with
    | word w => rfl
    | background => exact absurd (List.mem_append_right _ List.mem_cons_self) hgood.foreground
    | redirect op =>
      obtain ⟨file, rest, rfl⟩ := hgood.supplied before op after rfl
      rfl
    | pipe =>
      refine if_neg fun hopen => hlast [] hopen ⟨stages after, ?_⟩ rfl
      rw [stages, hplain]
      exact List.splitOn_append_cons_self ..

/-- Tokens that are read to their end with an open stage that is not empty are grammatical. -/
theorem Reached.grammatical (h : Reached before d closed words) (hwords : words ≠ []) :
    Grammatical before := by
  refine ⟨h.foreground, h.supplied, fun stage hstage => ?_⟩
  rw [h.stages_eq, List.mem_append, List.mem_singleton, List.mem_map] at hstage
  rcases hstage with ⟨c, -, rfl⟩ | rfl
  · simp [Command.argv]
  · simpa using hwords

/-- A draft names no file just where nothing was redirected. -/
theorem Has.redirections_eq_nil {redirections : List (Redirection × String)}
    (h : d.Has closed words redirections) (hnone : d.hasNoRedirection = true) :
    redirections = [] := by
  cases redirections with
  | nil => rfl
  | cons r redirections =>
    obtain ⟨op, file⟩ := r
    simp only [hasNoRedirection, h.input, h.output, h.error, Bool.and_eq_true,
      Option.isNone_iff_eq_none, List.getLast?_eq_none_iff] at hnone
    obtain ⟨⟨hinput, houtput⟩, herror⟩ := hnone
    cases op with
    | input => cases hinput
    | output => cases houtput
    | append => cases houtput
    | error => cases herror

end Draft

/-! ### Whole lines -/

theorem Breaks.unique {ts : List Token} {e e' : LineError} (h : Breaks ts e) (h' : Breaks ts e') :
    e = e' := by
  obtain ⟨before, after, rfl, hflaw, hclean⟩ := h
  obtain ⟨before', after', hsplit, hflaw', hclean'⟩ := h'
  rcases Nat.lt_trichotomy before.length before'.length with hlt | heq | hlt
  · rw [hclean' before after rfl hlt] at hflaw
    cases hflaw
  · obtain ⟨rfl, rfl⟩ := List.append_inj hsplit heq
    exact Option.some.inj (hflaw.symm.trans hflaw')
  · rw [hclean before' after' hsplit hlt] at hflaw'
    cases hflaw'

/-- The tokens amount to a command line. -/
structure Amounts (ts : List Token) (line : CommandLine) : Prop where
  background : line.background = isMarked ts
  /-- The commands are the stages in order. -/
  commands : line.commands.map (·.argv.map Token.word) = stages (body ts)
  /-- None of the stages is without a word. -/
  built : CommandLine.ofArgvs ((stages (body ts)).map (·.filterMap word?)) =
    .ok { first := line.first, others := line.others }
  /-- The last redirection of a stream counts. -/
  input : line.input = ((redirections (body ts)).filterMap inputOf).getLast?
  /-- Writing and appending are redirections of the same stream. -/
  output : line.output.map (·, line.append) = ((redirections (body ts)).filterMap outputOf).getLast?
  append : line.append = true → line.output.isSome = true
  error : line.error = ((redirections (body ts)).filterMap errorOf).getLast?
  /-- Each word is an argument or an operand, and only once. -/
  words : ((body ts).filterMap word?).Perm
    (line.commands.flatMap Command.argv ++ (redirections (body ts)).map Prod.snd)

namespace CommandLine

/-- The line without redirections that the words of a line's commands make. -/
theorem ofArgvs_commands (line : CommandLine) : ofArgvs (line.commands.map Command.argv) =
    .ok { first := line.first, others := line.others } := by
  have hall : ∀ make : List String → Except Malformed Command,
      (∀ c : Command, make c.argv = .ok c) →
      ∀ commands : List Command, (commands.map Command.argv).mapM make = .ok commands := by
    intro make hmake commands
    induction commands with
    | nil => rfl
    | cons c commands ih =>
      rw [List.map_cons, List.mapM_cons, hmake, ih]
      rfl
  rw [ofArgvs, hall _ fun _ => rfl]
  rfl

end CommandLine

theorem filterMap_word?_words (words : List String) :
    (words.map Token.word).filterMap word? = words := by
  rw [List.filterMap_map]
  exact List.filterMap_some

/-- What has been read of all tokens amounts to a line, if the open stage is not empty. -/
theorem Draft.Reached.finish {ts : List Token} {d : Draft} {closed : List Command}
    {words : List String} (h : Reached (body ts) d closed words) (hwords : words ≠ []) :
    ∃ line, d.finish (isMarked ts) = .ok (some line) ∧ Amounts ts line := by
  obtain ⟨name, args, rfl⟩ := List.exists_cons_of_ne_nil hwords
  obtain ⟨first, others, hcommands⟩ : ∃ first others, closed ++ [⟨name, args⟩] = first :: others :=
    List.exists_cons_of_ne_nil (by simp)
  generalize hinput : ((redirections (body ts)).filterMap inputOf).getLast? = input
  generalize houtput : ((redirections (body ts)).filterMap outputOf).getLast? = output
  generalize herror : ((redirections (body ts)).filterMap errorOf).getLast? = error
  have hpair : output = (output.map (·.1)).map (·, output.any (·.2)) := by
    cases output <;> rfl
  have happend : output.any (·.2) = true → (output.map (·.1)).isSome = true := by
    cases output <;> simp
  have hhas : d.Has closed (Command.argv ⟨name, args⟩) (redirections (body ts)) := h.has
  let line : CommandLine :=
    ⟨first, others, input, output.map (·.1), output.any (·.2), error, isMarked ts⟩
  have hfinish : d.finish line.background = .ok (some line) :=
    hhas.finish hcommands hinput (houtput.trans hpair) herror happend
  refine ⟨line, hfinish, ?_⟩
  -- the stages are the commands, each of them one that has a name
  have hstages : (first :: others).map (·.argv.map Token.word) = stages (body ts) := by
    rw [h.stages_eq, ← hcommands, List.map_append]
    rfl
  have hargvs : (stages (body ts)).map (·.filterMap word?) =
      (first :: others).map Command.argv := by
    rw [← hstages, List.map_map]
    exact List.map_congr_left fun c _ => filterMap_word?_words c.argv
  refine ⟨rfl, hstages, ?_, hinput.symm, (houtput.trans hpair).symm, happend, herror.symm, ?_⟩
  · rw [hargvs]
    exact CommandLine.ofArgvs_commands { first, others }
  · refine (words_perm h.supplied).trans ?_
    rw [filterMap_word?_plain, List.flatMap_def, hargvs]
    exact .refl _

/-- A line whose last stage is open is no line. -/
theorem Draft.Reached.finish_of_open {before : List Token} {d : Draft} {closed : List Command}
    (h : Reached before d closed []) (hread : ({} : Draft).read before = .ok d) {marked : Bool}
    (hmark : before = [] → marked = true) :
    d.finish marked = .error (if before = [] then .lonelyBackground else .emptyCommand) := by
  have hopen : d.open? = none := by rw [h.has.open?_eq]; rfl
  rw [Draft.finish, hopen]
  dsimp only
  by_cases hbefore : before = []
  · -- nothing has been read, so the mark is all there is
    subst hbefore
    cases hread
    rw [hmark rfl, if_pos rfl]
    rfl
  · rw [if_neg hbefore, if_neg]
    rw [Bool.and_eq_true, List.isEmpty_iff, h.has.closed, List.reverse_eq_nil_iff]
    rintro ⟨rfl, hfiles⟩
    refine hbefore (eq_nil_of_plain h.supplied ?_ (h.has.redirections_eq_nil hfiles))
    have hstages := h.stages_eq
    rw [List.map_nil, List.map_nil, List.nil_append, stages] at hstages
    have hback : [Token.pipe].intercalate ((plain before).splitOn Token.pipe) = plain before :=
      List.intercalate_splitOn _
    rw [← hback, hstages]
    rfl

/-- Tokens that have been read to their end, and whose last stage has words, break no grammar. -/
theorem Draft.Reached.not_breaks {ts : List Token} {d : Draft} {closed : List Command}
    {words : List String} (h : Reached ts d closed words) (hwords : words ≠ [])
    (hearlier : ∀ before after, ts = before ++ after → before.length < ts.length →
      flaw? before after = none) (e : LineError) : ¬ Breaks ts e := by
  rintro ⟨before, after, hsplit, hflaw, -⟩
  rcases Nat.lt_or_ge before.length ts.length with hlt | hge
  · rw [hearlier before after hsplit hlt] at hflaw
    cases hflaw
  · have hlen := congrArg List.length hsplit
    rw [List.length_append] at hlen
    obtain rfl : after = [] := List.length_eq_zero_iff.1 (by omega)
    rw [List.append_nil] at hsplit
    subst hsplit
    have hopen : (stages ts).getLast? ≠ some [] := fun hopen => hwords (h.getLast?_stages.1 hopen)
    simp [flaw?, hopen] at hflaw

namespace CommandLine

variable {ts : List Token}

theorem body_eq_nil_iff (hmark : isMarked ts = false) : body ts = [] ↔ ts = [] := by
  rw [body, if_neg (by simpa [isMarked] using hmark)]

/-- **Judging tokens.** Tokens make a line or else break the grammar somewhere, and not both. -/
theorem ofTokens_cases (hne : ts ≠ []) :
    (Grammatical (body ts) ∧ (∀ e, ¬ Breaks (body ts) e) ∧
      ∃ line, ofTokens ts = .ok (some line) ∧ Amounts ts line) ∨
    (¬ Grammatical (body ts) ∧ ∃ e, Breaks (body ts) e ∧
      ofTokens ts = .error (if body ts = [] then .lonelyBackground else e)) := by
  have hof : ofTokens ts = (({} : Draft).read (body ts) >>= fun d => d.finish (isMarked ts)) := by
    rw [ofTokens, splitBackground_eq]
  obtain ⟨before, after, d, closed, words, hclean, hreached, hread⟩ :=
    Draft.Reached.nil.read (body ts)
  have hsplit : body ts = before ++ after := hclean.append_eq
  have hearlier : ∀ before' after', body ts = before' ++ after' →
      before'.length < before.length → flaw? before' after' = none :=
    fun before' after' h hlt => hclean.flaw?_eq_none h (Nat.zero_le _) hlt
  have hbad : ∀ {e}, flaw? before after = some e → ¬ Grammatical (body ts) := by
    intro e hflaw hgood
    rw [hsplit] at hgood
    rw [hreached.flaw?_eq_none hgood] at hflaw
    cases hflaw
  rcases hread with ⟨hread, rfl⟩ | ⟨e, hread, hflaw, hafter⟩
  · rw [List.append_nil] at hsplit
    subst hsplit
    rw [hread] at hof
    by_cases hwords : words = []
    · right
      have hflaw : flaw? (body ts) [] = some .emptyCommand :=
        if_pos (hreached.getLast?_stages.2 hwords)
      refine ⟨hbad hflaw, .emptyCommand,
        ⟨body ts, [], (List.append_nil _).symm, hflaw, hearlier⟩, ?_⟩
      subst hwords
      refine hof.trans (hreached.finish_of_open hread fun hbody => ?_)
      by_contra hmark
      exact hne ((body_eq_nil_iff (Bool.eq_false_iff.2 hmark)).1 hbody)
    · left
      obtain ⟨line, hline, hamounts⟩ := hreached.finish hwords
      exact ⟨hreached.grammatical hwords, hreached.not_breaks hwords hearlier, line,
        hof.trans hline, hamounts⟩
  · right
    refine ⟨hbad hflaw, e, ⟨before, after, hsplit, hflaw, hearlier⟩, ?_⟩
    have hbody : body ts ≠ [] := by
      rw [hsplit]
      exact List.append_ne_nil_of_right_ne_nil before hafter
    rw [hof, hread, if_neg hbody]
    rfl

end CommandLine

/-! ### Blank texts -/

namespace Token

/-- A line that does not start with a gap has a token. -/
theorem ne_nil_of_scan {c : Char} {cs : List Char} {ts : List Token} (hc : isGap c = false)
    (h : scan (c :: cs) = .ok ts) : ts ≠ [] := by
  obtain ⟨hfailure, placed, -, hplaced, rfl⟩ := exists_placed_of_scan h
  obtain ⟨gs, hgs, hline⟩ := exists_segmented hfailure
  rw [hline, lexemes_segments hgs] at hplaced
  -- a token is held back once the first lexeme has been read
  have hheld : ∀ (previous : Option (Token × Nat)) (ls : List Lexeme) (placed : List (Token × Nat)),
      (previous.isSome = true ∨ ls ≠ []) → placeFrom (textOf gs) previous ls = .ok placed →
        placed ≠ [] := by
    intro previous ls
    induction ls generalizing previous with
    | nil =>
      rintro placed hsome ⟨⟩
      obtain ⟨held, rfl⟩ := Option.isSome_iff_exists.1 (hsome.resolve_right fun h => h rfl)
      exact List.cons_ne_nil _ _
    | cons l ls ih =>
      intro placed _ hplaced
      obtain ⟨t, takes, rest, -, hrest, rfl⟩ := placeFrom_cons hplaced
      have hne := ih _ rest (.inl rfl) hrest
      cases takes with
      | true => exact hne
      | false => exact List.append_ne_nil_of_right_ne_nil _ hne
  have hlexemes : lexemesOf 0 gs ≠ [] := by
    cases gs with
    | nil => cases hline
    | cons g gs =>
      cases hgs with
      | gap _ hgap _ =>
        obtain ⟨rfl, -⟩ := List.cons.inj hline
        rw [hc] at hgap
        cases hgap
      | word => exact List.cons_ne_nil _ _
      | run => exact List.cons_ne_nil _ _
  simpa using hheld none _ placed (.inr hlexemes) hplaced

end Token

/-- A trimmed text does not start with a blank. -/
theorem isBlank_of_trim_eq_cons {cs rest : List Char} {c : Char} (h : Text.trim cs = c :: rest) :
    Text.isBlank c = false := by
  have hprefix : Text.trim cs <+: Text.trimStart cs := by
    rw [← List.reverse_suffix, Text.trim, List.reverse_reverse]
    exact List.dropWhile_suffix _
  rw [h] at hprefix
  obtain ⟨behind, hbehind⟩ := hprefix
  have hhead := List.head?_dropWhile_not Text.isBlank cs
  rw [← Text.trimStart, ← hbehind] at hhead
  exact hhead

theorem isBlank_of_isGap {c : Char} (h : Token.isGap c = true) : Text.isBlank c = true := by
  simp only [Token.isGap, Bool.or_eq_true, beq_iff_eq] at h
  rcases h with ((rfl | rfl) | rfl) | rfl <;> decide

/-- There is no token just where there is nothing but blanks. -/
theorem eq_nil_iff_of_scan_trim {cs : List Char} {ts : List Token}
    (h : Token.scan (Text.trim cs) = .ok ts) : ts = [] ↔ Text.trim cs = [] := by
  constructor
  · intro hts
    cases hcs : Text.trim cs with
    | nil => rfl
    | cons c rest =>
      rw [hcs] at h
      have hgap : Token.isGap c = false := by
        rw [Bool.eq_false_iff]
        intro hgap
        have := isBlank_of_isGap hgap
        rw [isBlank_of_trim_eq_cons hcs] at this
        cases this
      exact absurd hts (ne_nil_of_scan hgap h)
  · intro hcs
    rw [hcs] at h
    cases h
    rfl

theorem CommandLine.parse_of_scan {text : String} {ts : List Token}
    (h : Token.scan (Text.trim text.toList) = .ok ts) : parse text = ofTokens ts := by
  rw [parse, h]
  rfl

/-- Only a blank text is no line and no error either. -/
theorem CommandLine.parse_eq_none_iff (text : String) :
    parse text = .ok none ↔ Text.trim text.toList = [] := by
  constructor
  · intro h
    cases hscan : Token.scan (Text.trim text.toList) with
    | error e =>
      rw [parse, hscan] at h
      cases h
    | ok ts =>
      rw [parse_of_scan hscan] at h
      by_contra hblank
      rcases ofTokens_cases (mt (eq_nil_iff_of_scan_trim hscan).1 hblank) with
        ⟨-, -, line, hline, -⟩ | ⟨-, e, -, herror⟩
      · rw [hline] at h
        cases h
      · rw [herror] at h
        cases h
  · intro hblank
    rw [parse, hblank]
    rfl

/-! ### Texts -/

/-- What a text with some tokens is taken for. -/
structure Judgement (text : String) (ts : List Token) : Prop where
  /-- There is no token just in a blank text, -/
  blank : ts = [] ↔ Text.trim text.toList = []
  /-- and that is no line, nor an error. -/
  nothing : CommandLine.parse text = .ok none ↔ ts = []
  /-- A line is made of grammatical tokens, -/
  accepts : (∃ line, CommandLine.parse text = .ok (some line)) ↔
    ts ≠ [] ∧ Grammatical (Token.body ts)
  /-- which amount to it. -/
  amounts : ∀ line, CommandLine.parse text = .ok (some line) → Amounts ts line
  /-- All other tokens are in error: -/
  fails : ts ≠ [] → ¬ Grammatical (Token.body ts) → ∃ e, CommandLine.parse text = .error e
  /-- for what breaks the grammar first, or because a background mark is all there is. -/
  rejects : ∀ e, CommandLine.parse text = .error e ↔ ts ≠ [] ∧
    if Token.body ts = [] then e = .lonelyBackground else Breaks (Token.body ts) e
  /-- The name of a file is missing where an operator without an operand comes first. -/
  missing : (∃ e, CommandLine.parse text = .error e ∧ e.isMissingFile = true) ↔
    ∃ op, Breaks (Token.body ts) (.missingFile op)

/-- **The grammar of command lines.** A text with tokens is taken for a line just where they are
grammatical, and then for the line that they amount to. What is said of other texts is what breaks
the grammar first. -/
theorem parse_judgement {text : String} {ts : List Token}
    (h : Token.scan (Text.trim text.toList) = .ok ts) : Judgement text ts := by
  have hparse := CommandLine.parse_of_scan h
  have hblank := eq_nil_iff_of_scan_trim h
  have hnothing := (CommandLine.parse_eq_none_iff text).trans hblank.symm
  have hnoFile : ∀ op, ¬ Breaks [] (.missingFile op) := by
    rintro op ⟨before, after, hsplit, hflaw, -⟩
    obtain ⟨rfl, rfl⟩ := List.append_eq_nil_iff.1 hsplit.symm
    cases hflaw
  by_cases hne : ts = []
  · subst hne
    have hnone : CommandLine.parse text = .ok none := hparse
    refine ⟨hblank, hnothing, ?_, ?_, ?_, ?_, ?_⟩
    · simp [hnone]
    · simp [hnone]
    · simp
    · simp [hnone]
    · simpa [hnone] using hnoFile
  · rcases CommandLine.ofTokens_cases hne with ⟨hgood, hclean, line, hline, hamounts⟩ |
      ⟨hbad, e, hbreaks, herror⟩
    · rw [← hparse] at hline
      have hbody : Token.body ts ≠ [] := by
        intro hbody
        exact hclean .emptyCommand
          ⟨[], [], hbody, rfl, fun _ _ _ hlt => absurd hlt (Nat.not_lt_zero _)⟩
      refine ⟨hblank, hnothing, ?_, ?_, ?_, ?_, ?_⟩
      · simp [hline, hne, hgood]
      · rintro line' hline'
        rw [hline] at hline'
        cases hline'
        exact hamounts
      · exact fun _ hbad => absurd hgood hbad
      · simp [hline, hbody, hclean]
      · simp [hline, hclean]
    · rw [← hparse] at herror
      refine ⟨hblank, hnothing, ?_, ?_, ?_, ?_, ?_⟩
      · simp [herror, hbad]
      · simp [herror]
      · exact fun _ _ => ⟨_, herror⟩
      · intro e'
        by_cases hbody : Token.body ts = []
        · simp [herror, hne, hbody, eq_comm]
        · have hiff : e = e' ↔ Breaks (Token.body ts) e' :=
            ⟨fun h => h ▸ hbreaks, hbreaks.unique⟩
          simpa [herror, hne, hbody] using hiff
      · by_cases hbody : Token.body ts = []
        · simpa [herror, hbody, LineError.isMissingFile] using hnoFile
        · have hiff : e.isMissingFile = true ↔ ∃ op, Breaks (Token.body ts) (.missingFile op) := by
            constructor
            · intro hmissing
              cases e with
              | missingFile op => exact ⟨op, hbreaks⟩
              | _ => cases hmissing
            · rintro ⟨op, hop⟩
              rw [hbreaks.unique hop]
              rfl
          simpa [herror, hbody] using hiff

/-- The tokens of a text whose second stage holds nothing but a redirection. The operator behind it
has no operand. -/
def brokenTokens : List Token :=
  [.word "a", .redirect .output, .word "f", .pipe, .redirect .append, .word "g h", .pipe, .word "b",
    .redirect .input, .background]

/-- The tokens of a text that names its output three times. -/
def renamedTokens : List Token :=
  [.redirect .output, .word "f", .word "a", .redirect .output, .word "g", .pipe, .word "b",
    .redirect .append, .word "h", .background]

/-- The line that they amount to. -/
def renamedLine : CommandLine where
  first := ⟨"a", []⟩
  others := [⟨"b", []⟩]
  output := some "h"
  append := true
  background := true

/-- One text is refused for its empty stage, and the other one is taken for a line. -/
theorem parse_judgement_of_mixed :
    (Token.scan (Text.trim " a>f | >>'g h' | b < &".toList) = .ok brokenTokens ∧
      Judgement " a>f | >>'g h' | b < &" brokenTokens ∧
      CommandLine.parse " a>f | >>'g h' | b < &" = .error .emptyCommand) ∧
    Token.scan (Text.trim ">f a>g | b>>h&".toList) = .ok renamedTokens ∧
      Judgement ">f a>g | b>>h&" renamedTokens ∧
      CommandLine.parse ">f a>g | b>>h&" = .ok (some renamedLine) := by
  have hbroken : Token.scan (Text.trim " a>f | >>'g h' | b < &".toList) = .ok brokenTokens := rfl
  have hrenamed : Token.scan (Text.trim ">f a>g | b>>h&".toList) = .ok renamedTokens := rfl
  exact ⟨⟨hbroken, parse_judgement hbroken, rfl⟩, hrenamed, parse_judgement hrenamed, rfl⟩

end LineShell
