import LineShell.Proofs.LinkFree

namespace LineShell.FileSystem

/-!
# The links that were resolved so far

What the links that a resolution remembers have to do with what it comes to.

* `Through` — parts of a path that lead somewhere, each link on the way taken from what is known;
* `Seen.Closed` — what is known of a link can be found out again from the rest of what is known;
* `resolveLinks_of_through` — known links are not followed again;
* `resolveLinks_closes` — what a resolution that comes to an end has found out is closed;
* `Covers`, `resolveLinks_covered` — whoever knows more of the links comes to the same;
* `resolveLinks_append` — a path can be resolved in two parts.
-/

/-- Where the target of a link is seen from that stands in a directory. -/
def startOf (names : List String) (target : String) : List String :=
  if Path.startsAtRoot target then [] else names

/-- Some parts lead from names to names, and all links on the way are known. -/
inductive Through (fs : FileSystem) (seen : Seen) :
    List String → List (List Char) → List String → Prop
  | nil (names : List String) : Through fs seen names [] names
  | skip {names r : List String} {part : List Char} {parts : List (List Char)} :
    Path.isName part = false → Through fs seen names parts r →
    Through fs seen names (part :: parts) r
  | up {names r : List String} {parts : List (List Char)} : Through fs seen names.dropLast parts r →
    Through fs seen names (['.', '.'] :: parts) r
  | name {names r : List String} {part : List Char} {parts : List (List Char)} :
    Path.isName part = true → part ≠ ['.', '.'] →
    fs.linkAt? (names ++ [String.ofList part]) = none →
    Through fs seen (names ++ [String.ofList part]) parts r → Through fs seen names (part :: parts) r
  | link {names r known : List String} {part : List Char} {parts : List (List Char)}
      {target : String} : Path.isName part = true → part ≠ ['.', '.'] →
    fs.linkAt? (names ++ [String.ofList part]) = some target →
    seen.lookup (names ++ [String.ofList part]) = some (some known) →
    Through fs seen known parts r → Through fs seen names (part :: parts) r

/-- What is known of each link can be found out again from what is known. -/
def Seen.Closed (fs : FileSystem) (seen : Seen) : Prop :=
  ∀ names part target known, fs.linkAt? (names ++ [String.ofList part]) = some target →
    seen.lookup (names ++ [String.ofList part]) = some (some known) →
      Through fs seen (startOf names target) (Path.segments target.toList) known

/-- What was known or being found out still is. -/
structure Seen.Grown (seen seen' : Seen) : Prop where
  known : ∀ names known, seen.lookup names = some (some known) →
    seen'.lookup names = some (some known)
  pending : ∀ names, seen.lookup names = some none → seen'.lookup names = some none

variable {fs : FileSystem} {seen seen' inner : Seen} {names next known r : List String}
  {part : List Char} {parts parts' : List (List Char)} {target : String}

theorem Seen.Grown.refl (seen : Seen) : seen.Grown seen := ⟨fun _ _ h => h, fun _ h => h⟩

theorem Seen.Grown.trans {seen'' : Seen} (h : seen.Grown seen') (h' : seen'.Grown seen'') :
    seen.Grown seen'' :=
  ⟨fun names known hknown => h'.known names known (h.known names known hknown),
    fun names hpending => h'.pending names (h.pending names hpending)⟩

/-! ### Looking a link up -/

theorem Seen.lookup_cons_self (seen : Seen) (next : List String) (answer : Option (List String)) :
    List.lookup next ((next, answer) :: seen) = some answer := by
  rw [List.lookup_cons, beq_self_eq_true]

theorem Seen.lookup_cons_of_ne (seen : Seen) (answer : Option (List String)) (h : names ≠ next) :
    List.lookup names ((next, answer) :: seen) = seen.lookup names := by
  rw [List.lookup_cons, beq_false_of_ne h]

/-- Whatever comes to be known of a link that nothing was known of, nothing is forgotten. -/
theorem Seen.Grown.cons (h : seen.lookup next = none) (answer : Option (List String)) :
    seen.Grown ((next, answer) :: seen) := by
  have hne : ∀ {names : List String} {found : Option (List String)},
      seen.lookup names = some found → names ≠ next := by
    rintro names found hfound rfl
    rw [h] at hfound
    cases hfound
  refine ⟨fun names known hknown => ?_, fun names hpending => ?_⟩
  · rwa [lookup_cons_of_ne _ _ (hne hknown)]
  · rwa [lookup_cons_of_ne _ _ (hne hpending)]

/-- While a link was being found out other links were. -/
theorem Seen.Grown.settled (h : seen.lookup next = none)
    (hinner : Seen.Grown ((next, none) :: seen) inner) (answer : Option (List String)) :
    seen.Grown ((next, answer) :: inner) := by
  have hne : ∀ {names : List String} {found : Option (List String)},
      seen.lookup names = some found → names ≠ next := by
    rintro names found hfound rfl
    rw [h] at hfound
    cases hfound
  have hgrown := (Grown.cons h none).trans hinner
  refine ⟨fun names known hknown => ?_, fun names hpending => ?_⟩
  · rw [lookup_cons_of_ne _ _ (hne hknown)]
    exact hgrown.known names known hknown
  · rw [lookup_cons_of_ne _ _ (hne hpending)]
    exact hgrown.pending names hpending

/-! ### Known links -/

/-- Who knows more finds the same way. -/
theorem Through.grown (h : Through fs seen names parts r)
    (hknown : ∀ names known, seen.lookup names = some (some known) →
      seen'.lookup names = some (some known)) : Through fs seen' names parts r := by
  induction h with
  | nil names => exact .nil names
  | skip hname _ ih => exact .skip hname ih
  | up _ ih => exact .up ih
  | name hname hdots hlink _ ih => exact .name hname hdots hlink ih
  | link hname hdots hlink hlookup _ ih => exact .link hname hdots hlink (hknown _ _ hlookup) ih

/-- A link that is known leads on at once. -/
theorem resolveLinks_known (hname : Path.isName part = true) (hdots : part ≠ ['.', '.'])
    (hlink : fs.linkAt? (names ++ [String.ofList part]) = some target)
    (hknown : seen.lookup (names ++ [String.ofList part]) = some (some known)) (fuel : Nat) :
    fs.resolveLinks fuel names (part :: parts) seen = fs.resolveLinks fuel known parts seen := by
  rw [resolveLinks]
  simp only [hname, hdots, hlink, hknown, Bool.not_true, Bool.false_eq_true, if_false]

/-- One that nothing is known of is followed first. -/
theorem resolveLinks_follow {fuel : Nat} {found : Resolved} (hname : Path.isName part = true)
    (hdots : part ≠ ['.', '.']) (hlink : fs.linkAt? (names ++ [String.ofList part]) = some target)
    (hnone : seen.lookup (names ++ [String.ofList part]) = none)
    (hfound : fs.resolveLinks fuel (startOf names target) (Path.segments target.toList)
      ((names ++ [String.ofList part], none) :: seen) = (found, inner))
    (hend : found.complete = true) :
    fs.resolveLinks (fuel + 1) names (part :: parts) seen =
      fs.resolveLinks (fuel + 1) found.path.names parts
        ((names ++ [String.ofList part], some found.path.names) :: inner) := by
  rw [startOf] at hfound
  rw [resolveLinks]
  simp only [hname, hdots, hlink, hnone, hfound, hend, Bool.not_true, Bool.false_eq_true, if_false,
    if_true]

/-- Known links are not followed again, so nothing more is found out. -/
theorem resolveLinks_of_through (h : Through fs seen names parts r) (fuel : Nat) :
    fs.resolveLinks fuel names parts seen = (⟨⟨.root, r⟩, true⟩, seen) := by
  have hup : Path.isName ['.', '.'] = true := rfl
  induction h with
  | nil names => exact resolveLinks_nil fs fuel names seen
  | skip hname _ ih =>
    rw [resolveLinks]
    simpa only [hname, Bool.not_false, if_true] using ih
  | up _ ih =>
    rw [resolveLinks]
    simpa only [hup, Bool.not_true, Bool.false_eq_true, if_false, if_true] using ih
  | name hname hdots hlink _ ih =>
    rw [resolveLinks]
    simpa only [hname, hdots, hlink, Bool.not_true, Bool.false_eq_true, if_false] using ih
  | link hname hdots hlink hlookup _ ih =>
    exact (resolveLinks_known hname hdots hlink hlookup fuel).trans ih

/-- Names without links lead to themselves. -/
theorem Clear.through {pre : List String} (h : fs.Clear (pre ++ names)) (hnames : Path.Named names) :
    Through fs seen pre (names.map String.toList) (pre ++ names) := by
  induction names generalizing pre with
  | nil =>
    rw [List.append_nil]
    exact .nil pre
  | cons name rest ih =>
    have hsplit : pre ++ name :: rest = (pre ++ [name]) ++ rest := by simp
    have hlink : fs.linkAt? (pre ++ [name]) = none := by
      refine h.links _ ?_
      rw [hsplit]
      exact List.prefix_append _ _
    have hdots : name.toList ≠ ['.', '.'] := by
      intro hdots
      have hname : name = ".." := String.toList_inj.1 hdots
      exact h.upwards (by simp [hname])
    rw [List.map_cons]
    refine .name (hnames name (.head _)).1 hdots ?_ ?_
    · rwa [String.ofList_toList]
    · rw [String.ofList_toList, hsplit]
      exact ih (hsplit ▸ h) fun n hn => hnames n (.tail _ hn)

/-! ### What a resolution finds out -/

theorem resolveLinks_grown (fs : FileSystem) (fuel : Nat) (names : List String)
    (parts : List (List Char)) (seen : Seen) :
    seen.Grown (fs.resolveLinks fuel names parts seen).2 := by
  fun_induction resolveLinks fs fuel names parts seen with
  | case1 | case6 | case7 => exact .refl _
  | case2 _ _ _ _ _ _ ih | case3 _ _ _ _ _ ih | case4 _ _ _ _ _ _ _ _ _ ih
  | case5 _ _ _ _ _ _ _ _ _ _ _ _ ih => exact ih
  | case8 _ _ _ _ _ _ _ _ _ _ hnone _ inner seen' hinner _ ih ih' =>
    rw [hinner] at ih
    exact (Seen.Grown.settled hnone ih _).trans ih'
  | case9 _ _ _ _ _ _ _ _ _ _ hnone _ inner seen' hinner _ ih =>
    rw [hinner] at ih
    exact (Seen.Grown.cons hnone none).trans ih

/-- A resolution that came to its end: each link on the way is known then, all that is known can be
found out again from it, and nothing more is being found out than before. -/
structure Closes (fs : FileSystem) (names : List String) (parts : List (List Char)) (seen : Seen)
    (path : Path) (seen' : Seen) : Prop where
  through : Through fs seen' names parts path.names
  closed : seen'.Closed fs
  pending : ∀ names, seen'.lookup names = some none → seen.lookup names = some none

/-- While a link is being found out, what is known is as closed as before. -/
theorem Seen.Closed.cons_pending (h : seen.Closed fs) (hnone : seen.lookup next = none) :
    Seen.Closed fs ((next, none) :: seen) := by
  intro names part target known htarget hknown
  by_cases hnext : names ++ [String.ofList part] = next
  · rw [hnext, lookup_cons_self] at hknown
    cases hknown
  · rw [lookup_cons_of_ne _ _ hnext] at hknown
    exact (h names part target known htarget hknown).grown (Grown.cons hnone none).known

/-- What has been found out of a link can be found out again. -/
theorem Seen.Closed.cons_known (h : inner.Closed fs)
    (hpending : inner.lookup (names ++ [String.ofList part]) = some none)
    (htarget : fs.linkAt? (names ++ [String.ofList part]) = some target)
    (hthrough : Through fs inner (startOf names target) (Path.segments target.toList) known) :
    Seen.Closed fs ((names ++ [String.ofList part], some known) :: inner) := by
  have hgrown : ∀ names' known', inner.lookup names' = some (some known') →
      List.lookup names' ((names ++ [String.ofList part], some known) :: inner) =
        some (some known') := by
    intro names' known' hknown'
    have hne : names' ≠ names ++ [String.ofList part] := by
      rintro rfl
      rw [hpending] at hknown'
      cases hknown'
    rwa [lookup_cons_of_ne _ _ hne]
  intro names' part' target' known' htarget' hknown'
  by_cases hnext : names' ++ [String.ofList part'] = names ++ [String.ofList part]
  · -- the link itself
    obtain ⟨rfl, hpart⟩ := List.append_inj' hnext rfl
    rw [hnext, lookup_cons_self] at hknown'
    cases hknown'
    rw [hnext, htarget] at htarget'
    cases htarget'
    exact hthrough.grown hgrown
  · rw [lookup_cons_of_ne _ _ hnext] at hknown'
    exact (h names' part' target' known' htarget' hknown').grown hgrown

/-- **A resolution that comes to its end** has found out all that it went through. -/
theorem resolveLinks_closes (fs : FileSystem) (fuel : Nat) (names : List String)
    (parts : List (List Char)) (seen : Seen) (hseen : seen.Closed fs)
    (hcomplete : (fs.resolveLinks fuel names parts seen).1.complete = true) :
    Closes fs names parts seen (fs.resolveLinks fuel names parts seen).1.path
      (fs.resolveLinks fuel names parts seen).2 := by
  fun_induction resolveLinks fs fuel names parts seen with
  | case1 _ names seen => exact ⟨.nil names, hseen, fun _ h => h⟩
  | case2 _ _ _ part parts hname ih =>
    obtain ⟨hthrough, hclosed, hpending⟩ := ih hseen hcomplete
    exact ⟨.skip (by simpa using hname) hthrough, hclosed, hpending⟩
  | case3 _ _ _ parts _ ih =>
    obtain ⟨hthrough, hclosed, hpending⟩ := ih hseen hcomplete
    exact ⟨.up hthrough, hclosed, hpending⟩
  | case4 _ _ _ part parts hname hdots next hlink ih =>
    obtain ⟨hthrough, hclosed, hpending⟩ := ih hseen hcomplete
    exact ⟨.name (by simpa using hname) hdots hlink hthrough, hclosed, hpending⟩
  | case5 names part parts seen hname hdots next target hlink known fuel hlookup ih =>
    obtain ⟨hthrough, hclosed, hpending⟩ := ih hseen hcomplete
    have hknown := (resolveLinks_grown fs fuel known parts seen).known next known hlookup
    exact ⟨.link (by simpa using hname) hdots hlink hknown hthrough, hclosed, hpending⟩
  | case6 | case7 => cases hcomplete
  | case8 names part parts seen hname hdots next target hlink fuel hnone start inner seen' hinner hend
      ih ih' =>
    -- the link has been followed: it is known from then on, and the rest is resolved behind it
    rw [hinner] at ih
    obtain ⟨hfollowed, hclosed, hpending⟩ := ih (hseen.cons_pending hnone) hend
    have hgrown := resolveLinks_grown fs fuel start (Path.segments target.toList)
      ((next, none) :: seen)
    rw [hinner] at hgrown
    have hnext := hgrown.pending next (Seen.lookup_cons_self seen next none)
    have hrest := ih' (hclosed.cons_known hnext hlink hfollowed) hcomplete
    have hknown := (resolveLinks_grown fs (fuel + 1) inner.path.names parts
      ((next, some inner.path.names) :: seen')).known next _ (Seen.lookup_cons_self seen' next _)
    refine ⟨.link (by simpa using hname) hdots hlink hknown hrest.through, hrest.closed, ?_⟩
    intro names' hnames'
    have hthen := hrest.pending names' hnames'
    have hne : names' ≠ next := by
      rintro rfl
      rw [Seen.lookup_cons_self] at hthen
      cases hthen
    rw [Seen.lookup_cons_of_ne _ _ hne] at hthen
    have hbefore := hpending names' hthen
    rwa [Seen.lookup_cons_of_ne _ _ hne] at hbefore
  | case9 => simp_all

/-! ### Knowing more -/

/-- What is known to one resolution is known to another one, which has found it out by itself and is
not in the middle of more than the first one is. -/
structure Covers (fs : FileSystem) (seen seen' : Seen) : Prop where
  known : ∀ names known, seen.lookup names = some (some known) →
    seen'.lookup names = some (some known)
  pending : ∀ names, seen'.lookup names = some none → seen.lookup names = some none
  closed : seen'.Closed fs

variable {seen₁ seen₁' : Seen} {answer : Option (List String)}

/-- Being in the middle of a link is not to know it. -/
theorem Covers.entered (h : Covers fs seen seen') (next : List String) :
    Covers fs ((next, none) :: seen) seen' := by
  refine ⟨fun names known hknown => ?_, fun names hpending => ?_, h.closed⟩
  · by_cases hnames : names = next
    · rw [hnames, Seen.lookup_cons_self] at hknown
      cases hknown
    · rw [Seen.lookup_cons_of_ne _ _ hnames] at hknown
      exact h.known names known hknown
  · by_cases hnames : names = next
    · rw [hnames, Seen.lookup_cons_self]
    · rw [Seen.lookup_cons_of_ne _ _ hnames]
      exact h.pending names hpending

/-- What is known already needs no finding out. -/
theorem Covers.learnt (h : Covers fs seen seen') (hknown : seen'.lookup next = some (some known)) :
    Covers fs ((next, some known) :: seen) seen' := by
  refine ⟨fun names found hfound => ?_, fun names hpending => ?_, h.closed⟩
  · by_cases hnames : names = next
    · rw [hnames, Seen.lookup_cons_self] at hfound
      cases hfound
      rwa [hnames]
    · rw [Seen.lookup_cons_of_ne _ _ hnames] at hfound
      exact h.known names found hfound
  · have hnames : names ≠ next := by
      rintro rfl
      rw [hknown] at hpending
      cases hpending
    rw [Seen.lookup_cons_of_ne _ _ hnames]
    exact h.pending names hpending

/-- The same comes to be known to both. -/
theorem Covers.cons (h : Covers fs seen seen') (hclosed : Seen.Closed fs ((next, answer) :: seen')) :
    Covers fs ((next, answer) :: seen) ((next, answer) :: seen') := by
  refine ⟨fun names known hknown => ?_, fun names hpending => ?_, hclosed⟩
  all_goals by_cases hnames : names = next
  · rwa [hnames, Seen.lookup_cons_self] at hknown ⊢
  · rw [Seen.lookup_cons_of_ne _ _ hnames] at hknown ⊢
    exact h.known names known hknown
  · rwa [hnames, Seen.lookup_cons_self] at hpending ⊢
  · rw [Seen.lookup_cons_of_ne _ _ hnames] at hpending ⊢
    exact h.pending names hpending

/-- **Whoever knows more of the links** comes to the same. -/
theorem resolveLinks_covered (fs : FileSystem) (fuel : Nat) (names : List String)
    (parts : List (List Char)) (seen seen' : Seen) (hcovers : Covers fs seen seen')
    (hcomplete : (fs.resolveLinks fuel names parts seen).1.complete = true) :
    (fs.resolveLinks fuel names parts seen').1 = (fs.resolveLinks fuel names parts seen).1 ∧
      Covers fs (fs.resolveLinks fuel names parts seen).2
        (fs.resolveLinks fuel names parts seen').2 := by
  fun_induction resolveLinks fs fuel names parts seen generalizing seen' with
  | case1 fuel names seen =>
    rw [resolveLinks_nil]
    exact ⟨rfl, hcovers⟩
  | case2 fuel names seen part parts hname ih =>
    rw [resolveLinks, if_pos hname]
    exact ih seen' hcovers hcomplete
  | case3 fuel names seen parts hname ih =>
    rw [resolveLinks, if_neg hname, if_pos rfl]
    exact ih seen' hcovers hcomplete
  | case4 fuel names seen part parts hname hdots next hlink ih =>
    rw [resolveLinks, if_neg hname, if_neg hdots]
    simp only [next] at hlink
    simp only [hlink]
    exact ih seen' hcovers hcomplete
  | case5 names part parts seen hname hdots next target hlink known fuel hlookup ih =>
    have hknown := hcovers.known next known hlookup
    rw [resolveLinks_known (by simpa using hname) hdots hlink hknown]
    exact ih seen' hcovers hcomplete
  | case6 | case7 => cases hcomplete
  | case8 names part parts seen hname hdots next target hlink fuel hnone start inner seen₁ hinner hend
      ih ih' =>
    have hisName : Path.isName part = true := by simpa using hname
    rw [hinner] at ih
    rcases hlookup : seen'.lookup next with _ | _ | known
    · -- nothing is known of the link to either of them, so both follow it
      have hpending := hcovers.closed.cons_pending hlookup
      obtain ⟨hsame, hcovers₁⟩ := ih ((next, none) :: seen') (hcovers.cons hpending) hend
      generalize hinner' : fs.resolveLinks fuel start (Path.segments target.toList)
        ((next, none) :: seen') = r at hsame hcovers₁
      obtain ⟨inner', seen₁'⟩ := r
      obtain rfl : inner' = inner := hsame
      have hcloses := resolveLinks_closes fs fuel start (Path.segments target.toList)
        ((next, none) :: seen') hpending
      have hgrown := resolveLinks_grown fs fuel start (Path.segments target.toList)
        ((next, none) :: seen')
      rw [hinner'] at hcloses hgrown
      have hnext := hgrown.pending next (Seen.lookup_cons_self seen' next none)
      have hknown := hcovers₁.closed.cons_known hnext hlink (hcloses hend).through
      rw [resolveLinks_follow hisName hdots hlink hlookup hinner' hend]
      exact ih' _ (hcovers₁.cons hknown) hcomplete
    · -- whoever knows more would be in the middle of more
      have hpending := hcovers.pending next hlookup
      rw [hnone] at hpending
      cases hpending
    · -- what is known of the link is what it leads to
      have hthrough := hcovers.closed names part target known hlink hlookup
      obtain ⟨hsame, hcovers₁⟩ := ih seen' (hcovers.entered next) hend
      have hfollowed : fs.resolveLinks fuel start (Path.segments target.toList) seen' = _ :=
        resolveLinks_of_through hthrough fuel
      rw [hfollowed] at hsame hcovers₁
      obtain rfl : ⟨⟨.root, known⟩, true⟩ = inner := hsame
      rw [resolveLinks_known hisName hdots hlink hlookup]
      exact ih' seen' (hcovers₁.learnt hlookup) hcomplete
  | case9 => simp_all

/-- **A path can be resolved in two parts.** -/
theorem resolveLinks_append (fs : FileSystem) (fuel : Nat) (names : List String)
    (parts parts' : List (List Char)) (seen : Seen)
    (hcomplete : (fs.resolveLinks fuel names parts seen).1.complete = true) :
    fs.resolveLinks fuel names (parts ++ parts') seen =
      fs.resolveLinks fuel (fs.resolveLinks fuel names parts seen).1.path.names parts'
        (fs.resolveLinks fuel names parts seen).2 := by
  fun_induction resolveLinks fs fuel names parts seen with
  | case1 => rfl
  | case2 _ _ _ _ _ hname ih =>
    rw [List.cons_append, resolveLinks, if_pos hname]
    exact ih hcomplete
  | case3 _ _ _ _ hname ih =>
    rw [List.cons_append, resolveLinks, if_neg hname, if_pos rfl]
    exact ih hcomplete
  | case4 _ _ _ _ _ hname hdots next hlink ih =>
    rw [List.cons_append, resolveLinks, if_neg hname, if_neg hdots]
    simp only [next] at hlink
    simp only [hlink]
    exact ih hcomplete
  | case5 _ _ _ _ hname hdots next _ hlink known _ hlookup ih =>
    rw [List.cons_append, resolveLinks_known (by simpa using hname) hdots hlink hlookup]
    exact ih hcomplete
  | case6 | case7 => cases hcomplete
  | case8 _ _ _ _ hname hdots next _ hlink _ hnone _ _ _ hinner hend _ ih' =>
    rw [List.cons_append, resolveLinks_follow (by simpa using hname) hdots hlink hnone hinner hend]
    exact ih' hcomplete
  | case9 => simp_all

end LineShell.FileSystem
