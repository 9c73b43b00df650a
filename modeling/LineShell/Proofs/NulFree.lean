import LineShell.Host.Answer
import LineShell.Session

namespace LineShell

/-!
# Paths without a NUL

The system takes a NUL for the end of a text, so a path with one in it is refused before anybody
looks for it.

* `Session.NulFree` — a session whose working directory and home have no NUL;
* `Session.NulFree.resolve` — what an operand without a NUL names from there has none either.
-/

/-- The character that ends a text of the system. -/
abbrev nul : Char := '\x00'

namespace Path

variable {cs part : List Char} {c : Char} {names : List String} {base p : Path}

/-- What stands in a part of a text stands in the text. -/
theorem mem_of_mem_segments (hpart : part ∈ segments cs) (hc : c ∈ part) : c ∈ cs := by
  induction cs generalizing part with
  | nil => simp_all [segments]
  | cons d cs ih =>
    rw [segments] at hpart
    split at hpart
    · rcases List.mem_cons.1 hpart with rfl | hpart
      · cases hc
      · exact .tail d (ih hpart hc)
    · split at hpart
      · rw [List.mem_singleton.1 hpart, List.mem_singleton] at hc
        exact hc ▸ .head cs
      · rename_i first rest hsegments
        rcases List.mem_cons.1 hpart with rfl | hpart
        · rcases List.mem_cons.1 hc with rfl | hc
          · exact .head cs
          · exact .tail d (ih (by rw [hsegments]; exact .head rest) hc)
        · exact .tail d (ih (by rw [hsegments]; exact .tail first hpart) hc)

/-- None of some names has a NUL. -/
def NulFree (names : List String) : Prop := ∀ name ∈ names, nul ∉ name.toList

theorem nulFree_nil : NulFree [] := by simp [NulFree]

theorem nulFree_namesOf (h : nul ∉ cs) : NulFree (namesOf cs) := by
  intro name hname hnul
  obtain ⟨part, hpart, rfl⟩ := List.mem_map.1 hname
  rw [String.toList_ofList] at hnul
  exact h (mem_of_mem_segments (List.mem_filter.1 hpart).1 hnul)

theorem nulFree_join (hbase : NulFree base.names) (hp : NulFree p.names) :
    NulFree (base.join p).names := by
  unfold join
  split
  · exact hp
  · exact fun name hname => (List.mem_append.1 hname).elim (hbase name) (hp name)

theorem nul_not_mem_intercalate (h : NulFree names) : nul ∉ ("/".intercalate names).toList := by
  induction names with
  | nil => simp
  | cons name names ih =>
    have hname := h name List.mem_cons_self
    have hrest := ih fun n hn => h n (List.mem_cons_of_mem name hn)
    cases names with
    | nil => simpa using hname
    | cons next names =>
      rw [String.intercalate_cons_cons, String.toList_append, String.toList_append]
      have hslash : nul ≠ '/' := by decide
      simpa [hname, hslash] using hrest

theorem hasNul_toString (h : NulFree p.names) : Host.Machine.hasNul p.toString = false := by
  have hanchor : nul ∉ (anchorText p.anchor).toList := by
    cases p.anchor <;> decide
  have hmem : nul ∉ p.toString.toList := by
    rw [Path.toString]
    split
    · decide
    · rw [String.toList_append, List.mem_append, not_or]
      exact ⟨hanchor, nul_not_mem_intercalate h⟩
  simpa [Host.Machine.hasNul] using hmem

end Path

namespace Session

/-- Neither the working directory nor the home directory has a NUL in its path. -/
structure NulFree (s : Session) : Prop where
  cwd : Path.NulFree s.cwd.names
  home : nul ∉ s.home.toList

variable {s : Session} {operand : String}

theorem NulFree.expandHome (h : s.NulFree) (hoperand : nul ∉ operand.toList) :
    nul ∉ (s.expandHome operand).toList := by
  unfold Session.expandHome
  split
  · rename_i rest hrest
    rw [hrest] at hoperand
    rw [String.toList_append, String.toList_ofList, List.mem_append, not_or]
    exact ⟨h.home, fun hmem => hoperand (.tail _ hmem)⟩
  · exact hoperand

/-- What an operand without a NUL names has none. -/
theorem NulFree.resolve (h : s.NulFree) (hoperand : nul ∉ operand.toList) :
    Host.Machine.hasNul (s.resolve operand).toString = false :=
  Path.hasNul_toString (Path.nulFree_join h.cwd (Path.nulFree_namesOf (h.expandHome hoperand)))

end Session

end LineShell
