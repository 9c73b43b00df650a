import Mathlib
import LineShell.Host.Pipe

namespace LineShell

open Text (Bytes)

/-!
# Decoding line by line

A newline is a character of its own wherever it stands: no sequence of several bytes goes on with it,
and none is cut in two where a text is cut behind a newline. A byte sequence that is cut off by a newline
is a gap whatever comes behind the newline.

* `Text.continuation_newline` — the rest of a sequence ends before a newline;
* `Text.decode_newline` — the characters before a newline, and those behind it;
* `Pipe.decodeLossy_firstLine` — the text of some bytes is that of their first line, and that of the
  others.
-/

namespace Text

/-- No byte that a sequence goes on with is a newline. -/
theorem Lead.low_of_ofByte? {b : UInt8} {lead : Lead} (h : Lead.ofByte? b = some lead) :
    0x80 ≤ lead.low := by
  unfold Lead.ofByte? at h
  split at h
  · cases h
  · split at h
    · cases h
      exact UInt8.le_refl _
    · split at h
      · cases h
        show 0x80 ≤ if b = 0xE0 then (0xA0 : UInt8) else 0x80
        split <;> decide
      · split at h
        · cases h
          show 0x80 ≤ if b = 0xF0 then (0x90 : UInt8) else 0x80
          split <;> decide
        · cases h

/-- **The rest of a sequence** ends before a newline, whatever comes behind that. -/
theorem continuation_newline {low : UInt8} (hlow : 0x80 ≤ low) (n : Nat) (high : UInt8) (bits : Nat)
    (bs : Bytes) : ∃ code left, left.length ≤ bs.length ∧ ∀ rest,
      continuation n low high bits (bs ++ Pipe.newline :: rest) =
        (code, left ++ Pipe.newline :: rest) := by
  induction n generalizing low high bits bs with
  | zero => exact ⟨some bits, bs, Nat.le_refl _, fun _ => rfl⟩
  | succ n ih =>
    cases bs with
    | nil =>
      refine ⟨none, [], Nat.le_refl _, fun rest => ?_⟩
      have hnewline : ¬ (low ≤ Pipe.newline ∧ Pipe.newline ≤ high) := by
        intro h
        have hle : (0x80 : UInt8) ≤ Pipe.newline := UInt8.le_trans hlow h.1
        exact absurd hle (by decide)
      rw [List.nil_append, continuation, if_neg hnewline]
    | cons b bs =>
      by_cases hrange : low ≤ b ∧ b ≤ high
      · -- the byte fits, and the sequence goes on behind it
        obtain ⟨code, left, hle, hrest⟩ := ih (UInt8.le_refl 0x80) 0xBF (bits * 64 + b.toNat % 64) bs
        refine ⟨code, left, Nat.le_succ_of_le hle, fun rest => ?_⟩
        rw [List.cons_append, continuation, if_pos hrange]
        exact hrest rest
      · refine ⟨none, b :: bs, Nat.le_refl _, fun rest => ?_⟩
        rw [List.cons_append, continuation, if_neg hrange]

theorem decode_cons_ascii {b : UInt8} (hb : b < 0x80) (bs : Bytes) :
    decode (b :: bs) = some (Char.ofNat b.toNat) :: decode bs := by
  rw [decode, if_pos hb]

theorem decode_cons_invalid {b : UInt8} (hb : ¬ b < 0x80) (hlead : Lead.ofByte? b = none) (bs : Bytes) :
    decode (b :: bs) = none :: decode bs := by
  rw [decode, if_neg hb, hlead]

theorem decode_cons_lead {b : UInt8} {lead : Lead} (hb : ¬ b < 0x80)
    (hlead : Lead.ofByte? b = some lead) (bs : Bytes) :
    decode (b :: bs) =
      (continuation lead.count lead.low lead.high lead.bits bs).1.map Char.ofNat ::
        decode (continuation lead.count lead.low lead.high lead.bits bs).2 := by
  rw [decode, if_neg hb, hlead]

/-- **Text is decoded line by line.** What stands behind a newline changes nothing of what stands before
it, and the other way round. -/
theorem decode_newline (bs rest : Bytes) :
    decode (bs ++ Pipe.newline :: rest) = decode (bs ++ [Pipe.newline]) ++ decode rest := by
  -- on the number of bytes before the newline: one character or gap of them is read at a time
  induction hlength : bs.length using Nat.strongRecOn generalizing bs with
  | _ n ih =>
    subst hlength
    have hnewline : Pipe.newline < 0x80 := by decide
    cases bs with
    | nil =>
      rw [List.nil_append, List.nil_append, decode_cons_ascii hnewline, decode_cons_ascii hnewline,
        decode_nil]
      rfl
    | cons b bs =>
      rw [List.cons_append, List.cons_append]
      by_cases hascii : b < 0x80
      · rw [decode_cons_ascii hascii, decode_cons_ascii hascii, ih bs.length (Nat.lt_succ_self _) bs rfl]
        rfl
      · cases hlead : Lead.ofByte? b with
        | none =>
          rw [decode_cons_invalid hascii hlead, decode_cons_invalid hascii hlead,
            ih bs.length (Nat.lt_succ_self _) bs rfl]
          rfl
        | some lead =>
          obtain ⟨code, left, hle, hrest⟩ :=
            continuation_newline (Lead.low_of_ofByte? hlead) lead.count lead.high lead.bits bs
          rw [decode_cons_lead hascii hlead, decode_cons_lead hascii hlead, hrest, hrest,
            ih left.length (Nat.lt_succ_of_le hle) left rfl]
          rfl

theorem decodeLossy_nil : decodeLossy [] = "" := by
  unfold decodeLossy
  rw [decode_nil]
  rfl

theorem decodeLossy_newline (bs rest : Bytes) :
    decodeLossy (bs ++ Pipe.newline :: rest) =
      decodeLossy (bs ++ [Pipe.newline]) ++ decodeLossy rest := by
  unfold decodeLossy
  rw [decode_newline, List.map_append, String.ofList_append]

end Text

namespace Pipe

variable {bs : Bytes}

/-- The first line of some bytes ends in the only newline of it, or there is no other line. -/
theorem firstLine_cases (bs : Bytes) :
    (∃ before rest, bs = before ++ newline :: rest ∧ firstLine bs = (before ++ [newline], rest)) ∨
      firstLine bs = (bs, []) := by
  have hsplit := List.takeWhile_append_dropWhile (p := (· != newline)) (l := bs)
  unfold firstLine
  cases hdrop : bs.dropWhile (· != newline) with
  | nil => exact .inr rfl
  | cons b rest =>
    have hb : b = newline := by
      have hne : bs.dropWhile (· != newline) ≠ [] := by
        rw [hdrop]
        exact List.cons_ne_nil _ _
      have hhead := List.head_dropWhile_not (· != newline) hne
      simpa [hdrop] using hhead
    subst hb
    rw [hdrop] at hsplit
    exact .inl ⟨_, rest, hsplit.symm, rfl⟩

/-- The first line of something is something, so there is less of it behind that. -/
theorem firstLine_ne_nil (h : bs ≠ []) :
    (firstLine bs).1 ≠ [] ∧ (firstLine bs).2.length < bs.length := by
  rcases firstLine_cases bs with ⟨before, rest, hbs, hline⟩ | hline
  · rw [hline, hbs]
    simp
    omega
  · rw [hline]
    exact ⟨h, List.length_pos_iff.2 h⟩

/-- **The text of some bytes** is that of their first line with that of the others behind it. -/
theorem decodeLossy_firstLine (bs : Bytes) :
    Text.decodeLossy bs =
      Text.decodeLossy (firstLine bs).1 ++ Text.decodeLossy (firstLine bs).2 := by
  rcases firstLine_cases bs with ⟨before, rest, hbs, hline⟩ | hline
  · rw [hline, hbs]
    exact Text.decodeLossy_newline before rest
  · rw [hline]
    show Text.decodeLossy bs = Text.decodeLossy bs ++ Text.decodeLossy []
    rw [Text.decodeLossy_nil, String.append_empty]

end Pipe

end LineShell
