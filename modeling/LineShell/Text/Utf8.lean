namespace LineShell.Text

/-!
# UTF-8

* `Bytes`, `encode` — the bytes of a text;
* `decode` — the characters of a byte string, each maximal ill-formed part as one gap;
* `decodeLossy` — the text with U+FFFD in every gap; `decode?` — the text, if there is no gap.
-/

/-- A string of bytes. -/
abbrev Bytes := List UInt8

/-- The bytes of a text. -/
def encode (s : String) : Bytes := s.toList.flatMap String.utf8EncodeChar

/-- How a sequence of several bytes starts: how many bytes follow, the range of the next one, and
the bits of the character known so far. -/
structure Lead where
  count : Nat
  low : UInt8
  high : UInt8
  bits : Nat

/-- What a byte that is not ASCII begins. Overlong forms, surrogates and values above U+10FFFF are
excluded by the range of the second byte. -/
def Lead.ofByte? (b : UInt8) : Option Lead :=
  if b < 0xC2 then none
  else if b < 0xE0 then some ⟨1, 0x80, 0xBF, b.toNat - 0xC0⟩
  else if b < 0xF0 then
    some ⟨2, if b = 0xE0 then 0xA0 else 0x80, if b = 0xED then 0x9F else 0xBF, b.toNat - 0xE0⟩
  else if b < 0xF5 then
    some ⟨3, if b = 0xF0 then 0x90 else 0x80, if b = 0xF4 then 0x8F else 0xBF, b.toNat - 0xF0⟩
  else none

/-- Reads the rest of a sequence: the character's number, or `none` at the first byte that does
not fit, and the bytes that are left. -/
def continuation : Nat → UInt8 → UInt8 → Nat → Bytes → Option Nat × Bytes
  | 0, _, _, bits, bs => (some bits, bs)
  | _ + 1, _, _, _, [] => (none, [])
  | n + 1, low, high, bits, b :: bs =>
    if low ≤ b ∧ b ≤ high then continuation n 0x80 0xBF (bits * 64 + b.toNat % 64) bs
    else (none, b :: bs)

/-- No byte is read twice. -/
theorem length_continuation_le (n : Nat) (low high : UInt8) (bits : Nat) (bs : Bytes) :
    (continuation n low high bits bs).2.length ≤ bs.length := by
  induction n generalizing low high bits bs with
  | zero => simp [continuation]
  | succ n ih =>
    cases bs with
    | nil => simp [continuation]
    | cons b bs =>
      simp only [continuation]
      split
      · exact Nat.le_succ_of_le (ih ..)
      · exact Nat.le_refl _

/-- The characters of a byte string; `none` stands for one maximal ill-formed part. -/
def decode : Bytes → List (Option Char)
  | [] => []
  | b :: bs =>
    if b < 0x80 then some (Char.ofNat b.toNat) :: decode bs
    else match Lead.ofByte? b with
      | none => none :: decode bs
      | some lead =>
        let rest := continuation lead.count lead.low lead.high lead.bits bs
        rest.1.map Char.ofNat :: decode rest.2
termination_by bs => bs.length
decreasing_by
  · exact Nat.lt_succ_self _
  · exact Nat.lt_succ_self _
  · exact Nat.lt_succ_of_le (length_continuation_le ..)

/-- The text of a byte string, with U+FFFD in place of every ill-formed part. -/
def decodeLossy (bs : Bytes) : String :=
  String.ofList ((decode bs).map (·.getD (Char.ofNat 0xFFFD)))

/-- The text of a byte string, if it is well-formed. -/
def decode? (bs : Bytes) : Option String :=
  let cs := decode bs
  if cs.all Option.isSome then some (String.ofList (cs.filterMap id)) else none

@[simp] theorem encode_empty : encode "" = [] := rfl

@[simp] theorem decode_nil : decode [] = [] := by simp [decode]

theorem encode_append (s t : String) : encode (s ++ t) = encode s ++ encode t := by
  simp [encode]

end LineShell.Text
