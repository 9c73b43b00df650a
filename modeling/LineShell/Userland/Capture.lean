import LineShell.Userland.Program

namespace LineShell.Userland

open Text (Bytes)

/-!
# Programs within programs

* `Program.collected` — a program whose standard output is its result;
* `Program.fed` — a program for which some bytes are behind a descriptor.
-/

namespace Program

variable {α : Type}

/-- A program whose standard output is collected behind what was collected before, with its
status. -/
def collected : Program Int → List Bytes → Program (Bytes × Int)
  | done status, parts => done (parts.reverse.flatten, status)
  | exit status, parts => done (parts.reverse.flatten, status)
  | read fd limit next, parts => read fd limit fun r => (next r).collected parts
  | write fd bytes next, parts =>
    if fd = 1 then (next none).collected (bytes :: parts)
    else write fd bytes fun r => (next r).collected parts
  | openFile fd path mode next, parts =>
    openFile fd path mode fun r => (next r).collected parts
  | close fd next, parts => close fd fun r => (next r).collected parts
  | giveBack fd count next, parts => giveBack fd count fun r => (next r).collected parts
  | inspect fd next, parts => inspect fd fun r => (next r).collected parts
  | look next, parts => look fun r => (next r).collected parts
  | identify next, parts => identify fun r => (next r).collected parts
  | signal pid number next, parts => signal pid number fun r => (next r).collected parts
  | sleep duration next, parts => sleep duration fun r => (next r).collected parts

/-- A program for which some bytes are behind a descriptor, and nothing or an error after them.
`taken` are those that were read, the last one first. -/
def fed (source : Nat) (problem : Option Nat) : Program α → Bytes → Bytes → Program α
  | done a, _, _ => done a
  | exit status, _, _ => exit status
  | read fd limit next, taken, left =>
    if fd = source then
      match left, problem with
      | [], some e => (next (.error e)).fed source problem taken []
      | left, _ =>
        (next (.ok (left.take limit))).fed source problem ((left.take limit).reverse ++ taken)
          (left.drop limit)
    else read fd limit fun r => (next r).fed source problem taken left
  | write fd bytes next, taken, left =>
    write fd bytes fun r => (next r).fed source problem taken left
  | openFile fd path mode next, taken, left =>
    openFile fd path mode fun r => (next r).fed source problem taken left
  | close fd next, taken, left => close fd fun r => (next r).fed source problem taken left
  | giveBack fd count next, taken, left =>
    if fd = source then
      (next ()).fed source problem (taken.drop count) ((taken.take count).reverse ++ left)
    else giveBack fd count fun r => (next r).fed source problem taken left
  | inspect fd next, taken, left => inspect fd fun r => (next r).fed source problem taken left
  | look next, taken, left => look fun r => (next r).fed source problem taken left
  | identify next, taken, left => identify fun r => (next r).fed source problem taken left
  | signal pid number next, taken, left =>
    signal pid number fun r => (next r).fed source problem taken left
  | sleep duration next, taken, left =>
    sleep duration fun r => (next r).fed source problem taken left

/-- What is written to the standard output is the result. -/
theorem collected_write (bytes : Bytes) (parts : List Bytes) (status : Int) :
    (write 1 bytes fun _ => done status).collected parts =
      done ((bytes :: parts).reverse.flatten, status) := by
  simp [collected]

end Program

end LineShell.Userland
