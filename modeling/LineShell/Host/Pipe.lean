import LineShell.Fault
import LineShell.Text.Utf8

namespace LineShell

open Text (Bytes)

/-!
# Pipes

A pipe holds bytes between one writer and one reader.

* `Pipe` — the bytes in it, its two ends, and what goes wrong at them;
* `Pipe.write`, `Pipe.read`, `Pipe.readLine` — one attempt of either side, which may have to wait;
* `Pipe.received` — all that was ever written into it.
-/

/-- The bytes between a writer and a reader, and the two ends. -/
structure Pipe where
  buffer : Bytes := []
  writerOpen : Bool := true
  readerOpen : Bool := true
  /-- How many bytes it holds at most. -/
  capacity : Option Nat := none
  /-- How many writes it takes before it refuses all others. -/
  quota : Option Nat := none
  /-- What it refuses writes with. -/
  refusal : Fault := .brokenPipe
  /-- What the reader meets behind the last byte, if not the end. -/
  ending : Option Fault := none
  /-- The number of the fault that closing the writer's end meets, which is closed all the same. -/
  closeError : Option Nat := none
  /-- What each write has put in, the last one first. -/
  accepted : List Bytes := []
  deriving DecidableEq, Repr

namespace Pipe

/-- What comes of an attempt to write. -/
inductive Written
  /-- There is no room yet. -/
  | blocked
  /-- Nobody reads any more. -/
  | broken
  /-- The pipe takes no more writes. -/
  | refused (fault : Fault)
  /-- So many bytes went in. -/
  | took (count : Nat) (pipe : Pipe)

/-- What comes of an attempt to read. -/
inductive Read
  /-- There is nothing yet. -/
  | blocked
  /-- There is nothing left. -/
  | ended (fault : Option Fault)
  /-- So many bytes came out. -/
  | gave (bytes : Bytes) (pipe : Pipe)

/-- How many of some bytes there is room for. -/
def room (p : Pipe) (wanted : Nat) : Nat :=
  match p.capacity with
  | none => wanted
  | some capacity => min wanted (capacity - p.buffer.length)

/-- Attempts to write, as much as there is room for. -/
def write (p : Pipe) (bytes : Bytes) : Written :=
  if !p.readerOpen then .broken
  else if p.quota = some 0 then .refused p.refusal
  else
    let count := p.room bytes.length
    if count = 0 && bytes != [] then .blocked
    else
      let part := bytes.take count
      .took count { p with
        buffer := p.buffer ++ part, accepted := part :: p.accepted, quota := p.quota.map (· - 1) }

/-- Attempts to read, at most `limit` bytes if there is a limit. -/
def read (p : Pipe) (limit : Option Nat) : Read :=
  if p.buffer.isEmpty then
    if p.writerOpen then .blocked else .ended p.ending
  else
    let count := limit.getD p.buffer.length
    .gave (p.buffer.take count) { p with buffer := p.buffer.drop count }

/-- The byte that ends a line. -/
abbrev newline : UInt8 := 10

/-- The first line of some bytes with its newline, or all of them if there is none. -/
def firstLine (bs : Bytes) : Bytes × Bytes :=
  match bs.dropWhile (· != newline) with
  | [] => (bs, [])
  | b :: rest => (bs.takeWhile (· != newline) ++ [b], rest)

/-- Attempts to read a line. What is behind the last newline is a line once it cannot grow. -/
def readLine (p : Pipe) : Read :=
  if p.buffer.contains newline || (!p.writerOpen && !p.buffer.isEmpty) then
    let (line, rest) := firstLine p.buffer
    .gave line { p with buffer := rest }
  else if p.writerOpen then .blocked else .ended p.ending

/-- All that was ever written into a pipe. -/
def received (p : Pipe) : Bytes := p.accepted.reverse.flatten

/-- How much each write has put in. -/
def writeSizes (p : Pipe) : List Nat := p.accepted.reverse.map List.length

/-- The pipe without its writer. -/
def closeWriter (p : Pipe) : Pipe := { p with writerOpen := false }

/-- Closes the writer's end. The answer is the fault that this meets. -/
def shutWriter (p : Pipe) : Option Fault × Pipe := (p.closeError.map (.system · none), p.closeWriter)

/-- The pipe without its reader. -/
def closeReader (p : Pipe) : Pipe := { p with readerOpen := false }

/-- A line and what follows it are all there was. -/
theorem firstLine_append (bs : Bytes) : (firstLine bs).1 ++ (firstLine bs).2 = bs := by
  have h := List.takeWhile_append_dropWhile (p := (· != newline)) (l := bs)
  unfold firstLine
  split
  · simp
  · rename_i b rest hd
    rw [hd] at h
    simpa using h

/-- What a write puts in comes to stand behind all that was there. -/
theorem buffer_of_write {p q : Pipe} {bytes : Bytes} {count : Nat}
    (h : p.write bytes = .took count q) : q.buffer = p.buffer ++ bytes.take count := by
  unfold write at h
  split at h
  · cases h
  · split at h
    · cases h
    · simp only at h
      split at h
      · cases h
      · cases h; rfl

/-- What a read takes out stood at the front. -/
theorem buffer_of_read {p q : Pipe} {limit : Option Nat} {bytes : Bytes}
    (h : p.read limit = .gave bytes q) : p.buffer = bytes ++ q.buffer := by
  unfold read at h
  split at h
  · split at h <;> cases h
  · simp only at h
    cases h
    simp

end Pipe

end LineShell
