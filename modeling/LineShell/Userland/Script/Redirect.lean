import LineShell.Userland.Capture
import LineShell.Userland.Script.Builtin

namespace LineShell.Userland.Script

open Text (Bytes)

/-!
# Redirections

* `Target` — where a descriptor is to lead;
* `Expander.expandTargets` — redirections as such;
* `Plumbing` — where descriptors lead, and the files and texts behind them;
* `connect` — opens what descriptors are to lead to;
* `Plumbing.around` — something with descriptors that lead where the plumbing says.
-/

/-- Where a descriptor is to lead. -/
inductive Target
  | file (fd : Nat) (name : String) (mode : OpenMode)
  | copy (fd : Nat) (source : String)
  | text (fd : Nat) (bytes : Bytes)

namespace Expander

/-- Redirections with what their words stand for. -/
def expandTargets (x : Expander) (rs : List Redirection) : Expansion (List Target) :=
  rs.mapM fun
    | .input fd w => do return .file fd (← x.expandText w) .read
    | .output fd w append => do
      return .file fd (← x.expandText w) (if append then .append else .write)
    | .copy fd w => do return .copy fd (← x.expandText w)
    | .here fd body => do return .text fd (Text.encode (← x.expandText body))

end Expander

/-- Where descriptors lead. -/
structure Plumbing where
  streams : Nat → Nat := id
  /-- The descriptors that commands can name. -/
  held : List Nat
  opened : List Nat := []
  /-- The texts behind descriptors, or the errors. -/
  texts : List (Nat × Except Nat Bytes) := []

namespace Plumbing

/-- The plumbing with a descriptor leading elsewhere. -/
def leading (p : Plumbing) (fd place : Nat) : Plumbing :=
  { p with
    streams := fun n => if n = fd then place else p.streams n
    held := fd :: p.held.filter (· != fd) }

/-- Something with descriptors that lead where the plumbing says. -/
def around {α : Type} (p : Plumbing) (t : Program α) : Program α :=
  p.texts.foldl (fun t (fd, text) =>
    match text with
    | .ok bytes => t.fed fd none [] bytes
    | .error e => t.fed fd (some e) [] []) (t.onStreams p.streams)

/-- Closes the files. -/
def done (p : Plumbing) : Program Unit := p.opened.forM Program.shut

/-- A descriptor leads where it was last made to lead. -/
@[simp] theorem leading_streams (p : Plumbing) (fd place : Nat) :
    (p.leading fd place).streams fd = place := by
  simp [leading]

end Plumbing

/-- The first descriptor for files that commands are redirected to. -/
def firstTarget : Nat := 20

/-- A descriptor that leads nowhere. -/
def nowhere : Nat := 9

/-- Opens what descriptors are to lead to. The answer is nothing if that cannot be done, which is
said where errors go by then. -/
def connect (s : ScriptState) (line : Nat) : List Target → Plumbing → Program (Option Plumbing)
  | [], p => return some p
  | t :: ts, p => do
    let refuse (text : String) : Program (Option Plumbing) := do
      (report s line text).onStreams p.streams
      p.done
      return none
    let fresh := firstTarget + s.opened + p.opened.length + p.texts.length
    match t with
    | .text fd bytes =>
      connect s line ts { p.leading fd fresh with texts := (fresh, .ok bytes) :: p.texts }
    | .copy fd source =>
      if source == "-" then
        let p := p.leading fd nowhere
        connect s line ts { p with held := p.held.filter (· != fd) }
      else match natural? source with
        | none => refuse "Bad fd number"
        | some n =>
          if p.held.contains n then connect s line ts (p.leading fd (p.streams n))
          else refuse (source ++ ": Bad file descriptor")
    | .file fd name mode =>
      let reason (e : Nat) (missing : String) : String :=
        if isMissing e then missing else systemText e
      let taken ← if mode == .write && s.isSet 'C' then do
          let files ← Program.survey
          match files.lookup s.cwd true name with
          | .ok i => pure (files.content? i).isSome
          | .error _ => pure false
        else pure false
      if taken then refuse ("cannot create " ++ name ++ ": File exists")
      else match ← Program.openAs fresh (if name == "" then name else s.cwd.textFrom name) mode with
        | none => connect s line ts { p.leading fd fresh with opened := fresh :: p.opened }
        | some e =>
          -- a directory can be opened, and it is an error to read it
          if mode == .read && e = Fault.isDirectory then
            connect s line ts { p.leading fd fresh with texts := (fresh, .error e) :: p.texts }
          else refuse (match mode with
          | .read => "cannot open " ++ name ++ ": " ++ reason e "No such file"
          | _ => "cannot create " ++ name ++ ": " ++ reason e "Directory nonexistent")

/-- Nothing has to be opened for no redirections. -/
@[simp] theorem connect_nil (s : ScriptState) (line : Nat) (p : Plumbing) :
    connect s line [] p = pure (some p) := rfl

end LineShell.Userland.Script
