import GameAP.Components.Server.ReadUntil

/-!
# The command sessions

`CommandsSession` executes a shell command in a directory. `response_msg` only sets the message:
it is written where `cmd_process` goes on to `do_write`, which the branches that return do not.
-/

namespace GameAP

open Lib

abbrev CommandsSession := UntilSess

namespace CommandsSession

open UntilSess

def statusError : Nat := 1

def statusUnknownCommand : Nat := 3

def statusOk : Nat := 100

def commandExec : Nat := 1

/-- What a request finds outside: `fs::is_directory` and `fs::current_path` may throw, with this
message; `exec` yields the exit code and the output, or nothing if it never returns. -/
structure Host where
  isDirectory : String → Except String Bool
  currentPath : String → Except String PUnit
  exec : String → Option (Int × String)

/-- A call that may never return: what comes after it is not done, as behind an exception. -/
def orNever {α : Type} (x : Option α) : SessM α := orThrow (x.elim (.error "") .ok)

variable (b : Binn) (host : Host)

/-- The branch `COMMAND_EXEC`, up to its `break`. -/
def cmdExec : SessM PUnit := do
  match b.getStr (← get).readMsg 2 with
  | none => modify (responseMsg b statusError "Invalid exec command")
  | some execCommand =>
    match b.getStr (← get).readMsg 3 with
    | none => modify (responseMsg b statusError "Invalid work directory")
    | some workDir =>
      if workDir.isEmpty then modify (responseMsg b statusError "Empty work directory")
      else if !(← orThrow (host.isDirectory workDir)) then
        modify (responseMsg b statusError "Invalid work directory")
      else
        orThrow (host.currentPath workDir)
        let (exitCode, out) ← orNever (host.exec execCommand)
        modify (setWriteMsg b [.uint32 statusOk, .int32 exitCode, .str out])

def cmdProcess : SessM PUnit := do
  match b.getUInt8 (← get).readMsg 1 with
  | none => modify (responseMsg b statusError "Invalid Binn data: reading command failed")
  | some command =>
    if command = commandExec then
      cmdExec b host
      modify doWrite
    else modify (responseMsg b statusUnknownCommand "Unknown command")

/-- A session, each of whose steps finds the outside as it is then. -/
def run (b : Binn) (events : List (Event Host)) : CommandsSession :=
  UntilSess.run (cmdProcess b) events

/-! ## What a request keeps -/

section Keeps

variable {γ : Type} {f : UntilSess → γ} {b : Binn} {host : Host}

theorem cmdExec_keeps (hf : ∀ values s, f (setWriteMsg b values s) = f s) :
    Keeps f (cmdExec b host) := by
  have hmsg : ∀ snum sdesc, Keeps f (modify (responseMsg b snum sdesc) : SessM PUnit) :=
    fun snum sdesc => .modify (hf _)
  unfold cmdExec
  refine .bind .get fun s => ?_
  split
  · exact hmsg _ _
  · refine .bind .get fun s => ?_
    split
    · exact hmsg _ _
    · refine .ite (hmsg _ _) (.bind (.orThrow _) fun isDir => ?_)
      split
      · exact hmsg _ _
      · refine .bind (.orThrow _) fun _ => .bind (.orThrow _) fun _ => ?_
        exact .modify (hf _)

theorem cmdProcess_keeps (b : Binn) (host : Host) : Keeps reading (cmdProcess b host) := by
  unfold cmdProcess
  refine .bind .get fun s => ?_
  split
  · exact .modify fun _ => rfl
  · refine .ite (.bind (cmdExec_keeps fun _ _ => rfl) fun _ => ?_) (.modify fun _ => rfl)
    exact .modify fun _ => rfl

end Keeps

end CommandsSession

end GameAP
