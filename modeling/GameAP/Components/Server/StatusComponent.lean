import GameAP.Classes.GdaemonTasks
import GameAP.Components.Server.ReadUntil

/-!
# The status sessions

`StatusSession` answers what version the daemon has and how busy it is. The ids of tasks and
servers are not collected: their lists are empty.
-/

namespace GameAP

open Lib

abbrev StatusSession := UntilSess

namespace StatusSession

open UntilSess

def statusError : Nat := 1

def statusUnknownCommand : Nat := 3

def statusOk : Nat := 100

def commandVersion : Nat := 1

def commandStatusBase : Nat := 2

def commandStatusDetails : Nat := 3

def daemonVersion : String := "3.0.0"

/-- What a request finds outside. -/
structure Host where
  compilationDate : String
  now : Int
  statusStartedTime : Int
  gdaemonTasks : GdaemonTasks
  gslist : GameServersList

namespace Host

/-- The list takes 32 bits of it. -/
def uptime (host : Host) : Nat := ((host.now - host.statusStartedTime) % 2 ^ 32).toNat

end Host

variable (b : Binn) (host : Host)

def version : List BinnValue := [.uint32 statusOk, .str daemonVersion, .str host.compilationDate]

def statusBase : List BinnValue :=
  [.uint32 statusOk, .uint32 host.uptime, .uint32 host.gdaemonTasks.stats.workingTasksCount,
    .uint32 host.gdaemonTasks.stats.waitingTasksCount,
    .uint32 host.gslist.stats.activeServersCount]

def statusDetails : List BinnValue :=
  [.uint32 statusOk, .uint32 host.uptime, .list (b.serialize []), .list (b.serialize []),
    .list (b.serialize [])]

def cmdProcess : SessM PUnit := do
  match b.getUInt8 (← get).readMsg 1 with
  | none => modify (responseMsg b statusError "Invalid Binn data: reading command failed")
  | some command =>
    if command = commandVersion then
      modify (setWriteMsg b (version host))
      modify doWrite
    else if command = commandStatusBase then
      modify (setWriteMsg b (statusBase host))
      modify doWrite
    else if command = commandStatusDetails then
      modify (setWriteMsg b (statusDetails b host))
      modify doWrite
    else modify (responseMsg b statusUnknownCommand "Unknown command")

/-- A session, each of whose steps finds the outside as it is then. -/
def run (b : Binn) (events : List (Event Host)) : StatusSession :=
  UntilSess.run (cmdProcess b) events

theorem cmdProcess_keeps (b : Binn) (host : Host) : Keeps reading (cmdProcess b host) := by
  have hanswer : ∀ values, Keeps reading (do
      modify (setWriteMsg b values)
      modify doWrite : SessM PUnit) :=
    fun values => .bind (.modify fun _ => rfl) fun _ => .modify fun _ => rfl
  unfold cmdProcess
  refine .bind .get fun s => ?_
  split
  · exact .modify fun _ => rfl
  · exact .ite (hanswer _) (.ite (hanswer _) (.ite (hanswer _) (.modify fun _ => rfl)))

end StatusSession

end GameAP
