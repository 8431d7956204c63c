import GameAP.Commands.Cmd
import Mathlib.Data.Finset.Basic

/-!
# The tasks of the daemon

`GdaemonTasks`: a queue of tasks that the panel lists, each executed once by a command in a child
process. `importTasks` is what `update` (waiting tasks) and `check_after_crash` (tasks that were
working when the daemon stopped) do with the panel's list. `runNext` takes the first task and
starts it or looks after its command; a task that is not completed goes to the end of the queue.
An exception ends the daemon, so a step has a result only if nothing is thrown.

`log` is not part of the daemon: it records what the steps do to the outside.
-/

namespace GameAP

open Lib

inductive GdaemonTask.Status where
  | waiting
  | working
  | error
  | success
  | canceled
  deriving DecidableEq, Repr

/-- The values of the enumeration, and of the panel's `status_num`. -/
def GdaemonTask.Status.toNat : GdaemonTask.Status → Nat
  | waiting => 1
  | working => 2
  | error => 3
  | success => 4
  | canceled => 5

structure GdaemonTask where
  id : Nat
  runAftId : Nat
  serverId : Nat
  /-- as far as `strcmp` reads it -/
  task : String
  cmd : String
  status : GdaemonTask.Status
  deriving DecidableEq, Repr

/-- The objects behind a `Cmd*`; a `DedicatedServerCmd` only ever executes a shell command. -/
inductive Cmd where
  | gameServer (cmd : GameServerCmd)
  | dedicatedServer (shellCommand : String)
  deriving DecidableEq, Repr

namespace GdaemonTasks

inductive Event where
  /-- a child process is forked that executes `cmd` -/
  | started (task : GdaemonTask) (cmd : Cmd)
  /-- a command is found completed -/
  | completed (task : GdaemonTask) (cmd : Cmd) (poll : Poll)
  | installStatus (serverId : Nat) (status : InstallStatus)
  /-- a status is sent to the panel -/
  | status (id : Nat) (status : GdaemonTask.Status) (received : Bool)
  | output (id : Nat) (output : String)
  deriving DecidableEq, Repr

end GdaemonTasks

structure GdaemonTasks where
  tasks : List GdaemonTask
  existsTasks : Finset Nat
  activeCmds : Table Nat Cmd
  cmdProcesses : Table Nat Int
  gslist : GameServersList
  log : List GdaemonTasks.Event

namespace GdaemonTasks

def init (gslist : GameServersList) : GdaemonTasks :=
  { tasks := [], existsTasks := ∅, activeCmds := ∅, cmdProcesses := ∅, gslist, log := [] }

def record (e : Event) (s : GdaemonTasks) : GdaemonTasks := { s with log := s.log ++ [e] }

def empty (s : GdaemonTasks) : Bool := s.tasks.isEmpty

/-! ## `update` and `check_after_crash` -/

def newTask (jtask : Json) : Except Exn GdaemonTask := do
  let cmd ← jtask.get "cmd"
  return {
    id := ← jtask.getUInt "id"
    runAftId := ← jtask.getUInt "run_aft_id"
    serverId := ← jtask.getUInt "server_id"
    task := cString (← jtask.getString "task")
    cmd := ← (if cmd.isNull then .ok "" else cmd.asCString)
    status := .waiting }

/-- Whether the server of an entry is there: `get_server` is asked for an id above 0. -/
def findServer (tz : Int) (r : GameServersList.ServerReplies) (serverId : Nat)
    (g : GameServersList) : Except Exn (Bool × GameServersList) :=
  if serverId > 0 then
    match GameServersList.getServer tz r serverId g with
    | .ok found g' => .ok (found, g')
    | .error e _ => .error e
  else .ok (true, g)

/-- An entry of the panel's list, with what the panel answers to the lookup of its server. -/
abbrev Entry := Json × GameServersList.ServerReplies

/-- The entries that have the expected status and are not in the queue are added to it, all of
them as waiting. -/
def importTasks (tz : Int) (status : GdaemonTask.Status) :
    List Entry → GdaemonTasks → Except Exn GdaemonTasks
  | [], s => .ok s
  | (jtask, r) :: rest, s => do
    let id ← jtask.getUInt "id"
    if id ∈ s.existsTasks then importTasks tz status rest s
    else if (← jtask.getString "task") = "" then importTasks tz status rest s
    else if (← jtask.getUInt "status_num") ≠ status.toNat then importTasks tz status rest s
    else
      let serverId ← (← jtask.get "server_id").asLargestUInt
      let (found, gslist) ← findServer tz r serverId s.gslist
      if !found then importTasks tz status rest { s with gslist }
      else
        let task ← newTask jtask
        importTasks tz status rest { s with
          gslist, existsTasks := insert id s.existsTasks, tasks := s.tasks ++ [task] }

/-- A request for the list of tasks: `none` when it fails. -/
def update (tz : Int) (reply : Option (List Entry)) (s : GdaemonTasks) :
    Except Exn GdaemonTasks :=
  match reply with
  | none => .ok s
  | some entries => importTasks tz .waiting entries s

def checkAfterCrash (tz : Int) (reply : Option (List Entry)) (s : GdaemonTasks) :
    Except Exn GdaemonTasks :=
  match reply with
  | none => .ok s
  | some entries => importTasks tz .working entries s

/-! ## `run_next` -/

/-- What one `run_next` reads: the panel's replies, the clock, the child and its number, whether
the panel receives a status, and what the uninitialised pointer holds (`none` is null). -/
structure RunInput where
  server : GameServersList.ServerReplies
  stamp : GameServersList.StampClock
  pid : Int
  poll : Poll
  received : Bool
  garbage : Option Cmd

def apiUpdateStatus (received : Bool) (task : GdaemonTask) (s : GdaemonTasks) : GdaemonTasks :=
  record (.status task.id task.status received) s

def apiAppendOutput (task : GdaemonTask) (output : String) (s : GdaemonTasks) : GdaemonTasks :=
  record (.output task.id output) s

def setInstallStatus (c : GameServersList.StampClock) (task : GdaemonTask) (st : InstallStatus)
    (s : GdaemonTasks) : GdaemonTasks :=
  record (.installStatus task.serverId st)
    { s with gslist := s.gslist.setInstallStatus c task.serverId st }

def beforeCmd (c : GameServersList.StampClock) (task : GdaemonTask) (s : GdaemonTasks) :
    GdaemonTasks :=
  if task.task = "gsinst" ∨ task.task = "gsupd" then setInstallStatus c task .installInProcess s
  else s

def afterCmd (c : GameServersList.StampClock) (task : GdaemonTask) (s : GdaemonTasks) :
    GdaemonTasks :=
  if task.task = "gsinst" ∨ task.task = "gsupd" then
    match task.status with
    | .success => setInstallStatus c task .installed s
    | .error | .canceled => setInstallStatus c task .notInstalled s
    | _ => s
  else if task.task = "gsdel" then
    if task.status = .success then setInstallStatus c task .notInstalled s else s
  else s

/-- The game server command of a task, for the six that have one. -/
def gameServerCommand (task : String) : Option Command :=
  if task = "gsstart" then some .start
  else if task = "gsstop" then some .stop
  else if task = "gsrest" then some .restart
  else if task = "gsinst" then some .install
  else if task = "gsupd" then some .update
  else if task = "gsdel" then some .delete
  else none

/-- The pointer `cmd` of `start`. For an unknown task it is never assigned. -/
def makeCmd (tz : Int) (i : RunInput) (task : GdaemonTask) (s : GdaemonTasks) :
    Except Exn (Option Cmd × GdaemonTasks) :=
  match gameServerCommand task.task with
  | some command => do
    let (cmd, gslist) ← GameServerCmd.create tz i.server command task.serverId s.gslist
    return (some (.gameServer cmd), { s with gslist })
  | none =>
    if task.task = "cmdexec" then .ok (some (.dedicatedServer task.cmd), s)
    else .ok (i.garbage, apiAppendOutput task "Unknown task" s)

def start (tz : Int) (i : RunInput) (task : GdaemonTask) (s : GdaemonTasks) :
    Except Exn (GdaemonTask × GdaemonTasks) := do
  let (cmd?, s) ← makeCmd tz i task s
  match cmd? with
  | some cmd =>
    let s := beforeCmd i.stamp task { s with activeCmds := s.activeCmds.emplace task.id cmd }
    let s := { record (.started task cmd) s with
      cmdProcesses := s.cmdProcesses.emplace task.id i.pid }
    let task := { task with status := .working }
    return (task, apiUpdateStatus i.received task s)
  | none =>
    let task := { task with status := .error }
    return (task, apiUpdateStatus i.received task (apiAppendOutput task "Empty cmd" s))

/-- A completed command: the verdict, what follows from it, and the clearing up. -/
def complete (i : RunInput) (poll : Poll) (cmd : Cmd) (task : GdaemonTask) (s : GdaemonTasks) :
    GdaemonTask × GdaemonTasks :=
  let task := { task with status := if poll.succeeded then .success else .error }
  let s := afterCmd i.stamp task (record (.completed task cmd poll) s)
  let s := { s with
    activeCmds := s.activeCmds.erase task.id
    cmdProcesses := s.cmdProcesses.erase task.id }
  (task, apiUpdateStatus i.received task s)

def proceed (i : RunInput) (task : GdaemonTask) (s : GdaemonTasks) : GdaemonTask × GdaemonTasks :=
  match s.activeCmds.lookup task.id with
  | none => (task, s)
  | some cmd =>
    let poll := i.poll.withPid (s.cmdProcesses.lookup task.id)
    let output :=
      if poll.cmdCompleted && poll.child != .success then poll.output ++ "Child process failure"
      else poll.output
    let (task, s) := if poll.cmdCompleted then complete i poll cmd task s else (task, s)
    (task, if output = "" then s else apiAppendOutput task output s)

/-- The end of `run_next`. -/
def requeue (task : GdaemonTask) (s : GdaemonTasks) : GdaemonTasks :=
  match task.status with
  | .error | .success | .canceled =>
    { s with
      activeCmds := s.activeCmds.erase task.id
      existsTasks := s.existsTasks.erase task.id }
  | _ => { s with tasks := s.tasks ++ [task] }

/-- `run_next`, with the functions it calls as parameters. A task whose predecessor `run_aft_id` is
not finished goes back unchanged. -/
def runNextWith {ε : Type} (null : ε)
    (start proceed : GdaemonTask → GdaemonTasks → Except ε (GdaemonTask × GdaemonTasks))
    (s : GdaemonTasks) : Except ε GdaemonTasks :=
  match s.tasks with
  | [] => .error null
  | task :: rest =>
    let s := { s with tasks := rest }
    if task.runAftId > 0 ∧ task.runAftId ∈ s.existsTasks then
      .ok { s with tasks := s.tasks ++ [task] }
    else do
      let (task, s) ←
        match task.status with
        | .waiting => start task s
        | .working => proceed task s
        | _ => .ok (task, s)
      return requeue task s

def runNext (tz : Int) (i : RunInput) : GdaemonTasks → Except Exn GdaemonTasks :=
  runNextWith .nullPointer (start tz i) fun task s => .ok (proceed i task s)

structure Stats where
  workingTasksCount : Nat
  waitingTasksCount : Nat
  deriving DecidableEq, Repr

def stats (s : GdaemonTasks) : Stats :=
  { workingTasksCount := s.activeCmds.entries.length % 2 ^ 32
    waitingTasksCount := s.tasks.length % 2 ^ 32 }

end GdaemonTasks

end GameAP
