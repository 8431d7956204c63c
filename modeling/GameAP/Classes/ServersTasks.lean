import GameAP.Commands.Cmd
import GameAP.Lib.Heap
import Mathlib.Data.Finset.Basic

/-!
# The scheduled tasks of the game servers

`ServersTasks`: the queue is a heap under `compareTask`; a task waits in it for its date or, once
started, for the next look at its command. `update` imports the panel's tasks. `runNext` takes
the task at the top: it brings it up to date if the last time is `cacheTtl` ago (`refresh`, which
changes a task that is still in the heap), and then starts it or proceeds with it (`runTask`).
An exception ends the daemon, so a step has a result only if nothing is thrown.

`log` is not part of the daemon: it records what the steps do to the outside.
-/

namespace GameAP

open Lib

inductive ServerTask.Status where
  | waiting
  | working
  | success
  | fail
  deriving DecidableEq, Repr

/-- The values of the enumeration. -/
def ServerTask.Status.toNat : ServerTask.Status → Nat
  | waiting => 0
  | working => 1
  | success => 2
  | fail => 3

/-- `repeat` is `repeats` here; it has 16 bits, `counter` and `repeat_period` have 32. -/
structure ServerTask where
  status : ServerTask.Status
  id : Nat
  command : Command
  serverId : Nat
  repeats : Nat
  repeatPeriod : Nat
  counter : Nat
  executeDate : Int
  payload : String
  deriving DecidableEq, Repr

/-- `CompareTask`: `t1` stands below `t2`. -/
def compareTask (t1 t2 : ServerTask) : Bool :=
  if t1.status = t2.status then decide (t1.executeDate > t2.executeDate)
  else decide (t1.status.toNat > t2.status.toNat)

/-- The body of a request that `sync_to_api` sends. -/
structure TaskUpdate where
  counter : Nat
  repeats : Nat
  executeDate : String
  deriving DecidableEq, Repr

namespace ServersTasks

inductive Event where
  /-- a child process is forked that executes `cmd` -/
  | started (task : ServerTask) (cmd : GameServerCmd) (time : Int)
  /-- a command is found completed -/
  | completed (task : ServerTask) (cmd : GameServerCmd) (poll : Poll)
  | installStatus (serverId : Nat) (status : InstallStatus)
  | failSaved (id : Nat) (output : String)
  | synced (id : Nat) (body : TaskUpdate) (received : Bool)
  deriving DecidableEq, Repr

end ServersTasks

structure ServersTasks where
  tasks : Array ServerTask
  existsTasks : Finset Nat
  activeCmds : Table Nat GameServerCmd
  cmdProcesses : Table Nat Int
  lastSync : Table Nat Int
  gslist : GameServersList
  log : List ServersTasks.Event

namespace ServersTasks

def cacheTtl : Int := 300

/-- The scheduler before its first `update`. -/
def init (gslist : GameServersList) : ServersTasks :=
  { tasks := #[], existsTasks := ∅, activeCmds := ∅, cmdProcesses := ∅, lastSync := ∅, gslist,
    log := [] }

def push (task : ServerTask) (s : ServersTasks) : ServersTasks :=
  { s with tasks := Heap.push compareTask s.tasks task }

def record (e : Event) (s : ServersTasks) : ServersTasks := { s with log := s.log ++ [e] }

def convertCommand (command : String) : Command :=
  if command = "restart" then .restart
  else if command = "start" then .start
  else if command = "stop" then .stop
  else if command = "update" ∨ command = "install" then .update
  else if command = "reinstall" then .reinstall
  else .unknown

/-- There are no tasks to run at the time `now`. -/
def empty (now : Int) (s : ServersTasks) : Bool :=
  match s.tasks[0]? with
  | none => true
  | some top => decide (top.executeDate > now)

/-! ## `update` -/

def newTask (tz : Int) (jtask : Json) : Except Exn ServerTask := do
  return {
    status := .waiting
    id := ← jtask.getUInt "id"
    command := convertCommand (← jtask.getString "command")
    serverId := ← jtask.getUInt "server_id"
    repeats := (← jtask.getUInt "repeat") % 2 ^ 16
    repeatPeriod := ← jtask.getUInt "repeat_period"
    counter := ← jtask.getUInt "counter"
    executeDate := humanToTimestamp tz (← jtask.getString "execute_date")
    payload := ← jtask.getString "payload" }

def addTasks (tz : Int) : List Json → ServersTasks → Except Exn ServersTasks
  | [], s => .ok s
  | jtask :: rest, s => do
    let id ← jtask.getUInt "id"
    if id ∈ s.existsTasks then addTasks tz rest s
    else
      let task ← newTask tz jtask
      addTasks tz rest (push task { s with existsTasks := insert id s.existsTasks })

def update (tz : Int) (reply : Option Json) (s : ServersTasks) : Except Exn ServersTasks :=
  match reply with
  | none => .ok s
  | some jvalue => addTasks tz jvalue.elems s

/-! ## `run_next` -/

/-- What one `run_next` reads: the clock at the places where it is read, the panel's replies,
the child and its number, and whether the panel receives what is sent to it. -/
structure RunInput where
  now : Int
  task : Option Json
  server : GameServersList.ServerReplies
  stamp : GameServersList.StampClock
  forked : Int
  pid : Int
  poll : Poll
  finished : Int
  timediff : Option Int
  received : Bool
  later : Int

def syncFromApi (tz : Int) (reply : Option Json) (task : ServerTask) : Except Exn ServerTask :=
  match reply with
  | none => .ok task
  | some jtask => do
    return { task with
      command := convertCommand (← jtask.getString "command")
      serverId := ← jtask.getUInt "server_id"
      repeats := (← jtask.getUInt "repeat") % 2 ^ 16
      repeatPeriod := ← jtask.getUInt "repeat_period"
      counter := ← jtask.getUInt "counter"
      executeDate := humanToTimestamp tz (← jtask.getString "execute_date")
      payload := ← jtask.getString "payload" }

def setInstallStatus (c : GameServersList.StampClock) (task : ServerTask) (st : InstallStatus)
    (s : ServersTasks) : ServersTasks :=
  record (.installStatus task.serverId st)
    { s with gslist := s.gslist.setInstallStatus c task.serverId st }

def beforeCmd (c : GameServersList.StampClock) (task : ServerTask) (s : ServersTasks) :
    ServersTasks :=
  match task.command with
  | .install | .update => setInstallStatus c task .installInProcess s
  | _ => s

def afterCmd (c : GameServersList.StampClock) (task : ServerTask) (s : ServersTasks) :
    ServersTasks :=
  match task.command with
  | .install | .update =>
    match task.status with
    | .success => setInstallStatus c task .installed s
    | .fail => setInstallStatus c task .notInstalled s
    | _ => s
  | .delete => if task.status = .success then setInstallStatus c task .notInstalled s else s
  | _ => s

/-- `std::stoi` throws when the panel has not told its time. -/
def syncToApi (timediff : Option Int) (received : Bool) (task : ServerTask) (s : ServersTasks) :
    Except Exn ServersTasks :=
  match timediff with
  | none => .error .invalidArgument
  | some diff =>
    .ok (record (.synced task.id
      { counter := task.counter, repeats := task.repeats,
        executeDate := formatTime (task.executeDate - diff) } received) s)

def saveFailToApi (task : ServerTask) (output : String) (s : ServersTasks) : ServersTasks :=
  record (.failSaved task.id output) s

/-- Whatever the task's command is, the one that is executed is a restart. -/
def start (tz : Int) (i : RunInput) (task : ServerTask) (s : ServersTasks) :
    Except Exn (ServerTask × ServersTasks) := do
  let task := { task with status := .working }
  let (cmd, gslist) ← GameServerCmd.create tz i.server .restart task.serverId s.gslist
  let s := { s with gslist, activeCmds := s.activeCmds.emplace task.id cmd }
  let s := record (.started task cmd i.forked) (beforeCmd i.stamp task s)
  return (task, { s with cmdProcesses := s.cmdProcesses.emplace task.id i.pid })

def proceed (i : RunInput) (task : ServerTask) (s : ServersTasks) :
    Except Exn (ServerTask × ServersTasks) :=
  match s.activeCmds.lookup task.id with
  | none => .ok ({ task with status := .fail }, s)
  | some cmd => do
    let poll := i.poll.withPid (s.cmdProcesses.lookup task.id)
    if poll.cmdCompleted then
      let task := { task with status := if poll.succeeded then .success else .fail }
      let s := afterCmd i.stamp task (record (.completed task cmd poll) s)
      let s := if task.status = .fail then saveFailToApi task poll.output s else s
      let task := { task with
        counter := (task.counter + 1) % 2 ^ 32
        executeDate := i.finished + task.repeatPeriod }
      return (task, ← syncToApi i.timediff i.received task s)
    else return (task, s)

/-- A completed task waits for its next turn, or is forgotten. -/
def requeue (task : ServerTask) (s : ServersTasks) : ServersTasks :=
  if task.repeats = 0 ∨ task.counter < task.repeats then push { task with status := .waiting } s
  else { s with existsTasks := s.existsTasks.erase task.id }

/-- The end of `run_next` for a completed task, whose command must be in `active_cmds`. -/
def finish (task : ServerTask) (s : ServersTasks) : Except Exn ServersTasks :=
  let s := requeue task s
  match s.activeCmds.lookup task.id with
  | none => .error .nullPointer
  | some _ => .ok { s with
      activeCmds := s.activeCmds.erase task.id
      lastSync := s.lastSync.erase task.id
      cmdProcesses := s.cmdProcesses.erase task.id }

/-- `run_next` for a task that is due and has been taken from the queue. -/
def runTask (tz : Int) (i : RunInput) (task : ServerTask) (s : ServersTasks) :
    Except Exn ServersTasks :=
  if task.repeats ≠ 0 ∧ task.counter ≥ task.repeats then .ok s
  else do
    let (task, s) ←
      match task.status with
      | .waiting => start tz i task s
      | .working => proceed i task s
      | _ => .ok (task, s)
    match task.status with
    | .success | .fail => finish task s
    | _ => return push { task with executeDate := i.later + 30 } s

def needsSync (now : Int) (id : Nat) (s : ServersTasks) : Bool :=
  match s.lastSync.lookup id with
  | none => true
  | some time => decide (time < now - cacheTtl)

/-- The task at the top is changed where it stands in the heap. -/
def refresh (tz : Int) (i : RunInput) (top : ServerTask) (s : ServersTasks) :
    Except Exn (ServerTask × ServersTasks) :=
  if needsSync i.now top.id s then do
    let task ← syncFromApi tz i.task top
    return (task, { s with
      tasks := s.tasks.setIfInBounds 0 task
      lastSync := s.lastSync.emplace task.id i.now })
  else return (top, s)

def runNext (tz : Int) (i : RunInput) (s : ServersTasks) : Except Exn ServersTasks :=
  match s.tasks[0]? with
  | none => .error .nullPointer
  | some top => do
    let (task, s) ← refresh tz i top s
    if i.now ≤ task.executeDate then return s
    runTask tz i task { s with tasks := Heap.pop compareTask s.tasks }

end ServersTasks

end GameAP
