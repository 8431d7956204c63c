import GameAP.Classes.GameServersLoop
import GameAP.Classes.GdaemonTasksSteps
import GameAP.Classes.ServersTasksSteps

/-!
# The daemon and its children

The daemon's three threads share the registry of game servers: both schedulers of tasks and the
periodic loop. A command that a scheduler starts runs in a forked child, on the child's copy of
the registry as it is at the fork (`Child.memory`); the loop runs its commands in the daemon. So
what a child's command does to the settings of a server stays in the child, and only its result
comes back (`Sees`).
-/

namespace GameAP

open Lib

namespace Daemon

/-- A forked process. -/
structure Child where
  cmd : GameServerCmd
  memory : GameServersList
  /-- what the command has left in the shared memory -/
  executed : Option GameServerCmd.Executed
  exited : Bool

inductive Event where
  | gdaemon (e : GdaemonTasks.Event)
  | servers (e : ServersTasks.Event)
  /-- a child has executed its command -/
  | executed (cmd : GameServerCmd)
  | loop (e : GameServersList.LoopEvent)
  deriving DecidableEq

/-- The registries of `gdaemonTasks` and `serversTasks` are not used: the one of all threads is
`gslist`. -/
structure World where
  gslist : GameServersList
  gdaemonTasks : GdaemonTasks
  serversTasks : ServersTasks.Timed
  children : Table Int Child
  log : List Event

def init (gslist : GameServersList) (clock : Int) : World :=
  { gslist, gdaemonTasks := .init gslist, serversTasks := { tasks := .init gslist, clock },
    children := ∅, log := [] }

/-! ## Forks -/

/-- `run_process`: `-1` is a fork that failed. -/
def fork (pid : Int) (cmd : GameServerCmd) (g : GameServersList) (children : Table Int Child) :
    Table Int Child :=
  if pid = -1 then children
  else children.insert pid { cmd, memory := g, executed := none, exited := false }

/-- The child of a command for the host has nothing to do with the game servers. -/
def forkGdaemon (pid : Int) (g : GameServersList) (children : Table Int Child) :
    GdaemonTasks.Event → Table Int Child
  | .started _ (.gameServer cmd) => fork pid cmd g children
  | .started _ (.dedicatedServer _) => children.erase pid
  | _ => children

def forkServers (pid : Int) (g : GameServersList) (children : Table Int Child) :
    ServersTasks.Event → Table Int Child
  | .started _ cmd _ => fork pid cmd g children
  | _ => children

/-- The number that a step's child gets, if it forks one. -/
def gdaemonPid : GdaemonTasks.Op → Int
  | .runNext i => i.pid
  | _ => -1

def serversPid : ServersTasks.Op → Int
  | .runNext _ i => i.pid
  | _ => -1

/-- A poll that sees the child of `pid?` gone sees the result it has left. -/
def Sees (children : Table Int Child) (pid? : Option Int) (poll : Poll) : Prop :=
  ∀ pid child, pid? = some pid → children.lookup pid = some child → poll.child = .success →
    child.exited = true ∧ ∃ x, child.executed = some x ∧ poll.result = x.result

/-! ## Steps -/

namespace World

/-- The tasks of the daemon, with the registry of all. -/
def gdaemon (w : World) : GdaemonTasks := { w.gdaemonTasks with gslist := w.gslist }

/-- The scheduled tasks, with the registry of all. -/
def servers (w : World) : ServersTasks.Timed :=
  { w.serversTasks with tasks := { w.serversTasks.tasks with gslist := w.gslist } }

/-- What a step of the scheduler adds to its log. -/
def gdaemonEvents (w : World) (s : GdaemonTasks) : List GdaemonTasks.Event :=
  s.log.drop w.gdaemonTasks.log.length

def serversEvents (w : World) (t : ServersTasks.Timed) : List ServersTasks.Event :=
  t.tasks.log.drop w.serversTasks.tasks.log.length

def afterGdaemon (w : World) (o : GdaemonTasks.Op) (s : GdaemonTasks) : World :=
  { w with
    gslist := s.gslist
    gdaemonTasks := s
    children := (w.gdaemonEvents s).foldl (forkGdaemon (gdaemonPid o) s.gslist) w.children
    log := w.log ++ (w.gdaemonEvents s).map .gdaemon }

def afterServers (w : World) (o : ServersTasks.Op) (t : ServersTasks.Timed) : World :=
  { w with
    gslist := t.tasks.gslist
    serversTasks := t
    children :=
      (w.serversEvents t).foldl (forkServers (serversPid o) t.tasks.gslist) w.children
    log := w.log ++ (w.serversEvents t).map .servers }

def afterLoop (w : World) (s : GameServersList.LoopState) : World :=
  { w with gslist := s.gslist, log := w.log ++ s.log.map .loop }

/-- A child executes its command, on its own memory. -/
def afterExecute (w : World) (pid : Int) (outcome : GameServerCmd.Outcome) (child : Child) :
    World :=
  let (x, memory) := GameServerCmd.executeOn outcome child.cmd child.memory
  { w with
    children := w.children.insert pid { child with memory, executed := some x }
    log := w.log ++ [.executed child.cmd] }

def afterExit (w : World) (pid : Int) (child : Child) : World :=
  { w with children := w.children.insert pid { child with exited := true } }

end World

inductive Op where
  | gdaemon (o : GdaemonTasks.Op)
  | servers (o : ServersTasks.Op)
  /-- a pass of the loop over the game servers -/
  | loop (i : GameServersList.LoopInput)
  /-- the child `pid` executes its command -/
  | execute (pid : Int) (outcome : GameServerCmd.Outcome)
  | exit (pid : Int)

/-- The polls of a scheduler's step, each with the process it is about. -/
def SeesGdaemon (w : World) : GdaemonTasks.Op → Prop
  | .runNext i => ∀ task rest, w.gdaemonTasks.tasks = task :: rest →
      Sees w.children (w.gdaemonTasks.cmdProcesses.lookup task.id) i.poll
  | _ => True

def SeesServers (w : World) : ServersTasks.Op → Prop
  | .runNext _ i => ∀ top, w.serversTasks.tasks.tasks[0]? = some top →
      Sees w.children (w.serversTasks.tasks.cmdProcesses.lookup top.id) i.poll
  | _ => True

/-- An exception ends the daemon, except in the loop, which gives up its pass. -/
inductive Step (tz : Int) : World → Op → World → Prop where
  | gdaemon {w : World} {o : GdaemonTasks.Op} {s : GdaemonTasks} :
      SeesGdaemon w o → GdaemonTasks.Step tz w.gdaemon o s →
      Step tz w (.gdaemon o) (w.afterGdaemon o s)
  | servers {w : World} {o : ServersTasks.Op} {t : ServersTasks.Timed} :
      SeesServers w o → ServersTasks.Step tz w.servers o t →
      Step tz w (.servers o) (w.afterServers o t)
  | loop {w : World} {i : GameServersList.LoopInput} :
      Step tz w (.loop i) (w.afterLoop
        (endState (GameServersList.loop tz i) { gslist := w.gslist, log := [] }))
  | execute {w : World} {pid : Int} {outcome : GameServerCmd.Outcome} {child : Child} :
      w.children.lookup pid = some child → child.executed = none →
      Step tz w (.execute pid outcome) (w.afterExecute pid outcome child)
  | exit {w : World} {pid : Int} {child : Child} :
      w.children.lookup pid = some child → child.executed ≠ none →
      Step tz w (.exit pid) (w.afterExit pid child)

/-- **A child leaves the daemon's registry alone.** -/
theorem gslist_of_child {tz : Int} {w w' : World} {pid : Int} {outcome : GameServerCmd.Outcome}
    (h : Step tz w (.execute pid outcome) w' ∨ Step tz w (.exit pid) w') :
    w'.gslist = w.gslist := by
  rcases h with h | h
  · cases h
    rfl
  · cases h
    rfl

end Daemon

end GameAP
