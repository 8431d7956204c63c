import GameAP.Classes.GameServersList

/-!
# Commands

A command runs in a child process that shares with the daemon the `Cmd` object and its output
buffer. What the daemon reads of them at one moment is a `Poll`; `GdaemonTasks` and
`ServersTasks` judge it alike. `GameServerCmd.create` is the constructor: it looks the server
up, which brings its record up to date.
-/

namespace GameAP

/-- The results of `child_process_status`. -/
inductive ProcessStatus where
  | fail
  | success
  | working
  deriving DecidableEq, Repr

/-- What `proceed` reads of a command and of its process. -/
structure Poll where
  child : ProcessStatus
  complete : Bool
  result : Bool
  output : String
  deriving DecidableEq, Repr

namespace Poll

def cmdCompleted (p : Poll) : Bool := p.complete || (p.child == .success || p.child == .fail)

def succeeded (p : Poll) : Bool := p.result && p.child == .success

/-- A command without an entry in `cmd_processes` counts as failed. -/
def withPid {α : Type} (p : Poll) (pid : Option α) : Poll :=
  match pid with
  | none => { p with child := .fail }
  | some _ => p

theorem succeeded_iff {p : Poll} : p.succeeded = true ↔ p.result = true ∧ p.child = .success := by
  simp [succeeded]

theorem cmdCompleted_of_succeeded {p : Poll} (h : p.succeeded = true) :
    p.cmdCompleted = true := by
  obtain ⟨-, hc⟩ := succeeded_iff.mp h
  simp [cmdCompleted, hc]

end Poll

/-- The values of `m_command`; `unknown` is every number without a name. -/
inductive Command where
  | unknown
  | start
  | pause
  | unpause
  | status
  | stop
  | kill
  | restart
  | update
  | install
  | reinstall
  | delete
  deriving DecidableEq, Repr

structure GameServerCmd where
  serverId : Nat
  command : Command
  /-- `m_server` is not null -/
  hasServer : Bool
  deriving DecidableEq, Repr

namespace GameServerCmd

def create (tz : Int) (r : GameServersList.ServerReplies) (command : Command) (serverId : Nat)
    (g : GameServersList) : Except Exn (GameServerCmd × GameServersList) :=
  match GameServersList.getServer tz r serverId g with
  | .ok hasServer g' => .ok ({ serverId, command, hasServer }, g')
  | .error e _ => .error e

theorem create_command {tz : Int} {r : GameServersList.ServerReplies} {command : Command}
    {serverId : Nat} {g g' : GameServersList} {cmd : GameServerCmd}
    (h : create tz r command serverId g = .ok (cmd, g')) :
    cmd.command = command ∧ cmd.serverId = serverId := by
  unfold create at h
  split at h
  · cases h; exact ⟨rfl, rfl⟩
  · cases h

end GameServerCmd

end GameAP
