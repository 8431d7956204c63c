import GameAP.Classes.GameServersList

/-!
# Executing a command as the user of a server

The daemon runs as root. `unprivileged_exec` changes its effective ids to those of the server's
user, executes the command and changes them back. What fails on the way is logged and nothing
else: `unprivilegedExec_iff` says when the command runs as that user, if it runs.
-/

namespace GameAP

open Lib

/-- The real and effective ids of a process. -/
structure Identity where
  uid : Nat
  euid : Nat
  gid : Nat
  egid : Nat
  deriving DecidableEq, Repr

namespace Identity

def root : Identity := { uid := 0, euid := 0, gid := 0, egid := 0 }

/-- `forget_privileges`, in a child process: the effective ids become the real ones. -/
def forgetPrivileges (id : Identity) : Identity := { id with uid := id.euid, gid := id.egid }

end Identity

/-- An account. -/
structure Passwd where
  uid : Nat
  gid : Nat
  deriving DecidableEq, Repr

/-- What the daemon finds on the host: its accounts, whether `setegid` and `seteuid` succeed,
`fs::current_path`, which may throw, and the exit code and the output of a command, or that no
process could be started for it. -/
structure HostSystem where
  getpwnam : String → Option Passwd
  setegid : Nat → Bool
  seteuid : Nat → Bool
  currentPath : Except String String
  exec : String → Option (Int × List String)

/-- The daemon while it executes a command. -/
structure Shell where
  identity : Identity
  output : List String
  /-- not part of the daemon: the commands it has started, with the identity of their process -/
  executed : List (String × Identity)
  deriving DecidableEq, Repr

namespace Shell

variable (sys : HostSystem)

def setegid (gid : Nat) (s : Shell) : Shell :=
  if sys.setegid gid then { s with identity := { s.identity with egid := gid } } else s

def seteuid (uid : Nat) (s : Shell) : Shell :=
  if sys.seteuid uid then { s with identity := { s.identity with euid := uid } } else s

def privilegesDown (username : String) (s : Shell) : Shell :=
  if username = "" then s
  else
    match sys.getpwnam (cString username) with
    | none => s
    | some pwd =>
      let s := if pwd.gid ≠ s.identity.gid then setegid sys pwd.gid s else s
      if pwd.uid ≠ s.identity.uid then seteuid sys pwd.uid s else s

def privilegesRetrieve (s : Shell) : Shell :=
  let s := if s.identity.euid ≠ s.identity.uid then seteuid sys s.identity.uid s else s
  if s.identity.egid ≠ s.identity.gid then setegid sys s.identity.gid s else s

def append (line : String) (s : Shell) : Shell := { s with output := s.output ++ [line] }

/-- `GameAP::exec`, with each line of the output appended. -/
def exec (command : String) : EStateM String Shell Int := do
  match sys.exec command with
  | none => return -1
  | some (exitCode, lines) =>
    modify fun s => { s with
      output := s.output ++ lines
      executed := s.executed ++ [(command, s.identity.forgetPrivileges)] }
    return exitCode

def cmdExec (command : String) : EStateM String Shell Int := do
  let path ← orThrow sys.currentPath
  modify (append (path ++ "# " ++ command))
  let exitCode ← exec sys command
  modify (append ("\nExited with " ++ toString exitCode ++ "\n"))
  return exitCode

def unprivilegedExec (server : Server) (command : String) : EStateM String Shell Int := do
  modify (privilegesDown sys server.user)
  let result ← cmdExec sys command
  modify (privilegesRetrieve sys)
  return result

/-! ## Whose identity a command has -/

/-- All commands that are started have the effective ids of the user. -/
def RunsAs (user : String) (s t : Shell) : Prop :=
  ∃ started, t.executed = s.executed ++ started ∧ ∀ e ∈ started,
    ∃ pwd, sys.getpwnam (cString user) = some pwd ∧ e.2.euid = pwd.uid ∧ e.2.egid = pwd.gid

/-- A process is started for the command. -/
def Starts (command : String) : Prop :=
  sys.currentPath.toBool = true ∧ (sys.exec command).isSome = true

/-- The user exists, and each id that is not root's can be set. -/
def Switches (user : String) : Prop :=
  ∃ pwd, sys.getpwnam (cString user) = some pwd ∧
    (pwd.gid = 0 ∨ sys.setegid pwd.gid = true) ∧ (pwd.uid = 0 ∨ sys.seteuid pwd.uid = true)

variable {sys} {user : String} {command : String} {s : Shell}

@[simp] theorem setegid_executed (gid : Nat) : (setegid sys gid s).executed = s.executed := by
  unfold setegid
  split <;> rfl

@[simp] theorem seteuid_executed (uid : Nat) : (seteuid sys uid s).executed = s.executed := by
  unfold seteuid
  split <;> rfl

@[simp] theorem privilegesDown_executed : (privilegesDown sys user s).executed = s.executed := by
  unfold privilegesDown
  split
  · rfl
  · split
    · rfl
    · simp only
      split <;> split <;> simp

@[simp] theorem privilegesRetrieve_executed :
    (privilegesRetrieve sys s).executed = s.executed := by
  unfold privilegesRetrieve
  simp only
  split <;> split <;> simp

@[simp] theorem append_executed (line : String) : (append line s).executed = s.executed := rfl

/-- The effective ids behind `privileges_down`: those of the account that can be set. -/
theorem privilegesDown_ids (hroot : s.identity = Identity.root) {pwd : Passwd} (hu : user ≠ "")
    (hpwd : sys.getpwnam (cString user) = some pwd) :
    (privilegesDown sys user s).identity.egid = (if sys.setegid pwd.gid then pwd.gid else 0) ∧
      (privilegesDown sys user s).identity.euid = (if sys.seteuid pwd.uid then pwd.uid else 0) := by
  unfold privilegesDown setegid seteuid
  rw [if_neg hu, hpwd, hroot]
  simp only [Identity.root]
  cases sys.setegid pwd.gid <;> cases sys.seteuid pwd.uid <;>
    by_cases hg : pwd.gid = 0 <;> by_cases hu : pwd.uid = 0 <;> simp [hg, hu, hroot, Identity.root]

theorem exec_started {exitCode : Int} {lines : List String}
    (h : sys.exec command = some (exitCode, lines)) :
    ∃ output, exec sys command s = .ok exitCode { s with
      output, executed := s.executed ++ [(command, s.identity.forgetPrivileges)] } := by
  unfold exec
  rw [h]
  exact ⟨_, rfl⟩

theorem exec_not_started (h : sys.exec command = none) : exec sys command s = .ok (-1) s := by
  unfold exec
  rw [h]
  rfl

/-- A command that is started has the identity that `privileges_down` leaves. -/
theorem executed_of_starts (server : Server) (h : Starts sys command) :
    (endState (unprivilegedExec sys server command) s).executed = s.executed ++
      [(command, (privilegesDown sys server.user s).identity.forgetPrivileges)] := by
  obtain ⟨hpath, hexec⟩ := h
  obtain ⟨⟨exitCode, lines⟩, hexec⟩ := Option.isSome_iff_exists.mp hexec
  unfold unprivilegedExec cmdExec
  rw [endState_modify_bind, endState_bind, orThrow_ok_bind (eq_ok_resultD "" hpath),
    modify_bind_apply]
  obtain ⟨output, hout⟩ := exec_started hexec (s := append
    (resultD "" sys.currentPath ++ "# " ++ command) (privilegesDown sys server.user s))
  rw [bind_of_ok hout, modify_bind_apply]
  show (privilegesRetrieve sys _).executed = _
  rw [privilegesRetrieve_executed, append_executed]
  simp only [append, privilegesDown_executed]

theorem executed_of_not_starts (server : Server) (h : ¬ Starts sys command) :
    (endState (unprivilegedExec sys server command) s).executed = s.executed := by
  unfold Starts at h
  unfold unprivilegedExec cmdExec
  rw [endState_modify_bind, endState_bind]
  cases hpath : sys.currentPath with
  | error e =>
    show (privilegesDown sys server.user s).executed = s.executed
    rw [privilegesDown_executed]
  | ok path =>
    rw [orThrow_ok_bind rfl, modify_bind_apply]
    cases hexec : sys.exec command with
    | some result => exact absurd ⟨by rw [hpath]; rfl, by rw [hexec]; rfl⟩ h
    | none =>
      rw [bind_of_ok (exec_not_started hexec), modify_bind_apply]
      show (privilegesRetrieve sys _).executed = _
      rw [privilegesRetrieve_executed, append_executed, append_executed, privilegesDown_executed]

/-- One command has been started. -/
theorem runsAs_iff_of_one {t : Shell} {e : String × Identity}
    (h : t.executed = s.executed ++ [e]) : RunsAs sys user s t ↔
      ∃ pwd, sys.getpwnam (cString user) = some pwd ∧ e.2.euid = pwd.uid ∧ e.2.egid = pwd.gid := by
  unfold RunsAs
  rw [h]
  constructor
  · rintro ⟨started, he, hall⟩
    rw [List.append_cancel_left_eq] at he
    exact hall e (he ▸ List.mem_singleton_self e)
  · exact fun hpwd => ⟨[e], rfl, fun e' he => List.mem_singleton.mp he ▸ hpwd⟩

theorem runsAs_of_none {t : Shell} (h : t.executed = s.executed) : RunsAs sys user s t :=
  ⟨[], by rw [h, List.append_nil], fun e he => absurd he List.not_mem_nil⟩

/-- An id that has been asked for is there if it is root's or can be set. -/
theorem id_eq_iff {set : Nat → Bool} {id : Nat} :
    (if set id then id else 0) = id ↔ id = 0 ∨ set id = true := by
  by_cases h : set id = true
  · simp [h]
  · simp [h, eq_comm]

/-- `privileges_down` leaves the ids of the user, if there is one and they can be set. -/
theorem privilegesDown_iff (hu : user ≠ "") (hroot : s.identity = Identity.root) :
    (∃ pwd, sys.getpwnam (cString user) = some pwd ∧
      (privilegesDown sys user s).identity.euid = pwd.uid ∧
      (privilegesDown sys user s).identity.egid = pwd.gid) ↔ Switches sys user := by
  unfold Switches
  apply exists_congr
  intro pwd
  apply and_congr_right
  intro hpwd
  obtain ⟨hgid, huid⟩ := privilegesDown_ids hroot hu hpwd
  rw [hgid, huid, id_eq_iff, id_eq_iff]
  exact and_comm

/-- **The identity of a command.** For a server with a user and a daemon that runs as root: the
command runs with the effective ids of that user if it runs, exactly if no process is started for
it or the user exists and each of its ids is root's or can be set. -/
theorem unprivilegedExec_iff (server : Server) (hu : server.user ≠ "")
    (hroot : s.identity = Identity.root) :
    RunsAs sys server.user s (endState (unprivilegedExec sys server command) s) ↔
      (Starts sys command → Switches sys server.user) := by
  by_cases hstarts : Starts sys command
  · have hiff : RunsAs sys server.user s (endState (unprivilegedExec sys server command) s) ↔
        Switches sys server.user :=
      (runsAs_iff_of_one (executed_of_starts server hstarts)).trans (privilegesDown_iff hu hroot)
    rw [hiff]
    exact ⟨fun h _ => h, fun h => h hstarts⟩
  · exact iff_of_true (runsAs_of_none (executed_of_not_starts server hstarts))
      fun h => absurd h hstarts

/-- A server whose user is `game`. -/
def gameServer : Server := { GameServersList.plainServer 1 with user := "game" }

/-- A host with these accounts on which every call succeeds. -/
def host (getpwnam : String → Option Passwd) : HostSystem :=
  { getpwnam, setegid := fun _ => true, seteuid := fun _ => true, currentPath := .ok "/srv",
    exec := fun _ => some (0, []) }

def rootShell : Shell := { identity := .root, output := [], executed := [] }

theorem command_as_user :
    RunsAs (host fun name => if name = "game" then some ⟨1000, 1000⟩ else none) "game" rootShell
      (endState (unprivilegedExec
        (host fun name => if name = "game" then some ⟨1000, 1000⟩ else none) gameServer "id")
        rootShell) :=
  (unprivilegedExec_iff gameServer (by decide) rfl).mpr fun _ =>
    ⟨⟨1000, 1000⟩, by decide, .inr rfl, .inr rfl⟩

/-- Where there is no user `game` the command runs as root. -/
theorem command_as_root :
    ¬ ∀ (sys : HostSystem) (server : Server) (command : String) (s : Shell), server.user ≠ "" →
      s.identity = Identity.root →
      RunsAs sys server.user s (endState (unprivilegedExec sys server command) s) := by
  intro h
  obtain ⟨started, he, hall⟩ := h (host fun _ => none) gameServer "id" rootShell (by decide) rfl
  obtain rfl : started = [("id", Identity.root)] := he.symm
  obtain ⟨pwd, hpwd, -⟩ := hall _ (List.mem_singleton_self _)
  cases hpwd

end Shell

end GameAP
