import GameAP.Commands.GameServerCmd
import GameAP.Commands.ReplaceShortcodes
import GameAP.Commands.UnprivilegedExec

/-!
# The identity that a command leaves

`start`, `stop`, `restart` and `status` in the daemon process, with its identity around each call
of `cmd_exec`. An exception that leaves `cmd_exec` skips `privileges_retrieve` and is caught by
`execute`: `ids_restored_iff` says when the daemon has the ids from before the command again.
`execute_follows`: the result and the settings of the server are those of `GameServerCmd.execute`.
-/

namespace GameAP

open Lib

namespace Shell

/-- `unprivileged_exec`, whatever is executed. -/
def unprivileged (sys : HostSystem) (user : String) (exec : EStateM String Shell Int) :
    EStateM String Shell Int := do
  modify (privilegesDown sys user)
  let result ← exec
  modify (privilegesRetrieve sys)
  return result

end Shell

/-- What a call of `cmd_exec` comes to: the lines it appends to the output, and the exit code or
the exception that leaves it. -/
structure CmdExec where
  lines : List String
  result : Except String Int

def CmdExec.run (c : CmdExec) : EStateM String Shell Int := do
  modify fun s => { s with output := s.output ++ c.lines }
  orThrow c.result

theorem Shell.unprivilegedExec_eq (sys : HostSystem) (server : Server) (command : String) :
    unprivilegedExec sys server command =
      unprivileged sys server.user (cmdExec sys command) := rfl

/-- `cmd_exec` on a host is such a call, but for the record of what has been started. -/
theorem Shell.cmdExec_eq (sys : HostSystem) (command : String) (s : Shell) :
    ∃ (c : CmdExec) (executed : List (String × Identity)),
      cmdExec sys command s = c.run { s with executed } := by
  unfold cmdExec CmdExec.run
  cases hpath : sys.currentPath with
  | error what =>
    refine ⟨{ lines := [], result := .error what }, s.executed, ?_⟩
    rw [modify_bind_apply, List.append_nil]
    rfl
  | ok path =>
    rw [orThrow_ok_bind rfl, modify_bind_apply]
    cases hexec : sys.exec command with
    | none =>
      refine ⟨{ lines := [path ++ "# " ++ command] ++ ["\nExited with -1\n"], result := .ok (-1) },
        s.executed, ?_⟩
      rw [bind_of_ok (exec_not_started hexec), modify_bind_apply, modify_bind_apply,
        ← List.append_assoc]
      rfl
    | some result =>
      obtain ⟨exitCode, lines⟩ := result
      have hrun : exec sys command (append (path ++ "# " ++ command) s) =
          .ok exitCode { append (path ++ "# " ++ command) s with
            output := s.output ++ [path ++ "# " ++ command] ++ lines
            executed := s.executed ++ [(command, s.identity.forgetPrivileges)] } := by
        unfold exec
        rw [hexec]
        rfl
      refine ⟨{ lines := [path ++ "# " ++ command] ++ lines ++
          ["\nExited with " ++ toString exitCode ++ "\n"], result := .ok exitCode },
        s.executed ++ [(command, s.identity.forgetPrivileges)], ?_⟩
      rw [bind_of_ok hrun, modify_bind_apply, modify_bind_apply, ← List.append_assoc,
        ← List.append_assoc]
      rfl

namespace GameServerCmd

/-- The commands that only run scripts; a kill is a stop. -/
inductive ScriptCommand where
  | start
  | stop
  | restart
  | status
  deriving DecidableEq, Repr

def ScriptCommand.command : ScriptCommand → Command
  | start => .start
  | stop => .stop
  | restart => .restart
  | status => .status

end GameServerCmd

/-- What a command finds. -/
structure CmdEnv where
  sys : HostSystem
  ds : DedicatedServer
  serverId : Nat
  /-- the `n`th call of `cmd_exec` -/
  cmdExec : Nat → String → CmdExec
  /-- `pid.txt` names a process that is there -/
  pidActive : Bool

/-- The daemon process while it executes a command. -/
structure CmdProcess where
  server : Server
  shell : Shell
  /-- not part of the daemon: how often `cmd_exec` has been called -/
  calls : Nat

namespace CmdProcess

open GameServerCmd (ScriptCommand replaceShortcodes)

abbrev ProcessM := EStateM String CmdProcess

variable (env : CmdEnv)

def startCommand (server : Server) : String :=
  replaceShortcodes env.ds env.serverId server
    (strReplace "{command}" server.startCommand env.ds.scriptStart)

def stopCommand (server : Server) : String :=
  replaceShortcodes env.ds env.serverId server env.ds.scriptStop

def statusCommand (server : Server) : String :=
  replaceShortcodes env.ds env.serverId server env.ds.scriptStatus

def unprivilegedExec (command : String) : ProcessM Int := fun p =>
  match Shell.unprivileged env.sys p.server.user (env.cmdExec p.calls command).run p.shell with
  | .ok result shell => .ok result { p with shell, calls := p.calls + 1 }
  | .error what shell => .error what { p with shell, calls := p.calls + 1 }

def start : ProcessM Bool := do
  let command := startCommand env (← get).server
  modify fun p =>
    if Server.isOn (p.server.getSetting "autostart") then
      { p with server := p.server.setSetting "autostart_current" "1" }
    else p
  let result ← unprivilegedExec env command
  return result == 0

def status : ProcessM Bool := do
  let command := statusCommand env (← get).server
  if 0 < command.length then
    let result ← unprivilegedExec env command
    return result == 0
  else return env.pidActive

def stop : ProcessM Bool := do
  let command := stopCommand env (← get).server
  modify fun p =>
    if p.server.autostart then { p with server := p.server.setSetting "autostart_current" "0" }
    else p
  let result ← unprivilegedExec env command
  return result == 0

def restart : ProcessM Bool := do
  let stopResult ← if ← status env then stop env else pure true
  if stopResult then start env else return false

def run : ScriptCommand → ProcessM Bool
  | .start => start env
  | .stop => stop env
  | .restart => restart env
  | .status => status env

/-- `execute` for a server that is there: `m_result`, and the process when it has returned. -/
def execute (command : ScriptCommand) (server : Server) (shell : Shell) : Bool × CmdProcess :=
  match run env command { server, shell, calls := 0 } with
  | .ok result t => (result, t)
  | .error what t =>
    (false, { t with
      shell := { t.shell with output := t.shell.output ++ ["Unable to install server", what] } })

/-! ## One call -/

variable {env} {server : Server} {n : Nat} {p : CmdProcess} {α β : Type}

/-- `setegid` and `seteuid` succeed for the ids of every account, and for those of root. -/
structure Permits (sys : HostSystem) : Prop where
  accounts : ∀ name pwd, sys.getpwnam name = some pwd →
    sys.setegid pwd.gid = true ∧ sys.seteuid pwd.uid = true
  root : sys.setegid 0 = true ∧ sys.seteuid 0 = true

/-- There are no other ids than those of root to change to. -/
def KeepsRoot (sys : HostSystem) (user : String) : Prop :=
  user = "" ∨ ∀ pwd, sys.getpwnam (cString user) = some pwd → pwd.uid = 0 ∧ pwd.gid = 0

/-- The identity between `privileges_down` and `privileges_retrieve`. -/
def Lowered (sys : HostSystem) (user : String) (p : CmdProcess) : Prop :=
  ∃ s : Shell, s.identity = .root ∧ p.shell.identity = (Shell.privilegesDown sys user s).identity

theorem privilegesDown_real {sys : HostSystem} {user : String} {s : Shell}
    (h : s.identity = .root) : (Shell.privilegesDown sys user s).identity.uid = 0 ∧
      (Shell.privilegesDown sys user s).identity.gid = 0 := by
  unfold Shell.privilegesDown
  split
  · rw [h]
    exact ⟨rfl, rfl⟩
  · split
    · rw [h]
      exact ⟨rfl, rfl⟩
    · simp only [Shell.setegid, Shell.seteuid]
      split_ifs <;> simp [h, Identity.root]

theorem privilegesRetrieve_root {sys : HostSystem} {s : Shell} (hsys : Permits sys)
    (h : s.identity.uid = 0 ∧ s.identity.gid = 0) :
    (Shell.privilegesRetrieve sys s).identity = .root := by
  obtain ⟨⟨uid, euid, gid, egid⟩, output, executed⟩ := s
  obtain ⟨rfl, rfl⟩ : uid = 0 ∧ gid = 0 := h
  obtain ⟨hgid, huid⟩ := hsys.root
  unfold Shell.privilegesRetrieve Shell.setegid Shell.seteuid
  by_cases hu : euid = 0 <;> by_cases hg : egid = 0 <;> simp [hu, hg, hgid, huid, Identity.root]

/-- The server as it was, but for its settings. -/
def SameServer (server : Server) (p : CmdProcess) : Prop :=
  ∃ settings, p.server = { server with settings }

/-- The command goes on: as root, behind `n` calls. -/
structure Ready (server : Server) (n : Nat) (p : CmdProcess) : Prop where
  identity : p.shell.identity = .root
  calls : p.calls = n
  server : SameServer server p

/-- A part of the command has the outcome `x`. It ends in a state with `Q`, or by an exception that
leaves the identity lowered. -/
def Ends (env : CmdEnv) (server : Server) (m : ProcessM α) (p : CmdProcess) (x : Except String α)
    (Q : CmdProcess → Prop) : Prop :=
  match m p with
  | .ok a t => x = .ok a ∧ Q t
  | .error what t => x = .error what ∧ Lowered env.sys server.user t

theorem Ends.pure {a : α} {Q : CmdProcess → Prop} (h : Q p) :
    Ends env server (pure a) p (.ok a) Q := ⟨rfl, h⟩

theorem Ends.get_bind {k : CmdProcess → ProcessM α} {x : Except String α} {Q : CmdProcess → Prop}
    (h : Ends env server (k p) p x Q) : Ends env server (get >>= k) p x Q := h

theorem Ends.modify_bind {g : CmdProcess → CmdProcess} {k : PUnit → ProcessM α}
    {x : Except String α} {Q : CmdProcess → Prop} (h : Ends env server (k ⟨⟩) (g p) x Q) :
    Ends env server (modify g >>= k) p x Q := h

theorem Ends.mono {m : ProcessM α} {x : Except String α} {Q R : CmdProcess → Prop}
    (hm : Ends env server m p x Q) (h : ∀ t, Q t → R t) : Ends env server m p x R := by
  unfold Ends at hm ⊢
  cases hr : m p with
  | ok a t =>
    rw [hr] at hm
    exact ⟨hm.1, h t hm.2⟩
  | error what t =>
    rw [hr] at hm
    exact hm

theorem Ends.bind {m : ProcessM α} {k : α → ProcessM β} {x : Except String α}
    {f : α → Except String β} {Q R : CmdProcess → Prop} (hm : Ends env server m p x Q)
    (hk : ∀ a t, x = .ok a → Q t → Ends env server (k a) t (f a) R) :
    Ends env server (m >>= k) p (x >>= f) R := by
  unfold Ends at hm
  cases hr : m p with
  | ok a t =>
    rw [hr] at hm
    obtain ⟨rfl, hq⟩ := hm
    show Ends env server (m >>= k) p (f a) R
    unfold Ends
    rw [bind_of_ok hr]
    exact hk a t rfl hq
  | error what t =>
    rw [hr] at hm
    obtain ⟨rfl, hlow⟩ := hm
    unfold Ends
    rw [bind_of_error hr]
    exact ⟨rfl, hlow⟩

/-- A call ends as `cmd_exec` does and leaves the server alone. -/
theorem unprivilegedExec_apply (command : String) (p : CmdProcess) : ∃ shell,
    unprivilegedExec env command p =
      orThrow (env.cmdExec p.calls command).result { p with shell, calls := p.calls + 1 } := by
  unfold unprivilegedExec Shell.unprivileged CmdExec.run
  rw [modify_bind_apply]
  cases (env.cmdExec p.calls command).result with
  | ok code => exact ⟨_, rfl⟩
  | error what => exact ⟨_, rfl⟩

/-- **One call.** The identity is root's again if `cmd_exec` returns, and stays lowered if not. -/
theorem unprivilegedExec_ends (hsys : Permits env.sys) (command : String)
    (h : Ready server n p) :
    Ends env server (unprivilegedExec env command) p (env.cmdExec n command).result
      (Ready server (n + 1)) := by
  obtain ⟨hid, rfl, hserver⟩ := h
  have huser : p.server.user = server.user := by
    obtain ⟨settings, hs⟩ := hserver
    rw [hs]
  unfold Ends unprivilegedExec Shell.unprivileged CmdExec.run
  rw [modify_bind_apply]
  cases hr : (env.cmdExec p.calls command).result with
  | ok code =>
    refine ⟨rfl, privilegesRetrieve_root hsys ?_, rfl, hserver⟩
    exact privilegesDown_real hid
  | error what =>
    refine ⟨rfl, p.shell, hid, ?_⟩
    rw [← huser]

/-! ## The commands -/

/-- A script has exited with 0. -/
def succeeded (result : Except String Int) : Except String Bool := do
  let code ← result
  return code == 0

theorem exec_ends (hsys : Permits env.sys) (command : String) (h : Ready server n p) :
    Ends env server (do
      let result ← unprivilegedExec env command
      return result == 0) p (succeeded (env.cmdExec n command).result) (Ready server (n + 1)) :=
  (unprivilegedExec_ends hsys command h).bind fun _ _ _ ht => .pure ht

theorem SameServer.setSetting (h : SameServer server p) (name val : String) :
    SameServer server { p with server := p.server.setSetting name val } := by
  obtain ⟨settings, hs⟩ := h
  unfold SameServer Server.setSetting
  rw [hs]
  split
  · exact ⟨_, rfl⟩
  · exact ⟨_, rfl⟩

theorem Ready.ite {c : Prop} [Decidable c] (h : Ready server n p) (name val : String) :
    Ready server n
      (if c then { p with server := p.server.setSetting name val } else p) := by
  split
  · exact ⟨h.identity, h.calls, h.server.setSetting name val⟩
  · exact h

/-- The texts of the commands are those of the record, whatever the settings are. -/
theorem SameServer.commands (h : SameServer server p) :
    startCommand env p.server = startCommand env server ∧
      stopCommand env p.server = stopCommand env server ∧
      statusCommand env p.server = statusCommand env server := by
  obtain ⟨settings, hs⟩ := h
  rw [hs]
  exact ⟨rfl, rfl, rfl⟩

theorem start_ends (hsys : Permits env.sys) (h : Ready server n p) :
    Ends env server (start env) p
      (succeeded (env.cmdExec n (startCommand env server)).result) (Ready server (n + 1)) := by
  unfold start
  refine Ends.get_bind (Ends.modify_bind ?_)
  rw [h.server.commands.1]
  exact exec_ends hsys _ (h.ite _ _)

theorem stop_ends (hsys : Permits env.sys) (h : Ready server n p) :
    Ends env server (stop env) p
      (succeeded (env.cmdExec n (stopCommand env server)).result) (Ready server (n + 1)) := by
  unfold stop
  refine Ends.get_bind (Ends.modify_bind ?_)
  rw [h.server.commands.2.1]
  exact exec_ends hsys _ (h.ite _ _)

/-- How often `status` calls `cmd_exec`. -/
def statusCalls (env : CmdEnv) (server : Server) : Nat :=
  if 0 < (statusCommand env server).length then 1 else 0

def statusResult (env : CmdEnv) (server : Server) : Except String Bool :=
  if 0 < (statusCommand env server).length then
    succeeded (env.cmdExec 0 (statusCommand env server)).result
  else .ok env.pidActive

theorem status_ends (hsys : Permits env.sys) (h : Ready server 0 p) :
    Ends env server (status env) p (statusResult env server)
      (Ready server (statusCalls env server)) := by
  unfold status statusResult statusCalls
  refine Ends.get_bind ?_
  rw [h.server.commands.2.2]
  dsimp only
  split
  · exact exec_ends hsys _ h
  · exact .pure h

/-- How a command ends, by what its calls of `cmd_exec` come to. -/
def result (env : CmdEnv) (server : Server) : ScriptCommand → Except String Bool
  | .start => succeeded (env.cmdExec 0 (startCommand env server)).result
  | .stop => succeeded (env.cmdExec 0 (stopCommand env server)).result
  | .status => statusResult env server
  | .restart => do
    let n := statusCalls env server
    if ← statusResult env server then
      if ← succeeded (env.cmdExec n (stopCommand env server)).result then
        succeeded (env.cmdExec (n + 1) (startCommand env server)).result
      else return false
    else succeeded (env.cmdExec n (startCommand env server)).result

/-- The identity is root's. -/
abbrev AsRoot (p : CmdProcess) : Prop := p.shell.identity = .root

theorem restart_ends (hsys : Permits env.sys) (h : Ready server 0 p) :
    Ends env server (restart env) p (result env server .restart) AsRoot := by
  refine (status_ends hsys h).bind fun active t _ ht => ?_
  cases active with
  | false => exact (start_ends hsys ht).mono fun _ => Ready.identity
  | true =>
    refine (stop_ends hsys ht).bind fun stopped t _ ht => ?_
    cases stopped with
    | false => exact .pure ht.identity
    | true => exact (start_ends hsys ht).mono fun _ => Ready.identity

theorem run_ends (hsys : Permits env.sys) (command : ScriptCommand) (h : Ready server 0 p) :
    Ends env server (run env command) p (result env server command) AsRoot := by
  cases command with
  | start => exact (start_ends hsys h).mono fun _ => Ready.identity
  | stop => exact (stop_ends hsys h).mono fun _ => Ready.identity
  | restart => exact restart_ends hsys h
  | status => exact (status_ends hsys h).mono fun _ => Ready.identity

/-! ## When the ids are restored -/

/-- The `n`th call of `cmd_exec` throws. -/
def Throws (env : CmdEnv) (n : Nat) (command : String) : Prop :=
  (env.cmdExec n command).result.toBool = false

/-- `status` finds the server active, or not. -/
def Finds (env : CmdEnv) (server : Server) (active : Bool) : Prop :=
  if 0 < (statusCommand env server).length then
    ∃ code, (env.cmdExec 0 (statusCommand env server)).result = .ok code ∧ (code == 0) = active
  else env.pidActive = active

/-- A call of `cmd_exec` that the command comes to throws. -/
def Interrupted (env : CmdEnv) (server : Server) : ScriptCommand → Prop
  | .start => Throws env 0 (startCommand env server)
  | .stop => Throws env 0 (stopCommand env server)
  | .status =>
    0 < (statusCommand env server).length ∧ Throws env 0 (statusCommand env server)
  | .restart =>
    let n := statusCalls env server
    (0 < (statusCommand env server).length ∧ Throws env 0 (statusCommand env server)) ∨
      (Finds env server false ∧ Throws env n (startCommand env server)) ∨
      (Finds env server true ∧ (Throws env n (stopCommand env server) ∨
        ((env.cmdExec n (stopCommand env server)).result = .ok 0 ∧
          Throws env (n + 1) (startCommand env server))))

theorem succeeded_toBool (x : Except String Int) : (succeeded x).toBool = x.toBool := by
  cases x <;> rfl

theorem succeeded_eq_ok {x : Except String Int} {b : Bool} :
    succeeded x = .ok b ↔ ∃ code, x = .ok code ∧ (code == 0) = b := by
  cases x with
  | ok code =>
    constructor
    · intro h
      exact ⟨code, rfl, Except.ok.inj h⟩
    · rintro ⟨code', hc, rfl⟩
      cases hc
      rfl
  | error what =>
    constructor
    · intro h
      cases h
    · rintro ⟨code', hc, -⟩
      cases hc

theorem succeeded_eq_ok_true {x : Except String Int} : succeeded x = .ok true ↔ x = .ok 0 := by
  rw [succeeded_eq_ok]
  constructor
  · rintro ⟨code, rfl, hcode⟩
    rw [beq_iff_eq.mp hcode]
  · exact fun h => ⟨0, h, rfl⟩

theorem statusResult_eq_ok {active : Bool} :
    statusResult env server = .ok active ↔ Finds env server active := by
  unfold statusResult Finds
  split
  · exact succeeded_eq_ok
  · rw [Except.ok.injEq]

theorem statusResult_toBool : (statusResult env server).toBool = false ↔
    0 < (statusCommand env server).length ∧ Throws env 0 (statusCommand env server) := by
  unfold statusResult Throws
  split
  · next h => rw [succeeded_toBool, and_iff_right h]
  · next h => exact iff_of_false (fun hf => by cases hf) fun hf => h hf.1

/-- A stop, and a start behind it that succeeds. -/
theorem stop_start_toBool {stopped started : Except String Int} :
    (do if ← succeeded stopped then succeeded started else return false).toBool = false ↔
      stopped.toBool = false ∨ (stopped = .ok 0 ∧ started.toBool = false) := by
  rw [toBool_bind_eq_false, succeeded_toBool, Bool.exists_bool, succeeded_eq_ok_true]
  refine or_congr_right ((or_iff_right ?_).trans (and_congr_right fun _ => ?_))
  · exact fun h => nomatch h.2
  · rw [if_pos rfl, succeeded_toBool]

/-- A command is interrupted if it ends by an exception. -/
theorem interrupted_iff (command : ScriptCommand) :
    Interrupted env server command ↔ (result env server command).toBool = false := by
  cases command with
  | start | stop =>
    unfold result
    rw [succeeded_toBool]
    rfl
  | status => exact statusResult_toBool.symm
  | restart =>
    unfold result
    rw [toBool_bind_eq_false, statusResult_toBool, Bool.exists_bool, statusResult_eq_ok,
      statusResult_eq_ok]
    refine or_congr_right (or_congr (and_congr_right fun _ => ?_) (and_congr_right fun _ => ?_))
    · rw [if_neg Bool.false_ne_true, succeeded_toBool]
      rfl
    · exact stop_start_toBool.symm

/-- The lowered identity has root's ids if there are no others to change to. -/
theorem lowered_ids_iff {user : String} (hsys : Permits env.sys) (h : Lowered env.sys user p) :
    (p.shell.identity.euid = 0 ∧ p.shell.identity.egid = 0) ↔ KeepsRoot env.sys user := by
  obtain ⟨s, hroot, hlow⟩ := h
  rw [hlow]
  unfold KeepsRoot
  by_cases hu : user = ""
  · unfold Shell.privilegesDown
    rw [if_pos hu, hroot]
    exact iff_of_true ⟨rfl, rfl⟩ (.inl hu)
  · cases hpwd : env.sys.getpwnam (cString user) with
    | none =>
      unfold Shell.privilegesDown
      rw [if_neg hu, hpwd, hroot]
      exact iff_of_true ⟨rfl, rfl⟩ (.inr fun _ hf => nomatch hf)
    | some pwd =>
      obtain ⟨hgid, huid⟩ := hsys.accounts _ pwd hpwd
      obtain ⟨hegid, heuid⟩ := Shell.privilegesDown_ids hroot hu hpwd
      rw [hegid, heuid, hgid, huid]
      simp only [if_true, hu, false_or, Option.some.injEq, forall_eq']

theorem execute_shell (command : ScriptCommand) (server : Server) (shell : Shell) :
    (execute env command server shell).2.shell.identity =
      (endState (run env command) { server, shell, calls := 0 }).shell.identity := by
  unfold execute endState
  cases run env command { server, shell, calls := 0 } <;> rfl

/-- **The identity behind a command.** For a daemon that runs as root and may set the ids of every
account: when `execute` returns, the effective ids are those from before the call exactly if no
call of `cmd_exec` that the command has come to has thrown, or the user of the server has no other
ids than root. -/
theorem ids_restored_iff (hsys : Permits env.sys) (command : ScriptCommand) (server : Server)
    (shell : Shell) (hroot : shell.identity = .root) :
    ((execute env command server shell).2.shell.identity.euid = shell.identity.euid ∧
        (execute env command server shell).2.shell.identity.egid = shell.identity.egid) ↔
      ¬ Interrupted env server command ∨ KeepsRoot env.sys server.user := by
  have hready : Ready server 0 { server, shell, calls := 0 } := ⟨hroot, rfl, server.settings, rfl⟩
  have hends := run_ends hsys command hready
  rw [execute_shell, hroot, interrupted_iff]
  unfold Ends at hends
  cases hr : run env command { server, shell, calls := 0 } with
  | ok b t =>
    rw [hr] at hends
    rw [endState_of_ok hr, hends.1, hends.2]
    exact iff_of_true ⟨rfl, rfl⟩ (.inl Bool.true_eq_false.mp)
  | error what t =>
    rw [hr] at hends
    rw [endState_of_error hr, hends.1]
    exact (lowered_ids_iff hsys hends.2).trans
      (or_iff_right fun h => h rfl).symm

/-- A host with a user `game`, on which every call of `cmd_exec` comes to this. -/
def envWith (result : Except String Int) : CmdEnv :=
  { sys := Shell.host fun name => if name = "game" then some ⟨1000, 1000⟩ else none,
    ds := .idleHost, serverId := 1, cmdExec := fun _ _ => { lines := [], result },
    pidActive := true }

theorem permits_envWith (result : Except String Int) : Permits (envWith result).sys :=
  { accounts := fun _ _ _ => ⟨rfl, rfl⟩, root := ⟨rfl, rfl⟩ }

theorem ids_restored_restart :
    (execute (envWith (.ok 0)) .restart Shell.gameServer
        Shell.rootShell).2.shell.identity.euid = 0 ∧
      (execute (envWith (.ok 0)) .restart Shell.gameServer
        Shell.rootShell).2.shell.identity.egid = 0 :=
  (ids_restored_iff (permits_envWith (.ok 0)) .restart Shell.gameServer Shell.rootShell rfl).mpr
    (.inl (by simp [Interrupted, Throws, envWith, Except.toBool]))

/-- When `cmd_exec` throws, the daemon goes on with the ids of `game`. -/
theorem ids_left :
    ¬ ∀ (env : CmdEnv) (command : ScriptCommand) (server : Server) (shell : Shell),
      Permits env.sys → shell.identity = .root →
      (execute env command server shell).2.shell.identity.euid = shell.identity.euid ∧
        (execute env command server shell).2.shell.identity.egid = shell.identity.egid := by
  intro h
  have hids := h (envWith (.error "current_path")) .start Shell.gameServer Shell.rootShell
    (permits_envWith _) rfl
  have heuid : (execute (envWith (.error "current_path")) .start Shell.gameServer
      Shell.rootShell).2.shell.identity.euid = 1000 := rfl
  rw [heuid] at hids
  cases hids.1

/-! ## The scripts of a command -/

open GameServerCmd (Execution ExecM Outcome Script runScript)

/-- The same result and the same server; `n` scripts have been run, if there is no exception. -/
def Agrees (n : Nat) : EStateM.Result String CmdProcess α → EStateM.Result String Execution α → Prop
  | .ok a t, .ok a' e => a = a' ∧ t.server = e.server ∧ e.scripts.length = n
  | .error what t, .error what' e => what = what' ∧ t.server = e.server
  | _, _ => False

/-- The scripts behind the first `n` have these results. -/
def Gives (outcome : Outcome) (n : Nat) (results : List (Except String Bool)) : Prop :=
  ∀ i r, results[i]? = some r → outcome (n + i) = r

/-- `m` does what `m'` does when its scripts have certain results. -/
def Follows (m : ProcessM α) (m' : Outcome → ExecM α) (p : CmdProcess) : Prop :=
  ∃ results : List (Except String Bool), ∀ outcome e, p.server = e.server →
    Gives outcome e.scripts.length results →
    Agrees (e.scripts.length + results.length) (m p) (m' outcome e)

theorem Gives.of_append {outcome : Outcome} {results more : List (Except String Bool)}
    (h : Gives outcome n (results ++ more)) :
    Gives outcome n results ∧ Gives outcome (n + results.length) more := by
  constructor
  · intro i r hi
    exact h i r (by rw [List.getElem?_append_left (List.getElem?_eq_some_iff.mp hi).1, hi])
  · intro i r hi
    rw [Nat.add_assoc]
    exact h _ r (by rw [List.getElem?_append_right (Nat.le_add_right _ _),
      Nat.add_sub_cancel_left, hi])

theorem Follows.pure (a : α) : Follows (pure a) (fun _ => pure a) p :=
  ⟨[], fun _ _ hserver _ => ⟨rfl, hserver, rfl⟩⟩

theorem Follows.get_bind {k : CmdProcess → ProcessM α} {m' : Outcome → ExecM α}
    (h : Follows (k p) m' p) : Follows (get >>= k) m' p := h

theorem Follows.bind {m : ProcessM α} {m' : Outcome → ExecM α} {k : α → ProcessM β}
    {k' : Outcome → α → ExecM β} (hm : Follows m m' p)
    (hk : ∀ a t, Follows (k a) (fun outcome => k' outcome a) t) :
    Follows (m >>= k) (fun outcome => m' outcome >>= k' outcome) p := by
  obtain ⟨results, h⟩ := hm
  cases hr : m p with
  | ok a t =>
    obtain ⟨more, hmore⟩ := hk a t
    refine ⟨results ++ more, fun outcome e hserver hgives => ?_⟩
    obtain ⟨hhead, htail⟩ := hgives.of_append
    have hfirst := h outcome e hserver hhead
    rw [hr] at hfirst
    show Agrees _ ((m >>= k) p) ((m' outcome >>= k' outcome) e)
    cases hr' : m' outcome e with
    | ok a' e' =>
      rw [hr'] at hfirst
      obtain ⟨rfl, hserver', hlen⟩ := hfirst
      rw [bind_of_ok hr, bind_of_ok hr', List.length_append, ← Nat.add_assoc, ← hlen]
      exact hmore outcome e' hserver' (hlen ▸ htail)
    | error what e' =>
      rw [hr'] at hfirst
      exact hfirst.elim
  | error what t =>
    refine ⟨results, fun outcome e hserver hgives => ?_⟩
    have hfirst := h outcome e hserver hgives
    rw [hr] at hfirst
    show Agrees _ ((m >>= k) p) ((m' outcome >>= k' outcome) e)
    cases hr' : m' outcome e with
    | ok a' e' =>
      rw [hr'] at hfirst
      exact hfirst.elim
    | error what' e' =>
      rw [hr'] at hfirst
      rw [bind_of_error hr, bind_of_error hr']
      exact hfirst

/-- One script. -/
theorem follows_runScript {m : ProcessM Bool} {x : Except String Bool} {t : CmdProcess}
    (script : Script) (ht : t.server = p.server) (hm : m p = orThrow x t) :
    Follows m (fun outcome => runScript outcome script) p := by
  refine ⟨[x], fun outcome e hserver hgives => ?_⟩
  have hx : outcome e.scripts.length = x := hgives 0 x rfl
  have hrun : runScript outcome script e =
      orThrow x { e with scripts := e.scripts ++ [script] } := by
    unfold runScript
    rw [get_bind_apply, ← hx]
    rfl
  show Agrees _ (m p) (runScript outcome script e)
  rw [hm, hrun]
  cases x with
  | ok b => exact ⟨rfl, ht.trans hserver, List.length_append⟩
  | error what => exact ⟨rfl, ht.trans hserver⟩

theorem exec_follows (script : Script) (command : String) (p : CmdProcess) :
    Follows (do
      let result ← unprivilegedExec env command
      return result == 0) (fun outcome => runScript outcome script) p := by
  obtain ⟨shell, hexec⟩ := unprivilegedExec_apply command p
  refine follows_runScript (x := succeeded (env.cmdExec p.calls command).result)
    (t := { p with shell, calls := p.calls + 1 }) script rfl ?_
  cases hr : (env.cmdExec p.calls command).result with
  | ok code =>
    rw [hr] at hexec
    exact bind_of_ok hexec
  | error what =>
    rw [hr] at hexec
    exact bind_of_error hexec

/-- The setting that is made first. -/
theorem Follows.modify {m : ProcessM Bool} {m' : Outcome → ExecM Bool} {f : Server → Server}
    {g : CmdProcess → CmdProcess} {g' : Execution → Execution}
    (hg : ∀ p, (g p).server = f p.server)
    (hg' : ∀ e, (g' e).server = f e.server ∧ (g' e).scripts = e.scripts)
    (h : Follows m m' (g p)) :
    Follows (modify g >>= fun _ => m) (fun outcome => modify g' >>= fun _ => m' outcome) p := by
  obtain ⟨results, h⟩ := h
  refine ⟨results, fun outcome e hserver hgives => ?_⟩
  obtain ⟨hs, hlen⟩ := hg' e
  have hnext := h outcome (g' e) (by rw [hg, hs, hserver]) (by rwa [hlen])
  rw [hlen] at hnext
  exact hnext

theorem start_follows (p : CmdProcess) : Follows (start env) GameServerCmd.start p := by
  unfold start
  refine Follows.get_bind ?_
  generalize startCommand env p.server = command
  exact Follows.modify (f := fun s => if Server.isOn (s.getSetting "autostart") then
      s.setSetting "autostart_current" "1" else s)
    (fun p => by split <;> rfl) (fun e => by split <;> exact ⟨rfl, rfl⟩)
    (exec_follows .start command _)

theorem stop_follows (p : CmdProcess) : Follows (stop env) GameServerCmd.stop p := by
  unfold stop
  refine Follows.get_bind ?_
  generalize stopCommand env p.server = command
  exact Follows.modify
    (f := fun s => if s.autostart then s.setSetting "autostart_current" "0" else s)
    (fun p => by split <;> rfl) (fun e => by split <;> exact ⟨rfl, rfl⟩)
    (exec_follows .stop command _)

/-- The look at `pid.txt` counts as a script. -/
theorem status_follows (p : CmdProcess) : Follows (status env) GameServerCmd.status p := by
  unfold status
  refine Follows.get_bind ?_
  generalize statusCommand env p.server = command
  dsimp only
  split
  · exact exec_follows .status command p
  · exact follows_runScript (x := .ok env.pidActive) .status rfl rfl

theorem restart_follows (p : CmdProcess) : Follows (restart env) GameServerCmd.restart p := by
  refine (status_follows p).bind fun active t => ?_
  cases active with
  | false => exact start_follows t
  | true =>
    refine (stop_follows t).bind fun stopped t => ?_
    cases stopped with
    | false => exact .pure false
    | true => exact start_follows t

theorem run_follows (command : ScriptCommand) (p : CmdProcess) :
    Follows (run env command) (fun outcome => GameServerCmd.run outcome command.command) p := by
  cases command with
  | start => exact start_follows p
  | stop => exact stop_follows p
  | restart => exact restart_follows p
  | status => exact status_follows p

/-- **The same command.** For certain results of the scripts, `GameServerCmd.execute` has the same
result and leaves the same server. -/
theorem execute_follows (command : ScriptCommand) (server : Server) (shell : Shell) :
    ∃ outcome, (execute env command server shell).1 =
        (GameServerCmd.execute outcome command.command server).1 ∧
      (execute env command server shell).2.server =
        (GameServerCmd.execute outcome command.command server).2.server := by
  obtain ⟨results, h⟩ : Follows (run env command)
      (fun outcome => GameServerCmd.run outcome command.command) { server, shell, calls := 0 } :=
    run_follows command _
  have hgives : Gives (fun i => results[i]?.getD (.ok true)) 0 results := fun i r hi => by
    dsimp only
    rw [Nat.zero_add, hi, Option.getD_some]
  have hagrees : Agrees _ (run env command { server, shell, calls := 0 })
      (GameServerCmd.run (fun i => results[i]?.getD (.ok true)) command.command
        { server, scripts := [], output := [] }) := h _ _ rfl hgives
  refine ⟨fun i => results[i]?.getD (.ok true), ?_⟩
  unfold execute GameServerCmd.execute
  revert hagrees
  cases run env command { server, shell, calls := 0 } with
  | ok b t =>
    cases GameServerCmd.run _ command.command { server, scripts := [], output := [] } with
    | ok b' e => exact fun h => ⟨h.1, h.2.1⟩
    | error what e => exact False.elim
  | error what t =>
    cases GameServerCmd.run _ command.command { server, scripts := [], output := [] } with
    | ok b e => exact False.elim
    | error what' e => exact fun h => ⟨rfl, h.2⟩

end CmdProcess

end GameAP
