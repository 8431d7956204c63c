import GameAP.Commands.Cmd

/-!
# Executing the command of a game server

A command runs scripts on the host and changes the settings of its server. `Execution` is what it
has done so far; what each script returns, or that it throws, is asked of `outcome`. `execute`
works on one server and `executeOn` on a copy of the registry, that of the process which runs it.
`autostart_stop`: a stop leaves the server without autostart in that copy.
-/

namespace GameAP

open Lib

namespace GameServerCmd

/-- What a command runs on the host. -/
inductive Script where
  | start
  | status
  | stop
  /-- `GameServerInstaller::install_server` -/
  | install
  | delete
  deriving DecidableEq, Repr

structure Execution where
  server : Server
  scripts : List Script
  output : List String

abbrev ExecM := EStateM String Execution

/-- What the `n`th script that is run returns, or the text of the exception it throws. -/
abbrev Outcome := Nat → Except String Bool

variable (outcome : Outcome)

def runScript (script : Script) : ExecM Bool := do
  let e ← get
  set { e with scripts := e.scripts ++ [script] }
  orThrow (outcome e.scripts.length)

def append (line : String) : ExecM PUnit :=
  modify fun e => { e with output := e.output ++ [line] }

def start : ExecM Bool := do
  modify fun e =>
    if Server.isOn (e.server.getSetting "autostart") then
      { e with server := e.server.setSetting "autostart_current" "1" }
    else e
  runScript outcome .start

/-- The script of the host, or the look at `pid.txt`. -/
def status : ExecM Bool := runScript outcome .status

def stop : ExecM Bool := do
  modify fun e =>
    if e.server.autostart then { e with server := e.server.setSetting "autostart_current" "0" }
    else e
  runScript outcome .stop

def restart : ExecM Bool := do
  let stopResult ← if ← status outcome then stop outcome else pure true
  if stopResult then start outcome else return false

def update : ExecM Bool := do
  if ← status outcome then
    if !(← stop outcome) then
      append "Unable to stop server"
      return false
  runScript outcome .install

def remove : ExecM Bool := do
  if ← status outcome then
    if !(← stop outcome) then
      append "Unable to stop server"
      return false
  runScript outcome .delete

/-- The `switch` of `_execute`. -/
def run (command : Command) : ExecM Bool :=
  match command with
  | .start => start outcome
  | .stop | .kill => stop outcome
  | .restart => restart outcome
  | .update | .install => update outcome
  | .reinstall => do if ← remove outcome then update outcome else return false
  | .delete => remove outcome
  | .status => status outcome
  | .unknown | .pause | .unpause => do
    append "Invalid game_server_cmd command"
    return false

/-- `execute` for a server that is there: `m_result`, and what has been done. -/
def execute (command : Command) (server : Server) : Bool × Execution :=
  match run outcome command { server, scripts := [], output := [] } with
  | .ok result e => (result, e)
  | .error what e => (false, { e with output := e.output ++ ["Unable to install server", what] })

/-- What is left of a command after its execution. -/
structure Executed where
  result : Bool
  scripts : List Script
  output : List String
  deriving DecidableEq, Repr

/-- `execute` in a process whose registry is `g`. -/
def executeOn (cmd : GameServerCmd) (g : GameServersList) : Executed × GameServersList :=
  match if cmd.hasServer then g.serversList.lookup cmd.serverId else none with
  | none => ({ result := false, scripts := [], output := ["Invalid server"] }, g)
  | some server =>
    let (result, e) := execute outcome cmd.command server
    ({ result, scripts := e.scripts, output := e.output },
      { g with serversList := g.serversList.modify cmd.serverId fun _ => e.server })

variable {outcome}

/-! ## Settings -/

theorem endState_runScript (script : Script) (e : Execution) :
    (endState (runScript outcome script) e).server = e.server := by
  unfold runScript
  rw [endState_get_bind]
  show (endState (orThrow _) { e with scripts := e.scripts ++ [script] }).server = e.server
  rw [endState_orThrow]

theorem execute_server (command : Command) (server : Server) :
    (execute outcome command server).2.server =
      (endState (run outcome command) { server, scripts := [], output := [] }).server := by
  unfold execute endState
  cases run outcome command { server, scripts := [], output := [] } <;> rfl

section Preserves

variable {Q : Server → Prop}

theorem runScript_preserves (script : Script) :
    Preserves (fun e => Q e.server) (runScript outcome script) := fun e he => by
  show Q (endState (runScript outcome script) e).server
  rwa [endState_runScript]

theorem refuse_preserves (line : String) : Preserves (fun e => Q e.server) (do
    append line
    return false : ExecM Bool) :=
  Preserves.bind (Preserves.modify fun _ he => he) fun _ => Preserves.pure _

theorem start_preserves (hstart : ∀ s, Q s → Server.isOn (s.getSetting "autostart") = true →
    Q (s.setSetting "autostart_current" "1")) :
    Preserves (fun e => Q e.server) (start outcome) := by
  refine (Preserves.modify fun e he => ?_).bind fun _ => runScript_preserves _
  split
  · next hon => exact hstart _ he hon
  · exact he

theorem stop_preserves (hstop : ∀ s, Q s → Q (s.setSetting "autostart_current" "0")) :
    Preserves (fun e => Q e.server) (stop outcome) := by
  refine (Preserves.modify fun e he => ?_).bind fun _ => runScript_preserves _
  split
  · exact hstop _ he
  · exact he

/-- `update` and `remove` stop a server that is active, and give up if they cannot. -/
theorem guard_preserves (hstop : ∀ s, Q s → Q (s.setSetting "autostart_current" "0"))
    {k : ExecM Bool} (hk : Preserves (fun e => Q e.server) k) :
    Preserves (fun e => Q e.server) (do
      if ← status outcome then
        if !(← stop outcome) then
          append "Unable to stop server"
          return false
      k) :=
  Preserves.bind (runScript_preserves _) fun _ => Preserves.ite
    ((stop_preserves hstop).bind fun _ => Preserves.ite (refuse_preserves _) hk) hk

/-- What the two writes of the marker keep of the server, every command keeps. -/
theorem run_preserves
    (hstart : ∀ s, Q s → Server.isOn (s.getSetting "autostart") = true →
      Q (s.setSetting "autostart_current" "1"))
    (hstop : ∀ s, Q s → Q (s.setSetting "autostart_current" "0")) (command : Command) :
    Preserves (fun e => Q e.server) (run outcome command) := by
  have hstart' : Preserves (fun e => Q e.server) (start outcome) := start_preserves hstart
  have hstop' : Preserves (fun e => Q e.server) (stop outcome) := stop_preserves hstop
  have hupdate : Preserves (fun e => Q e.server) (update outcome) :=
    guard_preserves hstop (runScript_preserves _)
  have hremove : Preserves (fun e => Q e.server) (remove outcome) :=
    guard_preserves hstop (runScript_preserves _)
  cases command with
  | start => exact hstart'
  | stop | kill => exact hstop'
  | restart =>
    refine Preserves.bind (runScript_preserves _) fun b =>
      Preserves.ite (hstop'.bind fun b => ?_) ?_
    · exact Preserves.ite hstart' (Preserves.pure _)
    · exact hstart'
  | update | install => exact hupdate
  | reinstall => exact hremove.bind fun b => Preserves.ite hupdate (Preserves.pure _)
  | delete => exact hremove
  | status => exact runScript_preserves _
  | unknown | pause | unpause => exact refuse_preserves _

end Preserves

/-- The marker that a stop leaves. -/
theorem autostart_stopped (server : Server) :
    (server.setSetting "autostart_current" "0").autostart = false := by
  have hcur : (server.setSetting "autostart_current" "0").getSetting "autostart_current" = "0" :=
    Server.getSetting_setSetting _ _ _
  simp [Server.autostart, hcur, Server.isOn]

/-- **A stop switches autostart off**, whatever its script returns. -/
theorem autostart_stop (server : Server) :
    (execute outcome .stop server).2.server.autostart = false := by
  rw [execute_server]
  show (endState (stop outcome) { server, scripts := [], output := [] }).server.autostart = false
  unfold stop
  rw [endState_modify_bind, endState_runScript]
  cases h : server.autostart with
  | false => simp [h]
  | true =>
    simp only [if_true]
    exact autostart_stopped server

/-! ## A stop that fails -/

/-- A stop script has been run that did not exit with 0. -/
def StopFailed (outcome : Outcome) (e : Execution) : Prop :=
  ∃ n, e.scripts[n]? = some .stop ∧ outcome n ≠ .ok true

/-- The computation returns true. -/
def Succeeds (m : ExecM Bool) (e : Execution) : Prop := ∃ t, m e = .ok true t

theorem stopFailed_append {script : Script} {e : Execution} :
    StopFailed outcome { e with scripts := e.scripts ++ [script] } ↔
      StopFailed outcome e ∨ script = .stop ∧ outcome e.scripts.length ≠ .ok true := by
  constructor
  · rintro ⟨n, hn, hfail⟩
    rcases Nat.lt_trichotomy n e.scripts.length with hlt | rfl | hgt
    · exact .inl ⟨n, by rwa [List.getElem?_append_left hlt] at hn, hfail⟩
    · rw [List.getElem?_concat_length] at hn
      exact .inr ⟨Option.some.inj hn, hfail⟩
    · rw [List.getElem?_eq_none (by simp only [List.length_append, List.length_singleton]; omega)]
        at hn
      cases hn
  · rintro (⟨n, hn, hfail⟩ | ⟨rfl, hfail⟩)
    · have hlt : n < e.scripts.length := (List.getElem?_eq_some_iff.mp hn).1
      exact ⟨n, by rwa [List.getElem?_append_left hlt], hfail⟩
    · exact ⟨e.scripts.length, List.getElem?_concat_length, hfail⟩

/-- No stop has failed. -/
abbrev NoStopFailed (outcome : Outcome) (e : Execution) : Prop := ¬ StopFailed outcome e

/-- When a stop fails in this part of a command, the part does not succeed and leaves autostart
off. -/
def FailsOff (outcome : Outcome) (m : ExecM Bool) : Prop :=
  ∀ e, NoStopFailed outcome e → StopFailed outcome (endState m e) →
    (endState m e).server.autostart = false ∧ ¬ Succeeds m e

theorem runScript_noStopFailed {script : Script} (h : script ≠ .stop) :
    Preserves (NoStopFailed outcome) (runScript outcome script) := by
  intro e he
  show NoStopFailed outcome (endState (orThrow _) { e with scripts := e.scripts ++ [script] })
  rw [endState_orThrow]
  exact fun hf => (stopFailed_append.mp hf).elim he fun hs => h hs.1

theorem start_noStopFailed : Preserves (NoStopFailed outcome) (start outcome) := by
  refine (Preserves.modify fun e he => ?_).bind fun _ => runScript_noStopFailed (by decide)
  split
  · exact he
  · exact he

theorem FailsOff.of_preserves {m : ExecM Bool} (h : Preserves (NoStopFailed outcome) m) :
    FailsOff outcome m :=
  fun e he hf => absurd hf (h e he)

theorem FailsOff.after {α : Type} {m : ExecM α} {k : α → ExecM Bool}
    (hm : Preserves (NoStopFailed outcome) m) (hk : ∀ a, FailsOff outcome (k a)) :
    FailsOff outcome (m >>= k) := by
  intro e he
  have hmid := hm e he
  rw [endState_bind]
  unfold Succeeds
  cases h : m e with
  | ok a t =>
    rw [endState_of_ok h] at hmid
    rw [bind_of_ok h]
    exact hk a t hmid
  | error what t =>
    rw [endState_of_error h] at hmid
    exact fun hf => absurd hf hmid

/-- What goes on only after a success. -/
theorem FailsOff.bind {m : ExecM Bool} {k : Bool → ExecM Bool} (hm : FailsOff outcome m)
    (hk : ∀ b, FailsOff outcome (k b))
    (hstop : ∀ e, (endState (k false) e).server = e.server ∧ ¬ Succeeds (k false) e) :
    FailsOff outcome (m >>= k) := by
  intro e he
  have hmid := hm e he
  rw [endState_bind]
  unfold Succeeds at hmid ⊢
  cases h : m e with
  | ok b t =>
    rw [endState_of_ok h, h] at hmid
    rw [bind_of_ok h]
    by_cases hf : StopFailed outcome t
    · obtain ⟨hoff, hresult⟩ := hmid hf
      cases b with
      | true => exact absurd ⟨t, rfl⟩ hresult
      | false => exact fun _ => ⟨(hstop t).1 ▸ hoff, (hstop t).2⟩
    · exact hk b t hf
  | error what t =>
    rw [endState_of_error h] at hmid
    rw [bind_of_error h]
    exact fun hf => ⟨(hmid hf).1, fun ⟨_, ht⟩ => nomatch ht⟩

/-- The marker is set before the script is run. -/
theorem stop_apply (e : Execution) : ∃ server : Server, server.autostart = false ∧
    stop outcome e = orThrow (outcome e.scripts.length)
      { e with server, scripts := e.scripts ++ [.stop] } := by
  unfold stop
  rw [modify_bind_apply]
  split
  · exact ⟨_, autostart_stopped e.server, rfl⟩
  · next h => exact ⟨e.server, Bool.eq_false_iff.mpr h, rfl⟩

theorem stop_failsOff : FailsOff outcome (stop outcome) := by
  intro e he
  obtain ⟨server, hoff, hstop⟩ := @stop_apply outcome e
  unfold Succeeds endState
  rw [hstop]
  cases ho : outcome e.scripts.length with
  | error what => exact fun _ => ⟨hoff, fun ⟨_, ht⟩ => nomatch ht⟩
  | ok b =>
    intro hf
    refine ⟨hoff, fun ⟨t, ht⟩ => ?_⟩
    cases ht
    have hadded : StopFailed outcome { e with scripts := e.scripts ++ [.stop] } := hf
    exact (stopFailed_append.mp hadded).elim he fun h => h.2 ho

theorem runScript_failsOff {script : Script} (h : script ≠ .stop) :
    FailsOff outcome (runScript outcome script) :=
  .of_preserves (runScript_noStopFailed h)

theorem refuse_failsOff (line : String) : FailsOff outcome (do
    append line
    return false) := by
  refine .of_preserves (Preserves.bind (Preserves.modify fun e he => ?_) fun _ => Preserves.pure _)
  exact he

theorem return_failsOff (b : Bool) : FailsOff outcome (pure b) := .of_preserves (Preserves.pure b)

theorem restart_failsOff : FailsOff outcome (restart outcome) := by
  unfold restart
  refine FailsOff.after (runScript_noStopFailed (by decide : Script.status ≠ .stop)) fun b => ?_
  cases b with
  | false => exact .of_preserves start_noStopFailed
  | true =>
    refine stop_failsOff.bind (fun b => ?_) fun e => ⟨rfl, fun ⟨_, ht⟩ => nomatch ht⟩
    cases b with
    | true => exact .of_preserves start_noStopFailed
    | false => exact return_failsOff false

/-- What `update` and `remove` do before they change the files. -/
theorem guard_failsOff {k : ExecM Bool} (hk : FailsOff outcome k) : FailsOff outcome (do
    if ← status outcome then
      if !(← stop outcome) then
        append "Unable to stop server"
        return false
    k) := by
  refine FailsOff.after (runScript_noStopFailed (by decide : Script.status ≠ .stop)) fun b => ?_
  cases b with
  | false => exact hk
  | true =>
    refine stop_failsOff.bind (fun b => ?_) fun e => ⟨rfl, fun ⟨_, ht⟩ => nomatch ht⟩
    cases b with
    | true => exact hk
    | false => exact refuse_failsOff _

theorem update_failsOff : FailsOff outcome (update outcome) :=
  guard_failsOff (runScript_failsOff (by decide))

theorem remove_failsOff : FailsOff outcome (remove outcome) :=
  guard_failsOff (runScript_failsOff (by decide))

theorem run_failsOff (command : Command) : FailsOff outcome (run outcome command) := by
  cases command with
  | start => exact .of_preserves start_noStopFailed
  | stop | kill => exact stop_failsOff
  | restart => exact restart_failsOff
  | update | install => exact update_failsOff
  | reinstall =>
    refine remove_failsOff.bind (fun b => ?_) fun e => ⟨rfl, fun ⟨_, ht⟩ => nomatch ht⟩
    cases b with
    | true => exact update_failsOff
    | false => exact return_failsOff false
  | delete => exact remove_failsOff
  | status => exact runScript_failsOff (by decide)
  | unknown | pause | unpause => exact refuse_failsOff _

theorem execute_eq (command : Command) (server : Server) :
    (execute outcome command server).2.scripts =
      (endState (run outcome command) { server, scripts := [], output := [] }).scripts ∧
    ((execute outcome command server).1 = true ↔
      Succeeds (run outcome command) { server, scripts := [], output := [] }) := by
  unfold execute endState Succeeds
  cases run outcome command { server, scripts := [], output := [] } with
  | ok b e => exact ⟨rfl, ⟨fun h : b = true => ⟨e, by rw [h]⟩, fun ⟨_, h⟩ => by cases h; rfl⟩⟩
  | error what e => exact ⟨rfl, iff_of_false Bool.false_ne_true fun ⟨_, h⟩ => nomatch h⟩

/-- **What a stop that fails leaves.** For every server, every command and every sequence of what
its scripts return or throw: a command whose stop script fails has no success, and leaves the
autostart as it was exactly if it was off, for the marker is set before the script is run. -/
theorem autostart_after_failed_stop (command : Command) (server : Server)
    (h : StopFailed outcome (execute outcome command server).2) :
    (execute outcome command server).1 = false ∧
      ((execute outcome command server).2.server.autostart = server.autostart ↔
        server.autostart = false) := by
  obtain ⟨hscripts, hresult⟩ := @execute_eq outcome command server
  have hnone : NoStopFailed outcome { server, scripts := [], output := [] } := fun ⟨n, hn, _⟩ =>
    nomatch hn
  have hfailed : StopFailed outcome
      (endState (run outcome command) { server, scripts := [], output := [] }) := by
    unfold StopFailed at h ⊢
    rwa [← hscripts]
  obtain ⟨hoff, hno⟩ := run_failsOff command _ hnone hfailed
  rw [execute_server, hoff]
  exact ⟨Bool.eq_false_iff.mpr fun ht => hno (hresult.mp ht), eq_comm⟩

/-- A server with autostart whose stop script fails. -/
def autostarting : Server := (GameServersList.plainServer 1).setSetting "autostart" "1"

theorem stop_fails :
    StopFailed (fun _ => .ok false) (execute (fun _ => .ok false) .stop autostarting).2 :=
  ⟨0, rfl, by decide⟩

theorem autostart_after_failed_stop_on :
    (execute (fun _ => .ok false) .stop autostarting).2.server.autostart ≠
      autostarting.autostart := by
  rw [Ne, (autostart_after_failed_stop .stop autostarting stop_fails).2]
  decide

/-- A stop that fails takes the server out of the crash restart. -/
theorem failed_stop_switches_off : ¬ ∀ (outcome : Outcome) command server,
    StopFailed outcome (execute outcome command server).2 →
    (execute outcome command server).1 = false →
    (execute outcome command server).2.server.autostart = server.autostart := by
  intro hall
  have h := hall (fun _ => .ok false) .stop autostarting stop_fails rfl
  revert h
  decide

end GameServerCmd

end GameAP
