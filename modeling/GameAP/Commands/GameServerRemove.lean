import GameAP.Classes.DedicatedServer
import GameAP.Commands.GameServerCmd
import GameAP.Lib.LexicalPath

/-!
# Removing the files of a server

`GameServerCmd::remove` with the settings of the host. With a delete script it is `remove`; without
one it takes the directory of the server, under the work path, and removes what is there. The two
texts are joined and nothing is checked: `removed_iff` says when the result is below the work path.
-/

namespace GameAP

open Lib

namespace GameServerCmd

/-- A command, and what it removes. -/
structure Removal where
  exec : Execution
  /-- not part of the daemon: the paths that were given to `fs::remove_all` -/
  removed : List String

abbrev RemovalM := EStateM String Removal

def onExec {α : Type} (m : ExecM α) : RemovalM α := fun r =>
  match m r.exec with
  | .ok a exec => .ok a { r with exec }
  | .error e exec => .error e { r with exec }

def recordRemoved (path : String) (r : Removal) : Removal :=
  { r with removed := r.removed ++ [path] }

variable (outcome : Outcome) (removeAll : String → Except String Unit) (ds : DedicatedServer)

/-- The branch without a script; `fs::remove_all` may throw. -/
def removeDir (dir : String) : RemovalM Bool := do
  let workPath := LexicalPath.join ds.workPath dir
  onExec (append ("Removing " ++ workPath))
  modify (recordRemoved workPath)
  match removeAll workPath with
  | .ok _ => return true
  | .error what =>
    onExec (append ("Unable to remove: " ++ what))
    return false

def removeOn : RemovalM Bool := do
  if ← onExec (status outcome) then
    if !(← onExec (stop outcome)) then
      onExec (append "Unable to stop server")
      return false
  if 0 < ds.scriptDelete.length then onExec (runScript outcome .delete)
  else removeDir removeAll ds (← get).exec.server.dir

def Removal.of (server : Server) : Removal :=
  { exec := { server, scripts := [], output := [] }, removed := [] }

/-- The server, which has run `n` scripts, is not active, or else it can be stopped. -/
def stopped (n : Nat) : Bool :=
  match outcome n with
  | .ok false => true
  | .ok true => resultD false (outcome (n + 1))
  | .error _ => false

variable {outcome removeAll ds} {r : Removal}

/-! ## With a delete script -/

theorem onExec_bind {α β : Type} (m : ExecM α) (k : α → ExecM β) :
    onExec (m >>= k) = onExec m >>= fun a => onExec (k a) := by
  funext r
  show onExec (EStateM.bind m k) r = EStateM.bind (onExec m) (fun a => onExec (k a)) r
  unfold onExec EStateM.bind
  dsimp only
  cases m r.exec <;> rfl

/-- With a script, nothing is removed by the daemon itself. -/
theorem removeOn_script (h : 0 < ds.scriptDelete.length) :
    removeOn outcome removeAll ds = onExec (remove outcome) := by
  unfold removeOn remove
  rw [onExec_bind]
  congr 1
  funext active
  cases active with
  | false => simp only [Bool.false_eq_true, if_false, if_pos h]
  | true =>
    simp only [if_true]
    rw [onExec_bind]
    congr 1
    funext ok
    cases ok with
    | false => rfl
    | true => simp only [Bool.not_true, Bool.false_eq_true, if_false, if_pos h]

/-! ## Without one -/

theorem onExec_apply {α : Type} {m : ExecM α} {x : Except String α} {e : Execution}
    (h : m r.exec = orThrow x e) : onExec m r = orThrow x { r with exec := e } := by
  unfold onExec
  rw [h]
  cases x <;> rfl

theorem onExec_runScript (script : Script) : onExec (runScript outcome script) r =
    orThrow (outcome r.exec.scripts.length)
      { r with exec := { r.exec with scripts := r.exec.scripts ++ [script] } } :=
  onExec_apply rfl

/-- A stop leaves the directory of the server as it is. -/
theorem onExec_stop (outcome : Outcome) (r : Removal) :
    ∃ exec, exec.server.dir = r.exec.server.dir ∧
      onExec (stop outcome) r = orThrow (outcome r.exec.scripts.length) { r with exec } := by
  by_cases h : r.exec.server.autostart = true
  · refine ⟨{ r.exec with
      server := r.exec.server.setSetting "autostart_current" "0"
      scripts := r.exec.scripts ++ [.stop] }, ?_, onExec_apply ?_⟩
    · show (r.exec.server.setSetting "autostart_current" "0").dir = _
      unfold Server.setSetting
      split <;> rfl
    · unfold stop
      rw [modify_bind_apply, if_pos h]
      rfl
  · refine ⟨{ r.exec with scripts := r.exec.scripts ++ [.stop] }, rfl, onExec_apply ?_⟩
    unfold stop
    rw [modify_bind_apply, if_neg h]
    rfl

theorem append_bind_apply {α : Type} (line : String) (k : PUnit → RemovalM α) :
    (onExec (append line) >>= k) r =
      k ⟨⟩ { r with exec := { r.exec with output := r.exec.output ++ [line] } } := rfl

theorem removeDir_removed (dir : String) : (endState (removeDir removeAll ds dir) r).removed =
    r.removed ++ [LexicalPath.join ds.workPath dir] := by
  unfold removeDir endState
  simp only [append_bind_apply, modify_bind_apply]
  cases removeAll (LexicalPath.join ds.workPath dir) <;> rfl

/-- What is removed, in every execution: the joined path, or nothing. -/
theorem removeOn_removed (h : ds.scriptDelete = "") (r : Removal) :
    (endState (removeOn outcome removeAll ds) r).removed =
      r.removed ++ if stopped outcome r.exec.scripts.length then
        [LexicalPath.join ds.workPath r.exec.server.dir] else [] := by
  have hscript : ¬ 0 < ds.scriptDelete.length := by
    rw [h]
    decide
  unfold removeOn stopped
  rw [endState_bind, status, onExec_runScript]
  cases outcome r.exec.scripts.length with
  | error what => exact (List.append_nil _).symm
  | ok active =>
    cases active with
    | false =>
      simp only [orThrow, Bool.false_eq_true, if_false, if_true, if_neg hscript, endState_get_bind]
      rw [removeDir_removed]
    | true =>
      obtain ⟨exec, hdir, hstop⟩ := onExec_stop outcome
        { r with exec := { r.exec with scripts := r.exec.scripts ++ [.status] } }
      rw [List.length_append] at hstop
      simp only [orThrow, if_true]
      rw [endState_bind, hstop]
      show _ = r.removed ++
        if resultD false (outcome (r.exec.scripts.length + 1)) = true then _ else _
      cases outcome (r.exec.scripts.length + 1) with
      | error what => exact (List.append_nil _).symm
      | ok ok =>
        cases ok with
        | false => exact (List.append_nil _).symm
        | true =>
          simp only [orThrow, Bool.not_true, Bool.false_eq_true, if_false, if_neg hscript,
            endState_get_bind]
          rw [removeDir_removed, hdir]
          rfl

/-- **What a removal removes.** Without a delete script: nothing, or what is at the work path joined
with the directory of the server. That is properly below the work path exactly if the directory
comes down over every name it has gone up, and further, and is not absolute where there is no work
path. -/
theorem removed_iff (server : Server) (h : ds.scriptDelete = "") :
    (endState (removeOn outcome removeAll ds) (Removal.of server)).removed =
        (if stopped outcome 0 then [LexicalPath.join ds.workPath server.dir] else []) ∧
      (LexicalPath.ProperlyWithin ds.workPath (LexicalPath.join ds.workPath server.dir) ↔
        (ds.workPath = "" → LexicalPath.isAbsolute server.dir = false) ∧
          Place.ReturnsBelow (LexicalPath.isAbsolute ds.workPath) (LexicalPath.normal ds.workPath)
            (Place.net (LexicalPath.steps server.dir))) :=
  ⟨removeOn_removed h (Removal.of server), LexicalPath.properlyWithin_join _ _⟩

/-! ## Two directories -/

def hostAt (workPath : String) : DedicatedServer := { DedicatedServer.idleHost with workPath }

def serverIn (dir : String) : Server := { GameServersList.plainServer 1 with dir }

/-- No server is active. -/
def inactive : Outcome := fun _ => .ok false

theorem removed_own_directory :
    (endState (removeOn inactive (fun _ => .ok ()) (hostAt "/srv/gameap"))
        (Removal.of (serverIn "server1"))).removed = ["/srv/gameap/server1"] ∧
      LexicalPath.ProperlyWithin "/srv/gameap" "/srv/gameap/server1" := by
  obtain ⟨hremoved, hwithin⟩ := @removed_iff inactive (fun _ => .ok ())
    (hostAt "/srv/gameap") (serverIn "server1") rfl
  exact ⟨hremoved, hwithin.mpr ⟨by decide, (Place.returnsBelow_iff rfl).mpr (by decide)⟩⟩

/-- A server without a directory: the work path itself is removed. -/
theorem removed_work_path :
    ¬ ∀ (outcome : Outcome) (removeAll : String → Except String Unit) (ds : DedicatedServer)
      (server : Server), ds.scriptDelete = "" →
      ∀ path ∈ (endState (removeOn outcome removeAll ds) (Removal.of server)).removed,
        LexicalPath.ProperlyWithin ds.workPath path := by
  intro h
  obtain ⟨-, -, rest, hrest, hnames⟩ := h inactive (fun _ => .ok ()) (hostAt "/srv/gameap")
    (serverIn "") rfl "/srv/gameap" (List.mem_singleton_self _)
  exact hrest (List.self_eq_append_right.mp hnames)

end GameServerCmd

end GameAP
