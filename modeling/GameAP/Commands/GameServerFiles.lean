import GameAP.Commands.GameServerRemove
import GameAP.Lib.Triple

/-!
# When a command changes the files of a server

The commands again, with the trace of what they do: the scripts with what they return, the
directories they remove, and the calls of `update` and `remove`. `files_lawful`: the files are
changed only by a call in which the server has been found inactive or has been stopped, and a
reinstallation installs only after a removal that was a success.
-/

namespace GameAP

open Lib

namespace GameServerCmd

inductive Call where
  | update
  | remove
  deriving DecidableEq, Repr

inductive Effect where
  | enter (call : Call)
  /-- a script, and what it has returned or thrown -/
  | script (script : Script) (result : Except String Bool)
  | removeAll (path : String)
  | leave (call : Call) (result : Bool)

structure Traced where
  exec : Execution
  trace : List Effect

abbrev TracedM := EStateM String Traced

variable (outcome : Outcome) (removeAll : String → Except String Unit) (ds : DedicatedServer)

/-- A part of a command that leaves no trace. -/
def untraced {α : Type} (m : ExecM α) : TracedM α := fun r =>
  match m r.exec with
  | .ok a exec => .ok a { r with exec }
  | .error e exec => .error e { r with exec }

def mark (e : Effect) : TracedM PUnit := modify fun r => { r with trace := r.trace ++ [e] }

/-- `m` runs one script. -/
def traced (script : Script) (m : ExecM Bool) : TracedM Bool := do
  let r ← get
  mark (.script script (outcome r.exec.scripts.length))
  untraced m

/-- A call that returns; an exception leaves it without a mark. -/
def inCall (call : Call) (m : TracedM Bool) : TracedM Bool := do
  mark (.enter call)
  let result ← m
  mark (.leave call result)
  return result

def updateTraced : TracedM Bool := inCall .update do
  if ← traced outcome .status (status outcome) then
    if !(← traced outcome .stop (stop outcome)) then
      untraced (append "Unable to stop server")
      return false
  traced outcome .install (runScript outcome .install)

/-- The branch without a delete script. -/
def removeDirTraced (dir : String) : TracedM Bool := do
  let workPath := LexicalPath.join ds.workPath dir
  untraced (append ("Removing " ++ workPath))
  mark (.removeAll workPath)
  match removeAll workPath with
  | .ok _ => return true
  | .error what =>
    untraced (append ("Unable to remove: " ++ what))
    return false

def removeTraced : TracedM Bool := inCall .remove do
  if ← traced outcome .status (status outcome) then
    if !(← traced outcome .stop (stop outcome)) then
      untraced (append "Unable to stop server")
      return false
  if 0 < ds.scriptDelete.length then traced outcome .delete (runScript outcome .delete)
  else removeDirTraced removeAll ds (← get).exec.server.dir

def runTraced (command : Command) : TracedM Bool :=
  match command with
  | .update | .install => updateTraced outcome
  | .reinstall => do
    if ← removeTraced outcome removeAll ds then updateTraced outcome else return false
  | .delete => removeTraced outcome removeAll ds
  -- the other commands leave the files alone
  | command => untraced (run outcome command)

/-- What `execute` has done when it ends, also by an exception. -/
def executeTraced (command : Command) (server : Server) : Traced :=
  endState (runTraced outcome removeAll ds command)
    { exec := { server, scripts := [], output := [] }, trace := [] }

/-! ## The law -/

def changesFiles : Effect → Bool
  | .script .install _ | .script .delete _ | .removeAll _ => true
  | _ => false

def callNext (call : Option (List Effect)) : Effect → Option (List Effect)
  | .enter _ => some []
  | .leave _ _ => none
  | e => call.map (· ++ [e])

/-- What has been done in the call that is going on. -/
def current (trace : List Effect) : Option (List Effect) := trace.foldl callNext none

/-- The server has been found inactive, or active and then stopped. -/
def Clear (call : List Effect) : Prop :=
  .script .status (.ok false) ∈ call ∨
    ∃ pre post, call = pre ++ .script .status (.ok true) :: post ∧ .script .stop (.ok true) ∈ post

/-- What allows an effect on the files. -/
structure Permitted (command : Command) (pre : List Effect) (e : Effect) : Prop where
  clear : ∃ call, current pre = some call ∧ Clear call
  removed : command = .reinstall → ∀ result, e = .script .install result →
    .leave .remove true ∈ pre

def Lawful (command : Command) (trace : List Effect) : Prop :=
  ∀ pre e post, trace = pre ++ e :: post → changesFiles e = true → Permitted command pre e

variable {outcome removeAll ds} {command : Command} {call : List Effect} {r : Traced} {e : Effect}
  {trace : List Effect}

theorem current_snoc : current (trace ++ [e]) = callNext (current trace) e :=
  List.foldl_append

theorem Lawful.snoc (h : Lawful command trace)
    (he : changesFiles e = true → Permitted command trace e) : Lawful command (trace ++ [e]) := by
  intro pre e' post heq hfiles
  rcases List.append_eq_append_iff.mp heq with ⟨l, rfl, hl⟩ | ⟨l, rfl, hl⟩
  · cases l with
    | nil =>
      obtain ⟨rfl, -⟩ := List.cons.inj hl
      rw [List.append_nil]
      exact he hfiles
    | cons d l => exact absurd (List.cons.inj hl).2 (by simp)
  · cases l with
    | nil =>
      obtain ⟨rfl, -⟩ := List.cons.inj hl
      rw [List.append_nil] at he
      exact he hfiles
    | cons d l =>
      obtain ⟨rfl, rfl⟩ := List.cons.inj hl
      exact h pre _ l rfl hfiles

theorem Clear.append (h : Clear call) (e : Effect) : Clear (call ++ [e]) := by
  rcases h with h | ⟨pre, post, rfl, h⟩
  · exact .inl (List.mem_append_left _ h)
  · exact .inr ⟨pre, post ++ [e], by rw [List.append_assoc]; rfl, List.mem_append_left _ h⟩

/-! ## In a call -/

/-- The state in a call that has done `call` so far; `D` tells what was done before it. -/
structure Within (command : Command) (D : List Effect → Prop) (call : List Effect) (r : Traced) :
    Prop where
  lawful : Lawful command r.trace
  current : current r.trace = some call
  before : D r.trace

/-- What later effects leave true. -/
def Lasting (D : List Effect → Prop) : Prop := ∀ trace e, D trace → D (trace ++ [e])

def LawfulState (command : Command) (r : Traced) : Prop := Lawful command r.trace

variable {D : List Effect → Prop} {script : Script} {m k : TracedM Bool}

theorem Within.snoc {exec : Execution} (h : Within command D call r) (hD : Lasting D)
    (hnext : callNext (some call) e = some (call ++ [e]))
    (he : changesFiles e = true → Permitted command r.trace e) :
    Within command D (call ++ [e]) { exec, trace := r.trace ++ [e] } where
  lawful := h.lawful.snoc he
  current := by rw [current_snoc, h.current, hnext]
  before := hD _ _ h.before

/-- `m` runs one script and returns or throws what the script does. -/
def RunsOne (outcome : Outcome) (m : ExecM Bool) : Prop :=
  ∀ e : Execution, ∃ e', m e = orThrow (outcome e.scripts.length) e'

theorem runsOne_runScript (script : Script) : RunsOne outcome (runScript outcome script) :=
  fun _ => ⟨_, rfl⟩

theorem runsOne_stop : RunsOne outcome (stop outcome) := fun e => by
  obtain ⟨server, -, hstop⟩ := @stop_apply outcome e
  exact ⟨_, hstop⟩

theorem traced_apply {m : ExecM Bool} (hm : RunsOne outcome m) (r : Traced) :
    ∃ exec, traced outcome script m r = orThrow (outcome r.exec.scripts.length)
      { exec, trace := r.trace ++ [.script script (outcome r.exec.scripts.length)] } := by
  obtain ⟨exec, he⟩ := hm r.exec
  refine ⟨exec, ?_⟩
  show untraced m { r with trace := r.trace ++ [.script script _] } = _
  unfold untraced
  dsimp only
  rw [he]
  cases outcome r.exec.scripts.length <;> rfl

/-- A script that is run in a call. -/
theorem traced_spec {m : ExecM Bool} (hD : Lasting D) (hm : RunsOne outcome m)
    (hp : ∀ r x, Within command D call r → changesFiles (.script script x) = true →
      Permitted command r.trace (.script script x)) :
    Triple (Within command D call) (traced outcome script m)
      (fun b => Within command D (call ++ [.script script (.ok b)])) (LawfulState command) := by
  intro r hr
  obtain ⟨exec, hrun⟩ : ∃ exec, traced outcome script m r =
      orThrow (outcome r.exec.scripts.length)
        { exec, trace := r.trace ++ [.script script (outcome r.exec.scripts.length)] } :=
    traced_apply hm r
  rw [hrun]
  have hnext : ∀ x, Within command D (call ++ [.script script x])
      { exec, trace := r.trace ++ [.script script x] } := fun x => hr.snoc hD rfl (hp r x hr)
  cases hx : outcome r.exec.scripts.length with
  | ok b => exact hnext (.ok b)
  | error what => exact (hnext (.error what)).lawful

theorem untraced_append (line : String) : Triple (Within command D call) (untraced (append line))
    (fun _ => Within command D call) (LawfulState command) :=
  fun _ hr => ⟨hr.lawful, hr.current, hr.before⟩

/-- Still in the call. -/
def Inside (command : Command) (D : List Effect → Prop) (r : Traced) : Prop :=
  ∃ call, Within command D call r

/-- What `update` and `remove` do first. -/
theorem guard_spec (hD : Lasting D) (hk : ∀ call, Clear call →
      Triple (Within command D call) k (fun _ => Inside command D) (LawfulState command)) :
    Triple (Within command D []) (do
        if ← traced outcome .status (status outcome) then
          if !(← traced outcome .stop (stop outcome)) then
            untraced (append "Unable to stop server")
            return false
        k) (fun _ => Inside command D) (LawfulState command) := by
  refine Triple.bind (traced_spec hD (runsOne_runScript .status) fun _ _ _ h => nomatch h)
    fun active => ?_
  cases active with
  | false => exact hk _ (.inl List.mem_cons_self)
  | true =>
    refine Triple.bind (traced_spec hD runsOne_stop fun _ _ _ h => nomatch h) fun ok => ?_
    cases ok with
    | true => exact hk _ (.inr ⟨[], _, rfl, List.mem_cons_self⟩)
    | false =>
      refine Triple.bind (untraced_append _) fun _ => Triple.pure fun r hr => ⟨_, hr⟩

theorem inCall_spec (c : Call) (hD : Lasting D)
    (hm : Triple (Within command D []) m (fun _ => Inside command D) (LawfulState command)) :
    Triple (fun r => Lawful command r.trace ∧ D r.trace) (inCall c m)
      (fun b r => Lawful command r.trace ∧ .leave c b ∈ r.trace) (LawfulState command) := by
  refine Triple.bind (Triple.modify fun r hr => ?_) fun _ => hm.bind fun b =>
    Triple.bind (Q := fun _ r => Lawful command r.trace ∧ .leave c b ∈ r.trace)
      (Triple.modify fun r hr => ?_) fun _ => Triple.pure fun _ hr => hr
  · exact ⟨hr.1.snoc (fun h => nomatch h), current_snoc, hD _ _ hr.2⟩
  · obtain ⟨call, hr⟩ := hr
    exact ⟨hr.lawful.snoc (fun h => nomatch h), List.mem_append_right _ List.mem_cons_self⟩

/-! ## The commands -/

/-- Before an installation, a reinstallation has had a removal that was a success. -/
def Removed (command : Command) (trace : List Effect) : Prop :=
  command = .reinstall → .leave .remove true ∈ trace

theorem lasting_removed : Lasting (Removed command) := fun _ _ h hc =>
  List.mem_append_left _ (h hc)

theorem updateTraced_spec :
    Triple (fun r => Lawful command r.trace ∧ Removed command r.trace) (updateTraced outcome)
      (fun b r => Lawful command r.trace ∧ .leave .update b ∈ r.trace) (LawfulState command) := by
  refine inCall_spec .update lasting_removed (guard_spec lasting_removed fun call hcall => ?_)
  refine (traced_spec lasting_removed (runsOne_runScript .install) fun r x hr _ => ?_).post
    fun _ r hr => ⟨_, hr⟩
  exact ⟨⟨call, hr.current, hcall⟩, fun hc _ _ => hr.before hc⟩

theorem removeDirTraced_spec (hD : Lasting D) (hcall : Clear call) (dir : String) :
    Triple (Within command D call) (removeDirTraced removeAll ds dir)
      (fun _ => Inside command D) (LawfulState command) := by
  unfold removeDirTraced
  refine Triple.bind (untraced_append _) fun _ => Triple.bind
    (Q := fun _ => Within command D (call ++ [.removeAll (LexicalPath.join ds.workPath dir)]))
    (Triple.modify fun r hr => ?_) fun _ => ?_
  · exact hr.snoc hD rfl fun _ => ⟨⟨call, hr.current, hcall⟩, fun _ _ h => nomatch h⟩
  · cases removeAll (LexicalPath.join ds.workPath dir) with
    | ok _ => exact Triple.pure fun r hr => ⟨_, hr⟩
    | error what =>
      exact Triple.bind (untraced_append _) fun _ => Triple.pure fun r hr => ⟨_, hr⟩

theorem removeTraced_spec :
    Triple (fun r => Lawful command r.trace ∧ True) (removeTraced outcome removeAll ds)
      (fun b r => Lawful command r.trace ∧ .leave .remove b ∈ r.trace) (LawfulState command) := by
  have hD : Lasting fun _ => True := fun _ _ _ => trivial
  refine inCall_spec .remove hD (guard_spec hD fun call hcall => ?_)
  split
  · refine (traced_spec hD (runsOne_runScript .delete) fun r x hr _ => ?_).post
      fun _ r hr => ⟨_, hr⟩
    exact ⟨⟨call, hr.current, hcall⟩, fun _ _ h => nomatch h⟩
  · exact fun r hr => removeDirTraced_spec hD hcall _ r hr

theorem untraced_lawful {α : Type} (m : ExecM α) :
    Triple (LawfulState command) (untraced m) (fun _ => LawfulState command)
      (LawfulState command) := by
  intro r hr
  unfold untraced
  dsimp only
  cases m r.exec with
  | ok a exec => exact hr
  | error what exec => exact hr

theorem runTraced_lawful (command : Command) :
    Triple (fun r => r.trace = []) (runTraced outcome removeAll ds command)
      (fun _ => LawfulState command) (LawfulState command) := by
  have hempty : ∀ {r : Traced}, r.trace = [] → Lawful command r.trace := fun h pre e post heq => by
    rw [h] at heq
    exact absurd heq (by simp)
  have hupdate : command ≠ .reinstall →
      Triple (fun r => r.trace = []) (updateTraced outcome) (fun _ => LawfulState command)
        (LawfulState command) := fun hc =>
    (updateTraced_spec.pre fun r hr => ⟨hempty hr, fun h => absurd h hc⟩).post fun _ _ hr => hr.1
  have hother : ∀ m : ExecM Bool, Triple (fun r => r.trace = []) (untraced m)
      (fun _ => LawfulState command) (LawfulState command) := fun m =>
    (untraced_lawful m).pre fun r hr => hempty hr
  cases command with
  | update | install => exact hupdate (by decide)
  | reinstall =>
    refine Triple.bind (removeTraced_spec.pre fun r hr => ⟨hempty hr, trivial⟩) fun b => ?_
    cases b with
    | true =>
      exact (updateTraced_spec.pre fun r hr => ⟨hr.1, fun _ => hr.2⟩).post fun _ _ hr => hr.1
    | false => exact Triple.pure fun r hr => hr.1
  | delete =>
    exact (removeTraced_spec.pre fun r hr => ⟨hempty hr, trivial⟩).post fun _ _ hr => hr.1
  | start | stop | kill | restart | status => exact hother (run outcome _)
  | unknown => exact hother (run outcome .unknown)
  | pause => exact hother (run outcome .pause)
  | unpause => exact hother (run outcome .unpause)

/-- **When the files are changed.** In the trace of every command on every server, whatever its
scripts and `fs::remove_all` return or throw: each effect on the files comes after a status in the
same call that has found the server inactive, or one that has found it active and a stop that was
a success; a reinstallation installs only after a removal that returned true. -/
theorem files_lawful (outcome : Outcome) (removeAll : String → Except String Unit)
    (ds : DedicatedServer) (command : Command) (server : Server) :
    Lawful command (executeTraced outcome removeAll ds command server).trace :=
  Triple.endState (runTraced_lawful command) rfl

/-! ## The trace is one of the commands -/

/-- The state without the trace, but for the directories that were removed. -/
def removedPath : Effect → Option String
  | .removeAll path => some path
  | _ => none

def forget (r : Traced) : Removal :=
  { exec := r.exec, removed := r.trace.filterMap removedPath }

/-- The traced computation does what `m` does. -/
def Follows {α : Type} (mt : TracedM α) (m : RemovalM α) : Prop :=
  ∀ r, m (forget r) =
    match mt r with
    | .ok a t => .ok a (forget t)
    | .error e t => .error e (forget t)

theorem Follows.bind {α β : Type} {mt : TracedM α} {m : RemovalM α} {kt : α → TracedM β}
    {k : α → RemovalM β} (hm : Follows mt m) (hk : ∀ a, Follows (kt a) (k a)) :
    Follows (mt >>= kt) (m >>= k) := by
  intro r
  have h := hm r
  cases hr : mt r with
  | ok a t =>
    rw [hr] at h
    rw [bind_of_ok h, bind_of_ok hr]
    exact hk a t
  | error e t =>
    rw [hr] at h
    rw [bind_of_error h, bind_of_error hr]

theorem Follows.pure {α : Type} (a : α) : Follows (pure a) (pure a) := fun _ => rfl

/-- A mark that removes nothing is not there in the state. -/
theorem Follows.mark_bind {α : Type} {e : Effect} {kt : PUnit → TracedM α} {m : RemovalM α}
    (he : removedPath e = none) (hk : Follows (kt ⟨⟩) m) : Follows (mark e >>= kt) m := by
  intro r
  have h := hk { r with trace := r.trace ++ [e] }
  have hforget : forget { r with trace := r.trace ++ [e] } = forget r := by
    unfold forget
    simp [he]
  rw [hforget] at h
  exact h

theorem follows_untraced {α : Type} (m : ExecM α) : Follows (untraced m) (onExec m) := by
  intro r
  unfold untraced onExec
  dsimp only [forget]
  cases m r.exec <;> rfl

theorem follows_traced (script : Script) (m : ExecM Bool) :
    Follows (traced outcome script m) (onExec m) := by
  intro r
  have h : Follows (mark (.script script (outcome r.exec.scripts.length)) >>= fun _ => untraced m)
      (onExec m) := Follows.mark_bind rfl (follows_untraced m)
  exact h r

theorem Follows.inCall {mt : TracedM Bool} {m : RemovalM Bool} (c : Call) (h : Follows mt m) :
    Follows (GameServerCmd.inCall c mt) m := by
  have hpure : m = m >>= Pure.pure := (bind_pure m).symm
  rw [hpure]
  exact Follows.mark_bind rfl (h.bind fun b => Follows.mark_bind rfl (Follows.pure b))

theorem follows_guard {kt : TracedM Bool} {k : RemovalM Bool} (hk : Follows kt k) : Follows
    (do
      if ← traced outcome .status (status outcome) then
        if !(← traced outcome .stop (stop outcome)) then
          untraced (append "Unable to stop server")
          return false
      kt)
    (do
      if ← onExec (status outcome) then
        if !(← onExec (stop outcome)) then
          onExec (append "Unable to stop server")
          return false
      k) := by
  refine (follows_traced .status _).bind fun active => ?_
  cases active with
  | false => exact hk
  | true =>
    refine (follows_traced .stop _).bind fun ok => ?_
    cases ok with
    | true => exact hk
    | false => exact (follows_untraced _).bind fun _ => Follows.pure false

theorem removeDirTraced_follows (dir : String) :
    Follows (removeDirTraced removeAll ds dir) (removeDir removeAll ds dir) := by
  unfold removeDirTraced removeDir
  refine (follows_untraced _).bind fun _ => Follows.bind (fun r => ?_) fun _ => ?_
  · have hforget : forget { r with
          trace := r.trace ++ [.removeAll (LexicalPath.join ds.workPath dir)] } =
        recordRemoved (LexicalPath.join ds.workPath dir) (forget r) := by
      simp [forget, recordRemoved, removedPath]
    exact congrArg (EStateM.Result.ok PUnit.unit) hforget.symm
  · cases removeAll (LexicalPath.join ds.workPath dir) with
    | ok _ => exact Follows.pure true
    | error what => exact (follows_untraced _).bind fun _ => Follows.pure false

/-- **The traced removal is the removal**, with a delete script and without. -/
theorem removeTraced_follows :
    Follows (removeTraced outcome removeAll ds) (removeOn outcome removeAll ds) := by
  refine Follows.inCall .remove (follows_guard ?_)
  split
  · exact follows_traced .delete _
  · exact fun r => removeDirTraced_follows _ r

theorem updateTraced_follows : Follows (updateTraced outcome) (onExec (update outcome)) := by
  have hupdate : onExec (update outcome) = (do
      if ← onExec (status outcome) then
        if !(← onExec (stop outcome)) then
          onExec (append "Unable to stop server")
          return false
      onExec (runScript outcome .install) : RemovalM Bool) := by
    unfold update
    rw [onExec_bind]
    congr 1
    funext active
    cases active with
    | false => rfl
    | true =>
      show onExec (stop outcome >>= _) = _
      rw [onExec_bind]
      congr 1
      funext ok
      cases ok <;> rfl
  rw [hupdate]
  exact Follows.inCall .update (follows_guard (follows_traced .install _))

/-- **The traced commands are the commands**, on a host with a delete script. -/
theorem runTraced_follows (h : 0 < ds.scriptDelete.length) (command : Command) :
    Follows (runTraced outcome removeAll ds command) (onExec (run outcome command)) := by
  have hscript : removeOn outcome removeAll ds = onExec (remove outcome) := removeOn_script h
  have hremove : Follows (removeTraced outcome removeAll ds) (onExec (remove outcome)) := by
    rw [← hscript]
    exact removeTraced_follows
  cases command with
  | update | install => exact updateTraced_follows
  | reinstall =>
    have hrun : onExec (run outcome .reinstall) = (do
        if ← onExec (remove outcome) then onExec (update outcome) else return false :
          RemovalM Bool) := by
      show onExec (remove outcome >>= _) = _
      rw [onExec_bind]
      congr 1
      funext b
      cases b <;> rfl
    rw [hrun]
    refine hremove.bind fun b => ?_
    cases b with
    | true => exact updateTraced_follows
    | false => exact Follows.pure false
  | delete => exact hremove
  | start | stop | kill | restart | status => exact follows_untraced (run outcome _)
  | unknown => exact follows_untraced (run outcome .unknown)
  | pause => exact follows_untraced (run outcome .pause)
  | unpause => exact follows_untraced (run outcome .unpause)

end GameServerCmd

end GameAP
