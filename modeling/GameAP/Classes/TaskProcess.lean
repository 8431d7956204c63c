import GameAP.Classes.GdaemonTasksSteps
import GameAP.Classes.ServersTasksSteps

/-!
# A task's process and the polls

The child writes `m_result` and `m_complete` into the shared `Cmd` and exits (`script`); a poll of
the daemon asks `waitpid`, then reads `m_complete` and then `m_result`, and any steps of the child
may come in between (`Micro`). When the poll finds the command completed, both schedulers judge it
by `Poll.succeeded`, which asks for the exit too. `verdict_iff`: the verdict is the command's own
result exactly when that is a failure or the child had exited when the poll asked for it.
-/

namespace GameAP

open Lib

namespace TaskProcess

/-! ## The child -/

inductive Act where
  | writeResult (result : Bool)
  | setComplete
  | exit
  deriving DecidableEq, Repr

/-- How the command ends. -/
inductive Ending where
  /-- `_execute` stores the result of the command -/
  | executed (result : Bool)
  /-- an exception, or a server that is missing -/
  | failed
  deriving DecidableEq, Repr

/-- What the child does with the shared memory, in order. -/
def script : Ending → List Act
  | .executed result => [.writeResult result, .setComplete, .exit]
  | .failed => [.setComplete, .writeResult false, .exit]

/-- The `m_result` that the command ends with. -/
def Ending.result : Ending → Bool
  | .executed result => result
  | .failed => false

/-- The shared `Cmd`, and the child as the kernel knows it. -/
structure Child where
  result : Bool
  complete : Bool
  exited : Bool
  /-- `waitpid` has returned its number -/
  reaped : Bool
  deriving DecidableEq, Repr

def Child.act (c : Child) : Act → Child
  | .writeResult result => { c with result }
  | .setComplete => { c with complete := true }
  | .exit => { c with exited := true }

/-- `child_process_status`: `waitpid` returns the number of an exited child once. -/
def Child.status (c : Child) : ProcessStatus × Child :=
  if c.exited = true ∧ c.reaped = false then (.success, { c with reaped := true })
  else (.working, c)

/-! ## The daemon -/

/-- Where a `proceed` stands. -/
inductive Parent where
  | idle
  | asked (child : ProcessStatus)
  | looked (child : ProcessStatus) (complete : Bool)
  | judged (poll : Poll)
  deriving DecidableEq, Repr

structure World where
  child : Child
  todo : List Act
  parent : Parent
  /-- not part of the daemon: the child had exited when `waitpid` was last asked -/
  exitedAtAsk : Bool
  deriving DecidableEq, Repr

/-- The world after the fork: `m_complete` is false, `m_result` was never set. -/
def forked (result : Bool) (e : Ending) : World :=
  { child := { result, complete := false, exited := false, reaped := false }, todo := script e,
    parent := .idle, exitedAtAsk := false }

/-- A `proceed` that does not find the command completed leaves the task as it is. -/
def judge (poll : Poll) : Parent := if poll.cmdCompleted then .judged poll else .idle

inductive Who where
  | child
  | daemon

/-- One step of the child or of the daemon; `output` is what the buffer holds. -/
inductive Micro : World → Who → World → Prop where
  | act {w : World} {a : Act} {rest : List Act} : w.todo = a :: rest →
      Micro w .child { w with child := w.child.act a, todo := rest }
  | ask {w : World} : w.parent = .idle →
      Micro w .daemon { w with
        child := w.child.status.2
        parent := .asked w.child.status.1
        exitedAtAsk := w.child.exited }
  | look {w : World} {child : ProcessStatus} : w.parent = .asked child →
      Micro w .daemon { w with parent := .looked child w.child.complete }
  | judge {w : World} {child : ProcessStatus} {complete : Bool} (output : String) :
      w.parent = .looked child complete →
      Micro w .daemon { w with
        parent := judge { child, complete, result := w.child.result, output } }

/-! ## What holds in every interleaving -/

/-- The exit is the last of the steps. -/
def ExitLast (todo : List Act) : Prop := ∀ pre post, todo = pre ++ .exit :: post → post = []

/-- The child is seen to have exited. -/
def SeenExit : Parent → Prop
  | .idle => False
  | .asked child => child = .success
  | .looked child _ => child = .success
  | .judged poll => poll.child = .success

structure Inv (e : Ending) (w : World) : Prop where
  exitLast : ExitLast w.todo
  exited : w.child.exited = true → w.todo = []
  result : (w.todo.foldl Child.act w.child).result = e.result
  seen : SeenExit w.parent → w.child.exited = true
  reaped : w.child.reaped = true → SeenExit w.parent
  asked : w.parent ≠ .idle → (SeenExit w.parent ↔ w.exitedAtAsk = true)
  judged : ∀ poll, w.parent = .judged poll → poll.cmdCompleted = true ∧
    (poll.child = .success → poll.result = e.result)

variable {e : Ending} {w w' : World} {b : Bool}

theorem forked_inv : Inv e (forked b e) where
  exitLast := by
    rintro pre post h
    cases e <;> simp only [forked, script] at h <;>
      rcases pre with _ | ⟨x, _ | ⟨y, _ | ⟨z, pre⟩⟩⟩ <;> simp_all
  exited := fun h => by cases h
  result := by cases e <;> rfl
  seen := fun h => h.elim
  reaped := fun h => by cases h
  asked := fun h => absurd rfl h
  judged := fun poll h => by cases h

theorem ExitLast.tail {a : Act} {rest : List Act} (h : ExitLast (a :: rest)) : ExitLast rest :=
  fun pre post heq => h (a :: pre) post (by rw [heq]; rfl)

theorem status_child (c : Child) : c.status.2.exited = c.exited ∧
    c.status.2.result = c.result ∧ (c.status.1 = .success ↔ c.exited = true ∧ c.reaped = false) ∧
      (c.status.2.reaped = true → c.status.1 = .success ∨ c.reaped = true) := by
  unfold Child.status
  split
  · next h => exact ⟨rfl, rfl, iff_of_true rfl h, fun _ => .inl rfl⟩
  · next h => exact ⟨rfl, rfl, iff_of_false (fun hw => by cases hw) h, .inr⟩

/-- The result of the remaining steps depends only on the result so far. -/
theorem foldl_act_result (todo : List Act) {c d : Child} (h : c.result = d.result) :
    (todo.foldl Child.act c).result = (todo.foldl Child.act d).result := by
  induction todo generalizing c d with
  | nil => exact h
  | cons a rest ih =>
    refine ih ?_
    cases a <;> simp [Child.act, h]

/-- The child takes a step. -/
theorem Inv.act {a : Act} {rest : List Act} (hi : Inv e w) (ht : w.todo = a :: rest) :
    Inv e { w with child := w.child.act a, todo := rest } := by
  have hnot : ¬ w.child.exited = true := fun he => by
    rw [hi.exited he] at ht
    cases ht
  have hlast : ExitLast (a :: rest) := ht ▸ hi.exitLast
  refine ⟨hlast.tail, fun he => ?_, ?_, fun hs => absurd (hi.seen hs) hnot, fun hr => ?_, hi.asked,
    hi.judged⟩
  · cases a with
    | exit => exact hlast [] rest rfl
    | _ => exact absurd he hnot
  · have := hi.result
    rw [ht] at this
    exact this
  · refine hi.reaped ?_
    cases a <;> exact hr

/-- The daemon asks `waitpid`. In between two polls the exit has not been seen. -/
theorem Inv.ask (hi : Inv e w) (hp : w.parent = .idle) :
    Inv e { w with
      child := w.child.status.2
      parent := .asked w.child.status.1
      exitedAtAsk := w.child.exited } := by
  obtain ⟨h1, h2, h3, h4⟩ := status_child w.child
  have hidle : w.child.reaped ≠ true := fun hr => by
    have hseen := hi.reaped hr
    rw [hp] at hseen
    exact hseen
  refine ⟨hi.exitLast, fun he => hi.exited (h1 ▸ he), ?_, fun hs => ?_, fun hr => ?_, fun _ => ?_,
    fun poll h => by cases h⟩
  · exact (foldl_act_result _ h2).trans hi.result
  · exact h1.trans (h3.mp hs).1
  · exact (h4 hr).resolve_right hidle
  · exact h3.trans (and_iff_left (Bool.eq_false_iff.mpr hidle))

/-- What the daemon knows of the exit while it polls. -/
theorem Inv.polling (hi : Inv e w) (child : ProcessStatus) (hne : w.parent ≠ .idle)
    (hsame : SeenExit w.parent ↔ child = .success) :
    (child = .success → w.child.exited = true) ∧ (w.child.reaped = true → child = .success) ∧
      (child = .success ↔ w.exitedAtAsk = true) :=
  ⟨fun hc => hi.seen (hsame.mpr hc), fun hr => hsame.mp (hi.reaped hr),
    hsame.symm.trans (hi.asked hne)⟩

/-- The daemon judges what it has read. -/
theorem Inv.judge {child : ProcessStatus} {complete : Bool} (hi : Inv e w) (output : String)
    (hp : w.parent = .looked child complete) :
    Inv e { w with
      parent := TaskProcess.judge { child, complete, result := w.child.result, output } } := by
  obtain ⟨hseen, hreaped, hasked⟩ := hi.polling child (by simp [hp]) (by rw [hp]; rfl)
  unfold TaskProcess.judge
  split
  · next hcomp =>
    refine ⟨hi.exitLast, hi.exited, hi.result, hseen, hreaped, fun _ => hasked, ?_⟩
    rintro poll h
    cases h
    refine ⟨hcomp, fun hc => ?_⟩
    have hdone := hi.result
    rw [hi.exited (hseen hc)] at hdone
    exact hdone
  · next hnot =>
    refine ⟨hi.exitLast, hi.exited, hi.result, fun hs => hs.elim, fun hr => ?_,
      fun h => absurd rfl h, fun poll h => by cases h⟩
    rw [hreaped hr] at hnot
    simp [Poll.cmdCompleted] at hnot

theorem Inv.micro {who : Who} (hi : Inv e w) (h : Micro w who w') : Inv e w' := by
  cases h with
  | act ht => exact hi.act ht
  | ask hp => exact hi.ask hp
  | @look child hp =>
    obtain ⟨hseen, hreaped, hasked⟩ := hi.polling child (by simp [hp]) (by rw [hp]; rfl)
    exact ⟨hi.exitLast, hi.exited, hi.result, hseen, hreaped, fun _ => hasked,
      fun poll h => by cases h⟩
  | judge output hp => exact hi.judge output hp

theorem inv_of_run (h : Run Micro Any (forked b e) w) : Inv e w :=
  h.invariant forked_inv fun _ _ _ hi _ hs => hi.micro hs

/-! ## The verdict -/

/-- The poll sees the exit exactly if the child had exited when it asked `waitpid`: no earlier poll
has seen it, for that one would have judged the command. -/
theorem success_iff {poll : Poll} (h : Run Micro Any (forked b e) w)
    (hp : w.parent = .judged poll) : poll.child = .success ↔ w.exitedAtAsk = true := by
  have hasked := (inv_of_run h).asked (by rw [hp]; simp)
  rw [hp] at hasked
  exact hasked

/-- A failure is never taken for a success; a success is not taken for a failure exactly when
the child had exited when the poll asked for it. -/
theorem verdict_iff {poll : Poll} (h : Run Micro Any (forked b e) w)
    (hp : w.parent = .judged poll) :
    (poll.succeeded = true ↔ e.result = true) ↔ (e.result = false ∨ w.exitedAtAsk = true) := by
  have hres := ((inv_of_run h).judged poll hp).2
  rw [Poll.succeeded_iff, ← success_iff h hp]
  constructor
  · intro hiff
    cases he : e.result with
    | false => exact .inl rfl
    | true => exact .inr (hiff.mpr he).2
  · rintro (hf | hc)
    · refine ⟨fun hs => ?_, fun ht => ?_⟩
      · rw [← hres hs.2]
        exact hs.1
      · rw [hf] at ht
        cases ht
    · rw [hres hc]
      exact and_iff_left hc

theorem withPid_some {α : Type} (poll : Poll) (pid : α) : poll.withPid (some pid) = poll := rfl

theorem serversTasks_success_iff {i : ServersTasks.RunInput} {task task' : ServerTask}
    {s s' : ServersTasks} {cmd : GameServerCmd} {pid : Int}
    (hc : s.activeCmds.lookup task.id = some cmd) (hpid : s.cmdProcesses.lookup task.id = some pid)
    (hcomp : i.poll.cmdCompleted = true)
    (h : ServersTasks.proceed i task s = .ok (task', s')) :
    task'.status = .success ↔ i.poll.succeeded = true := by
  rcases ServersTasks.proceed_cases h with ⟨hnone, -⟩ | ⟨cmd', -, hcase⟩
  · rw [hc] at hnone
    cases hnone
  · rw [hpid, withPid_some] at hcase
    rcases hcase with ⟨hnot, -⟩ | ⟨diff, -, -, rfl, -⟩
    · rw [hcomp] at hnot
      cases hnot
    · unfold ServersTasks.completedTask
      cases i.poll.succeeded <;> simp

theorem gdaemonTasks_success_iff {i : GdaemonTasks.RunInput} {task : GdaemonTask}
    {s : GdaemonTasks} {cmd : Cmd} {pid : Int} (hc : s.activeCmds.lookup task.id = some cmd)
    (hpid : s.cmdProcesses.lookup task.id = some pid) (hcomp : i.poll.cmdCompleted = true) :
    (GdaemonTasks.proceed i task s).1.status = .success ↔ i.poll.succeeded = true := by
  have hpoll : i.poll = i.poll.withPid (s.cmdProcesses.lookup task.id) := by
    rw [hpid, withPid_some]
  rw [GdaemonTasks.proceed_completed hc hpoll hcomp]
  unfold GdaemonTasks.completedTask
  cases i.poll.succeeded <;> simp

/-- **When the final status is the command's own result.** For every interleaving of the child
with the polls, and in both schedulers, the task that a poll completes gets the status success
exactly when the command's result is true, if and only if that result is false or the child had
exited when this poll asked `waitpid`. -/
theorem final_status_iff {poll : Poll} (h : Run Micro Any (forked b e) w)
    (hp : w.parent = .judged poll) :
    (∀ (i : ServersTasks.RunInput) (task task' : ServerTask) (s s' : ServersTasks)
        (cmd : GameServerCmd) (pid : Int), i.poll = poll →
      s.activeCmds.lookup task.id = some cmd → s.cmdProcesses.lookup task.id = some pid →
      ServersTasks.proceed i task s = .ok (task', s') →
      ((task'.status = .success ↔ e.result = true) ↔
        (e.result = false ∨ w.exitedAtAsk = true))) ∧
    (∀ (i : GdaemonTasks.RunInput) (task : GdaemonTask) (s : GdaemonTasks) (cmd : Cmd)
        (pid : Int), i.poll = poll →
      s.activeCmds.lookup task.id = some cmd → s.cmdProcesses.lookup task.id = some pid →
      (((GdaemonTasks.proceed i task s).1.status = .success ↔ e.result = true) ↔
        (e.result = false ∨ w.exitedAtAsk = true))) := by
  have hcomp := ((inv_of_run h).judged poll hp).1
  constructor
  · rintro i task task' s s' cmd pid rfl hc hpid hproc
    rw [serversTasks_success_iff hc hpid hcomp hproc]
    exact verdict_iff h hp
  · rintro i task s cmd pid rfl hc hpid
    rw [gdaemonTasks_success_iff hc hpid hcomp]
    exact verdict_iff h hp

/-! ## Two interleavings -/

theorem run_act {w0 : World} {a : Act} {rest : List Act} (h : Run Micro Any w0 w)
    (ht : w.todo = a :: rest) :
    Run Micro Any w0 { w with child := w.child.act a, todo := rest } := h.step trivial (.act ht)

/-- The child stores its result and sets `m_complete`. -/
theorem run_complete (r : Bool) : Run Micro Any (forked false (.executed r))
    { child := { result := r, complete := true, exited := false, reaped := false },
      todo := [.exit], parent := .idle, exitedAtAsk := false } := by
  have h1 := run_act (Run.refl (forked false (.executed r))) rfl
  have h2 := run_act h1 rfl
  exact h2

/-- A whole poll. -/
theorem run_poll {w : World} (h : Run Micro Any (forked b e) w) (hp : w.parent = .idle)
    (output : String) : Run Micro Any (forked b e)
      { w with
        child := w.child.status.2
        parent := judge { child := w.child.status.1, complete := w.child.complete,
                          result := w.child.result, output }
        exitedAtAsk := w.child.exited } := by
  have hkeep : w.child.status.2.complete = w.child.complete ∧
      w.child.status.2.result = w.child.result := by
    unfold Child.status
    split <;> exact ⟨rfl, rfl⟩
  have h1 := (h.step trivial (.ask hp)).step trivial (.look rfl)
  have h2 := h1.step trivial (.judge output rfl)
  simpa only [hkeep.1, hkeep.2] using h2

/-- Task 5, which stops server 1, has been started. -/
def stopStarted : GdaemonTasks :=
  GdaemonTasks.performAll [.update (some [GdaemonTasks.plainEntry 5 "gsstop" 1 1]),
    .runNext (GdaemonTasks.plainRun GdaemonTasks.runningPoll true)]

def stopTask : GdaemonTask :=
  { id := 5, runAftId := 0, serverId := 1, task := "gsstop", cmd := "", status := .working }

/-- The poll comes after the exit. -/
theorem final_status_after_exit :
    (GdaemonTasks.proceed (GdaemonTasks.plainRun GdaemonTasks.donePoll true) stopTask
      stopStarted).1.status = .success := by
  have hexit := run_act (run_complete true) rfl
  have hrun := run_poll hexit rfl ""
  have hverdict := (final_status_iff hrun rfl).2
    (GdaemonTasks.plainRun GdaemonTasks.donePoll true) stopTask stopStarted
    (.gameServer { serverId := 1, command := .stop, hasServer := true }) 7 rfl
    (by decide) (by decide)
  exact (hverdict.mpr (.inr rfl)).mpr rfl

/-- The poll falls between `m_complete` and the exit: a successful stop becomes an error. -/
theorem success_becomes_error :
    ¬ ∀ (b : Bool) (e : Ending) (w : World) (poll : Poll), Run Micro Any (forked b e) w →
      w.parent = .judged poll → ∀ (i : GdaemonTasks.RunInput) (task : GdaemonTask)
        (s : GdaemonTasks) (cmd : Cmd) (pid : Int), i.poll = poll →
        s.activeCmds.lookup task.id = some cmd → s.cmdProcesses.lookup task.id = some pid →
        ((GdaemonTasks.proceed i task s).1.status = .success ↔ e.result = true) := by
  intro h
  have hrun := run_poll (run_complete true) rfl ""
  have hverdict := h _ _ _ _ hrun rfl
    (GdaemonTasks.plainRun { child := .working, complete := true, result := true, output := "" }
      true) stopTask stopStarted
    (.gameServer { serverId := 1, command := .stop, hasServer := true }) 7 rfl
    (by decide) (by decide)
  exact absurd (hverdict.mpr rfl) (by decide)

end TaskProcess

end GameAP
