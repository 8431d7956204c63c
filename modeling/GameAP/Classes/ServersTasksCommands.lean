import GameAP.Classes.ServersTasksSteps

/-!
# The commands of the scheduled tasks

`start` builds a restart command whatever the task's command is, and `after_cmd` decides by the
task's command. So a started child carries the task's command exactly when that is a restart,
and a server is set to installed without an update or install command behind it exactly when a
task with such a command succeeds: `good_step_iff` for one step, `good_of_run` for a run.
-/

namespace GameAP

open Lib

namespace ServersTasks

/-- The command of a started child is the task's. -/
def Carries : Event → Prop
  | .started task cmd _ => cmd.command = task.command
  | _ => True

/-- A server is set to installed only after an update or install command for it succeeded. -/
def InstallsBacked (log : List Event) : Prop :=
  ∀ pre sid post, log = pre ++ .installStatus sid .installed :: post →
    ∃ task cmd poll, .completed task cmd poll ∈ pre ∧
      (cmd.command = .update ∨ cmd.command = .install) ∧ cmd.serverId = sid ∧
      poll.succeeded = true

structure Good (log : List Event) : Prop where
  carries : ∀ e ∈ log, Carries e
  backed : InstallsBacked log

/-- The task that is started has the command restart, and the task that is found to have
succeeded is not an update. -/
def RestartsOnly (tz : Int) (t : Timed) : Op → Prop
  | .update _ => True
  | .runNext _ i => ∀ top task s1, t.tasks.tasks[0]? = some top →
      refresh tz i top t.tasks = .ok (task, s1) → task.executeDate < i.now → ¬ Exhausted task →
        (task.status = .waiting → task.command = .restart) ∧
        (task.status = .working →
          (i.poll.withPid (t.tasks.cmdProcesses.lookup task.id)).succeeded = true →
          task.command ≠ .update ∧ task.command ≠ .install)

/-! ## Every command is a restart -/

/-- What holds in every run. -/
structure CmdInv (s : ServersTasks) : Prop where
  pending : Pending s
  active : ∀ id cmd, s.activeCmds.lookup id = some cmd → cmd.command = .restart
  completed : ∀ task cmd poll, .completed task cmd poll ∈ s.log → cmd.command = .restart

variable {tz : Int} {i : RunInput} {task : ServerTask} {s s' : ServersTasks} {log : List Event}

/-- An event is as it should be, when no command but a restart is ever executed. -/
def Fine : Event → Prop
  | .started task cmd _ => cmd.command = task.command
  | .installStatus _ st => st ≠ .installed
  | _ => True

theorem good_iff (h : ∀ task cmd poll, .completed task cmd poll ∈ log → cmd.command = .restart) :
    Good log ↔ ∀ e ∈ log, Fine e := by
  constructor
  · rintro ⟨hc, hb⟩ e he
    cases e with
    | started task cmd time => exact hc _ he
    | installStatus sid st =>
      rintro rfl
      obtain ⟨pre, post, rfl⟩ := List.append_of_mem he
      obtain ⟨task, cmd, poll, hmem, hcmd, -, -⟩ := hb pre sid post rfl
      have hr := h task cmd poll (List.mem_append_left _ hmem)
      rcases hcmd with hcmd | hcmd <;> rw [hr] at hcmd <;> cases hcmd
    | _ => trivial
  · intro hf
    refine ⟨fun e he => ?_, ?_⟩
    · have := hf e he
      cases e with
      | started => exact this
      | _ => trivial
    · rintro pre sid post rfl
      exact absurd rfl (hf (.installStatus sid .installed) (by simp))

/-- The events of a start are fine when the task is a restart. -/
theorem fine_start {cmd : GameServerCmd} (hc : cmd.command = .restart) (time : Int) :
    (∀ e ∈ beforeEvents task ++ [.started { task with status := .working } cmd time], Fine e) ↔
      task.command = .restart := by
  have hbefore : ∀ e ∈ beforeEvents task, Fine e := by
    intro e he
    unfold beforeEvents at he
    split at he
    · obtain rfl := List.mem_singleton.mp he
      exact fun hne => nomatch hne
    · obtain rfl := List.mem_singleton.mp he
      exact fun hne => nomatch hne
    · cases he
  constructor
  · intro h
    exact (h _ (List.mem_append_right _ List.mem_cons_self)).symm.trans hc
  · intro h e he
    rcases List.mem_append.mp he with he | he
    · exact hbefore e he
    · obtain rfl := List.mem_singleton.mp he
      exact hc.trans h.symm

theorem mem_afterEvents {e : Event} (h : e ∈ afterEvents task) :
    ∃ st, e = .installStatus task.serverId st := by
  unfold afterEvents at h
  split at h
  case h_1 | h_2 =>
    split at h
    · exact ⟨_, List.mem_singleton.mp h⟩
    · exact ⟨_, List.mem_singleton.mp h⟩
    · cases h
  case h_3 => exact ⟨_, List.mem_singleton.mp (List.mem_ite_nil_right.mp h).2⟩
  case h_4 => cases h

theorem fine_afterEvents : (∀ e ∈ afterEvents task, Fine e) ↔
    (task.status = .success → task.command ≠ .update ∧ task.command ≠ .install) := by
  unfold afterEvents
  cases task.command with
  | install | update => cases task.status <;> simp [Fine]
  | delete =>
    simp only
    split <;> simp [Fine]
  | _ => simp

/-- The events of a completed command are fine unless an update succeeded. -/
theorem fine_complete {poll : Poll} {diff : Int} {cmd : GameServerCmd} :
    (∀ e ∈ completeEvents i poll diff task cmd, Fine e) ↔
      (poll.succeeded = true → task.command ≠ .update ∧ task.command ≠ .install) := by
  obtain ⟨judged, hjudged⟩ : ∃ judged : ServerTask,
    judged = { task with status := if poll.succeeded then .success else .fail } := ⟨_, rfl⟩
  have hstatus : judged.status = .success ↔ poll.succeeded = true := by
    rw [hjudged]
    cases poll.succeeded <;> simp
  have hcommand : judged.command = task.command := hjudged ▸ rfl
  rw [← hstatus, ← hcommand, ← fine_afterEvents]
  constructor
  · intro h e he
    refine h e ?_
    unfold completeEvents
    rw [← hjudged]
    exact List.mem_append_left _ (List.mem_append_left _ (List.mem_append_right _ he))
  · intro h e he
    unfold completeEvents at he
    rw [← hjudged] at he
    simp only [List.mem_append, List.mem_singleton] at he
    rcases he with ((rfl | he) | he) | rfl
    · trivial
    · exact h e he
    · obtain rfl := List.mem_singleton.mp (List.mem_ite_nil_right.mp he).2
      trivial
    · trivial

/-- **One step.** It keeps the log good exactly when it meets `RestartsOnly`. -/
theorem runNext_fine_iff {clock : Int} (hp : Pending s) (h : runNext tz i s = .ok s')
    (asked : Int) : ∃ new, s'.log = s.log ++ new ∧
      ((∀ e ∈ new, Fine e) ↔ RestartsOnly tz ⟨s, clock⟩ (.runNext asked i)) := by
  obtain ⟨top, task, s1, htop, hr, hcase⟩ := runNext_run hp h
  have hframe := refresh_frame hr
  have hone : RestartsOnly tz ⟨s, clock⟩ (.runNext asked i) ↔
      (task.executeDate < i.now → ¬ Exhausted task →
        (task.status = .waiting → task.command = .restart) ∧
        (task.status = .working →
          (i.poll.withPid (s.cmdProcesses.lookup task.id)).succeeded = true →
          task.command ≠ .update ∧ task.command ≠ .install)) := by
    constructor
    · exact fun hall => hall top task s1 htop hr
    · intro h1 top' task' s1' htop' hr'
      obtain rfl : top = top' := Option.some.inj (htop.symm.trans htop')
      obtain ⟨rfl, -⟩ := Prod.mk.injEq .. ▸ Except.ok.inj (hr.symm.trans hr')
      exact h1
  rw [hone]
  rcases hcase with ⟨hle, rfl⟩ | ⟨hdue, hrun⟩
  · exact ⟨[], by simp [hframe.log], by simp [not_lt.mpr hle]⟩
  · have hlog : (taken s1).log = s.log := hframe.log
    have hproc : (taken s1).cmdProcesses = s.cmdProcesses := hframe.cmdProcesses
    have hcases := hrun.log_cases
    rw [hlog, hproc] at hcases
    rcases hcases with ⟨hex, he⟩ | ⟨hnex, hw, cmd, hcmd, he⟩ | ⟨hnex, hw, hnc, he⟩ |
      ⟨hnex, hw, cmd, diff, -, -, he⟩
    · exact ⟨[], by simp [he], by simp [hex]⟩
    · refine ⟨_, he, ?_⟩
      rw [fine_start hcmd]
      simp [hdue, hnex, hw]
    · have hns : (i.poll.withPid (s.cmdProcesses.lookup task.id)).succeeded ≠ true :=
        fun hs => by rw [Poll.cmdCompleted_of_succeeded hs] at hnc; cases hnc
      exact ⟨[], by simp [he], by simp [hdue, hnex, hw, hns]⟩
    · refine ⟨_, he, ?_⟩
      rw [fine_complete]
      simp [hdue, hnex, hw]

/-- An import touches only the queue. -/
theorem addTasks_frame {js : List Json} (h : addTasks tz js s = .ok s') :
    s'.log = s.log ∧ s'.activeCmds = s.activeCmds :=
  addTasks_invariant (P := fun t => t.log = s.log ∧ t.activeCmds = s.activeCmds) h ⟨rfl, rfl⟩
    fun _ _ _ _ _ _ ht => ht

theorem mem_completeEvents {poll poll' : Poll} {diff : Int} {cmd cmd' : GameServerCmd}
    {task' : ServerTask} (h : .completed task' cmd' poll' ∈ completeEvents i poll diff task cmd) :
    cmd' = cmd := by
  unfold completeEvents at h
  simp only [List.mem_append, List.mem_singleton] at h
  rcases h with ((h | h) | h) | h
  · cases h
    rfl
  · obtain ⟨st, h⟩ := mem_afterEvents h
    cases h
  · cases List.mem_singleton.mp (List.mem_ite_nil_right.mp h).2
  · cases h

theorem mem_beforeEvents {poll : Poll} {cmd : GameServerCmd} {task' : ServerTask} :
    .completed task' cmd poll ∉ beforeEvents task := by
  unfold beforeEvents
  cases task.command <;> simp

/-- Only a start adds a command, and it is a restart. -/
theorem RunTask.cmdInv (h : RunTask tz i task s s')
    (hactive : ∀ id cmd, s.activeCmds.lookup id = some cmd → cmd.command = .restart) :
    ∀ id cmd, s'.activeCmds.lookup id = some cmd → cmd.command = .restart := by
  cases h with
  | exhausted => exact hactive
  | started _ _ hc =>
    intro id cmd' hl
    have hl' : (s.activeCmds.emplace task.id _).lookup id = some cmd' :=
      startState_activeCmds ▸ hl
    by_cases hid : id = task.id
    · subst hid
      by_cases hmem : task.id ∈ s.activeCmds
      · rw [Table.emplace, if_pos hmem] at hl'
        exact hactive _ _ hl'
      · rw [Table.lookup_emplace_of_notMem hmem] at hl'
        cases hl'
        exact (GameServerCmd.create_command hc).1
    · rw [Table.lookup_emplace_ne hid] at hl'
      exact hactive _ _ hl'
  | running => exact hactive
  | completed =>
    intro id cmd' hl
    rw [finishState_activeCmds, proceedState_activeCmds] at hl
    by_cases hid : id = (completedTask i (i.poll.withPid (s.cmdProcesses.lookup task.id)) task).id
    · rw [hid, AList.lookup_erase] at hl
      cases hl
    · rw [AList.lookup_erase_ne hid] at hl
      exact hactive _ _ hl

theorem runNext_cmdInv (hi : CmdInv s) (h : runNext tz i s = .ok s') : CmdInv s' := by
  obtain ⟨top, task, s1, htop, hr, hcase⟩ := runNext_run hi.pending h
  have hframe := refresh_frame hr
  have hactive : ∀ id cmd, (taken s1).activeCmds.lookup id = some cmd → cmd.command = .restart := by
    show ∀ id cmd, s1.activeCmds.lookup id = some cmd → cmd.command = .restart
    rw [hframe.activeCmds]
    exact hi.active
  have hold : ∀ task cmd poll, .completed task cmd poll ∈ s1.log → cmd.command = .restart := by
    rw [hframe.log]
    exact hi.completed
  rcases hcase with ⟨-, rfl⟩ | ⟨-, hrun⟩
  · exact ⟨runNext_pending hi.pending h, hactive, hold⟩
  · refine ⟨runNext_pending hi.pending h, hrun.cmdInv hactive, ?_⟩
    intro task' cmd' poll' hmem
    rcases hrun.log_cases with ⟨-, he⟩ | ⟨-, -, cmd, -, he⟩ | ⟨-, -, -, he⟩ |
      ⟨-, -, cmd, diff, hl, -, he⟩ <;> rw [he] at hmem
    · exact hold _ _ _ hmem
    · rcases List.mem_append.mp hmem with hmem | hmem
      · exact hold _ _ _ hmem
      · rcases List.mem_append.mp hmem with hmem | hmem
        · exact absurd hmem mem_beforeEvents
        · cases List.mem_singleton.mp hmem
    · exact hold _ _ _ hmem
    · rcases List.mem_append.mp hmem with hmem | hmem
      · exact hold _ _ _ hmem
      · rw [mem_completeEvents hmem]
        exact hactive _ _ hl

theorem step_cmdInv {t u : Timed} {o : Op} (hi : CmdInv t.tasks) (h : Step tz t o u) :
    CmdInv u.tasks := by
  cases h with
  | update hu =>
    rename_i reply
    cases reply with
    | none => cases hu; exact hi
    | some jvalue =>
      obtain ⟨hlog, hactive⟩ := addTasks_frame hu
      refine ⟨addTasks_pending hi.pending hu, ?_, ?_⟩
      · exact hactive ▸ hi.active
      · exact hlog ▸ hi.completed
  | runNext _ _ _ _ hrun => exact runNext_cmdInv hi hrun

theorem init_cmdInv (gslist : GameServersList) : CmdInv (init gslist) where
  pending := fun _ ht => by simp [init] at ht
  active := fun _ _ hl => by simp [init] at hl
  completed := fun _ _ _ hmem => by simp [init] at hmem

/-- A step keeps the log good exactly when it meets `RestartsOnly`. -/
theorem good_step_iff {t u : Timed} {o : Op} (hi : CmdInv t.tasks) (h : Step tz t o u) :
    Good u.tasks.log ↔ Good t.tasks.log ∧ RestartsOnly tz t o := by
  rw [good_iff (step_cmdInv hi h).completed, good_iff hi.completed]
  cases h with
  | update hu =>
    rename_i reply
    cases reply with
    | none => cases hu; exact (and_iff_left trivial).symm
    | some jvalue =>
      rw [(addTasks_frame hu).1]
      exact (and_iff_left trivial).symm
  | runNext _ _ _ _ hrun =>
    obtain ⟨new, hlog, hnew⟩ := runNext_fine_iff hi.pending hrun _
    rw [← hnew, hlog]
    exact List.forall_mem_append

/-- **When the commands are the tasks' own.** In a run whose every start is that of a restart,
and in which no task succeeds as an update, each started child carries its task's command, and
no server is set to installed but after an update or install command for it. -/
theorem good_of_run {gslist : GameServersList} {clock : Int} {t : Timed}
    (h : Run (Step tz) (RestartsOnly tz) ⟨init gslist, clock⟩ t) : Good t.tasks.log := by
  have hinv : CmdInv t.tasks ∧ Good t.tasks.log := by
    refine h.invariant (I := fun t => CmdInv t.tasks ∧ Good t.tasks.log) ?_ ?_
    · refine ⟨init_cmdInv gslist, fun _ he => by simp [init] at he, fun pre sid post he => ?_⟩
      simp [init] at he
    · rintro s o u ⟨hi, hg⟩ hok hs
      exact ⟨step_cmdInv hi hs, (good_step_iff hi hs).mpr ⟨hg, hok⟩⟩
  exact hinv.2

theorem good_of_run_restart :
    Good (startedState [plainTask 1 "restart" "1970-01-01 00:00:10"]).log := by
  refine good_of_run (run_startedState (by decide) (by decide) (by decide) trivial ?_)
  intro top task s1 htop hr _ _
  have htask : task = top := by
    rcases refresh_cases hr with ⟨-, rfl, -⟩ | ⟨-, hsync, -⟩
    · rfl
    · exact (Except.ok.inj hsync).symm
  have htops : (importedState [plainTask 1 "restart" "1970-01-01 00:00:10"]).tasks[0]?.map
      (fun t => (t.status, t.command)) = some (.waiting, .restart) := by decide
  rw [htop] at htops
  have hpair : (top.status, top.command) = (.waiting, .restart) := Option.some.inj htops
  obtain ⟨hst, hcmd⟩ := Prod.mk.inj hpair
  rw [htask, hst, hcmd]
  exact ⟨fun _ => rfl, fun hw => nomatch hw⟩

/-- The panel's task is an update, and the child that is forked for it restarts the server. -/
theorem update_restarts :
    ¬ ∀ (tz : Int) (gslist : GameServersList) (clock : Int) (t : Timed),
      Run (Step tz) Any ⟨init gslist, clock⟩ t → Good t.tasks.log := by
  intro h
  have hgood := h 0 (GameServersList.plainList [1]) 0
    ⟨startedState [plainTask 1 "update" "1970-01-01 00:00:10"], 100⟩
    (run_startedState (by decide) (by decide) (by decide) trivial trivial)
  have hlog : (startedState [plainTask 1 "update" "1970-01-01 00:00:10"]).log =
      [.installStatus 1 .installInProcess,
        .started { status := .working, id := 1, command := .update, serverId := 1, repeats := 0,
                   repeatPeriod := 60, counter := 0, executeDate := 10, payload := "" }
          { serverId := 1, command := .restart, hasServer := true } 100] := by decide
  have hc := hgood.carries _ (hlog ▸ List.mem_cons_of_mem _ List.mem_cons_self)
  exact nomatch (hc : Command.restart = Command.update)

end ServersTasks

end GameAP
