import GameAP.Classes.GdaemonTasksQueue

/-!
# The start of a task

`start` tells an unknown task from the others by its pointer `cmd`, which it assigns only for the
tasks that it implements. `start_ends_iff`: a task that it implements is started, if the lookup of
its server throws nothing; another one is rejected exactly if the memory of `cmd` happens to hold
a null pointer.
-/

namespace GameAP

open Lib

namespace GdaemonTasks

/-- The tasks that `start` implements. -/
def implemented : List String :=
  ["gsstart", "gsstop", "gsrest", "gsinst", "gsupd", "gsdel", "cmdexec"]

variable {tz : Int} {i : RunInput} {task task' : GdaemonTask} {rest : List GdaemonTask}
  {s s' : GdaemonTasks}

theorem known_iff {name : String} : Known name ↔ name ∈ implemented := by
  constructor
  · intro h
    rcases known_cases h with rfl | rfl | rfl | rfl | rfl | rfl | rfl <;> decide
  · intro h
    simp only [implemented, List.mem_cons, List.not_mem_nil, or_false] at h
    rcases h with rfl | rfl | rfl | rfl | rfl | rfl | rfl
    case inr.inr.inr.inr.inr.inr => exact .inr rfl
    all_goals exact .inl rfl

/-! ## The two ends -/

/-- The task works, with a command and a process. -/
structure StartWorks (task task' : GdaemonTask) (s' : GdaemonTasks) : Prop where
  working : task'.status = .working
  command : task.id ∈ s'.activeCmds
  process : task.id ∈ s'.cmdProcesses

/-- The task is an error, without a command or a process, and none has been run. -/
structure StartRejects (task task' : GdaemonTask) (s s' : GdaemonTasks) : Prop where
  error : task'.status = .error
  command : task.id ∉ s'.activeCmds
  process : task.id ∉ s'.cmdProcesses
  quiet : ∃ new, s'.log = s.log ++ new ∧ ∀ t cmd, .started t cmd ∉ new

/-- `start` returns, the task is started or rejected, and exactly the tasks that are not
implemented are rejected. -/
def EndsRight (tz : Int) (i : RunInput) (task : GdaemonTask) (s : GdaemonTasks) : Prop :=
  ∃ task' s', start tz i task s = .ok (task', s') ∧
    (StartWorks task task' s' ∨ StartRejects task task' s s') ∧
    (StartRejects task task' s s' ↔ task.task ∉ implemented)

/-- The lookup of the task's server, which the constructor of its command makes, throws nothing;
a shell command is of no server. -/
def Finds (tz : Int) (i : RunInput) (task : GdaemonTask) (s : GdaemonTasks) : Prop :=
  task.task = "cmdexec" ∨
    ∃ found g, GameServersList.getServer tz i.server task.serverId s.gslist = .ok found g

theorem StartWorks.not_rejected (h : StartWorks task task' s') :
    ¬ StartRejects task task' s s' := fun hr =>
  absurd (h.working.symm.trans hr.error) (by decide)

theorem start_of_cmd {cmd : Cmd} {s1 : GdaemonTasks} (h : makeCmd tz i task s = .ok (some cmd, s1)) :
    ∃ task' s', start tz i task s = .ok (task', s') ∧ StartWorks task task' s' := by
  have hstart : start tz i task s =
      .ok ({ task with status := .working }, startState i task cmd s1) := by
    unfold start
    rw [h]
    rfl
  refine ⟨_, _, hstart, rfl, ?_, ?_⟩
  · rw [startState_eq]
    exact Table.mem_emplace.mpr (.inl rfl)
  · rw [startState_eq]
    exact Table.mem_emplace.mpr (.inl rfl)

theorem start_of_null {s1 : GdaemonTasks} (h : makeCmd tz i task s = .ok (none, s1))
    (hc : task.id ∉ s.activeCmds) (hp : task.id ∉ s.cmdProcesses) :
    ∃ task' s', start tz i task s = .ok (task', s') ∧ StartRejects task task' s s' := by
  obtain ⟨-, -, hact, hproc⟩ := makeCmd_frame h
  obtain ⟨new, hlog, hout⟩ := makeCmd_log h
  have hstart : start tz i task s = .ok ({ task with status := .error },
      apiUpdateStatus i.received { task with status := .error }
        (apiAppendOutput { task with status := .error } "Empty cmd" s1)) := by
    unfold start
    rw [h]
    rfl
  refine ⟨_, _, hstart, rfl, ?_, ?_, ?_⟩
  · show task.id ∉ s1.activeCmds
    rwa [hact]
  · show task.id ∉ s1.cmdProcesses
    rwa [hproc]
  · refine ⟨new ++ [.output task.id "Empty cmd", .status task.id .error i.received], ?_,
      fun t cmd he => ?_⟩
    · show s1.log ++ _ ++ _ = _
      rw [hlog]
      simp
    · rcases List.mem_append.mp he with he | he
      · cases hout _ he
      · simp at he

/-! ## The pointer -/

theorem makeCmd_implemented (h : Known task.task) :
    (∃ cmd s1, makeCmd tz i task s = .ok (some cmd, s1)) ↔ Finds tz i task s := by
  unfold Finds makeCmd
  cases hc : gameServerCommand task.task with
  | none =>
    have hexec : task.task = "cmdexec" := h.resolve_left fun hs => by
      rw [hc] at hs
      cases hs
    simp only [hexec, if_true]
    exact iff_of_true ⟨_, _, rfl⟩ (.inl trivial)
  | some command =>
    have hne : task.task ≠ "cmdexec" := fun he => by
      rw [he] at hc
      cases hc
    unfold GameServerCmd.create
    cases hg : GameServersList.getServer tz i.server task.serverId s.gslist with
    | ok found g => exact iff_of_true ⟨_, _, rfl⟩ (.inr ⟨found, g, rfl⟩)
    | error e g => exact iff_of_false (fun ⟨_, _, h⟩ => nomatch h) (by simp [hne])

theorem makeCmd_unknown (h : ¬ Known task.task) :
    makeCmd tz i task s = .ok (i.garbage, apiAppendOutput task "Unknown task" s) := by
  obtain ⟨hc, hexec⟩ := not_or.mp h
  unfold makeCmd
  rw [Option.not_isSome_iff_eq_none.mp hc]
  exact if_neg hexec

/-- A task that is implemented. -/
theorem endsRight_of_known (hk : Known task.task) :
    EndsRight tz i task s ↔ Finds tz i task s := by
  have hmake : (∃ cmd s1, makeCmd tz i task s = .ok (some cmd, s1)) ↔ Finds tz i task s :=
    makeCmd_implemented hk
  constructor
  · rintro ⟨task', s', hstart, -⟩
    unfold start at hstart
    obtain ⟨⟨cmd?, s1⟩, hm, -⟩ := ok_of_bind hstart
    obtain ⟨cmd, rfl⟩ := Option.ne_none_iff_exists'.mp (makeCmd_known hk hm).1
    exact hmake.mp ⟨cmd, s1, hm⟩
  · intro hfinds
    obtain ⟨cmd, s1, hm⟩ := hmake.mpr hfinds
    obtain ⟨task', s', hstart, hstarted⟩ := start_of_cmd hm
    exact ⟨task', s', hstart, .inl hstarted,
      iff_of_false hstarted.not_rejected fun hno => hno (known_iff.mp hk)⟩

/-- A task that is not, with the pointer as the memory has it. -/
theorem endsRight_of_unknown (hk : ¬ Known task.task) (hc : task.id ∉ s.activeCmds)
    (hp : task.id ∉ s.cmdProcesses) : EndsRight tz i task s ↔ i.garbage = none := by
  have himp : task.task ∉ implemented := fun h => hk (known_iff.mpr h)
  have hm : makeCmd tz i task s =
      .ok (i.garbage, apiAppendOutput task "Unknown task" s) := makeCmd_unknown hk
  cases hg : i.garbage with
  | none =>
    rw [hg] at hm
    obtain ⟨task', s', hstart, hrej⟩ := start_of_null hm hc hp
    exact iff_of_true ⟨task', s', hstart, .inr hrej, iff_of_true hrej himp⟩ rfl
  | some cmd =>
    rw [hg] at hm
    obtain ⟨task₁, s₁, hstart₁, hstarted⟩ := start_of_cmd hm
    refine iff_of_false ?_ (Option.some_ne_none cmd)
    rintro ⟨task', s', hstart, -, hiff⟩
    cases hstart₁.symm.trans hstart
    exact hstarted.not_rejected (hiff.mpr himp)

/-- **How a start ends.** In every run a waiting task at the front of the queue is started as it
should be exactly if it is implemented and its server can be looked up, and rejected as it should
be exactly if it is not implemented and the pointer that is not assigned is null. -/
theorem start_ends_iff {gslist : GameServersList} (h : Run (Step tz) Any (init gslist) s)
    (hs : s.tasks = task :: rest) (hw : task.status = .waiting) (i : RunInput) :
    EndsRight tz i task { s with tasks := rest } ↔
      task.task ∈ implemented ∧ Finds tz i task s ∨
        task.task ∉ implemented ∧ i.garbage = none := by
  obtain ⟨hc, hp⟩ := (tablesInv_of_run h).idle (hs ▸ List.mem_cons_self) hw
  by_cases hk : Known task.task
  · have himp := known_iff.mp hk
    rw [and_iff_right himp, or_iff_left fun h => h.1 himp]
    exact endsRight_of_known hk
  · have himp : task.task ∉ implemented := fun h => hk (known_iff.mpr h)
    rw [and_iff_right himp, or_iff_right fun h => himp h.1]
    exact endsRight_of_unknown hk hc hp

/-! ## A task that is not implemented -/

/-- Task 5 of the panel is to kill server 1. -/
def killOps : List Op := [.update (some [plainEntry 5 "gskill" 1 1])]

def killTask : GdaemonTask :=
  { id := 5, runAftId := 0, serverId := 1, task := "gskill", cmd := "", status := .waiting }

theorem run_kill : Run (Step 0) Any plainInit (performAll killOps) :=
  run_snoc [] (.update (some [plainEntry 5 "gskill" 1 1])) (.refl plainInit) trivial (by decide)

theorem start_ends_null :
    EndsRight 0 (plainRun runningPoll true) killTask { performAll killOps with tasks := [] } :=
  (start_ends_iff run_kill rfl rfl _).mpr (.inr ⟨by decide, rfl⟩)

/-- With a pointer that happens to point somewhere, the task is executed. -/
theorem start_stray : ¬ ∀ (s : GdaemonTasks) (task : GdaemonTask) (rest : List GdaemonTask)
    (i : RunInput), Run (Step 0) Any plainInit s → s.tasks = task :: rest →
    task.status = .waiting → EndsRight 0 i task { s with tasks := rest } := by
  intro h
  obtain ⟨task', s', hstart, -, hiff⟩ := h (performAll killOps) killTask []
    { plainRun runningPoll true with garbage := some (.dedicatedServer "") } run_kill rfl rfl
  cases hstart
  have hrej := hiff.mpr (by decide)
  cases hrej.error

end GdaemonTasks

end GameAP
