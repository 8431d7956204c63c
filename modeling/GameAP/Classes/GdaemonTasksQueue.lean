import GameAP.Classes.GdaemonTasksSteps

/-!
# The containers of the daemon's tasks

`QueueInv` relates the queue, `exists_tasks`, `active_cmds` and `cmd_processes`. Every step keeps
it as long as the panel lists only tasks that `start` implements, so it holds in every run
(`containers_agree`): the command of a working task is always found, and no insertion meets a key
that is present.
-/

namespace GameAP

open Lib

namespace GdaemonTasks

/-- A task with this id is in the queue. -/
def Queued (ts : List GdaemonTask) (id : Nat) : Prop := ∃ t ∈ ts, t.id = id

/-- A working task with this id is in the queue. -/
def Working (ts : List GdaemonTask) (id : Nat) : Prop := ∃ t ∈ ts, t.id = id ∧ t.status = .working

/-- The ids of the queue, which are those of `exists_tasks`. -/
structure IdsInv (s : GdaemonTasks) : Prop where
  nodup : (s.tasks.map (·.id)).Nodup
  pending : ∀ t ∈ s.tasks, t.status = .waiting ∨ t.status = .working
  existing : ∀ id, id ∈ s.existsTasks ↔ Queued s.tasks id

/-- The commands in `active_cmds` are those of working tasks. -/
structure ActiveInv (s : GdaemonTasks) : Prop extends IdsInv s where
  active : ∀ id ∈ s.activeCmds, Working s.tasks id

/-- A working task has its command and its process, and no other task has either. -/
structure TablesInv (s : GdaemonTasks) : Prop extends IdsInv s where
  active : ∀ id, id ∈ s.activeCmds ↔ Working s.tasks id
  processes : ∀ id, id ∈ s.cmdProcesses ↔ Working s.tasks id

structure QueueInv (s : GdaemonTasks) : Prop extends IdsInv s where
  known : ∀ t ∈ s.tasks, Known t.task
  active : ∀ id, id ∈ s.activeCmds ↔ Working s.tasks id
  processes : ∀ id, id ∈ s.cmdProcesses ↔ Working s.tasks id

/-- The panel lists only tasks that `start` implements. -/
def KnownTasks (_ : GdaemonTasks) (o : Op) : Prop :=
  ∀ e ∈ o.imports.2, ∀ name, e.1.getString "task" = .ok name → name = "" ∨ Known name

variable {tz : Int} {i : RunInput} {task : GdaemonTask} {ts us rest : List GdaemonTask}
  {s s' : GdaemonTasks} {id : Nat}

/-! ## Queued and working ids -/

theorem queued_cons : Queued (task :: ts) id ↔ task.id = id ∨ Queued ts id := by
  simp [Queued]

theorem working_cons :
    Working (task :: ts) id ↔ (task.id = id ∧ task.status = .working) ∨ Working ts id := by
  simp [Working]

theorem queued_perm (h : ts.Perm us) : Queued ts id ↔ Queued us id := by
  simp only [Queued, h.mem_iff]

theorem working_perm (h : ts.Perm us) : Working ts id ↔ Working us id := by
  simp only [Working, h.mem_iff]

theorem Working.queued (h : Working ts id) : Queued ts id :=
  let ⟨t, ht, he, _⟩ := h; ⟨t, ht, he⟩

theorem not_queued_rest (h : ((task :: rest).map (·.id)).Nodup) : ¬ Queued rest task.id := by
  rintro ⟨t, ht, he⟩
  exact (List.nodup_cons.mp h).1 (List.mem_map.mpr ⟨t, ht, he⟩)

/-! ## The ids -/

/-- The first task may go to the end of the queue with another status. -/
theorem IdsInv.rotate {u : GdaemonTasks} {task' : GdaemonTask} (hi : IdsInv s)
    (hs : s.tasks = task :: rest) (hid : task'.id = task.id)
    (hst : task'.status = .waiting ∨ task'.status = .working) (ht : u.tasks = rest ++ [task'])
    (he : u.existsTasks = s.existsTasks) : IdsInv u := by
  obtain ⟨hnodup, hpend, hex⟩ := hi
  rw [hs] at hnodup hpend hex
  have hperm : u.tasks.Perm (task' :: rest) := by
    rw [ht]
    exact List.perm_append_singleton task' rest
  refine ⟨(hperm.map _).nodup_iff.mpr ?_, fun t hm => ?_, fun id => ?_⟩
  · rw [List.map_cons, hid]
    exact hnodup
  · rcases List.mem_cons.mp (hperm.mem_iff.mp hm) with rfl | hm
    · exact hst
    · exact hpend t (List.mem_cons_of_mem _ hm)
  · rw [he, hex, queued_perm hperm, queued_cons, queued_cons, hid]

/-- The first task may leave the queue and `exists_tasks`. -/
theorem IdsInv.removed {u : GdaemonTasks} (hi : IdsInv s) (hs : s.tasks = task :: rest)
    (ht : u.tasks = rest) (he : u.existsTasks = s.existsTasks.erase task.id) : IdsInv u := by
  obtain ⟨hnodup, hpend, hex⟩ := hi
  rw [hs] at hnodup hpend hex
  have hout := not_queued_rest hnodup
  refine ⟨?_, fun t hm => hpend t (List.mem_cons_of_mem _ (ht ▸ hm)), fun id => ?_⟩
  · rw [ht]
    exact (List.nodup_cons.mp hnodup).2
  · rw [he, Finset.mem_erase, hex, ht, queued_cons]
    constructor
    · rintro ⟨hne, he | h⟩
      · exact absurd he.symm hne
      · exact h
    · intro h
      exact ⟨fun he => hout (he ▸ h), .inr h⟩

/-- An imported task waits under a new id. -/
theorem IdsInv.imported (hi : IdsInv s) (hnew : task.id ∉ s.existsTasks)
    (hw : task.status = .waiting) : IdsInv (importTask task s) := by
  have hfresh : ¬ Queued s.tasks task.id := fun h => hnew ((hi.existing _).mpr h)
  have hperm : (s.tasks ++ [task]).Perm (task :: s.tasks) := List.perm_append_singleton task s.tasks
  refine ⟨?_, fun t ht => ?_, fun id => ?_⟩
  · refine ((hperm.map _).nodup_iff).mpr (List.nodup_cons.mpr ⟨fun h => ?_, hi.nodup⟩)
    obtain ⟨t, ht, he⟩ := List.mem_map.mp h
    exact hfresh ⟨t, ht, he⟩
  · rcases List.mem_cons.mp (hperm.mem_iff.mp ht) with rfl | ht
    · exact .inl hw
    · exact hi.pending t ht
  · show id ∈ insert task.id s.existsTasks ↔ Queued (s.tasks ++ [task]) id
    rw [Finset.mem_insert, hi.existing, queued_perm hperm, queued_cons, eq_comm]

theorem RunNext.idsInv (hi : IdsInv s) (hs : s.tasks = task :: rest)
    (h : RunNext tz i s task rest s') : IdsInv s' := by
  have hst : task.status = .waiting ∨ task.status = .working :=
    hi.pending task (by rw [hs]; exact List.mem_cons_self)
  cases h with
  | blocked => exact hi.rotate hs rfl hst rfl rfl
  | started =>
    refine hi.rotate hs ?_ ?_ rfl rfl
    · rfl
    · exact .inr rfl
  | rejected => exact hi.removed hs rfl rfl
  | lost => exact hi.rotate hs rfl hst rfl rfl
  | running => exact hi.rotate hs rfl hst rfl rfl
  | completed => exact hi.removed hs rfl rfl

theorem step_idsInv {o : Op} (hi : IdsInv s) (h : Step tz s o s') : IdsInv s' := by
  rcases step_cases h with himp | ⟨i, -, hrun⟩
  · refine importTasks_invariant himp hi (fun t gslist ht => ?_) ?_
    · exact ⟨ht.nodup, ht.pending, ht.existing⟩
    · intro e he task t hnew _ hne hfresh ht
      exact ht.imported hfresh (newTask_spec hnew).2.2
  · obtain ⟨task, rest, hs, hcase⟩ := runNext_cases hi.pending hrun
    exact hcase.idsInv hi hs

theorem init_idsInv (gslist : GameServersList) : IdsInv (init gslist) := by
  constructor <;> simp [init, Queued]

/-- The ids are in agreement in every run, whatever tasks the panel lists. -/
theorem idsInv_of_run {ok : GdaemonTasks → Op → Prop} {gslist : GameServersList}
    (h : Run (Step tz) ok (init gslist) s) : IdsInv s :=
  h.invariant (init_idsInv gslist) fun _ _ _ hi _ hs => step_idsInv hi hs

/-! ## The tables of commands -/

/-- An id is new to the working ones when its task starts. -/
theorem working_started (hs : s.tasks = task :: rest) :
    (id = task.id ∨ Working s.tasks id) ↔
      Working (rest ++ [{ task with status := .working }]) id := by
  rw [working_perm (List.perm_append_singleton _ rest), hs, working_cons, working_cons]
  constructor
  · rintro (rfl | ⟨he, -⟩ | h)
    · exact .inl ⟨rfl, rfl⟩
    · exact .inl ⟨he, rfl⟩
    · exact .inr h
  · rintro (⟨he, -⟩ | h)
    · exact .inl he.symm
    · exact .inr (.inr h)

theorem working_removed (hi : IdsInv s) (hs : s.tasks = task :: rest) :
    (id ≠ task.id ∧ Working s.tasks id) ↔ Working rest id := by
  have hnodup := hi.nodup
  rw [hs] at hnodup
  rw [hs, working_cons]
  constructor
  · rintro ⟨hne, ⟨he, -⟩ | h⟩
    · exact absurd he.symm hne
    · exact h
  · intro h
    exact ⟨fun he => not_queued_rest hnodup (he ▸ h.queued), .inr h⟩

theorem RunNext.activeInv (hi : ActiveInv s) (hs : s.tasks = task :: rest)
    (h : RunNext tz i s task rest s') : ActiveInv s' := by
  have hids := h.idsInv hi.toIdsInv hs
  have hperm : (rest ++ [task]).Perm s.tasks := by
    rw [hs]
    exact List.perm_append_singleton task rest
  have hrot : ∀ id ∈ s.activeCmds, Working (rest ++ [task]) id := fun id hm =>
    (working_perm hperm).mpr (hi.active id hm)
  have hleft : ∀ id ∈ s.activeCmds.erase task.id, Working rest id := fun id hm =>
    let ⟨hne, hm⟩ := AList.mem_erase.mp hm
    (working_removed hi.toIdsInv hs).mp ⟨hne, hi.active id hm⟩
  cases h with
  | blocked => exact ⟨hids, hrot⟩
  | started =>
    refine ⟨hids, fun id hm => (working_started hs).mp ?_⟩
    exact (Table.mem_emplace.mp hm).imp_right (hi.active id)
  | rejected => exact ⟨hids, hleft⟩
  | lost => exact ⟨hids, hrot⟩
  | running => exact ⟨hids, hrot⟩
  | completed => exact ⟨hids, hleft⟩

/-- An imported task has no command. -/
theorem ActiveInv.imported (hi : ActiveInv s) (hnew : task.id ∉ s.existsTasks)
    (hw : task.status = .waiting) : ActiveInv (importTask task s) := by
  refine ⟨hi.toIdsInv.imported hnew hw, fun id hm => ?_⟩
  obtain ⟨t, ht, he, hwork⟩ := hi.active id hm
  exact ⟨t, List.mem_append_left _ ht, he, hwork⟩

theorem ActiveInv.fresh (hi : ActiveInv s) (hnew : task.id ∉ s.existsTasks) :
    task.id ∉ s.activeCmds := fun hm =>
  hnew ((hi.existing _).mpr (hi.active _ hm).queued)

theorem step_activeInv {o : Op} (hi : ActiveInv s) (h : Step tz s o s') : ActiveInv s' := by
  rcases step_cases h with himp | ⟨i, -, hrun⟩
  · refine importTasks_invariant himp hi (fun t gslist ht => ?_) ?_
    · exact ⟨⟨ht.nodup, ht.pending, ht.existing⟩, ht.active⟩
    · intro e he task t hnew _ hne hfresh ht
      exact ht.imported hfresh (newTask_spec hnew).2.2
  · obtain ⟨task, rest, hs, hcase⟩ := runNext_cases hi.pending hrun
    exact hcase.activeInv hi hs

theorem init_activeInv (gslist : GameServersList) : ActiveInv (init gslist) where
  toIdsInv := init_idsInv gslist
  active := fun id hm => absurd hm (by simp [init])

/-- Only working tasks have a command, in every run. -/
theorem activeInv_of_run {ok : GdaemonTasks → Op → Prop} {gslist : GameServersList}
    (h : Run (Step tz) ok (init gslist) s) : ActiveInv s :=
  h.invariant (init_activeInv gslist) fun _ _ _ hi _ hs => step_activeInv hi hs

theorem working_of_waiting (hs : s.tasks = task :: rest) (hw : task.status = .waiting) :
    Working s.tasks id ↔ Working rest id := by
  rw [hs, working_cons, hw]
  simp

/-- **A `run_next` keeps the tables in agreement with the queue.** -/
theorem RunNext.tablesInv (hi : TablesInv s) (hs : s.tasks = task :: rest)
    (h : RunNext tz i s task rest s') : TablesInv s' := by
  have hids := h.idsInv hi.toIdsInv hs
  have hperm : (rest ++ [task]).Perm s.tasks := by
    rw [hs]
    exact List.perm_append_singleton task rest
  have hact : ∀ id, id ∈ s.activeCmds ↔ Working (rest ++ [task]) id := fun id =>
    (hi.active id).trans (working_perm hperm).symm
  have hproc : ∀ id, id ∈ s.cmdProcesses ↔ Working (rest ++ [task]) id := fun id =>
    (hi.processes id).trans (working_perm hperm).symm
  have hleft : ∀ {β : Type} (m : Table Nat β), (∀ id, id ∈ m ↔ Working s.tasks id) →
      ∀ id, id ∈ m.erase task.id ↔ Working rest id := fun m hm id =>
    AList.mem_erase.trans ((and_congr_right' (hm id)).trans (working_removed hi.toIdsInv hs))
  cases h with
  | blocked => exact ⟨hids, hact, hproc⟩
  | started =>
    refine ⟨hids, fun id => ?_, fun id => ?_⟩
    · exact Table.mem_emplace.trans ((or_congr_right (hi.active id)).trans (working_started hs))
    · exact Table.mem_emplace.trans ((or_congr_right (hi.processes id)).trans (working_started hs))
  | rejected hw =>
    refine ⟨hids, hleft _ hi.active, fun id => ?_⟩
    exact (hi.processes id).trans (working_of_waiting hs hw)
  | lost => exact ⟨hids, hact, hproc⟩
  | running => exact ⟨hids, hact, hproc⟩
  | completed => exact ⟨hids, hleft _ hi.active, hleft _ hi.processes⟩

theorem TablesInv.imported (hi : TablesInv s) (hnew : task.id ∉ s.existsTasks)
    (hw : task.status = .waiting) : TablesInv (importTask task s) := by
  have hperm : (s.tasks ++ [task]).Perm (task :: s.tasks) := List.perm_append_singleton task s.tasks
  have hidle : ∀ id, Working (s.tasks ++ [task]) id ↔ Working s.tasks id := fun id => by
    rw [working_perm hperm, working_cons, hw]
    simp
  refine ⟨hi.toIdsInv.imported hnew hw, fun id => ?_, fun id => ?_⟩
  · exact (hi.active id).trans (hidle id).symm
  · exact (hi.processes id).trans (hidle id).symm

theorem step_tablesInv {o : Op} (hi : TablesInv s) (h : Step tz s o s') : TablesInv s' := by
  rcases step_cases h with himp | ⟨i, -, hrun⟩
  · refine importTasks_invariant himp hi (fun t gslist ht => ?_) ?_
    · exact ⟨⟨ht.nodup, ht.pending, ht.existing⟩, ht.active, ht.processes⟩
    · intro e he task t hnew _ _ hfresh ht
      exact ht.imported hfresh (newTask_spec hnew).2.2
  · obtain ⟨task, rest, hs, hcase⟩ := runNext_cases hi.pending hrun
    exact hcase.tablesInv hi hs

theorem init_tablesInv (gslist : GameServersList) : TablesInv (init gslist) where
  toIdsInv := init_idsInv gslist
  active := by simp [init, Working]
  processes := by simp [init, Working]

/-- The tables are in agreement with the queue in every run. -/
theorem tablesInv_of_run {ok : GdaemonTasks → Op → Prop} {gslist : GameServersList}
    (h : Run (Step tz) ok (init gslist) s) : TablesInv s :=
  h.invariant (init_tablesInv gslist) fun _ _ _ hi _ hs => step_tablesInv hi hs

/-- A waiting task has neither a command nor a process. -/
theorem TablesInv.idle (hi : TablesInv s) (ht : task ∈ s.tasks) (hw : task.status = .waiting) :
    task.id ∉ s.activeCmds ∧ task.id ∉ s.cmdProcesses := by
  have hidle : ¬ Working s.tasks task.id := by
    rintro ⟨u, hu, he, hwork⟩
    obtain rfl := List.inj_on_of_nodup_map hi.nodup hu ht he
    rw [hw] at hwork
    cases hwork
  exact ⟨fun hm => hidle ((hi.active _).mp hm), fun hm => hidle ((hi.processes _).mp hm)⟩

theorem QueueInv.tables (hi : QueueInv s) : TablesInv s := ⟨hi.toIdsInv, hi.active, hi.processes⟩

theorem TablesInv.queueInv (hi : TablesInv s) (hk : ∀ t ∈ s.tasks, Known t.task) : QueueInv s :=
  ⟨hi.toIdsInv, hk, hi.active, hi.processes⟩

/-- **A `run_next` keeps the containers in agreement.** -/
theorem RunNext.queueInv (hi : QueueInv s) (hs : s.tasks = task :: rest)
    (h : RunNext tz i s task rest s') : QueueInv s' := by
  refine (h.tablesInv hi.tables hs).queueInv fun t ht => ?_
  have hfirst : Known task.task := hi.known task (hs ▸ List.mem_cons_self)
  have hrest : ∀ t ∈ rest, Known t.task := fun t ht => hi.known t (hs ▸ List.mem_cons_of_mem _ ht)
  have hrot : ∀ task' : GdaemonTask, task'.task = task.task → t ∈ rest ++ [task'] →
      Known t.task := by
    intro task' he ht
    rcases List.mem_append.mp ht with ht | ht
    · exact hrest t ht
    · rw [List.mem_singleton.mp ht, he]
      exact hfirst
  cases h with
  | blocked | lost | running => exact hrot task rfl ht
  | started => exact hrot { task with status := .working } rfl ht
  | rejected | completed => exact hrest t ht

theorem importTask_queueInv (hi : QueueInv s) (hnew : task.id ∉ s.existsTasks)
    (hw : task.status = .waiting) (hk : Known task.task) : QueueInv (importTask task s) := by
  refine (hi.tables.imported hnew hw).queueInv fun t ht => ?_
  rcases List.mem_append.mp ht with ht | ht
  · exact hi.known t ht
  · exact List.mem_singleton.mp ht ▸ hk

theorem step_queueInv {o : Op} (hi : QueueInv s) (hk : KnownTasks s o) (h : Step tz s o s') :
    QueueInv s' := by
  rcases step_cases h with himp | ⟨i, -, hrun⟩
  · refine importTasks_invariant himp hi (fun t gslist ht => ?_) ?_
    · exact ⟨⟨ht.nodup, ht.pending, ht.existing⟩, ht.known, ht.active, ht.processes⟩
    · intro e he task t hnew _ hne hfresh ht
      obtain ⟨-, ⟨name, hname, htask⟩, hw⟩ := newTask_spec hnew
      have hknown : Known name := (hk e he _ hname).resolve_left fun hempty =>
        hne (hempty ▸ hname)
      refine importTask_queueInv ht hfresh hw ?_
      rwa [htask, hknown.cString]
  · obtain ⟨task, rest, hs, hcase⟩ := runNext_cases hi.pending hrun
    exact hcase.queueInv hi hs

theorem init_queueInv (gslist : GameServersList) : QueueInv (init gslist) :=
  (init_tablesInv gslist).queueInv fun _ ht => absurd ht List.not_mem_nil

theorem queueInv_of_run {gslist : GameServersList}
    (h : Run (Step tz) KnownTasks (init gslist) s) : QueueInv s :=
  h.invariant (init_queueInv gslist) fun _ _ _ hi hk hs => step_queueInv hi hk hs

/-- **The containers agree.** In every run the ids in the queue are distinct and are those of
`exists_tasks`, every queued task is waiting or working, and `active_cmds` and `cmd_processes`
have the ids of the working ones. So `proceed` finds the command and the process of a working
task, and `start` finds neither for a waiting one. -/
theorem containers_agree {gslist : GameServersList}
    (h : Run (Step tz) KnownTasks (init gslist) s) :
    (s.tasks.map (·.id)).Nodup ∧ s.existsTasks = (s.tasks.map (·.id)).toFinset ∧
    (∀ t ∈ s.tasks, t.status = .waiting ∨ t.status = .working) ∧
    (∀ id, id ∈ s.activeCmds ↔ ∃ t ∈ s.tasks, t.id = id ∧ t.status = .working) ∧
    (∀ id, id ∈ s.cmdProcesses ↔ ∃ t ∈ s.tasks, t.id = id ∧ t.status = .working) ∧
    (∀ t ∈ s.tasks, t.status = .working →
      s.activeCmds.lookup t.id ≠ none ∧ s.cmdProcesses.lookup t.id ≠ none) ∧
    (∀ t ∈ s.tasks, t.status = .waiting → t.id ∉ s.activeCmds ∧ t.id ∉ s.cmdProcesses) := by
  have hi := queueInv_of_run h
  refine ⟨hi.nodup, ?_, hi.pending, hi.active, hi.processes, ?_, ?_⟩
  · ext id
    rw [hi.existing, List.mem_toFinset, List.mem_map, Queued]
  · intro t ht hw
    have hwork : Working s.tasks t.id := ⟨t, ht, rfl, hw⟩
    exact ⟨Option.isSome_iff_ne_none.mp (AList.lookup_isSome.mpr ((hi.active _).mpr hwork)),
      Option.isSome_iff_ne_none.mp (AList.lookup_isSome.mpr ((hi.processes _).mpr hwork))⟩
  · exact fun t ht hw => hi.tables.idle ht hw

theorem containers_agree_started :
    (performAll [.update (some [plainEntry 5 "gsstart" 1 1]),
        .runNext (plainRun runningPoll true)]).existsTasks = {5} ∧
      5 ∈ (performAll [.update (some [plainEntry 5 "gsstart" 1 1]),
        .runNext (plainRun runningPoll true)]).activeCmds := by
  have hk : KnownTasks plainInit (.update (some [plainEntry 5 "gsstart" 1 1])) := by
    intro e he name hname
    obtain rfl := List.mem_singleton.mp he
    cases hname
    exact .inr (.inl rfl)
  have h1 := run_snoc [] _ (.refl plainInit) hk (by decide)
  obtain ⟨-, hex, -, hact, -⟩ := containers_agree
    (run_snoc _ (.runNext (plainRun runningPoll true)) h1 (fun e he => by cases he) (by decide))
  refine ⟨hex.trans (by decide), (hact 5).mpr ?_⟩
  decide

end GdaemonTasks

end GameAP
