import GameAP.Classes.ServersTasksSteps

/-!
# The containers of the scheduled tasks

`Owned`: the queued tasks have distinct ids, which are in `exists_tasks`, and every working one
has its command and its process. Every step keeps it, whatever the panel answers and the clock
says, so that a command that is looked up is there (`commands_found`). `Released` is the other
direction: the containers have nothing that no queued task needs. A `run_next` that drops a task
whose runs are used up breaks it; `released_of_run`: nothing else does.
-/

namespace GameAP

open Lib

namespace ServersTasks

/-! ## Steps at any time -/

/-- A step at whatever time: `run_next` is called only if `empty` was false. -/
inductive Turn (tz : Int) : ServersTasks → Op → ServersTasks → Prop where
  | update {s s' : ServersTasks} {reply : Option Json} :
      update tz reply s = .ok s' → Turn tz s (.update reply) s'
  | runNext {s s' : ServersTasks} {asked : Int} {i : RunInput} :
      empty asked s = false → runNext tz i s = .ok s' → Turn tz s (.runNext asked i) s'

variable {tz : Int} {i : RunInput} {task task' top : ServerTask} {ts us : List ServerTask}
  {s s' u : ServersTasks} {id : Nat}

/-! ## What the queue needs -/

/-- The queue `ts` and the containers. -/
structure Owned (ts : List ServerTask) (s : ServersTasks) : Prop where
  nodup : (ts.map (·.id)).Nodup
  pending : ∀ t ∈ ts, t.status = .waiting ∨ t.status = .working
  existing : ∀ t ∈ ts, t.id ∈ s.existsTasks
  commands : ∀ t ∈ ts, t.status = .working → t.id ∈ s.activeCmds ∧ t.id ∈ s.cmdProcesses

theorem Owned.perm (h : Owned ts s) (hp : us.Perm ts) : Owned us s where
  nodup := (hp.map _).nodup_iff.mpr h.nodup
  pending := fun t ht => h.pending t (hp.mem_iff.mp ht)
  existing := fun t ht => h.existing t (hp.mem_iff.mp ht)
  commands := fun t ht => h.commands t (hp.mem_iff.mp ht)

theorem Owned.tail (h : Owned (task :: ts) s) : Owned ts s where
  nodup := (List.nodup_cons.mp h.nodup).2
  pending := fun t ht => h.pending t (List.mem_cons_of_mem _ ht)
  existing := fun t ht => h.existing t (List.mem_cons_of_mem _ ht)
  commands := fun t ht => h.commands t (List.mem_cons_of_mem _ ht)

theorem Owned.ne (h : Owned (task :: ts) s) : ∀ t ∈ ts, t.id ≠ task.id := fun t ht he =>
  (List.nodup_cons.mp h.nodup).1 (List.mem_map.mpr ⟨t, ht, he⟩)

/-- A task under a new or its old id. -/
theorem Owned.cons (h : Owned ts s) (hne : ∀ t ∈ ts, t.id ≠ task.id)
    (hst : task.status = .waiting ∨ task.status = .working) (hex : task.id ∈ s.existsTasks)
    (hcmd : task.status = .working → task.id ∈ s.activeCmds ∧ task.id ∈ s.cmdProcesses) :
    Owned (task :: ts) s where
  nodup := by
    refine List.nodup_cons.mpr ⟨fun hmem => ?_, h.nodup⟩
    obtain ⟨t, ht, he⟩ := List.mem_map.mp hmem
    exact hne t ht he
  pending := List.forall_mem_cons.mpr ⟨hst, h.pending⟩
  existing := List.forall_mem_cons.mpr ⟨hex, h.existing⟩
  commands := List.forall_mem_cons.mpr ⟨hcmd, h.commands⟩

/-- The containers may grow, and forget what belongs to no queued task. -/
theorem Owned.of_containers (h : Owned ts s)
    (he : ∀ t ∈ ts, t.id ∈ s.existsTasks → t.id ∈ u.existsTasks)
    (ha : ∀ t ∈ ts, t.id ∈ s.activeCmds → t.id ∈ u.activeCmds)
    (hc : ∀ t ∈ ts, t.id ∈ s.cmdProcesses → t.id ∈ u.cmdProcesses) : Owned ts u where
  nodup := h.nodup
  pending := h.pending
  existing := fun t ht => he t ht (h.existing t ht)
  commands := fun t ht hw => ⟨ha t ht (h.commands t ht hw).1, hc t ht (h.commands t ht hw).2⟩

theorem Owned.of_frame (h : Owned ts s) (he : u.existsTasks = s.existsTasks)
    (ha : u.activeCmds = s.activeCmds) (hc : u.cmdProcesses = s.cmdProcesses) : Owned ts u where
  nodup := h.nodup
  pending := h.pending
  existing := he ▸ h.existing
  commands := ha ▸ hc ▸ h.commands

theorem Owned.push (h : Owned (task :: s.tasks.toList) s) :
    Owned (push task s).tasks.toList (push task s) :=
  have hsame : Owned (task :: s.tasks.toList) (ServersTasks.push task s) := h.of_frame rfl rfl rfl
  hsame.perm (Heap.push_perm s.tasks task)

/-! ## The states of a `run_next` -/

section States

variable {cmd : GameServerCmd} {gslist : GameServersList} {poll : Poll} {diff : Int}

@[simp] theorem startState_cmdProcesses : (startState i task cmd gslist s).cmdProcesses =
    s.cmdProcesses.emplace task.id i.pid := by
  unfold startState; rw [beforeCmd_eq]

@[simp] theorem proceedState_cmdProcesses :
    (proceedState i poll diff task cmd s).cmdProcesses = s.cmdProcesses := by
  rw [proceedState_eq]

/-- What is left of a completed task. -/
theorem finishState_cases :
    ((task.repeats = 0 ∨ task.counter < task.repeats) ∧
      finishState task s = push { task with status := .waiting } { s with
        activeCmds := s.activeCmds.erase task.id
        lastSync := s.lastSync.erase task.id
        cmdProcesses := s.cmdProcesses.erase task.id }) ∨
    (Exhausted task ∧ finishState task s = { s with
      existsTasks := s.existsTasks.erase task.id
      activeCmds := s.activeCmds.erase task.id
      lastSync := s.lastSync.erase task.id
      cmdProcesses := s.cmdProcesses.erase task.id }) := by
  unfold finishState requeue
  split
  · next hmore => exact .inl ⟨hmore, rfl⟩
  · next hmore => exact .inr ⟨not_not.mp (mt not_exhausted.mp hmore), rfl⟩

end States

theorem refresh_owned (h : Owned s.tasks.toList s) (htop : s.tasks[0]? = some top)
    (hr : refresh tz i top s = .ok (task, s')) :
    Owned (task :: (taken s').tasks.toList) (taken s') ∧ Owned s'.tasks.toList s' := by
  have hframe := refresh_frame hr
  have hold : Owned (top :: (Heap.pop compareTask s.tasks).toList) s :=
    h.perm (Heap.pop_perm htop).symm
  have hnew : Owned (task :: (Heap.pop compareTask s.tasks).toList) s := by
    refine hold.tail.cons ?_ ?_ ?_ ?_
    · rw [hframe.id]
      exact hold.ne
    · rw [hframe.status]
      exact hold.pending top List.mem_cons_self
    · rw [hframe.id]
      exact hold.existing top List.mem_cons_self
    · rw [hframe.id, hframe.status]
      exact hold.commands top List.mem_cons_self
  have hleft : Owned (task :: (Heap.pop compareTask s.tasks).toList) s' :=
    hnew.of_frame hframe.existsTasks hframe.activeCmds hframe.cmdProcesses
  have hpop : (taken s').tasks = Heap.pop compareTask s.tasks := hframe.pop
  refine ⟨?_, hleft.perm (refresh_perm htop hr)⟩
  rw [hpop]
  exact hleft.of_frame rfl rfl rfl

/-- The commands of the first task are forgotten. -/
theorem Owned.forget (h : Owned (task :: ts) s)
    (he : ∀ id, id ≠ task.id → id ∈ s.existsTasks → id ∈ u.existsTasks)
    (ha : u.activeCmds = s.activeCmds.erase task.id)
    (hc : u.cmdProcesses = s.cmdProcesses.erase task.id) : Owned ts u := by
  refine h.tail.of_containers (fun t ht hm => ?_) (fun t ht hm => ?_) fun t ht hm => ?_
  · exact he t.id (h.ne t ht) hm
  · rw [ha]
    exact AList.mem_erase.mpr ⟨h.ne t ht, hm⟩
  · rw [hc]
    exact AList.mem_erase.mpr ⟨h.ne t ht, hm⟩

/-- A completed task is put back as waiting, or it is gone. -/
theorem completed_owned (h : Owned (task :: s.tasks.toList) s) :
    Owned (finishState (completedTask i poll task)
        (proceedState i poll diff task cmd s)).tasks.toList
      (finishState (completedTask i poll task) (proceedState i poll diff task cmd s)) := by
  have hid : (completedTask i poll task).id = task.id := rfl
  rcases @finishState_cases (completedTask i poll task) (proceedState i poll diff task cmd s) with
    ⟨-, heq⟩ | ⟨-, heq⟩
  · rw [heq]
    refine Owned.push ?_
    simp only [proceedState_tasks, proceedState_activeCmds, proceedState_cmdProcesses, hid]
    refine (h.forget (fun id _ hm => ?_) rfl rfl).cons h.ne (.inl rfl) ?_ fun hw => ?_
    · rwa [proceedState_existsTasks]
    · show task.id ∈ (proceedState i poll diff task cmd s).existsTasks
      rw [proceedState_existsTasks]
      exact h.existing task List.mem_cons_self
    · cases hw
  · rw [heq]
    simp only [proceedState_tasks, proceedState_activeCmds, proceedState_cmdProcesses, hid]
    refine h.forget (fun id hne hm => ?_) rfl rfl
    rw [proceedState_existsTasks]
    exact Finset.mem_erase.mpr ⟨hne, hm⟩

theorem RunTask.owned (h : Owned (task :: s.tasks.toList) s) (hrun : RunTask tz i task s s') :
    Owned s'.tasks.toList s' := by
  have hex := h.existing task List.mem_cons_self
  cases hrun with
  | exhausted => exact h.tail
  | started =>
    refine Owned.push ?_
    rw [startState_tasks]
    refine (h.tail.of_containers (fun t ht hm => ?_) (fun t ht hm => ?_) fun t ht hm => ?_).cons
      h.ne ?_ ?_ ?_
    · rwa [startState_existsTasks]
    · rw [startState_activeCmds]
      exact Table.mem_emplace.mpr (.inr hm)
    · rw [startState_cmdProcesses]
      exact Table.mem_emplace.mpr (.inr hm)
    · exact .inr rfl
    · rwa [startState_existsTasks]
    · rw [startState_activeCmds, startState_cmdProcesses]
      exact fun _ => ⟨Table.mem_emplace.mpr (.inl rfl), Table.mem_emplace.mpr (.inl rfl)⟩
  | running _ hw =>
    refine Owned.push (h.tail.cons h.ne ?_ hex fun _ => ?_)
    · exact .inr hw
    · exact h.commands task List.mem_cons_self hw
  | completed => exact completed_owned h

theorem importTask_owned (h : Owned s.tasks.toList s) (hw : task.status = .waiting)
    (hnew : task.id ∉ s.existsTasks) :
    Owned (importTask task s).tasks.toList (importTask task s) := by
  have hgrown : Owned s.tasks.toList { s with existsTasks := insert task.id s.existsTasks } :=
    h.of_containers (fun _ _ hm => Finset.mem_insert_of_mem hm) (fun _ _ hm => hm) fun _ _ hm => hm
  refine Owned.push (hgrown.cons (fun t ht he => hnew (he ▸ h.existing t ht)) (.inl hw) ?_ ?_)
  · exact Finset.mem_insert_self _ _
  · rw [hw]
    intro hc
    cases hc

theorem turn_owned {o : Op} (h : Owned s.tasks.toList s) (hstep : Turn tz s o s') :
    Owned s'.tasks.toList s' := by
  cases hstep with
  | update hu =>
    rename_i reply
    cases reply with
    | none =>
      cases hu
      exact h
    | some jvalue =>
      refine addTasks_invariant (P := fun t => Owned t.tasks.toList t) hu h ?_
      exact fun _ _ task t hnew hfresh ht => importTask_owned ht (newTask_spec hnew).2.1 hfresh
  | runNext _ hrun =>
    have hp : Pending s := fun t ht => h.pending t (Array.mem_toList_iff.mpr ht)
    obtain ⟨top, task, s1, htop, hr, ⟨-, rfl⟩ | ⟨-, hcase⟩⟩ := runNext_run hp hrun
    · exact (refresh_owned h htop hr).2
    · exact hcase.owned (refresh_owned h htop hr).1

theorem init_owned (gslist : GameServersList) :
    Owned (init gslist).tasks.toList (init gslist) := by
  constructor <;> simp [init]

/-- What `run_next` calls for the task it has taken. -/
def attend (tz : Int) (i : RunInput) (task : ServerTask) (s : ServersTasks) :
    Except Exn (ServerTask × ServersTasks) :=
  match task.status with
  | .waiting => start tz i task s
  | .working => proceed i task s
  | _ => .ok (task, s)

theorem runTask_eq : runTask tz i task s =
    if task.repeats ≠ 0 ∧ task.counter ≥ task.repeats then .ok s
    else do
      let (task, s) ← attend tz i task s
      match task.status with
      | .success | .fail => finish task s
      | _ => return push { task with executeDate := i.later + 30 } s := by
  unfold runTask attend
  cases task.status <;> rfl

theorem lookup_ne_none {β : Type} {m : Table Nat β} {a : Nat} (h : a ∈ m) :
    m.lookup a ≠ none := Option.isSome_iff_ne_none.mp (AList.lookup_isSome.mpr h)

/-- A task that is completed has its command. -/
theorem attend_found (h : Owned (task :: ts) s) (hat : attend tz i task s = .ok (task', s'))
    (hdone : task'.status = .success ∨ task'.status = .fail) :
    s'.activeCmds.lookup task'.id ≠ none := by
  unfold attend at hat
  rcases h.pending task List.mem_cons_self with hw | hw
  · rw [hw] at hat
    obtain ⟨cmd, gslist, -, rfl, -⟩ := start_cases hat
    rcases hdone with hd | hd <;> cases hd
  · have hcmd := (h.commands task List.mem_cons_self hw).1
    rw [hw] at hat
    rcases proceed_cases hat with
      ⟨hnone, -, -⟩ | ⟨cmd, hl, ⟨-, rfl, rfl⟩ | ⟨diff, -, -, rfl, rfl⟩⟩
    · exact absurd hnone (lookup_ne_none hcmd)
    · exact lookup_ne_none hcmd
    · rw [proceedState_activeCmds]
      exact lookup_ne_none hcmd

/-- **The commands are found.** In every run the ids in the queue are distinct and in
`exists_tasks`, every queued task is waiting or working, and a working one has its command and its
process. So `proceed` finds the command of the task it is called for, and a task that is completed
has a command in `active_cmds` for `run_next` to destroy. -/
theorem commands_found {gslist : GameServersList} (h : Run (Turn tz) Any (init gslist) s) :
    (s.tasks.toList.map (·.id)).Nodup ∧ (∀ t ∈ s.tasks, t.id ∈ s.existsTasks) ∧
    (∀ t ∈ s.tasks, t.status = .waiting ∨ t.status = .working) ∧
    (∀ t ∈ s.tasks, t.status = .working → t.id ∈ s.activeCmds ∧ t.id ∈ s.cmdProcesses) ∧
    ∀ i top task s1, s.tasks[0]? = some top → refresh tz i top s = .ok (task, s1) →
      (task.status = .working → (taken s1).activeCmds.lookup task.id ≠ none) ∧
      ∀ task' s2, attend tz i task (taken s1) = .ok (task', s2) →
        task'.status = .success ∨ task'.status = .fail → s2.activeCmds.lookup task'.id ≠ none := by
  have hi : Owned s.tasks.toList s :=
    h.invariant (I := fun s => Owned s.tasks.toList s) (init_owned gslist)
      fun _ _ _ hi _ hs => turn_owned hi hs
  refine ⟨hi.nodup, fun t ht => hi.existing t (Array.mem_toList_iff.mpr ht),
    fun t ht => hi.pending t (Array.mem_toList_iff.mpr ht),
    fun t ht => hi.commands t (Array.mem_toList_iff.mpr ht), ?_⟩
  intro i top task s1 htop hr
  have htaken := (refresh_owned hi htop hr).1
  exact ⟨fun hw => lookup_ne_none (htaken.commands task List.mem_cons_self hw).1,
    fun task' s2 hat hdone => attend_found htaken hat hdone⟩

/-! ## What no queued task needs -/

/-- `active_cmds` or `cmd_processes` has an entry. -/
def HasCommand (s : ServersTasks) (id : Nat) : Prop := id ∈ s.activeCmds ∨ id ∈ s.cmdProcesses

/-- The containers have nothing but what belongs to a task of the queue `ts`. -/
structure Released (ts : List ServerTask) (s : ServersTasks) : Prop where
  existing : ∀ id ∈ s.existsTasks, ∃ t ∈ ts, t.id = id
  commands : ∀ id, HasCommand s id → ∃ t ∈ ts, t.id = id ∧ t.status = .working

/-- A queued task stays, or the containers forget it. -/
theorem Released.of_tasks (h : Released ts s)
    (he : ∀ id ∈ u.existsTasks, id ∈ s.existsTasks ∧ ∀ t ∈ ts, t.id = id → ∃ t' ∈ us, t'.id = id)
    (hc : ∀ id, HasCommand u id → HasCommand s id ∧ ∀ t ∈ ts, t.id = id → t.status = .working →
      ∃ t' ∈ us, t'.id = id ∧ t'.status = .working) : Released us u := by
  refine ⟨fun id hm => ?_, fun id hm => ?_⟩
  · obtain ⟨hold, hkeep⟩ := he id hm
    obtain ⟨t, ht, hid⟩ := h.existing id hold
    exact hkeep t ht hid
  · obtain ⟨hold, hkeep⟩ := hc id hm
    obtain ⟨t, ht, hid, hw⟩ := h.commands id hold
    exact hkeep t ht hid hw

theorem Released.perm (h : Released ts s) (hp : us.Perm ts) : Released us s where
  existing := fun id hm => let ⟨t, ht, hid⟩ := h.existing id hm; ⟨t, hp.mem_iff.mpr ht, hid⟩
  commands := fun id hm => let ⟨t, ht, hid⟩ := h.commands id hm; ⟨t, hp.mem_iff.mpr ht, hid⟩

theorem Released.of_frame (h : Released ts s) (he : u.existsTasks = s.existsTasks)
    (ha : u.activeCmds = s.activeCmds) (hc : u.cmdProcesses = s.cmdProcesses) :
    Released ts u := by
  refine ⟨he ▸ h.existing, fun id hm => h.commands id ?_⟩
  unfold HasCommand at hm ⊢
  rwa [ha, hc] at hm

theorem Released.push (h : Released (task :: s.tasks.toList) s) :
    Released (push task s).tasks.toList (push task s) :=
  have hsame : Released (task :: s.tasks.toList) (ServersTasks.push task s) :=
    h.of_frame rfl rfl rfl
  hsame.perm (Heap.push_perm s.tasks task)

/-- Another version of the first task. -/
theorem Released.replace (h : Released (task :: ts) s) (hid : task'.id = task.id)
    (hw : task.status = .working → task'.status = .working) : Released (task' :: ts) s := by
  refine h.of_tasks (fun id hm => ⟨hm, fun t ht he => ?_⟩) fun id hm => ⟨hm, fun t ht he hwork => ?_⟩
  · rcases List.mem_cons.mp ht with rfl | ht
    · exact ⟨task', List.mem_cons_self, hid.trans he⟩
    · exact ⟨t, List.mem_cons_of_mem _ ht, he⟩
  · rcases List.mem_cons.mp ht with rfl | ht
    · exact ⟨task', List.mem_cons_self, hid.trans he, hw hwork⟩
    · exact ⟨t, List.mem_cons_of_mem _ ht, he, hwork⟩

/-- A task without a command. -/
theorem Released.idle (h : Released (task :: ts) s) (hid : task'.id = task.id)
    (he : ∀ id ∈ u.existsTasks, id ∈ s.existsTasks)
    (hc : ∀ id, HasCommand u id → HasCommand s id ∧ id ≠ task.id) : Released (task' :: ts) u := by
  refine h.of_tasks (fun id hm => ⟨he id hm, fun t ht hi => ?_⟩)
    fun id hm => ⟨(hc id hm).1, fun t ht hi hwork => ?_⟩
  · rcases List.mem_cons.mp ht with rfl | ht
    · exact ⟨task', List.mem_cons_self, hid.trans hi⟩
    · exact ⟨t, List.mem_cons_of_mem _ ht, hi⟩
  · rcases List.mem_cons.mp ht with rfl | ht
    · exact absurd hi.symm (hc id hm).2
    · exact ⟨t, List.mem_cons_of_mem _ ht, hi, hwork⟩

/-- The first task is forgotten. -/
theorem Released.forget (h : Released (task :: ts) s)
    (he : ∀ id ∈ u.existsTasks, id ∈ s.existsTasks ∧ id ≠ task.id)
    (hc : ∀ id, HasCommand u id → HasCommand s id ∧ id ≠ task.id) : Released ts u := by
  have hothers : ∀ id t, id ≠ task.id → t ∈ task :: ts → t.id = id → t ∈ ts := by
    rintro id t hne ht rfl
    rcases List.mem_cons.mp ht with rfl | ht
    · exact absurd rfl hne
    · exact ht
  refine h.of_tasks (fun id hm => ⟨(he id hm).1, fun t ht hi => ?_⟩)
    fun id hm => ⟨(hc id hm).1, fun t ht hi hwork => ?_⟩
  · exact ⟨t, hothers id t (he id hm).2 ht hi, hi⟩
  · exact ⟨t, hothers id t (hc id hm).2 ht hi, hi, hwork⟩

theorem refresh_released (h : Released s.tasks.toList s) (htop : s.tasks[0]? = some top)
    (hr : refresh tz i top s = .ok (task, s')) :
    Released (task :: (taken s').tasks.toList) (taken s') ∧ Released s'.tasks.toList s' := by
  have hframe := refresh_frame hr
  have hold : Released (top :: (Heap.pop compareTask s.tasks).toList) s :=
    h.perm (Heap.pop_perm htop).symm
  have hnew : Released (task :: (Heap.pop compareTask s.tasks).toList) s :=
    hold.replace hframe.id fun hw => hframe.status.trans hw
  have hleft : Released (task :: (Heap.pop compareTask s.tasks).toList) s' :=
    hnew.of_frame hframe.existsTasks hframe.activeCmds hframe.cmdProcesses
  have hpop : (taken s').tasks = Heap.pop compareTask s.tasks := hframe.pop
  refine ⟨?_, hleft.perm (refresh_perm htop hr)⟩
  rw [hpop]
  exact hleft.of_frame rfl rfl rfl

theorem hasCommand_erase {a : Table Nat GameServerCmd} {c : Table Nat Int} {n : Nat}
    (h : id ∈ a.erase n ∨ id ∈ c.erase n) : (id ∈ a ∨ id ∈ c) ∧ id ≠ n := by
  rcases h with h | h
  · exact ⟨.inl (AList.mem_erase.mp h).2, (AList.mem_erase.mp h).1⟩
  · exact ⟨.inr (AList.mem_erase.mp h).2, (AList.mem_erase.mp h).1⟩

/-- A task that is not dropped leaves nothing behind. -/
theorem RunTask.released (h : Released (task :: s.tasks.toList) s) (hleft : ¬ Exhausted task)
    (hrun : RunTask tz i task s s') : Released s'.tasks.toList s' := by
  cases hrun with
  | exhausted h0 h1 => exact absurd ⟨h0, h1⟩ hleft
  | started _ hw =>
    rename_i cmd gslist _
    have hwork : Released ({ task with status := .working, executeDate := i.later + 30 } ::
        s.tasks.toList) s := h.replace rfl fun _ => rfl
    refine Released.push ?_
    rw [startState_tasks]
    refine ⟨fun id hm => ?_, fun id hm => ?_⟩
    · rw [startState_existsTasks] at hm
      exact hwork.existing id hm
    · unfold HasCommand at hm
      rw [startState_activeCmds, startState_cmdProcesses, Table.mem_emplace, Table.mem_emplace] at hm
      by_cases hid : id = task.id
      · exact ⟨_, List.mem_cons_self, hid.symm, rfl⟩
      · exact hwork.commands id (hm.imp (·.resolve_left hid) (·.resolve_left hid))
  | running => exact Released.push (h.replace rfl fun hw => hw)
  | completed =>
    rename_i cmd diff _ hw hl hd hc
    generalize i.poll.withPid (s.cmdProcesses.lookup task.id) = poll
    rcases @finishState_cases (completedTask i poll task) (proceedState i poll diff task cmd s) with
      ⟨-, heq⟩ | ⟨-, heq⟩
    · rw [heq]
      refine Released.push ?_
      simp only [proceedState_tasks, proceedState_activeCmds, proceedState_cmdProcesses]
      refine h.idle rfl (fun id hm => ?_) fun id hm => hasCommand_erase hm
      simpa using hm
    · rw [heq]
      simp only [proceedState_tasks, proceedState_activeCmds, proceedState_cmdProcesses]
      refine h.forget (fun id hm => ?_) fun id hm => hasCommand_erase hm
      rw [proceedState_existsTasks] at hm
      exact (Finset.mem_erase.mp hm).symm

theorem importTask_released (h : Released s.tasks.toList s) :
    Released (importTask task s).tasks.toList (importTask task s) := by
  refine Released.push ⟨fun id hm => ?_, fun id hm => ?_⟩
  · rcases Finset.mem_insert.mp hm with rfl | hm
    · exact ⟨task, List.mem_cons_self, rfl⟩
    · obtain ⟨t, ht, hid⟩ := h.existing id hm
      exact ⟨t, List.mem_cons_of_mem _ ht, hid⟩
  · obtain ⟨t, ht, hid⟩ := h.commands id hm
    exact ⟨t, List.mem_cons_of_mem _ ht, hid⟩

/-- The task on top, brought up to date, is not due or has runs left. -/
def NotDropped (tz : Int) (s : ServersTasks) : Op → Prop
  | .update _ => True
  | .runNext _ i => ∀ top task s1, s.tasks[0]? = some top → refresh tz i top s = .ok (task, s1) →
      task.executeDate < i.now → ¬ Exhausted task

/-- **What a step keeps**, if and only if it drops no task. -/
theorem turn_released_iff {o : Op} (hi : Owned s.tasks.toList s) (h : Released s.tasks.toList s)
    (hstep : Turn tz s o s') : Released s'.tasks.toList s' ↔ NotDropped tz s o := by
  cases hstep with
  | update hu =>
    rename_i reply
    refine ⟨fun _ => trivial, fun _ => ?_⟩
    cases reply with
    | none =>
      cases hu
      exact h
    | some jvalue =>
      refine addTasks_invariant (P := fun t => Released t.tasks.toList t) hu h ?_
      exact fun _ _ task t _ _ ht => importTask_released ht
  | runNext _ hrun =>
    rename_i i
    have hp : Pending s := fun t ht => hi.pending t (Array.mem_toList_iff.mpr ht)
    obtain ⟨top, task, s1, htop, hr, hcase⟩ := runNext_run hp hrun
    have hfirst := refresh_released h htop hr
    constructor
    · -- a dropped task is in `exists_tasks`, and no longer in the queue
      intro hrel top' task' s1' htop' hr' hdue hex
      obtain rfl : top = top' := Option.some.inj (htop.symm.trans htop')
      obtain ⟨rfl, rfl⟩ := Prod.mk.inj (Except.ok.inj (hr.symm.trans hr'))
      obtain ⟨hle, -⟩ | ⟨-, htask⟩ := hcase
      · omega
      · have htaken := (refresh_owned hi htop hr).1
        have hs' : s' = taken s1 := by
          cases htask with
          | exhausted => rfl
          | started hleft => exact absurd hex (not_exhausted.mpr hleft)
          | running hleft => exact absurd hex (not_exhausted.mpr hleft)
          | completed hleft => exact absurd hex (not_exhausted.mpr hleft)
        subst hs'
        obtain ⟨t, ht, hid⟩ := hrel.existing task.id (htaken.existing task List.mem_cons_self)
        exact htaken.ne t ht hid
    · intro hnot
      rcases hcase with ⟨-, rfl⟩ | ⟨hdue, htask⟩
      · exact hfirst.2
      · exact htask.released hfirst.1 (hnot top task s1 htop hr hdue)

theorem init_released (gslist : GameServersList) :
    Released (init gslist).tasks.toList (init gslist) where
  existing := fun id hm => by simp [init] at hm
  commands := fun id hm => by simp [init, HasCommand] at hm

/-- **Nothing is left behind.** In a run that drops no task whose runs are used up, every id in
`exists_tasks` is that of a queued task, and every id in `active_cmds` or `cmd_processes` that of
a queued working task. -/
theorem released_of_run {gslist : GameServersList}
    (h : Run (Turn tz) (NotDropped tz) (init gslist) s) :
    (∀ id ∈ s.existsTasks, ∃ t ∈ s.tasks, t.id = id) ∧
    (∀ id, id ∈ s.activeCmds ∨ id ∈ s.cmdProcesses →
      ∃ t ∈ s.tasks, t.id = id ∧ t.status = .working) := by
  have hi : Owned s.tasks.toList s ∧ Released s.tasks.toList s :=
    h.invariant (I := fun s => Owned s.tasks.toList s ∧ Released s.tasks.toList s)
      ⟨init_owned gslist, init_released gslist⟩ fun _ _ _ hi hok hs =>
        ⟨turn_owned hi.1 hs, (turn_released_iff hi.1 hi.2 hs).mpr hok⟩
  refine ⟨fun id hm => ?_, fun id hm => ?_⟩
  · obtain ⟨t, ht, hid⟩ := hi.2.existing id hm
    exact ⟨t, Array.mem_toList_iff.mp ht, hid⟩
  · obtain ⟨t, ht, hid⟩ := hi.2.commands id hm
    exact ⟨t, Array.mem_toList_iff.mp ht, hid⟩

/-! ## A dropped task -/

/-- The id is in `exists_tasks`, but no queued task has it. -/
structure Lost (id : Nat) (s : ServersTasks) : Prop where
  known : id ∈ s.existsTasks
  queue : ∀ t ∈ s.tasks.toList, t.id ≠ id

theorem Lost.push (hl : Lost id s) (hne : task.id ≠ id) : Lost id (push task s) := by
  refine ⟨hl.known, fun t ht => ?_⟩
  rcases List.mem_cons.mp ((Heap.push_perm s.tasks task).mem_iff.mp ht) with rfl | ht
  · exact hne
  · exact hl.queue t ht

/-- Only the id of the task itself leaves `exists_tasks`. -/
theorem RunTask.existsTasks (hne : id ≠ task.id) (hm : id ∈ s.existsTasks)
    (hrun : RunTask tz i task s s') : id ∈ s'.existsTasks := by
  cases hrun with
  | exhausted => exact hm
  | started =>
    show id ∈ (startState i _ _ _ s).existsTasks
    rwa [startState_existsTasks]
  | running => exact hm
  | completed =>
    rename_i cmd diff _ _ _ _ _
    generalize i.poll.withPid (s.cmdProcesses.lookup task.id) = poll
    rcases @finishState_cases (completedTask i poll task) (proceedState i poll diff task cmd s) with
      ⟨-, heq⟩ | ⟨-, heq⟩
    · rw [heq]
      show id ∈ (proceedState i poll diff task cmd s).existsTasks
      rwa [proceedState_existsTasks]
    · rw [heq]
      show id ∈ (proceedState i poll diff task cmd s).existsTasks.erase task.id
      rw [proceedState_existsTasks]
      exact Finset.mem_erase.mpr ⟨hne, hm⟩

theorem refresh_lost (hl : Lost id s) (htop : s.tasks[0]? = some top)
    (hr : refresh tz i top s = .ok (task, s')) :
    task.id ≠ id ∧ Lost id (taken s') ∧ Lost id s' := by
  have hframe := refresh_frame hr
  have hne : task.id ≠ id := by
    rw [hframe.id]
    exact hl.queue top (Array.mem_toList_iff.mpr (Array.mem_of_getElem? htop))
  have hrest : ∀ t ∈ (Heap.pop compareTask s.tasks).toList, t.id ≠ id := fun t ht =>
    hl.queue t ((Heap.pop_perm htop).mem_iff.mpr (List.mem_cons_of_mem _ ht))
  have hknown : id ∈ s'.existsTasks := hframe.existsTasks ▸ hl.known
  refine ⟨hne, ⟨hknown, fun t ht => hrest t ?_⟩, hknown, fun t ht => ?_⟩
  · have hpop : (taken s').tasks = Heap.pop compareTask s.tasks := hframe.pop
    rwa [hpop] at ht
  · rcases List.mem_cons.mp ((refresh_perm htop hr).mem_iff.mp ht) with rfl | ht
    · exact hne
    · exact hrest t ht

theorem turn_lost {o : Op} (hi : Owned s.tasks.toList s) (hl : Lost id s)
    (hstep : Turn tz s o s') : Lost id s' := by
  cases hstep with
  | update hu =>
    rename_i reply
    cases reply with
    | none =>
      cases hu
      exact hl
    | some jvalue =>
      refine addTasks_invariant (P := Lost id) hu hl fun _ _ task t _ hnew ht => ?_
      have hgrown : Lost id { t with existsTasks := insert task.id t.existsTasks } :=
        ⟨Finset.mem_insert_of_mem ht.known, ht.queue⟩
      exact hgrown.push fun he => hnew (he ▸ ht.known)
  | runNext _ hrun =>
    have hp : Pending s := fun t ht => hi.pending t (Array.mem_toList_iff.mpr ht)
    obtain ⟨top, task, s1, htop, hr, hcase⟩ := runNext_run hp hrun
    obtain ⟨hne, htaken, hone⟩ := refresh_lost hl htop hr
    rcases hcase with ⟨-, rfl⟩ | ⟨-, htask⟩
    · exact hone
    · refine ⟨htask.existsTasks hne.symm htaken.known, ?_⟩
      rcases htask.tasks with heq | ⟨t, heq, hid, -⟩
      · rw [heq]
        exact htaken.queue
      · rw [heq]
        exact (htaken.push (hid ▸ hne)).queue

/-- **A dropped task is never imported again.** -/
theorem lost_of_run {ok : ServersTasks → Op → Prop} (hi : Owned s.tasks.toList s)
    (hl : Lost id s) (h : Run (Turn tz) ok s u) : Lost id u :=
  (h.invariant (I := fun s => Owned s.tasks.toList s ∧ Lost id s) ⟨hi, hl⟩
    fun _ _ _ hs _ hstep => ⟨turn_owned hs.1 hstep, turn_lost hs.1 hs.2 hstep⟩).2

/-! ## A task of two runs -/

/-- The panel's entry of a task for server 1. -/
def countedTask (repeats counter : Int) : Json :=
  .obj [("command", .str "restart"), ("counter", .int counter),
    ("execute_date", .str "1970-01-01 00:00:10"), ("id", .int 1), ("payload", .null),
    ("repeat", .int repeats), ("repeat_period", .int 60), ("server_id", .int 1)]

/-- The command of the task is running, and the panel sets its counter to its repeats. -/
def droppedState : ServersTasks :=
  resultD (startedState [countedTask 1 0])
    (runNext 0 { plainRun 500 runningPoll with task := some (countedTask 1 1) }
      (startedState [countedTask 1 0]))

/-- The import of a task and the `run_next` that starts it. -/
theorem run_started {ok : ServersTasks → Op → Prop} (j : Json)
    (h1 : (update 0 (some (.arr [j])) (init (GameServersList.plainList [1]))).toBool = true)
    (h2 : (runNext 0 (plainRun 100 runningPoll) (importedState [j])).toBool = true)
    (hdue : empty 100 (importedState [j]) = false)
    (ok1 : ok (init (GameServersList.plainList [1])) (.update (some (.arr [j]))))
    (ok2 : ok (importedState [j]) (.runNext 100 (plainRun 100 runningPoll))) :
    Run (Turn 0) ok (init (GameServersList.plainList [1])) (startedState [j]) := by
  have hs1 : Turn 0 (init (GameServersList.plainList [1])) (.update (some (.arr [j])))
      (importedState [j]) := .update (eq_ok_resultD _ h1)
  have hs2 : Turn 0 (importedState [j]) (.runNext 100 (plainRun 100 runningPoll))
      (startedState [j]) := .runNext hdue (eq_ok_resultD _ h2)
  exact ((Run.refl _).step ok1 hs1).step ok2 hs2

theorem commands_found_started :
    1 ∈ (startedState [countedTask 1 0]).activeCmds ∧
      1 ∈ (startedState [countedTask 1 0]).cmdProcesses := by
  have hcmd := (commands_found (run_started (countedTask 1 0) (by decide) (by decide) (by decide)
    trivial trivial)).2.2.2.1
  have hwork : ∃ t ∈ (startedState [countedTask 1 0]).tasks.toList,
      t.id = 1 ∧ t.status = .working := by decide
  obtain ⟨t, ht, hid, hw⟩ := hwork
  rw [← hid]
  exact hcmd t (Array.mem_toList_iff.mp ht) hw

theorem released_of_run_started : ∃ t ∈ (startedState [countedTask 1 0]).tasks,
    t.id = 1 ∧ t.status = .working := by
  have hrun : Run (Turn 0) (NotDropped 0) (init (GameServersList.plainList [1]))
      (startedState [countedTask 1 0]) := by
    refine run_started (countedTask 1 0) (by decide) (by decide) (by decide) trivial ?_
    intro top task s1 htop hr _ hex
    have hruns : (importedState [countedTask 1 0]).tasks[0]?.map
        (fun t => (t.repeats, t.counter)) = some (1, 0) := by decide
    rw [htop] at hruns
    obtain ⟨h1, h0⟩ := Prod.mk.inj (Option.some.inj hruns)
    obtain rfl : task = top := by
      rcases refresh_cases hr with ⟨-, heq, -⟩ | ⟨-, hsync, -⟩
      · exact heq
      · exact (Except.ok.inj hsync).symm
    have hle := hex.2
    omega
  exact (released_of_run hrun).2 1 (.inl (by decide))

/-- The command goes on, and neither its task nor the number of its process is looked at again. -/
theorem dropped_unreleased :
    ¬ ∀ (tz : Int) (gslist : GameServersList) (s : ServersTasks),
      Run (Turn tz) Any (init gslist) s →
        (∀ id ∈ s.existsTasks, ∃ t ∈ s.tasks, t.id = id) ∧
        (∀ id, id ∈ s.activeCmds ∨ id ∈ s.cmdProcesses →
          ∃ t ∈ s.tasks, t.id = id ∧ t.status = .working) := by
  intro h
  have hstarted : Run (Turn 0) Any (init (GameServersList.plainList [1]))
      (startedState [countedTask 1 0]) :=
    run_started (countedTask 1 0) (by decide) (by decide) (by decide) trivial trivial
  have hdrop : Turn 0 (startedState [countedTask 1 0])
      (.runNext 500 { plainRun 500 runningPoll with task := some (countedTask 1 1) })
      droppedState := .runNext (by decide) (eq_ok_resultD _ (by decide))
  obtain ⟨t, ht, -⟩ := (h 0 _ droppedState (hstarted.step trivial hdrop)).2 1 (.inl (by decide))
  have hnone : droppedState.tasks.toList = [] := by decide
  rw [← Array.mem_toList_iff, hnone] at ht
  cases ht

end ServersTasks

end GameAP
