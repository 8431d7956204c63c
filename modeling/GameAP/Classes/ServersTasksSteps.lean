import GameAP.Classes.ServersTasks
import GameAP.Lib.Run

/-!
# The steps of the scheduled tasks

What a `runNext` that returns has done, case by case: `runNext_cases` for the queue's top and its
refresh, `runTask_cases` for the task taken from the queue. `start_eq` and `complete` name the
states in between, so that an invariant is proved from these cases without unfolding the code.
-/

namespace GameAP

open Lib

namespace ServersTasks

variable {tz : Int} {i : RunInput} {task task' : ServerTask} {s s' : ServersTasks}

/-! ## Reading a record -/

/-- The fields of a task that are read from its record. -/
structure ReadFrom (tz : Int) (j : Json) (t : ServerTask) : Prop where
  command : ∃ text, j.getString "command" = .ok text ∧ t.command = convertCommand text
  serverId : j.getUInt "server_id" = .ok t.serverId
  repeats : ∃ n, j.getUInt "repeat" = .ok n ∧ t.repeats = n % 2 ^ 16
  repeatPeriod : j.getUInt "repeat_period" = .ok t.repeatPeriod
  counter : j.getUInt "counter" = .ok t.counter
  executeDate : ∃ text, j.getString "execute_date" = .ok text ∧
    t.executeDate = humanToTimestamp tz text
  payload : j.getString "payload" = .ok t.payload

theorem syncFromApi_spec {j : Json} (h : syncFromApi tz (some j) task = .ok task') :
    task'.id = task.id ∧ task'.status = task.status ∧ ReadFrom tz j task' := by
  unfold syncFromApi at h
  obtain ⟨command, hcommand, h⟩ := ok_of_bind h
  obtain ⟨serverId, hserver, h⟩ := ok_of_bind h
  obtain ⟨repeats, hrepeats, h⟩ := ok_of_bind h
  obtain ⟨period, hperiod, h⟩ := ok_of_bind h
  obtain ⟨counter, hcounter, h⟩ := ok_of_bind h
  obtain ⟨date, hdate, h⟩ := ok_of_bind h
  obtain ⟨payload, hpayload, h⟩ := ok_of_bind h
  cases h
  exact ⟨rfl, rfl, ⟨command, hcommand, rfl⟩, hserver, ⟨repeats, hrepeats, rfl⟩, hperiod, hcounter,
    ⟨date, hdate, rfl⟩, hpayload⟩

theorem syncFromApi_same {reply : Option Json} (h : syncFromApi tz reply task = .ok task') :
    task'.id = task.id ∧ task'.status = task.status := by
  cases reply with
  | none => cases h; exact ⟨rfl, rfl⟩
  | some j =>
    obtain ⟨hid, hst, -⟩ := syncFromApi_spec h
    exact ⟨hid, hst⟩

theorem newTask_eq (j : Json) : newTask tz j = j.getUInt "id" >>= fun id =>
    syncFromApi tz (some j) {
      status := .waiting, id, command := .start, serverId := 0, repeats := 0, repeatPeriod := 0,
      counter := 0, executeDate := 0, payload := "" } := rfl

theorem newTask_spec {jtask : Json} (h : newTask tz jtask = .ok task) :
    jtask.getUInt "id" = .ok task.id ∧ task.status = .waiting ∧ ReadFrom tz jtask task := by
  rw [newTask_eq] at h
  obtain ⟨id, hid, h⟩ := ok_of_bind h
  obtain ⟨hsame, hst, hread⟩ := syncFromApi_spec h
  exact ⟨hsame ▸ hid, hst, hread⟩

/-! ## Importing -/

/-- One imported task. -/
def importTask (task : ServerTask) (s : ServersTasks) : ServersTasks :=
  push task { s with existsTasks := insert task.id s.existsTasks }

/-- What holds before an import and is kept by each imported task holds after it. -/
theorem addTasks_invariant {P : ServersTasks → Prop} {js : List Json}
    (h : addTasks tz js s = .ok s') (h0 : P s)
    (hstep : ∀ jtask ∈ js, ∀ task t, newTask tz jtask = .ok task → task.id ∉ t.existsTasks → P t →
      P (importTask task t)) : P s' := by
  induction js generalizing s with
  | nil => cases h; exact h0
  | cons jtask rest ih =>
    have hrest : ∀ j ∈ rest, ∀ task t, newTask tz j = .ok task → task.id ∉ t.existsTasks → P t →
        P (importTask task t) := fun j hj => hstep j (List.mem_cons_of_mem _ hj)
    unfold addTasks at h
    obtain ⟨id, hid, h⟩ := ok_of_bind h
    split at h
    · exact ih h h0 hrest
    · next hnew =>
      obtain ⟨task, ht, h⟩ := ok_of_bind h
      have hsame : id = task.id := Except.ok.inj (hid.symm.trans (newTask_spec ht).1)
      subst hsame
      exact ih h (hstep jtask List.mem_cons_self task s ht hnew h0) hrest

/-! ## The top of the queue -/

/-- The scheduler after a refresh: the task at the top and its last sync are replaced. -/
def refreshed (i : RunInput) (task : ServerTask) (s : ServersTasks) : ServersTasks :=
  { s with
    tasks := s.tasks.setIfInBounds 0 task
    lastSync := s.lastSync.emplace task.id i.now }

theorem refresh_cases {top : ServerTask} (h : refresh tz i top s = .ok (task, s')) :
    (needsSync i.now top.id s = false ∧ task = top ∧ s' = s) ∨
      (needsSync i.now top.id s = true ∧ syncFromApi tz i.task top = .ok task ∧
        s' = refreshed i task s) := by
  unfold refresh at h
  split at h
  · next hn =>
    obtain ⟨task', ht, h⟩ := ok_of_bind h
    cases h
    exact .inr ⟨hn, ht, rfl⟩
  · next hn =>
    cases h
    exact .inl ⟨Bool.not_eq_true _ ▸ hn, rfl, rfl⟩

theorem runNext_cases (h : runNext tz i s = .ok s') :
    ∃ top task s1, s.tasks[0]? = some top ∧ refresh tz i top s = .ok (task, s1) ∧
      ((i.now ≤ task.executeDate ∧ s' = s1) ∨
        (task.executeDate < i.now ∧
          runTask tz i task { s1 with tasks := Heap.pop compareTask s1.tasks } = .ok s')) := by
  unfold runNext at h
  split at h
  · cases h
  · next top htop =>
    obtain ⟨⟨task, s1⟩, hr, h⟩ := ok_of_bind h
    refine ⟨top, task, s1, htop, hr, ?_⟩
    simp only at h
    split at h
    · next hle => cases h; exact .inl ⟨hle, rfl⟩
    · next hlt => exact .inr ⟨not_le.mp hlt, h⟩

/-! ## Starting -/

/-- The scheduler after `start`. -/
def startState (i : RunInput) (task : ServerTask) (cmd : GameServerCmd) (gslist : GameServersList)
    (s : ServersTasks) : ServersTasks :=
  let s := beforeCmd i.stamp task
    { s with gslist, activeCmds := s.activeCmds.emplace task.id cmd }
  { record (.started task cmd i.forked) s with
    cmdProcesses := s.cmdProcesses.emplace task.id i.pid }

theorem start_cases (h : start tz i task s = .ok (task', s')) :
    ∃ cmd gslist, GameServerCmd.create tz i.server .restart task.serverId s.gslist =
        .ok (cmd, gslist) ∧ task' = { task with status := .working } ∧
      s' = startState i task' cmd gslist s := by
  unfold start at h
  obtain ⟨⟨cmd, gslist⟩, hc, h⟩ := ok_of_bind h
  cases h
  exact ⟨cmd, gslist, hc, rfl, rfl⟩

/-! ## Completing -/

/-- The task as `proceed` leaves it when its command is completed. -/
def completedTask (i : RunInput) (poll : Poll) (task : ServerTask) : ServerTask :=
  { task with
    status := if poll.succeeded then .success else .fail
    counter := (task.counter + 1) % 2 ^ 32
    executeDate := i.finished + task.repeatPeriod }

/-- The scheduler after `after_cmd` and `save_fail_to_api`. -/
def judgedState (i : RunInput) (poll : Poll) (task : ServerTask) (cmd : GameServerCmd)
    (s : ServersTasks) : ServersTasks :=
  let task := { task with status := if poll.succeeded then .success else .fail }
  let s := afterCmd i.stamp task (record (.completed task cmd poll) s)
  if task.status = .fail then saveFailToApi task poll.output s else s

/-- The update that `sync_to_api` sends for a task. -/
def taskUpdate (diff : Int) (task : ServerTask) : TaskUpdate :=
  { counter := task.counter, repeats := task.repeats,
    executeDate := formatTime (task.executeDate - diff) }

/-- The scheduler after `proceed` with a completed command. -/
def proceedState (i : RunInput) (poll : Poll) (diff : Int) (task : ServerTask)
    (cmd : GameServerCmd) (s : ServersTasks) : ServersTasks :=
  record (.synced task.id (taskUpdate diff (completedTask i poll task)) i.received)
    (judgedState i poll task cmd s)

theorem proceed_cases (h : proceed i task s = .ok (task', s')) :
    (s.activeCmds.lookup task.id = none ∧ task' = { task with status := .fail } ∧ s' = s) ∨
      ∃ cmd, s.activeCmds.lookup task.id = some cmd ∧
        (((i.poll.withPid (s.cmdProcesses.lookup task.id)).cmdCompleted = false ∧
            task' = task ∧ s' = s) ∨
          ∃ diff, i.timediff = some diff ∧
            (i.poll.withPid (s.cmdProcesses.lookup task.id)).cmdCompleted = true ∧
            task' = completedTask i (i.poll.withPid (s.cmdProcesses.lookup task.id)) task ∧
            s' = proceedState i (i.poll.withPid (s.cmdProcesses.lookup task.id)) diff task cmd
              s) := by
  unfold proceed at h
  split at h
  · next hl => cases h; exact .inl ⟨hl, rfl, rfl⟩
  · next cmd hl =>
    refine .inr ⟨cmd, hl, ?_⟩
    simp only at h
    split at h
    · next hc =>
      obtain ⟨s2, hs, h⟩ := ok_of_bind h
      cases h
      unfold syncToApi at hs
      split at hs
      · cases hs
      · next diff hd => cases hs; exact .inr ⟨diff, hd, hc, rfl, rfl⟩
    · next hc => cases h; exact .inl ⟨Bool.not_eq_true _ ▸ hc, rfl, rfl⟩

theorem requeue_activeCmds : (requeue task s).activeCmds = s.activeCmds := by
  unfold requeue; split <;> rfl

/-- The scheduler after the end of `run_next` for a completed task. -/
def finishState (task : ServerTask) (s : ServersTasks) : ServersTasks :=
  { requeue task s with
    activeCmds := s.activeCmds.erase task.id
    lastSync := (requeue task s).lastSync.erase task.id
    cmdProcesses := (requeue task s).cmdProcesses.erase task.id }

theorem finish_cases (h : finish task s = .ok s') :
    (∃ cmd, s.activeCmds.lookup task.id = some cmd) ∧ s' = finishState task s := by
  unfold finish at h
  simp only [requeue_activeCmds] at h
  split at h
  · cases h
  · next cmd hl => cases h; exact ⟨⟨cmd, hl⟩, rfl⟩

/-- No runs of the task are left. -/
def Exhausted (task : ServerTask) : Prop := task.repeats ≠ 0 ∧ task.repeats ≤ task.counter

theorem not_exhausted : ¬ Exhausted task ↔ task.repeats = 0 ∨ task.counter < task.repeats := by
  unfold Exhausted; omega

/-! ## The task taken from the queue -/

/-- What `runTask` does with a waiting or a working task. -/
inductive RunTask (tz : Int) (i : RunInput) (task : ServerTask) (s : ServersTasks) :
    ServersTasks → Prop where
  /-- all its runs are used up -/
  | exhausted : task.repeats ≠ 0 → task.repeats ≤ task.counter → RunTask tz i task s s
  | started {cmd : GameServerCmd} {gslist : GameServersList} :
      (task.repeats = 0 ∨ task.counter < task.repeats) → task.status = .waiting →
      GameServerCmd.create tz i.server .restart task.serverId s.gslist = .ok (cmd, gslist) →
      RunTask tz i task s
        (push { task with status := .working, executeDate := i.later + 30 }
          (startState i { task with status := .working } cmd gslist s))
  | running {cmd : GameServerCmd} :
      (task.repeats = 0 ∨ task.counter < task.repeats) → task.status = .working →
      s.activeCmds.lookup task.id = some cmd →
      (i.poll.withPid (s.cmdProcesses.lookup task.id)).cmdCompleted = false →
      RunTask tz i task s (push { task with executeDate := i.later + 30 } s)
  | completed {cmd : GameServerCmd} {diff : Int} :
      (task.repeats = 0 ∨ task.counter < task.repeats) → task.status = .working →
      s.activeCmds.lookup task.id = some cmd → i.timediff = some diff →
      (i.poll.withPid (s.cmdProcesses.lookup task.id)).cmdCompleted = true →
      RunTask tz i task s
        (finishState (completedTask i (i.poll.withPid (s.cmdProcesses.lookup task.id)) task)
          (proceedState i (i.poll.withPid (s.cmdProcesses.lookup task.id)) diff task cmd s))

theorem runTask_cases (hq : task.status = .waiting ∨ task.status = .working)
    (h : runTask tz i task s = .ok s') : RunTask tz i task s s' := by
  unfold runTask at h
  split at h
  · next hex => cases h; exact .exhausted hex.1 hex.2
  · next hex =>
    have hleft : task.repeats = 0 ∨ task.counter < task.repeats := by omega
    rcases hq with hw | hw
    · simp only [hw] at h
      obtain ⟨⟨task', s1⟩, hs, h⟩ := ok_of_bind h
      obtain ⟨cmd, gslist, hc, rfl, rfl⟩ := start_cases hs
      cases h
      exact .started hleft hw hc
    · simp only [hw] at h
      obtain ⟨⟨task', s1⟩, hs, hrest⟩ := ok_of_bind h
      clear h
      rcases proceed_cases hs with
        ⟨hnone, rfl, rfl⟩ | ⟨cmd, hl, ⟨hc, rfl, rfl⟩ | ⟨diff, hd, hc, rfl, rfl⟩⟩
      · obtain ⟨⟨cmd, hl⟩, -⟩ := finish_cases hrest
        rw [hnone] at hl
        cases hl
      · simp only [hw] at hrest
        cases hrest
        simpa only [hw] using RunTask.running hleft hw hl hc
      · generalize hp : i.poll.withPid (s.cmdProcesses.lookup task.id) = poll at hrest hc ⊢
        have hf : finish (completedTask i poll task) (proceedState i poll diff task cmd s) =
            .ok s' := by
          unfold completedTask at hrest ⊢
          cases hsucc : poll.succeeded with
          | true => simpa only [hsucc, if_true] using hrest
          | false => simpa only [hsucc, Bool.false_eq_true, if_false] using hrest
        obtain ⟨-, rfl⟩ := finish_cases hf
        rw [← hp] at hc ⊢
        exact .completed hleft hw hl hd hc

/-! ## The queue after a step -/

/-- What `before_cmd` tells the panel. -/
def beforeEvents (task : ServerTask) : List Event :=
  match task.command with
  | .install | .update => [.installStatus task.serverId .installInProcess]
  | _ => []

/-- What `after_cmd` tells the panel. -/
def afterEvents (task : ServerTask) : List Event :=
  match task.command with
  | .install | .update =>
    match task.status with
    | .success => [.installStatus task.serverId .installed]
    | .fail => [.installStatus task.serverId .notInstalled]
    | _ => []
  | .delete =>
    if task.status = .success then [.installStatus task.serverId .notInstalled] else []
  | _ => []

theorem beforeCmd_eq (c : GameServersList.StampClock) (task : ServerTask) (s : ServersTasks) :
    beforeCmd c task s = { s with
      gslist := (beforeCmd c task s).gslist, log := s.log ++ beforeEvents task } := by
  cases hc : task.command <;> simp [beforeCmd, beforeEvents, hc, setInstallStatus, record]

theorem afterCmd_eq (c : GameServersList.StampClock) (task : ServerTask) (s : ServersTasks) :
    afterCmd c task s = { s with
      gslist := (afterCmd c task s).gslist, log := s.log ++ afterEvents task } := by
  cases hc : task.command <;> cases hs : task.status <;>
    simp [afterCmd, afterEvents, hc, hs, setInstallStatus, record]

section States

variable {cmd : GameServerCmd} {gslist : GameServersList} {poll : Poll} {diff : Int}

@[simp] theorem startState_tasks : (startState i task cmd gslist s).tasks = s.tasks := by
  unfold startState; rw [beforeCmd_eq]; rfl

@[simp] theorem startState_activeCmds :
    (startState i task cmd gslist s).activeCmds = s.activeCmds.emplace task.id cmd := by
  unfold startState; rw [beforeCmd_eq]; rfl

@[simp] theorem startState_existsTasks :
    (startState i task cmd gslist s).existsTasks = s.existsTasks := by
  unfold startState; rw [beforeCmd_eq]; rfl

@[simp] theorem startState_log : (startState i task cmd gslist s).log =
    s.log ++ beforeEvents task ++ [.started task cmd i.forked] := by
  unfold startState; rw [beforeCmd_eq]; rfl

/-- The events of a completed command. -/
def completeEvents (i : RunInput) (poll : Poll) (diff : Int) (task : ServerTask)
    (cmd : GameServerCmd) : List Event :=
  let judged := { task with status := if poll.succeeded then .success else .fail }
  [.completed judged cmd poll] ++ afterEvents judged ++
    (if judged.status = .fail then [.failSaved task.id poll.output] else []) ++
    [.synced task.id (taskUpdate diff (completedTask i poll task)) i.received]

theorem proceedState_eq (i : RunInput) (poll : Poll) (diff : Int) (task : ServerTask)
    (cmd : GameServerCmd) (s : ServersTasks) : proceedState i poll diff task cmd s = { s with
      gslist := (proceedState i poll diff task cmd s).gslist
      log := s.log ++ completeEvents i poll diff task cmd } := by
  unfold proceedState judgedState completeEvents
  simp only
  rw [afterCmd_eq]
  split <;> simp [saveFailToApi, record]

@[simp] theorem proceedState_tasks : (proceedState i poll diff task cmd s).tasks = s.tasks := by
  rw [proceedState_eq]

@[simp] theorem proceedState_existsTasks :
    (proceedState i poll diff task cmd s).existsTasks = s.existsTasks := by
  rw [proceedState_eq]

@[simp] theorem proceedState_activeCmds :
    (proceedState i poll diff task cmd s).activeCmds = s.activeCmds := by
  rw [proceedState_eq]

@[simp] theorem proceedState_log : (proceedState i poll diff task cmd s).log =
    s.log ++ completeEvents i poll diff task cmd := by
  rw [proceedState_eq]

@[simp] theorem finishState_log : (finishState task s).log = s.log := by
  unfold finishState requeue; split <;> rfl

@[simp] theorem finishState_activeCmds :
    (finishState task s).activeCmds = s.activeCmds.erase task.id := rfl

end States

/-- No task in the queue is completed. -/
def Pending (s : ServersTasks) : Prop := ∀ t ∈ s.tasks, t.status = .waiting ∨ t.status = .working

theorem Pending.of_push {u : ServersTasks} (hp : Pending s)
    (ht : task.status = .waiting ∨ task.status = .working)
    (hu : u.tasks = Heap.push compareTask s.tasks task) : Pending u := by
  intro t hmem
  rw [hu] at hmem
  rcases Heap.mem_push.mp hmem with rfl | hmem
  · exact ht
  · exact hp t hmem

theorem Pending.of_setTop {u : ServersTasks} {top : ServerTask} (hp : Pending s)
    (htop : s.tasks[0]? = some top) (hst : task.status = top.status)
    (hu : u.tasks = s.tasks.setIfInBounds 0 task) : Pending u := by
  intro t hmem
  have hperm : (s.tasks.setIfInBounds 0 task).toList.Perm
      (task :: (Heap.pop compareTask s.tasks).toList) := Heap.toList_setIfInBounds htop task
  rw [hu] at hmem
  rcases List.mem_cons.mp (hperm.mem_iff.mp (Array.mem_toList_iff.mpr hmem)) with rfl | hrest
  · rw [hst]
    exact hp top (Array.mem_of_getElem? htop)
  · exact hp t (Heap.mem_of_mem_pop htop (Array.mem_toList_iff.mp hrest))

/-- At most the task itself goes back into the queue. -/
theorem RunTask.tasks (h : RunTask tz i task s s') :
    s'.tasks = s.tasks ∨ ∃ t, s'.tasks = Heap.push compareTask s.tasks t ∧ t.id = task.id ∧
      (t.status = .waiting ∨ t.status = .working) := by
  cases h with
  | exhausted => exact .inl rfl
  | started _ _ _ =>
    exact .inr ⟨_, congrArg (Heap.push compareTask · _) (startState_tasks), rfl, .inr rfl⟩
  | running _ hw _ _ => exact .inr ⟨_, rfl, rfl, .inr hw⟩
  | completed =>
    unfold finishState requeue
    split
    · exact .inr ⟨_, congrArg (Heap.push compareTask · _) (proceedState_tasks), rfl,
        .inl rfl⟩
    · refine .inl ?_
      simp only [proceedState_tasks]

/-- The events that a `run_next` adds for the task it takes. -/
theorem RunTask.log_cases (h : RunTask tz i task s s') :
    (Exhausted task ∧ s'.log = s.log) ∨
    (¬ Exhausted task ∧ task.status = .waiting ∧ ∃ cmd, cmd.command = .restart ∧
      s'.log = s.log ++ (beforeEvents task ++
        [.started { task with status := .working } cmd i.forked])) ∨
    (¬ Exhausted task ∧ task.status = .working ∧
      (i.poll.withPid (s.cmdProcesses.lookup task.id)).cmdCompleted = false ∧ s'.log = s.log) ∨
    (¬ Exhausted task ∧ task.status = .working ∧ ∃ cmd diff,
      s.activeCmds.lookup task.id = some cmd ∧ i.timediff = some diff ∧
      s'.log = s.log ++ completeEvents i (i.poll.withPid (s.cmdProcesses.lookup task.id)) diff
        task cmd) := by
  cases h with
  | exhausted h0 h1 => exact .inl ⟨⟨h0, h1⟩, rfl⟩
  | started hleft hw hc =>
    refine .inr (.inl ⟨not_exhausted.mpr hleft, hw, _, (GameServerCmd.create_command hc).1, ?_⟩)
    exact startState_log.trans (List.append_assoc _ _ _)
  | running hleft hw hl hp => exact .inr (.inr (.inl ⟨not_exhausted.mpr hleft, hw, hp, rfl⟩))
  | completed hleft hw hl hd hp =>
    refine .inr (.inr (.inr ⟨not_exhausted.mpr hleft, hw, _, _, hl, hd, ?_⟩))
    rw [finishState_log, proceedState_log]

/-- The top of the queue, refreshed, and the scheduler without it in the queue. -/
def taken (s : ServersTasks) : ServersTasks :=
  { s with tasks := Heap.pop compareTask s.tasks }

/-- What bringing the task on top up to date leaves as it is. -/
structure RefreshFrame (s s1 : ServersTasks) (top task : ServerTask) : Prop where
  id : task.id = top.id
  status : task.status = top.status
  log : s1.log = s.log
  gslist : s1.gslist = s.gslist
  existsTasks : s1.existsTasks = s.existsTasks
  activeCmds : s1.activeCmds = s.activeCmds
  cmdProcesses : s1.cmdProcesses = s.cmdProcesses
  pop : Heap.pop compareTask s1.tasks = Heap.pop compareTask s.tasks

theorem refresh_frame {top : ServerTask} {s1 : ServersTasks}
    (h : refresh tz i top s = .ok (task, s1)) : RefreshFrame s s1 top task := by
  rcases refresh_cases h with ⟨-, rfl, rfl⟩ | ⟨-, hsync, rfl⟩
  · exact ⟨rfl, rfl, rfl, rfl, rfl, rfl, rfl, rfl⟩
  · obtain ⟨hid, hst⟩ := syncFromApi_same hsync
    exact ⟨hid, hst, rfl, rfl, rfl, rfl, rfl, Heap.pop_setIfInBounds _ _⟩

/-- The task takes the place of the one on top. -/
theorem refresh_perm {top : ServerTask} {s1 : ServersTasks} (htop : s.tasks[0]? = some top)
    (h : refresh tz i top s = .ok (task, s1)) :
    s1.tasks.toList.Perm (task :: (Heap.pop compareTask s.tasks).toList) := by
  rcases refresh_cases h with ⟨-, rfl, rfl⟩ | ⟨-, -, rfl⟩
  · exact Heap.pop_perm htop
  · exact Heap.toList_setIfInBounds htop task

theorem refresh_pending {top : ServerTask} {s1 : ServersTasks} (hp : Pending s)
    (htop : s.tasks[0]? = some top) (h : refresh tz i top s = .ok (task, s1)) :
    (task.status = .waiting ∨ task.status = .working) ∧ task.id = top.id ∧
      Pending (taken s1) ∧ Pending s1 := by
  have hframe := refresh_frame h
  have hst : task.status = .waiting ∨ task.status = .working :=
    hframe.status ▸ hp top (Array.mem_of_getElem? htop)
  have hrest : ∀ t ∈ Heap.pop compareTask s.tasks, t.status = .waiting ∨ t.status = .working :=
    fun t ht => hp t (Heap.mem_of_mem_pop htop ht)
  refine ⟨hst, hframe.id, fun t ht => ?_, fun t ht => ?_⟩
  · have hpop : (taken s1).tasks = Heap.pop compareTask s.tasks := hframe.pop
    rw [hpop] at ht
    exact hrest t ht
  · have hmem := (refresh_perm htop h).mem_iff.mp (Array.mem_toList_iff.mpr ht)
    rcases List.mem_cons.mp hmem with rfl | hmem
    · exact hst
    · exact hrest t (Array.mem_toList_iff.mp hmem)

/-- **The cases of a `run_next`**: the task on top stays there, or it is taken and run. -/
theorem runNext_run (hp : Pending s) (h : runNext tz i s = .ok s') :
    ∃ top task s1, s.tasks[0]? = some top ∧ refresh tz i top s = .ok (task, s1) ∧
      ((i.now ≤ task.executeDate ∧ s' = s1) ∨
        (task.executeDate < i.now ∧ RunTask tz i task (taken s1) s')) := by
  obtain ⟨top, task, s1, htop, hr, hcase⟩ := runNext_cases h
  refine ⟨top, task, s1, htop, hr, hcase.imp id fun ⟨hdue, hrun⟩ => ⟨hdue, ?_⟩⟩
  exact runTask_cases (refresh_pending hp htop hr).1 hrun

theorem runNext_pending (hp : Pending s) (h : runNext tz i s = .ok s') : Pending s' := by
  obtain ⟨top, task, s1, htop, hr, ⟨-, rfl⟩ | ⟨-, hrun⟩⟩ := runNext_run hp h
  · exact (refresh_pending hp htop hr).2.2.2
  · have hrest := (refresh_pending hp htop hr).2.2.1
    rcases hrun.tasks with he | ⟨t, he, -, ht⟩
    · unfold Pending
      rw [he]
      exact hrest
    · exact hrest.of_push ht he

theorem addTasks_pending {js : List Json} (hp : Pending s) (h : addTasks tz js s = .ok s') :
    Pending s' := by
  refine addTasks_invariant (P := Pending) h hp fun _ _ task t hnew _ ht => ?_
  exact ht.of_push (.inl (newTask_spec hnew).2.1) rfl

/-! ## Steps -/

inductive Op where
  | update (reply : Option Json)
  /-- `run_next` after `empty` was false at the time `asked` -/
  | runNext (asked : Int) (i : RunInput)

/-- The scheduler and the last time that was read. -/
structure Timed where
  tasks : ServersTasks
  clock : Int

/-- The clock does not go back during a `run_next`. -/
def RunInput.Ordered (i : RunInput) : Prop :=
  i.now ≤ i.forked ∧ i.forked ≤ i.later ∧ i.now ≤ i.finished ∧ i.finished ≤ i.later

/-- A pass of the daemon's loop that throws nothing. -/
inductive Step (tz : Int) : Timed → Op → Timed → Prop where
  | update {s s' : ServersTasks} {clock : Int} {reply : Option Json} :
      update tz reply s = .ok s' → Step tz ⟨s, clock⟩ (.update reply) ⟨s', clock⟩
  | runNext {s s' : ServersTasks} {clock asked : Int} {i : RunInput} :
      clock ≤ asked → empty asked s = false → asked ≤ i.now → i.Ordered →
      runNext tz i s = .ok s' → Step tz ⟨s, clock⟩ (.runNext asked i) ⟨s', i.later⟩

theorem step_pending {t u : Timed} {o : Op} (hp : Pending t.tasks) (h : Step tz t o u) :
    Pending u.tasks := by
  cases h with
  | update hu =>
    rename_i reply
    cases reply with
    | none => cases hu; exact hp
    | some jvalue => exact addTasks_pending hp hu
  | runNext _ _ _ _ hrun => exact runNext_pending hp hrun

/-! ## A run -/

/-- The panel's entry of a task for server 1 that is repeated every minute. -/
def plainTask (id : Int) (command executeDate : String) : Json :=
  .obj [("command", .str command), ("counter", .int 0), ("execute_date", .str executeDate),
    ("id", .int id), ("payload", .null), ("repeat", .int 0), ("repeat_period", .int 60),
    ("server_id", .int 1)]

/-- A `run_next` at the time `now`; the requests of tasks and servers fail. -/
def plainRun (now : Int) (poll : Poll) : RunInput :=
  { now, task := none, server := { now, later := now, list := none, server := none },
    stamp := { now, sync := fun _ => now }, forked := now, pid := 7, poll, finished := now,
    timediff := some 0, received := true, later := now }

def runningPoll : Poll := { child := .working, complete := false, result := false, output := "" }

/-- The scheduler after the import of `js`. -/
def importedState (js : List Json) : ServersTasks :=
  resultD (init (GameServersList.plainList [1]))
    (update 0 (some (.arr js)) (init (GameServersList.plainList [1])))

/-- The scheduler after a `run_next` that starts the first of them. -/
def startedState (js : List Json) : ServersTasks :=
  resultD (importedState js) (runNext 0 (plainRun 100 runningPoll) (importedState js))

/-- The import of `js` and a `run_next` that starts the task on top. -/
theorem run_startedState {js : List Json} {ok : Timed → Op → Prop}
    (h1 : (update 0 (some (.arr js)) (init (GameServersList.plainList [1]))).toBool = true)
    (h2 : (runNext 0 (plainRun 100 runningPoll) (importedState js)).toBool = true)
    (hdue : empty 100 (importedState js) = false)
    (ok1 : ok ⟨init (GameServersList.plainList [1]), 0⟩ (.update (some (.arr js))))
    (ok2 : ok ⟨importedState js, 0⟩ (.runNext 100 (plainRun 100 runningPoll))) :
    Run (Step 0) ok ⟨init (GameServersList.plainList [1]), 0⟩ ⟨startedState js, 100⟩ := by
  have hs1 : Step 0 ⟨init (GameServersList.plainList [1]), 0⟩ (.update (some (.arr js)))
      ⟨importedState js, 0⟩ := .update (eq_ok_resultD _ h1)
  have hs2 : Step 0 ⟨importedState js, 0⟩ (.runNext 100 (plainRun 100 runningPoll))
      ⟨startedState js, 100⟩ :=
    .runNext (by decide) hdue (by decide) ⟨by decide, by decide, by decide, by decide⟩
      (eq_ok_resultD _ h2)
  exact ((Run.refl _).step ok1 hs1).step ok2 hs2

end ServersTasks

end GameAP
