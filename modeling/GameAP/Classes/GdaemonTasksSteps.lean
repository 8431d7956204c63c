import GameAP.Classes.GdaemonTasks
import GameAP.Lib.Run

/-!
# The steps of the daemon's tasks

What an import and a `runNext` that return have done: `importTasks_invariant` for the entries of
the panel's list, and `RunNext`, with a constructor for each way a `runNext` can go, for a queue
in which no task is completed (`runNext_cases`).
-/

namespace GameAP

open Lib

namespace GdaemonTasks

variable {tz : Int} {i : RunInput} {task task' : GdaemonTask} {s s' : GdaemonTasks}

/-! ## Importing -/

theorem newTask_spec {jtask : Json} (h : newTask jtask = .ok task) :
    jtask.getUInt "id" = .ok task.id ∧
      (∃ name, jtask.getString "task" = .ok name ∧ task.task = cString name) ∧
      task.status = .waiting := by
  unfold newTask at h
  obtain ⟨_, -, h⟩ := ok_of_bind h
  obtain ⟨id, hid, h⟩ := ok_of_bind h
  obtain ⟨_, -, h⟩ := ok_of_bind h
  obtain ⟨_, -, h⟩ := ok_of_bind h
  obtain ⟨name, hname, h⟩ := ok_of_bind h
  obtain ⟨_, -, h⟩ := ok_of_bind h
  cases h
  exact ⟨hid, ⟨name, hname, rfl⟩, rfl⟩

/-- One imported task. -/
def importTask (task : GdaemonTask) (s : GdaemonTasks) : GdaemonTasks :=
  { s with existsTasks := insert task.id s.existsTasks, tasks := s.tasks ++ [task] }

/-- An entry that an import does not skip before it looks at its server. -/
structure Wanted (status : GdaemonTask.Status) (s : GdaemonTasks) (jtask : Json)
    (serverId : Nat) : Prop where
  fresh : ∃ id, jtask.getUInt "id" = .ok id ∧ id ∉ s.existsTasks
  task : ∃ name, jtask.getString "task" = .ok name ∧ name ≠ ""
  status : jtask.getUInt "status_num" = .ok status.toNat
  server : ∃ j, jtask.get "server_id" = .ok j ∧ j.asLargestUInt = .ok serverId

/-- The entry is in the queue, has no task or has another status. -/
def Skipped (status : GdaemonTask.Status) (s : GdaemonTasks) (jtask : Json) : Prop :=
  (∃ id, jtask.getUInt "id" = .ok id ∧ id ∈ s.existsTasks) ∨ jtask.getString "task" = .ok "" ∨
    ∃ num, jtask.getUInt "status_num" = .ok num ∧ num ≠ status.toNat

/-- What an import does with one entry. -/
inductive ImportEntry (tz : Int) (status : GdaemonTask.Status) (s : GdaemonTasks) :
    Entry → GdaemonTasks → Prop where
  | skipped {jtask : Json} {r : GameServersList.ServerReplies} :
      Skipped status s jtask → ImportEntry tz status s (jtask, r) s
  | noServer {jtask : Json} {r : GameServersList.ServerReplies} {serverId : Nat}
      {gslist : GameServersList} : Wanted status s jtask serverId →
      findServer tz r serverId s.gslist = .ok (false, gslist) →
      ImportEntry tz status s (jtask, r) { s with gslist }
  | imported {jtask : Json} {r : GameServersList.ServerReplies} {serverId : Nat}
      {gslist : GameServersList} {task : GdaemonTask} : Wanted status s jtask serverId →
      findServer tz r serverId s.gslist = .ok (true, gslist) → newTask jtask = .ok task →
      task.id ∉ s.existsTasks →
      ImportEntry tz status s (jtask, r) (importTask task { s with gslist })

theorem importTasks_cons (status : GdaemonTask.Status) (e : Entry) (rest : List Entry)
    (s : GdaemonTasks) : importTasks tz status (e :: rest) s =
      (importTasks tz status [e] s >>= importTasks tz status rest) := by
  obtain ⟨jtask, r⟩ := e
  simp only [importTasks, bind_assoc]
  refine bind_congr fun id => ?_
  by_cases h1 : id ∈ s.existsTasks
  · simp only [h1, if_true]
    rfl
  · simp only [h1, if_false, bind_assoc]
    refine bind_congr fun name => ?_
    by_cases h2 : name = ""
    · simp only [h2, if_true]
      rfl
    · simp only [h2, if_false, bind_assoc]
      refine bind_congr fun num => ?_
      by_cases h3 : num ≠ status.toNat
      · simp only [h3, ne_eq, not_false_eq_true, if_true]
        rfl
      · simp only [h3, if_false, bind_assoc]
        refine bind_congr fun j => bind_congr fun serverId => bind_congr fun x => ?_
        cases x.1
        · rfl
        · simp only [Bool.not_true, Bool.false_eq_true, if_false, bind_assoc]
          rfl

/-- What an import of one entry that returns has done. -/
theorem importEntry_cases {status : GdaemonTask.Status} {e : Entry}
    (h : importTasks tz status [e] s = .ok s') : ImportEntry tz status s e s' := by
  obtain ⟨jtask, r⟩ := e
  simp only [importTasks] at h
  obtain ⟨id, hid, h⟩ := ok_of_bind h
  split at h
  · next hmem =>
    cases h
    exact .skipped (.inl ⟨id, hid, hmem⟩)
  · next hnew =>
    obtain ⟨name, hname, h⟩ := ok_of_bind h
    split at h
    · next hempty =>
      cases h
      exact .skipped (.inr (.inl (hempty ▸ hname)))
    · next hne =>
      obtain ⟨num, hnum, h⟩ := ok_of_bind h
      split at h
      · next hother =>
        cases h
        exact .skipped (.inr (.inr ⟨num, hnum, hother⟩))
      · next heq =>
        obtain ⟨j, hj, h⟩ := ok_of_bind h
        obtain ⟨serverId, hserver, h⟩ := ok_of_bind h
        obtain ⟨⟨found, gslist⟩, hfind, h⟩ := ok_of_bind h
        have hwanted : Wanted status s jtask serverId :=
          ⟨⟨id, hid, hnew⟩, ⟨name, hname, hne⟩, by rw [hnum, not_not.mp heq], j, hj, hserver⟩
        cases found with
        | false =>
          cases h
          exact .noServer hwanted hfind
        | true =>
          obtain ⟨task, htask, h⟩ := ok_of_bind h
          obtain rfl : id = task.id := Except.ok.inj (hid.symm.trans (newTask_spec htask).1)
          cases h
          exact .imported hwanted hfind htask hnew

theorem importTasks_cases {status : GdaemonTask.Status} {e : Entry} {rest : List Entry}
    (h : importTasks tz status (e :: rest) s = .ok s') :
    ∃ t, importTasks tz status [e] s = .ok t ∧ ImportEntry tz status s e t ∧
      importTasks tz status rest t = .ok s' := by
  rw [importTasks_cons] at h
  obtain ⟨t, ht, h⟩ := ok_of_bind h
  exact ⟨t, ht, importEntry_cases ht, h⟩

/-- What holds before an import, does not depend on the registry and is kept by each imported
task holds after it. -/
theorem importTasks_invariant {P : GdaemonTasks → Prop} {status : GdaemonTask.Status}
    {entries : List Entry} (h : importTasks tz status entries s = .ok s') (h0 : P s)
    (hgslist : ∀ t gslist, P t → P { t with gslist })
    (hstep : ∀ e ∈ entries, ∀ task t, newTask e.1 = .ok task →
      e.1.getUInt "status_num" = .ok status.toNat → e.1.getString "task" ≠ .ok "" →
      task.id ∉ t.existsTasks →
      P t → P (importTask task t)) : P s' := by
  induction entries generalizing s with
  | nil => cases h; exact h0
  | cons e rest ih =>
    obtain ⟨t, -, hentry, h⟩ := importTasks_cases h
    refine ih h ?_ fun e he => hstep e (List.mem_cons_of_mem _ he)
    cases hentry with
    | skipped => exact h0
    | noServer => exact hgslist _ _ h0
    | @imported jtask r serverId gslist task hwanted _ htask hnew =>
      have hne : jtask.getString "task" ≠ .ok "" := fun hempty => by
        obtain ⟨name, hname, hne⟩ := hwanted.task
        exact hne (Except.ok.inj (hname.symm.trans hempty))
      exact hstep _ List.mem_cons_self task { s with gslist } htask hwanted.status hne hnew
        (hgslist _ _ h0)

/-! ## Before and after a command -/

/-- What `before_cmd` tells the panel. -/
def beforeEvents (task : GdaemonTask) : List Event :=
  if task.task = "gsinst" ∨ task.task = "gsupd" then
    [.installStatus task.serverId .installInProcess]
  else []

/-- What `after_cmd` tells the panel. -/
def afterEvents (task : GdaemonTask) : List Event :=
  if task.task = "gsinst" ∨ task.task = "gsupd" then
    match task.status with
    | .success => [.installStatus task.serverId .installed]
    | .error | .canceled => [.installStatus task.serverId .notInstalled]
    | _ => []
  else if task.task = "gsdel" then
    if task.status = .success then [.installStatus task.serverId .notInstalled] else []
  else []

theorem beforeCmd_eq (c : GameServersList.StampClock) (task : GdaemonTask) (s : GdaemonTasks) :
    beforeCmd c task s = { s with
      gslist := (beforeCmd c task s).gslist, log := s.log ++ beforeEvents task } := by
  unfold beforeCmd beforeEvents
  split <;> simp [setInstallStatus, record]

theorem afterCmd_eq (c : GameServersList.StampClock) (task : GdaemonTask) (s : GdaemonTasks) :
    afterCmd c task s = { s with
      gslist := (afterCmd c task s).gslist, log := s.log ++ afterEvents task } := by
  unfold afterCmd afterEvents
  split
  · cases task.status <;> simp [setInstallStatus, record]
  · split
    · split <;> simp [setInstallStatus, record]
    · simp

theorem mem_beforeEvents {e : Event} (h : e ∈ beforeEvents task) :
    e = .installStatus task.serverId .installInProcess := by
  unfold beforeEvents at h
  split at h
  · exact List.mem_singleton.mp h
  · cases h

theorem mem_afterEvents {e : Event} (h : e ∈ afterEvents task) :
    ∃ st, e = .installStatus task.serverId st := by
  unfold afterEvents at h
  split at h
  · cases hst : task.status <;> rw [hst] at h
    case success | error | canceled => exact ⟨_, List.mem_singleton.mp h⟩
    all_goals cases h
  · split at h
    · split at h
      · exact ⟨_, List.mem_singleton.mp h⟩
      · cases h
    · cases h

/-! ## Starting -/

/-- The commands of the tasks that `start` implements. -/
def Known (name : String) : Prop := (gameServerCommand name).isSome = true ∨ name = "cmdexec"

theorem known_cases {name : String} (h : Known name) :
    name = "gsstart" ∨ name = "gsstop" ∨ name = "gsrest" ∨ name = "gsinst" ∨ name = "gsupd" ∨
      name = "gsdel" ∨ name = "cmdexec" := by
  rcases h with h | h
  · unfold gameServerCommand at h
    split_ifs at h <;> simp_all
  · simp [h]

/-- No name of a task that `start` implements has a zero in it. -/
theorem Known.cString {name : String} (h : Known name) : cString name = name := by
  rcases known_cases h with rfl | rfl | rfl | rfl | rfl | rfl | rfl <;> decide

theorem makeCmd_frame {cmd? : Option Cmd} (h : makeCmd tz i task s = .ok (cmd?, s')) :
    s'.tasks = s.tasks ∧ s'.existsTasks = s.existsTasks ∧ s'.activeCmds = s.activeCmds ∧
      s'.cmdProcesses = s.cmdProcesses := by
  unfold makeCmd at h
  split at h
  · obtain ⟨⟨cmd, gslist⟩, -, h⟩ := ok_of_bind h
    cases h
    exact ⟨rfl, rfl, rfl, rfl⟩
  · split at h <;> cases h <;> exact ⟨rfl, rfl, rfl, rfl⟩

/-- What `makeCmd` tells the panel: nothing, or that the task is unknown. -/
theorem makeCmd_log {cmd? : Option Cmd} (h : makeCmd tz i task s = .ok (cmd?, s')) :
    ∃ new, s'.log = s.log ++ new ∧ ∀ e ∈ new, e = .output task.id "Unknown task" := by
  unfold makeCmd at h
  split at h
  · obtain ⟨⟨cmd, gslist⟩, -, h⟩ := ok_of_bind h
    cases h
    exact ⟨[], (List.append_nil _).symm, fun _ he => by cases he⟩
  · split at h
    · cases h
      exact ⟨[], (List.append_nil _).symm, fun _ he => by cases he⟩
    · cases h
      exact ⟨_, rfl, fun _ he => List.mem_singleton.mp he⟩

theorem makeCmd_known {cmd? : Option Cmd} (hk : Known task.task)
    (h : makeCmd tz i task s = .ok (cmd?, s')) : cmd? ≠ none ∧ s'.log = s.log := by
  unfold makeCmd at h
  split at h
  · obtain ⟨⟨cmd, gslist⟩, -, h⟩ := ok_of_bind h
    cases h
    exact ⟨Option.some_ne_none _, rfl⟩
  · next hnone =>
    split at h
    · cases h
      exact ⟨Option.some_ne_none _, rfl⟩
    · next hne =>
      rcases hk with hk | hk
      · rw [hnone] at hk
        cases hk
      · exact absurd hk hne

/-- The scheduler after `start` with a command. -/
def startState (i : RunInput) (task : GdaemonTask) (cmd : Cmd) (s : GdaemonTasks) :
    GdaemonTasks :=
  let s := beforeCmd i.stamp task { s with activeCmds := s.activeCmds.emplace task.id cmd }
  apiUpdateStatus i.received { task with status := .working }
    { record (.started task cmd) s with cmdProcesses := s.cmdProcesses.emplace task.id i.pid }

theorem startState_eq (i : RunInput) (task : GdaemonTask) (cmd : Cmd) (s : GdaemonTasks) :
    startState i task cmd s = { s with
      gslist := (startState i task cmd s).gslist
      activeCmds := s.activeCmds.emplace task.id cmd
      cmdProcesses := s.cmdProcesses.emplace task.id i.pid
      log := s.log ++ (beforeEvents task ++
        [.started task cmd, .status task.id .working i.received]) } := by
  unfold startState
  simp only
  rw [beforeCmd_eq]
  simp [apiUpdateStatus, record]

/-! ## Proceeding -/

/-- The scheduler after `complete`. -/
def completeState (i : RunInput) (poll : Poll) (cmd : Cmd) (task : GdaemonTask)
    (s : GdaemonTasks) : GdaemonTasks := (complete i poll cmd task s).2

/-- The task after `complete`. -/
def completedTask (poll : Poll) (task : GdaemonTask) : GdaemonTask :=
  { task with status := if poll.succeeded then .success else .error }

theorem completeState_eq (i : RunInput) (poll : Poll) (cmd : Cmd) (task : GdaemonTask)
    (s : GdaemonTasks) : completeState i poll cmd task s = { s with
      gslist := (completeState i poll cmd task s).gslist
      activeCmds := s.activeCmds.erase task.id
      cmdProcesses := s.cmdProcesses.erase task.id
      log := s.log ++ (.completed (completedTask poll task) cmd poll ::
        (afterEvents (completedTask poll task) ++
          [.status task.id (completedTask poll task).status i.received])) } := by
  unfold completeState complete
  simp only
  rw [afterCmd_eq]
  simp [apiUpdateStatus, record, completedTask]

/-- The output that goes to the panel at the end of `proceed`. -/
def sendOutput (task : GdaemonTask) (output : String) (s : GdaemonTasks) : GdaemonTasks :=
  if output = "" then s else apiAppendOutput task output s

def outputEvents (task : GdaemonTask) (output : String) : List Event :=
  if output = "" then [] else [.output task.id output]

theorem sendOutput_eq (task : GdaemonTask) (output : String) (s : GdaemonTasks) :
    sendOutput task output s = { s with log := s.log ++ outputEvents task output } := by
  unfold sendOutput outputEvents
  split <;> simp [apiAppendOutput, record]

theorem mem_outputEvents {output : String} {e : Event} (h : e ∈ outputEvents task output) :
    e = .output task.id output := by
  unfold outputEvents at h
  split at h
  · cases h
  · exact List.mem_singleton.mp h

/-- The output of a completed command. -/
def finalOutput (poll : Poll) : String :=
  if poll.child != .success then poll.output ++ "Child process failure" else poll.output

/-! ## `runNext` -/

/-- The ways a `run_next` can go, for the first task of the queue. -/
inductive RunNext (tz : Int) (i : RunInput) (s : GdaemonTasks) (task : GdaemonTask)
    (rest : List GdaemonTask) : GdaemonTasks → Prop where
  /-- its predecessor is still in the queue -/
  | blocked : task.runAftId > 0 → task.runAftId ∈ s.existsTasks →
      RunNext tz i s task rest { s with tasks := rest ++ [task] }
  | started {cmd : Cmd} {s1 : GdaemonTasks} : task.status = .waiting →
      makeCmd tz i task { s with tasks := rest } = .ok (some cmd, s1) →
      RunNext tz i s task rest
        { tasks := rest ++ [{ task with status := .working }]
          existsTasks := s.existsTasks
          activeCmds := s.activeCmds.emplace task.id cmd
          cmdProcesses := s.cmdProcesses.emplace task.id i.pid
          gslist := (startState i task cmd s1).gslist
          log := s1.log ++ (beforeEvents task ++
            [.started task cmd, .status task.id .working i.received]) }
  /-- an unknown task, with null in the pointer that `start` does not assign -/
  | rejected {s1 : GdaemonTasks} : task.status = .waiting →
      makeCmd tz i task { s with tasks := rest } = .ok (none, s1) →
      RunNext tz i s task rest
        { tasks := rest
          existsTasks := s.existsTasks.erase task.id
          activeCmds := s.activeCmds.erase task.id
          cmdProcesses := s.cmdProcesses
          gslist := s1.gslist
          log := s1.log ++ [.output task.id "Empty cmd", .status task.id .error i.received] }
  /-- the silent return: the command is not in `active_cmds` -/
  | lost : task.status = .working → s.activeCmds.lookup task.id = none →
      RunNext tz i s task rest { s with tasks := rest ++ [task] }
  | running {cmd : Cmd} : task.status = .working → s.activeCmds.lookup task.id = some cmd →
      (i.poll.withPid (s.cmdProcesses.lookup task.id)).cmdCompleted = false →
      RunNext tz i s task rest { s with
        tasks := rest ++ [task], log := s.log ++ outputEvents task i.poll.output }
  | completed {cmd : Cmd} {poll : Poll} : task.status = .working →
      s.activeCmds.lookup task.id = some cmd →
      poll = i.poll.withPid (s.cmdProcesses.lookup task.id) → poll.cmdCompleted = true →
      RunNext tz i s task rest
        { tasks := rest
          existsTasks := s.existsTasks.erase task.id
          activeCmds := s.activeCmds.erase task.id
          cmdProcesses := s.cmdProcesses.erase task.id
          gslist := (completeState i poll cmd task { s with tasks := rest }).gslist
          log := s.log ++ (.completed (completedTask poll task) cmd poll ::
            (afterEvents (completedTask poll task) ++
              [.status task.id (completedTask poll task).status i.received])) ++
              outputEvents task (finalOutput poll) }

theorem proceed_of_none (h : s.activeCmds.lookup task.id = none) :
    proceed i task s = (task, s) := by
  unfold proceed
  rw [h]

theorem withPid_output (p : Poll) (pid : Option Int) : (p.withPid pid).output = p.output := by
  cases pid <;> rfl

theorem proceed_running {cmd : Cmd} {poll : Poll} (h : s.activeCmds.lookup task.id = some cmd)
    (hp : poll = i.poll.withPid (s.cmdProcesses.lookup task.id))
    (hc : poll.cmdCompleted = false) :
    proceed i task s = (task, sendOutput task i.poll.output s) := by
  unfold proceed sendOutput
  rw [h]
  simp only [← hp, hc, Bool.false_and, Bool.false_eq_true, if_false]
  rw [hp, withPid_output]

theorem proceed_completed {cmd : Cmd} {poll : Poll} (h : s.activeCmds.lookup task.id = some cmd)
    (hp : poll = i.poll.withPid (s.cmdProcesses.lookup task.id))
    (hc : poll.cmdCompleted = true) :
    proceed i task s = (completedTask poll task, sendOutput (completedTask poll task)
      (finalOutput poll) (completeState i poll cmd task s)) := by
  unfold proceed sendOutput finalOutput
  rw [h]
  simp only [← hp, hc, Bool.true_and, if_true]
  rfl

/-- A task that is not completed goes to the end of the queue. -/
theorem requeue_pending (h : task.status = .waiting ∨ task.status = .working) :
    requeue task s = { s with tasks := s.tasks ++ [task] } := by
  unfold requeue
  rcases h with h | h <;> rw [h]

theorem requeue_completed {poll : Poll} : requeue (completedTask poll task) s = { s with
      activeCmds := s.activeCmds.erase task.id, existsTasks := s.existsTasks.erase task.id } := by
  unfold requeue completedTask
  cases poll.succeeded <;> rfl

theorem erase_erase {β : Type} (m : Table Nat β) (a : Nat) : (m.erase a).erase a = m.erase a := by
  apply AList.ext
  show List.kerase a (List.kerase a m.entries) = List.kerase a m.entries
  exact List.kerase_of_notMem_keys (List.notMem_keys_kerase a m.nodupKeys)

theorem start_requeue {rest : List GdaemonTask} (hw : task.status = .waiting)
    (h : start tz i task { s with tasks := rest } = .ok (task', s')) :
    RunNext tz i s task rest (requeue task' s') := by
  unfold start at h
  obtain ⟨⟨cmd?, s1⟩, hm, h⟩ := ok_of_bind h
  obtain ⟨h1, h2, h3, h4⟩ := makeCmd_frame hm
  cases cmd? with
  | some cmd =>
    cases h
    have hst : RunNext tz i s task rest _ := .started hw hm
    rw [requeue_pending (.inr rfl)]
    show RunNext tz i s task rest { startState i task cmd s1 with
      tasks := (startState i task cmd s1).tasks ++ [{ task with status := .working }] }
    rw [startState_eq]
    simpa only [h1, h2, h3, h4] using hst
  | none =>
    cases h
    have hrej : RunNext tz i s task rest _ := .rejected hw hm
    show RunNext tz i s task rest { s1 with
      activeCmds := s1.activeCmds.erase task.id
      existsTasks := s1.existsTasks.erase task.id
      log := s1.log ++ [.output task.id "Empty cmd"] ++ [.status task.id .error i.received] }
    simpa only [h1, h2, h3, h4, List.append_assoc, List.singleton_append] using hrej

theorem proceed_requeue {rest : List GdaemonTask} (hw : task.status = .working)
    (h : proceed i task { s with tasks := rest } = (task', s')) :
    RunNext tz i s task rest (requeue task' s') := by
  cases hl : s.activeCmds.lookup task.id with
  | none =>
    rw [proceed_of_none (s := { s with tasks := rest }) hl] at h
    cases h
    rw [requeue_pending (.inr hw)]
    exact .lost hw hl
  | some cmd =>
    obtain ⟨poll, hp⟩ : ∃ poll, poll = i.poll.withPid (s.cmdProcesses.lookup task.id) := ⟨_, rfl⟩
    cases hc : poll.cmdCompleted with
    | false =>
      rw [proceed_running (s := { s with tasks := rest }) hl hp hc] at h
      cases h
      rw [requeue_pending (.inr hw), sendOutput_eq]
      exact .running hw hl (hp ▸ hc)
    | true =>
      rw [proceed_completed (s := { s with tasks := rest }) hl hp hc] at h
      cases h
      have hdone : RunNext tz i s task rest _ := .completed hw hl hp hc
      rw [requeue_completed, sendOutput_eq, completeState_eq]
      have hout : outputEvents (completedTask poll task) (finalOutput poll) =
          outputEvents task (finalOutput poll) := rfl
      have hid : (completedTask poll task).id = task.id := rfl
      simpa only [erase_erase, hout, hid] using hdone

theorem runNext_cases (hq : ∀ t ∈ s.tasks, t.status = .waiting ∨ t.status = .working)
    (h : runNext tz i s = .ok s') :
    ∃ task rest, s.tasks = task :: rest ∧ RunNext tz i s task rest s' := by
  unfold runNext runNextWith at h
  split at h
  · cases h
  · next task rest hs =>
    refine ⟨task, rest, hs, ?_⟩
    simp only at h
    split at h
    · next hb => cases h; exact .blocked hb.1 hb.2
    · rcases hq task (by rw [hs]; exact List.mem_cons_self) with hw | hw
      · simp only [hw] at h
        obtain ⟨⟨task', s2⟩, hstart, hreq⟩ := ok_of_bind h
        cases hreq
        exact start_requeue hw hstart
      · simp only [hw] at h
        obtain ⟨⟨task', s2⟩, hproc, hreq⟩ := ok_of_bind h
        cases hreq
        exact proceed_requeue hw (Except.ok.inj hproc)

/-! ## The events of a `runNext` -/

/-- What a `run_next` tells the outside is about the first task. -/
inductive RunEvent (i : RunInput) (s : GdaemonTasks) (task : GdaemonTask) : Event → Prop where
  | installStatus (st : InstallStatus) : RunEvent i s task (.installStatus task.serverId st)
  | output (text : String) : RunEvent i s task (.output task.id text)
  | started (cmd : Cmd) : task.status = .waiting → RunEvent i s task (.started task cmd)
  | status (st : GdaemonTask.Status) : RunEvent i s task (.status task.id st i.received)
  | completed (cmd : Cmd) (poll : Poll) : task.status = .working →
      poll = i.poll.withPid (s.cmdProcesses.lookup task.id) →
      RunEvent i s task (.completed (completedTask poll task) cmd poll)

theorem completed_event {cmd : Cmd} {poll : Poll} {output : String} {e : Event}
    (hw : task.status = .working) (hp : poll = i.poll.withPid (s.cmdProcesses.lookup task.id))
    (he : e ∈ .completed (completedTask poll task) cmd poll ::
      (afterEvents (completedTask poll task) ++
        [.status task.id (completedTask poll task).status i.received]) ++
      outputEvents task output) : RunEvent i s task e := by
  simp only [List.mem_append, List.mem_cons, List.not_mem_nil, or_false] at he
  rcases he with (rfl | he | rfl) | he
  · exact .completed cmd poll hw hp
  · obtain ⟨st, rfl⟩ := mem_afterEvents he
    exact .installStatus st
  · exact .status _
  · exact mem_outputEvents he ▸ .output _

/-- The task leaves the queue, and its result is sent. -/
structure Ends (s s' : GdaemonTasks) (task : GdaemonTask) (rest : List GdaemonTask)
    (new : List Event) : Prop where
  tasks : s'.tasks = rest
  existing : s'.existsTasks = s.existsTasks.erase task.id
  result : ∃ st received, .status task.id st received ∈ new ∧ st ≠ .working
  started : ∀ t cmd, .started t cmd ∉ new

theorem RunNext.events {rest : List GdaemonTask} (h : RunNext tz i s task rest s') :
    ∃ new, s'.log = s.log ++ new ∧ (∀ e ∈ new, RunEvent i s task e) ∧
      (s'.existsTasks = s.existsTasks ∨ Ends s s' task rest new) := by
  have hnone : ∀ e ∈ ([] : List Event), RunEvent i s task e := fun _ he => by cases he
  cases h with
  | blocked => exact ⟨[], (List.append_nil _).symm, hnone, .inl rfl⟩
  | @started cmd s1 hw hm =>
    obtain ⟨new, hlog, hout⟩ := makeCmd_log hm
    refine ⟨new ++ (beforeEvents task ++ [.started task cmd, .status task.id .working i.received]),
      by rw [hlog, List.append_assoc], fun e he => ?_, .inl rfl⟩
    simp only [List.mem_append, List.mem_cons, List.not_mem_nil, or_false] at he
    rcases he with he | he | rfl | rfl
    · exact hout e he ▸ .output _
    · exact mem_beforeEvents he ▸ .installStatus _
    · exact .started cmd hw
    · exact .status _
  | rejected hw hm =>
    obtain ⟨new, hlog, hout⟩ := makeCmd_log hm
    refine ⟨new ++ [.output task.id "Empty cmd", .status task.id .error i.received],
      by rw [hlog, List.append_assoc], fun e he => ?_, .inr ⟨rfl, rfl, ?_, fun t cmd he => ?_⟩⟩
    · simp only [List.mem_append, List.mem_cons, List.not_mem_nil, or_false] at he
      rcases he with he | rfl | rfl
      · exact hout e he ▸ .output _
      · exact .output _
      · exact .status _
    · exact ⟨.error, i.received, by simp, by decide⟩
    · rcases List.mem_append.mp he with he | he
      · cases hout _ he
      · simp at he
  | lost => exact ⟨[], (List.append_nil _).symm, hnone, .inl rfl⟩
  | running => exact ⟨_, rfl, fun e he => mem_outputEvents he ▸ .output _, .inl rfl⟩
  | @completed cmd poll hw _ hp _ =>
    refine ⟨_, List.append_assoc _ _ _, fun e he => completed_event hw hp he,
      .inr ⟨rfl, rfl, ?_, fun t c he => ?_⟩⟩
    · refine ⟨(completedTask poll task).status, i.received, by simp, ?_⟩
      unfold completedTask
      cases poll.succeeded <;> simp
    · cases completed_event hw hp he with
      | started _ hwait =>
        rw [hw] at hwait
        cases hwait

/-! ## Blocked tasks -/

/-- The predecessor of a task is in the queue. -/
def Blocked (s : GdaemonTasks) (task : GdaemonTask) : Prop :=
  task.runAftId > 0 ∧ task.runAftId ∈ s.existsTasks

instance (s : GdaemonTasks) (task : GdaemonTask) : Decidable (Blocked s task) :=
  inferInstanceAs (Decidable (_ ∧ _))

theorem runNext_blocked {rest : List GdaemonTask} (hs : s.tasks = task :: rest)
    (hb : Blocked s task) (h : runNext tz i s = .ok s') :
    s' = { s with tasks := rest ++ [task] } := by
  unfold Blocked at hb
  unfold runNext runNextWith at h
  rw [hs] at h
  simp only [if_pos hb] at h
  exact (Except.ok.inj h).symm

/-! ## Runs -/

inductive Op where
  | checkAfterCrash (reply : Option (List Entry))
  | update (reply : Option (List Entry))
  | runNext (i : RunInput)

def perform (tz : Int) (s : GdaemonTasks) : Op → Except Exn GdaemonTasks
  | .checkAfterCrash reply => checkAfterCrash tz reply s
  | .update reply => update tz reply s
  | .runNext i => runNext tz i s

/-- A step of the daemon that throws nothing. -/
def Step (tz : Int) (s : GdaemonTasks) (o : Op) (s' : GdaemonTasks) : Prop :=
  perform tz s o = .ok s'

/-- The entries that a step imports, with the status they must have. -/
def Op.imports : Op → GdaemonTask.Status × List Entry
  | .checkAfterCrash reply => (.working, reply.getD [])
  | .update reply => (.waiting, reply.getD [])
  | .runNext _ => (.waiting, [])

/-- A step is an import or a `run_next`. -/
theorem step_cases {o : Op} (h : Step tz s o s') :
    importTasks tz o.imports.1 o.imports.2 s = .ok s' ∨
      ∃ i, o = .runNext i ∧ runNext tz i s = .ok s' := by
  cases o with
  | checkAfterCrash reply =>
    refine .inl ?_
    cases reply <;> exact h
  | update reply =>
    refine .inl ?_
    cases reply <;> exact h
  | runNext i => exact .inr ⟨i, rfl, h⟩

/-! ## A run -/

/-- The panel's entry of a task; the lookup of its server, which is in the registry, brings
nothing new. -/
def plainEntry (id : Int) (task : String) (serverId : Int) (statusNum : Int) : Entry :=
  (.obj [("cmd", .null), ("id", .int id), ("run_aft_id", .int 0), ("server_id", .int serverId),
      ("status_num", .int statusNum), ("task", .str task)],
    { now := 100, later := 100, list := none, server := none })

/-- A `run_next` whose requests for the server fail. -/
def plainRun (poll : Poll) (received : Bool) : RunInput :=
  { server := { now := 100, later := 100, list := none, server := none },
    stamp := { now := 100, sync := fun _ => 100 }, pid := 7, poll, received, garbage := none }

def runningPoll : Poll := { child := .working, complete := false, result := false, output := "" }

def donePoll : Poll := { child := .success, complete := true, result := true, output := "" }

/-- A panel whose server 1 is registered. -/
def plainInit : GdaemonTasks := init (GameServersList.plainList [1])

/-- The scheduler after some steps, as far as they throw nothing. -/
def performAll (ops : List Op) : GdaemonTasks :=
  ops.foldl (fun s o => resultD s (perform 0 s o)) plainInit

theorem run_snoc {ok : GdaemonTasks → Op → Prop} (ops : List Op) (o : Op)
    (h : Run (Step 0) ok plainInit (performAll ops)) (hok : ok (performAll ops) o)
    (ho : (perform 0 (performAll ops) o).toBool = true) :
    Run (Step 0) ok plainInit (performAll (ops ++ [o])) := by
  have hlast : performAll (ops ++ [o]) =
      resultD (performAll ops) (perform 0 (performAll ops) o) := by
    unfold performAll
    rw [List.foldl_append]
    rfl
  rw [hlast]
  exact h.step hok (eq_ok_resultD _ ho)

end GdaemonTasks

end GameAP
