import GameAP.Classes.GdaemonTasksStart
import GameAP.Lib.Episodes

/-!
# The lives of the daemon's tasks

What the outside sees of one task id. A `Life` is what happens from the start of a task to its
result; it is a whole execution, or the refusal of a task that `start` does not implement.
`run_lives`: in every run the events of each id are lives, one after another, and behind them the
beginning of one exactly if the task is in the queue as working. Nothing of it depends on the other
tasks of the queue, whose events stand between those of the id.
-/

namespace GameAP

open Lib

namespace GdaemonTasks

def Event.isAbout (id : Nat) : Event → Bool
  | .started task _ => task.id == id
  | .completed task _ _ => task.id == id
  | .installStatus _ _ => false
  | .status id' _ _ => id' == id
  | .output id' _ => id' == id

/-- The command that is executed is the one that the task names. -/
def Names (task : GdaemonTask) : Cmd → Prop
  | .gameServer cmd =>
    gameServerCommand task.task = some cmd.command ∧ cmd.serverId = task.serverId
  | .dedicatedServer shellCommand => task.task = "cmdexec" ∧ shellCommand = task.cmd

/-- The life of a task whose command has not been found completed. -/
inductive Running (task : GdaemonTask) (cmd : Cmd) : List Event → Prop where
  | started (received : Bool) : Names task cmd →
      Running task cmd [.started task cmd, .status task.id .working received]
  /-- `start` executes what it finds in its uninitialised pointer -/
  | stray (received : Bool) : ¬ Known task.task →
      Running task cmd [.output task.id "Unknown task", .started task cmd,
        .status task.id .working received]
  | output {now : List Event} {text : String} : Running task cmd now → text ≠ "" →
      Running task cmd (now ++ [.output task.id text])

/-- The last output comes after the result. -/
inductive Life : Nat → List Event → Prop where
  | executed {task : GdaemonTask} {cmd : Cmd} {now : List Event} {poll : Poll} {received : Bool} :
      Running task cmd now → poll.cmdCompleted = true →
      Life task.id (now ++ (.completed (completedTask poll task) cmd poll ::
        .status task.id (completedTask poll task).status received ::
          outputEvents task (finalOutput poll)))
  | refused {task : GdaemonTask} {received : Bool} : ¬ Known task.task →
      Life task.id [.output task.id "Unknown task", .output task.id "Empty cmd",
        .status task.id .error received]

/-- What has happened since the last life has ended: something only if the task is working. -/
inductive InProgress (s : GdaemonTasks) : Nat → List Event → Prop where
  | idle {id : Nat} : ¬ Working s.tasks id → InProgress s id []
  | running {task : GdaemonTask} {cmd : Cmd} {now : List Event} :
      { task with status := .working } ∈ s.tasks → s.activeCmds.lookup task.id = some cmd →
      Running task cmd now → InProgress s task.id now

variable {tz : Int} {i : RunInput} {task : GdaemonTask} {cmd : Cmd} {rest : List GdaemonTask}
  {s s' : GdaemonTasks} {id : Nat} {now new : List Event} {poll : Poll} {received : Bool}

/-! ## Events -/

theorem RunEvent.isAbout {e : Event} (h : RunEvent i s task e) (hne : id ≠ task.id) :
    e.isAbout id = false := by
  have hid : (task.id == id) = false := beq_eq_false_iff_ne.mpr hne.symm
  cases h with
  | installStatus => rfl
  | output => exact hid
  | started => exact hid
  | status => exact hid
  | completed => exact hid

theorem filter_installStatus (h : ∀ e ∈ new, ∃ serverId st, e = .installStatus serverId st) :
    new.filter (Event.isAbout id) = [] := by
  refine List.filter_eq_nil_iff.mpr fun e he => ?_
  obtain ⟨serverId, st, rfl⟩ := h e he
  exact Bool.false_ne_true

theorem filter_beforeEvents : (beforeEvents task).filter (Event.isAbout id) = [] :=
  filter_installStatus fun _ he => ⟨_, _, mem_beforeEvents he⟩

theorem filter_afterEvents : (afterEvents task).filter (Event.isAbout id) = [] :=
  filter_installStatus fun _ he => ⟨_, mem_afterEvents he⟩

theorem filter_outputEvents (task : GdaemonTask) (output : String) :
    (outputEvents task output).filter (Event.isAbout task.id) = outputEvents task output :=
  List.filter_eq_self.mpr fun _ he => mem_outputEvents he ▸ beq_self_eq_true task.id

theorem filter_completed (task : GdaemonTask) (cmd : Cmd) (poll : Poll) (received : Bool) :
    (Event.completed (completedTask poll task) cmd poll :: (afterEvents (completedTask poll task) ++
      [.status task.id (completedTask poll task).status received]) ++
        outputEvents task (finalOutput poll)).filter (Event.isAbout task.id) =
      .completed (completedTask poll task) cmd poll ::
        .status task.id (completedTask poll task).status received ::
          outputEvents task (finalOutput poll) := by
  have hid : (completedTask poll task).id = task.id := rfl
  simp [filter_afterEvents, filter_outputEvents, Event.isAbout, hid]

theorem Running.outputs (h : Running task cmd now) (text : String) :
    Running task cmd (now ++ outputEvents task text) := by
  unfold outputEvents
  split
  · rw [List.append_nil]
    exact h
  · next hne => exact h.output hne

/-! ## The command -/

theorem makeCmd_names {cmd? : Option Cmd} (hk : Known task.task)
    (h : makeCmd tz i task s = .ok (cmd?, s')) :
    ∃ cmd, cmd? = some cmd ∧ Names task cmd ∧ s'.log = s.log := by
  unfold makeCmd at h
  cases hc : gameServerCommand task.task with
  | some command =>
    rw [hc] at h
    obtain ⟨⟨cmd, gslist⟩, hcreate, h⟩ := ok_of_bind h
    obtain ⟨hcommand, hserver⟩ := GameServerCmd.create_command hcreate
    cases h
    exact ⟨_, rfl, ⟨hcommand ▸ hc, hserver⟩, rfl⟩
  | none =>
    have hexec : task.task = "cmdexec" := hk.resolve_left fun hs => by
      rw [hc] at hs
      cases hs
    rw [hc] at h
    simp only [if_pos hexec] at h
    cases h
    exact ⟨_, rfl, ⟨hexec, rfl⟩, rfl⟩

/-! ## What a step leaves as it is -/

theorem InProgress.frame (h : InProgress s id now)
    (htasks : ∀ t : GdaemonTask, t.id = id → t.status = .working → (t ∈ s'.tasks ↔ t ∈ s.tasks))
    (hcmd : s'.activeCmds.lookup id = s.activeCmds.lookup id) : InProgress s' id now := by
  cases h with
  | idle hidle =>
    exact .idle fun ⟨t, ht, hid, hw⟩ => hidle ⟨t, (htasks t hid hw).mp ht, hid, hw⟩
  | @running task cmd _ hmem hlookup hrun =>
    have hmem' := (htasks { task with status := .working } rfl rfl).mpr hmem
    exact .running hmem' (hcmd.trans hlookup) hrun

/-- A waiting task is not in progress. -/
theorem InProgress.eq_nil (h : InProgress s id now) (hw : ¬ Working s.tasks id) : now = [] := by
  cases h with
  | idle => rfl
  | running hmem => exact absurd ⟨_, hmem, rfl, rfl⟩ hw

/-- A working task is. -/
theorem InProgress.of_working (h : InProgress s task.id now) (hi : IdsInv s)
    (hmem : task ∈ s.tasks) (hw : task.status = .working)
    (hlookup : s.activeCmds.lookup task.id = some cmd) :
    ∃ first : GdaemonTask, { first with status := .working } = task ∧ Running first cmd now := by
  generalize hid : task.id = id at h
  cases h with
  | idle hidle => exact absurd ⟨task, hmem, hid, hw⟩ hidle
  | @running first cmd' _ hfirst hlookup' hrun =>
    have heq : { first with status := .working } = task :=
      List.inj_on_of_nodup_map hi.nodup hfirst hmem hid.symm
    have hcmd : cmd' = cmd := by
      rw [hid] at hlookup
      exact Option.some.inj (hlookup'.symm.trans hlookup)
    exact ⟨first, heq, hcmd ▸ hrun⟩

/-! ## The first task -/

section First

variable (hi : TablesInv s) (hs : s.tasks = task :: rest)

include hs in
theorem mem_first : task ∈ s.tasks := hs ▸ List.mem_cons_self

include hi hs in
theorem not_working_of_waiting (hw : task.status = .waiting) : ¬ Working s.tasks task.id := by
  rw [working_of_waiting hs hw]
  have hnodup := hi.nodup
  rw [hs] at hnodup
  exact fun h => not_queued_rest hnodup h.queued

include hs in
/-- The other tasks keep their places and their commands. -/
theorem RunNext.others (h : RunNext tz i s task rest s') (hne : id ≠ task.id)
    (hp : InProgress s id now) : InProgress s' id now := by
  have hrot : ∀ task' : GdaemonTask, task'.id = task.id → ∀ t : GdaemonTask, t.id = id →
      (t ∈ rest ++ [task'] ↔ t ∈ s.tasks) := by
    intro task' hid t ht
    have hother : ∀ u : GdaemonTask, u.id = task.id → t ≠ u := fun u hu he =>
      hne (ht.symm.trans (he ▸ hu))
    simp [hs, hother task' hid, hother task rfl]
  have hleft : ∀ t : GdaemonTask, t.id = id → (t ∈ rest ↔ t ∈ s.tasks) := by
    intro t ht
    have hother : t ≠ task := fun he => hne (ht.symm.trans (he ▸ rfl))
    simp [hs, hother]
  cases h with
  | blocked | lost | running => exact hp.frame (fun t ht _ => hrot task rfl t ht) rfl
  | started =>
    exact hp.frame (fun t ht _ => hrot { task with status := .working } rfl t ht)
      (Table.lookup_emplace_ne hne)
  | rejected | completed =>
    exact hp.frame (fun t ht _ => hleft t ht) (AList.lookup_erase_ne hne)

include hs in
/-- It goes to the end of the queue, and nothing happens to its command. -/
theorem InProgress.rotated (hp : InProgress s id now) (htasks : s'.tasks = rest ++ [task])
    (hcmds : s'.activeCmds = s.activeCmds) : InProgress s' id now := by
  refine hp.frame (fun t _ _ => ?_) (by rw [hcmds])
  rw [htasks, hs]
  exact (List.perm_append_singleton task rest).mem_iff

include hi hs in
theorem InProgress.started (hw : task.status = .waiting) (hp : InProgress s task.id now)
    (hrun : Running task cmd new) (htasks : s'.tasks = rest ++ [{ task with status := .working }])
    (hcmds : s'.activeCmds = s.activeCmds.emplace task.id cmd) :
    InProgress s' task.id (now ++ new) := by
  obtain rfl := hp.eq_nil (not_working_of_waiting hi hs hw)
  refine .running (htasks ▸ List.mem_append_right _ (List.mem_singleton.mpr rfl)) ?_ hrun
  rw [hcmds]
  exact Table.lookup_emplace_of_notMem (hi.idle (mem_first hs) hw).1

include hi hs in
theorem InProgress.removed (htasks : s'.tasks = rest) : InProgress s' task.id [] := by
  have hnodup := hi.nodup
  rw [hs] at hnodup
  exact .idle fun hw => not_queued_rest hnodup (htasks ▸ hw.queued)

include hi hs in
/-- What happens to the task that is first in the queue. -/
theorem RunNext.episode (h : RunNext tz i s task rest s') :
    ∃ new, s'.log = s.log ++ new ∧ Episodes.Step (Life task.id) (InProgress s task.id)
      (InProgress s' task.id) (new.filter (Event.isAbout task.id)) := by
  cases h with
  | blocked | lost =>
    refine ⟨[], (List.append_nil _).symm, .goesOn fun now hp => ?_⟩
    rw [List.filter_nil, List.append_nil]
    exact hp.rotated hs rfl rfl
  | @started cmd s1 hw hm =>
    by_cases hk : Known task.task
    · obtain ⟨cmd', hcmd, hnames, hlog⟩ := makeCmd_names hk hm
      obtain rfl := Option.some.inj hcmd
      refine ⟨_, congrArg (· ++ _) hlog, .goesOn fun now hp => ?_⟩
      rw [List.filter_append, filter_beforeEvents]
      refine hp.started hi hs hw ?_ rfl rfl
      simpa [Event.isAbout] using Running.started i.received hnames
    · rw [makeCmd_unknown hk] at hm
      obtain ⟨-, rfl⟩ := Prod.mk.inj (Except.ok.inj hm)
      refine ⟨_, List.append_assoc _ _ _, .goesOn fun now hp => ?_⟩
      rw [List.filter_append, List.filter_append, filter_beforeEvents]
      refine hp.started hi hs hw ?_ rfl rfl
      simpa [Event.isAbout] using Running.stray i.received hk
  | @rejected s1 hw hm =>
    have hk : ¬ Known task.task := fun hk => (makeCmd_known hk hm).1 rfl
    rw [makeCmd_unknown hk] at hm
    obtain ⟨-, rfl⟩ := Prod.mk.inj (Except.ok.inj hm)
    refine ⟨_, List.append_assoc _ _ _, .ends (fun now hp => ?_) (.removed hi hs rfl)⟩
    obtain rfl := hp.eq_nil (not_working_of_waiting hi hs hw)
    simpa [Event.isAbout] using Life.refused hk
  | running hw hlookup =>
    refine ⟨_, rfl, .goesOn fun now hp => ?_⟩
    rw [filter_outputEvents]
    have hlast : task ∈ rest ++ [task] := List.mem_append_right _ (List.mem_singleton.mpr rfl)
    obtain ⟨first, rfl, hrun⟩ := hp.of_working hi.toIdsInv (mem_first hs) hw hlookup
    show InProgress _ first.id (now ++ outputEvents first i.poll.output)
    exact .running hlast hlookup (hrun.outputs i.poll.output)
  | @completed cmd poll hw hlookup hpoll hc =>
    refine ⟨_, List.append_assoc _ _ _, .ends (fun now hp => ?_) (.removed hi hs rfl)⟩
    rw [filter_completed]
    obtain ⟨first, rfl, hrun⟩ := hp.of_working hi.toIdsInv (mem_first hs) hw hlookup
    show Life first.id _
    exact .executed hrun hc

end First

/-! ## Runs -/

/-- An imported task waits. -/
theorem InProgress.imported (hp : InProgress s id now) (hw : task.status = .waiting) :
    InProgress (importTask task s) id now := by
  refine hp.frame (fun t _ ht => ?_) rfl
  have hne : t ≠ task := fun he => by
    rw [he, hw] at ht
    cases ht
  show t ∈ s.tasks ++ [task] ↔ t ∈ s.tasks
  simp [hne]

theorem import_episodes {status : GdaemonTask.Status} {entries : List Entry}
    (h : importTasks tz status entries s = .ok s') :
    s'.log = s.log ∧ ∀ id now, InProgress s id now → InProgress s' id now := by
  refine importTasks_invariant (P := fun t => t.log = s.log ∧
    ∀ id now, InProgress s id now → InProgress t id now) h ⟨rfl, fun _ _ hp => hp⟩ ?_ ?_
  · rintro t gslist ⟨hlog, hkeep⟩
    exact ⟨hlog, fun id now hp => (hkeep id now hp).frame (fun _ _ _ => Iff.rfl) rfl⟩
  · rintro e - task t hnew - - - ⟨hlog, hkeep⟩
    exact ⟨hlog, fun id now hp => (hkeep id now hp).imported (newTask_spec hnew).2.2⟩

theorem step_episodes {o : Op} (hi : TablesInv s) (h : Step tz s o s') :
    ∃ new, s'.log = s.log ++ new ∧ ∀ id, Episodes.Step (Life id) (InProgress s id)
      (InProgress s' id) (new.filter (Event.isAbout id)) := by
  rcases step_cases h with himp | ⟨i, -, hrun⟩
  · obtain ⟨hlog, hkeep⟩ := import_episodes himp
    refine ⟨[], by rw [hlog, List.append_nil], fun id => .goesOn fun now hp => ?_⟩
    rw [List.filter_nil, List.append_nil]
    exact hkeep id now hp
  · obtain ⟨task, rest, hs, hcase⟩ := runNext_cases hi.pending hrun
    obtain ⟨new, hlog, hfirst⟩ := hcase.episode hi hs
    refine ⟨new, hlog, fun id => ?_⟩
    by_cases hid : id = task.id
    · rw [hid]
      exact hfirst
    · obtain ⟨new', hlog', hev, -⟩ := hcase.events
      obtain rfl := List.append_cancel_left (hlog.symm.trans hlog')
      have hnone : new.filter (Event.isAbout id) = [] :=
        List.filter_eq_nil_iff.mpr fun e he =>
          ne_true_of_eq_false ((hev e he).isAbout hid)
      rw [hnone]
      refine .goesOn fun now hp => ?_
      rw [List.append_nil]
      exact hcase.others hs hid hp

/-- **The lives of a task.** In every run, whatever the panel lists and answers, whatever the child
processes do and whatever the pointer of `start` holds, the events of each id are whole lives,
followed by the beginning of one if the task is working, and by nothing otherwise. -/
theorem run_lives {ok : GdaemonTasks → Op → Prop} {gslist : GameServersList}
    (h : Run (Step tz) ok (init gslist) s) (id : Nat) :
    ∃ (lives : List (List Event)) (now : List Event),
      s.log.filter (Event.isAbout id) = lives.flatten ++ now ∧
      (∀ life ∈ lives, Life id life) ∧ InProgress s id now := by
  refine Run.episodes GdaemonTasks.log Event.isAbout Life InProgress h (init_tablesInv gslist)
    (fun id => .nil (.idle ?_)) (fun s o s' hi _ hstep => ?_) id
  · rintro ⟨t, ht, -⟩
    exact absurd ht List.not_mem_nil
  · exact ⟨step_tablesInv hi hstep, step_episodes hi hstep⟩

/-! ## Two tasks in turn -/

/-- Task 5 starts server 1, task 6 is to kill it; what task 5 prints stands behind the refusal. -/
def twoTasks : List Op :=
  [.update (some [plainEntry 5 "gsstart" 1 1, plainEntry 6 "gskill" 1 1]),
    .runNext (plainRun runningPoll true), .runNext (plainRun runningPoll true),
    .runNext (plainRun { runningPoll with output := "up" } true),
    .runNext (plainRun donePoll true)]

theorem run_twoTasks : Run (Step 0) Any plainInit (performAll twoTasks) :=
  run_snoc [_, _, _, _] _ (run_snoc [_, _, _] _ (run_snoc [_, _] _ (run_snoc [_] _
    (run_snoc [] _ (.refl plainInit) trivial (by decide)) trivial (by decide)) trivial (by decide))
      trivial (by decide)) trivial (by decide)

theorem lives_twoTasks : (performAll twoTasks).tasks = [] ∧
    ∃ lives : List (List Event), (performAll twoTasks).log.filter (Event.isAbout 5) = lives.flatten ∧
      ∀ life ∈ lives, Life 5 life := by
  have hempty : (performAll twoTasks).tasks = [] := by decide
  obtain ⟨lives, now, hlog, hlives, hnow⟩ := run_lives run_twoTasks 5
  have hnone : now = [] := hnow.eq_nil fun ⟨t, ht, _⟩ => by
    rw [hempty] at ht
    cases ht
  rw [hnone, List.append_nil] at hlog
  exact ⟨hempty, lives, hlog, hlives⟩

end GdaemonTasks

end GameAP
