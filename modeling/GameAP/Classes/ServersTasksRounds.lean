import GameAP.Classes.ServersTasksBookkeeping
import GameAP.Classes.ServersTasksTurns
import GameAP.Lib.Episodes

/-!
# The rounds of the scheduled tasks

What the outside sees of one task id: a `Round` is the start of its command, the verdict on it, the
output of one that has failed, and the update of the panel's record. Each event is reported with
what its `run_next` has read. `run_rounds`: in every run the reports of each id are whole rounds, and
behind them at most the start of one. Such a start is that of a working task, or of a task that came
to be looked after when its runs were used up: its command is never looked at again, and the id is
silent from then on.
-/

namespace GameAP

open Lib

namespace ServersTasks

def Event.isAbout (id : Nat) : Event → Bool
  | .started task _ _ => task.id == id
  | .completed task _ _ => task.id == id
  | .installStatus _ _ => false
  | .failSaved id' _ => id' == id
  | .synced id' _ _ => id' == id

/-- An event, and what the `run_next` that it is from has read: the clock, the replies of the API
and the child. -/
structure Report where
  input : RunInput
  event : Event

def Report.isAbout (id : Nat) (r : Report) : Bool := r.event.isAbout id

/-- What is reported of a step. -/
def Op.reports : Op → List Event → List Report
  | .update _, _ => []
  | .runNext _ i, new => new.map (Report.mk i)

/-- The scheduler and, not part of it, what has happened. -/
structure Reported where
  tasks : ServersTasks
  reports : List Report

/-- A step; its events are reported. -/
def Reported.Turn (tz : Int) (c : Reported) (o : Op) (c' : Reported) : Prop :=
  ServersTasks.Turn tz c.tasks o c'.tasks ∧
    c'.reports = c.reports ++ o.reports (c'.tasks.log.drop c.tasks.log.length)

/-- A round whose command has not been found completed. -/
inductive Running (id : Nat) (cmd : GameServerCmd) : List Report → Prop where
  | started {task : ServerTask} (i : RunInput) : task.id = id → ¬ Exhausted task →
      cmd.command = .restart → cmd.serverId = task.serverId →
      Running id cmd [⟨i, .started task cmd i.forked⟩]

/-- The end of a round, in the `run_next` with `i`: the date that is sent is a period after the
clock of this `run_next`, by the clock of the panel. -/
def endOfRound (i : RunInput) (poll : Poll) (diff : Int) (task : ServerTask) (cmd : GameServerCmd) :
    List Event :=
  .completed { task with status := if poll.succeeded then .success else .fail } cmd poll ::
    ((if poll.succeeded then [] else [.failSaved task.id poll.output]) ++
      [.synced task.id
        { counter := (task.counter + 1) % 2 ^ 32
          repeats := task.repeats
          executeDate := formatTime (i.finished + task.repeatPeriod - diff) } i.received])

/-- The task may have been read anew since the command was started. -/
inductive Round : Nat → List Report → Prop where
  | executed {task : ServerTask} {cmd : GameServerCmd} {now : List Report} {pid diff : Int}
      (i : RunInput) : Running task.id cmd now → ¬ Exhausted task →
      (i.poll.withPid (some pid)).cmdCompleted = true → i.timediff = some diff →
      Round task.id
        (now ++ (endOfRound i (i.poll.withPid (some pid)) diff task cmd).map (Report.mk i))

/-- A task with this id is in the queue. -/
def Queued (ts : List ServerTask) (id : Nat) : Prop := ∃ t ∈ ts, t.id = id

/-- A working task with this id is in the queue. -/
def Working (ts : List ServerTask) (id : Nat) : Prop := ∃ t ∈ ts, t.id = id ∧ t.status = .working

/-- What has happened since the last round has ended, for the queue `ts`. -/
inductive InProgress (ts : List ServerTask) (s : ServersTasks) (id : Nat) :
    List Report → Prop where
  | idle : ¬ Working ts id → id ∉ s.activeCmds → InProgress ts s id []
  | running {cmd : GameServerCmd} {now : List Report} : Working ts id →
      s.activeCmds.lookup id = some cmd → Running id cmd now → InProgress ts s id now
  /-- its runs were used up -/
  | abandoned {cmd : GameServerCmd} {now : List Report} : ¬ Queued ts id → id ∈ s.existsTasks →
      Running id cmd now → InProgress ts s id now

variable {tz : Int} {i : RunInput} {task task' top : ServerTask} {cmd : GameServerCmd}
  {ts us : List ServerTask} {s s' u : ServersTasks} {id : Nat} {now : List Report} {new : List Event}
  {poll : Poll} {diff : Int}

/-! ## The queue -/

theorem queued_cons : Queued (task :: ts) id ↔ task.id = id ∨ Queued ts id := by simp [Queued]

theorem working_cons :
    Working (task :: ts) id ↔ (task.id = id ∧ task.status = .working) ∨ Working ts id := by
  simp [Working]

theorem queued_perm (h : ts.Perm us) : Queued ts id ↔ Queued us id := by
  simp only [Queued, h.mem_iff]

theorem working_perm (h : ts.Perm us) : Working ts id ↔ Working us id := by
  simp only [Working, h.mem_iff]

theorem Working.queued (h : Working ts id) : Queued ts id :=
  let ⟨t, ht, hid, _⟩ := h; ⟨t, ht, hid⟩

theorem Owned.not_queued (h : Owned (task :: ts) s) : ¬ Queued ts task.id :=
  fun ⟨t, ht, hid⟩ => h.ne t ht hid

/-- Whether the first task is working, whatever else there is in the queue. -/
theorem Owned.working_first (h : Owned (task :: ts) s) :
    Working (task :: ts) task.id ↔ task.status = .working := by
  rw [working_cons]
  constructor
  · rintro (⟨-, hw⟩ | hw)
    · exact hw
    · exact absurd hw.queued h.not_queued
  · exact fun hw => .inl ⟨rfl, hw⟩

theorem InProgress.frame (h : InProgress ts s id now)
    (hq : id ∈ s.existsTasks → Queued us id → Queued ts id) (hw : Working us id ↔ Working ts id)
    (hcmd : u.activeCmds.lookup id = s.activeCmds.lookup id)
    (hex : id ∈ s.existsTasks → id ∈ u.existsTasks) : InProgress us u id now := by
  cases h with
  | idle hidle hnot =>
    refine .idle (fun h => hidle (hw.mp h)) (AList.lookup_eq_none.mp ?_)
    rw [hcmd]
    exact AList.lookup_eq_none.mpr hnot
  | running hwork hlookup hrun => exact .running (hw.mpr hwork) (hcmd.trans hlookup) hrun
  | abandoned hnot hmem hrun => exact .abandoned (fun h => hnot (hq hmem h)) (hex hmem) hrun

theorem InProgress.perm (h : InProgress ts s id now) (hp : us.Perm ts) : InProgress us s id now :=
  h.frame (fun _ => (queued_perm hp).mp) (working_perm hp) rfl fun hex => hex

/-! ## Events -/

theorem filter_installStatus (h : ∀ e ∈ new, ∃ serverId st, e = .installStatus serverId st) :
    new.filter (Event.isAbout id) = [] := by
  refine List.filter_eq_nil_iff.mpr fun e he => ?_
  obtain ⟨serverId, st, rfl⟩ := h e he
  exact Bool.false_ne_true

theorem filter_beforeEvents : (beforeEvents task).filter (Event.isAbout id) = [] := by
  refine filter_installStatus fun e he => ?_
  unfold beforeEvents at he
  cases hc : task.command <;> rw [hc] at he
  case install | update => exact ⟨_, _, List.mem_singleton.mp he⟩
  all_goals cases he

theorem filter_afterEvents : (afterEvents task).filter (Event.isAbout id) = [] := by
  refine filter_installStatus fun e he => ?_
  unfold afterEvents at he
  cases hc : task.command <;> cases hst : task.status <;> rw [hc, hst] at he
  all_goals first
    | exact ⟨_, _, List.mem_singleton.mp he⟩
    | cases he

theorem filter_completeEvents :
    (completeEvents i poll diff task cmd).filter (Event.isAbout task.id) =
      endOfRound i poll diff task cmd := by
  unfold completeEvents endOfRound
  simp only [List.filter_append, filter_afterEvents]
  cases poll.succeeded <;> simp [Event.isAbout, taskUpdate, completedTask]

theorem filter_completeEvents_ne (hne : id ≠ task.id) :
    (completeEvents i poll diff task cmd).filter (Event.isAbout id) = [] := by
  have hid : (task.id == id) = false := beq_eq_false_iff_ne.mpr hne.symm
  unfold completeEvents
  simp only [List.filter_append, filter_afterEvents]
  cases poll.succeeded <;> simp [Event.isAbout, hid]

/-! ## The other tasks -/

theorem RunTask.queue_ne (h : RunTask tz i task s s') (hne : id ≠ task.id) :
    (Queued s'.tasks.toList id ↔ Queued s.tasks.toList id) ∧
      (Working s'.tasks.toList id ↔ Working s.tasks.toList id) := by
  rcases h.tasks with he | ⟨t, he, hid, -⟩
  · rw [he]
    exact ⟨Iff.rfl, Iff.rfl⟩
  · have hother : t.id ≠ id := fun h => hne (h.symm.trans hid)
    rw [he, queued_perm (Heap.push_perm s.tasks t), working_perm (Heap.push_perm s.tasks t),
      queued_cons, working_cons]
    exact ⟨or_iff_right hother, or_iff_right fun h => hother h.1⟩

theorem RunTask.containers_ne (h : RunTask tz i task s s') (hne : id ≠ task.id) :
    s'.activeCmds.lookup id = s.activeCmds.lookup id ∧
      (id ∈ s.existsTasks → id ∈ s'.existsTasks) := by
  cases h with
  | exhausted | running => exact ⟨rfl, fun hex => hex⟩
  | started =>
    refine ⟨?_, fun hex => ?_⟩
    · show (startState i _ _ _ s).activeCmds.lookup id = _
      rw [startState_activeCmds]
      exact Table.lookup_emplace_ne hne
    · show id ∈ (startState i _ _ _ s).existsTasks
      rwa [startState_existsTasks]
  | completed =>
    rw [finishState_activeCmds, proceedState_activeCmds, finishState_existsTasks,
      proceedState_existsTasks]
    refine ⟨AList.lookup_erase_ne hne, fun hex => ?_⟩
    split
    · exact hex
    · exact Finset.mem_erase.mpr ⟨hne, hex⟩

/-- The other tasks keep their places and their commands. -/
theorem RunTask.others_inProgress (h : RunTask tz i task s s') (hne : id ≠ task.id)
    (hp : InProgress (task :: s.tasks.toList) s id now) : InProgress s'.tasks.toList s' id now := by
  obtain ⟨hqueued, hworking⟩ := h.queue_ne hne
  obtain ⟨hcmd, hex⟩ := h.containers_ne hne
  refine hp.frame (fun _ hq => queued_cons.mpr (.inr (hqueued.mp hq))) ?_ hcmd hex
  rw [hworking, working_cons]
  exact (or_iff_right fun h => hne h.1.symm).symm

/-! ## The task that is taken -/

/-- A waiting task in the queue has no round in progress. -/
theorem InProgress.waiting (hp : InProgress (task :: ts) s task.id now) (ho : Owned (task :: ts) s)
    (hw : task.status = .waiting) : now = [] ∧ task.id ∉ s.activeCmds := by
  cases hp with
  | idle _ hnot => exact ⟨rfl, hnot⟩
  | running hwork =>
    rw [ho.working_first, hw] at hwork
    cases hwork
  | abandoned hnot => exact absurd (queued_cons.mpr (.inl rfl)) hnot

/-- A working one has. -/
theorem InProgress.working (hp : InProgress (task :: ts) s task.id now)
    (hw : task.status = .working) :
    ∃ cmd, s.activeCmds.lookup task.id = some cmd ∧ Running task.id cmd now := by
  cases hp with
  | idle hidle => exact absurd (working_cons.mpr (.inl ⟨rfl, hw⟩)) hidle
  | running _ hlookup hrun => exact ⟨_, hlookup, hrun⟩
  | abandoned hnot => exact absurd (queued_cons.mpr (.inl rfl)) hnot

/-- It is dropped, and with it the round in progress. -/
theorem InProgress.dropped (hp : InProgress (task :: ts) s task.id now)
    (ho : Owned (task :: ts) s) : InProgress ts s task.id now := by
  have hnot := ho.not_queued
  cases hp with
  | idle _ hcmd => exact .idle (fun hw => hnot hw.queued) hcmd
  | running _ _ hrun => exact .abandoned hnot (ho.existing task List.mem_cons_self) hrun
  | abandoned hnone => exact absurd (queued_cons.mpr (.inl rfl)) hnone

/-- What happens to the task that is taken from the queue. -/
theorem RunTask.episode (h : RunTask tz i task s s') (ho : Owned (task :: s.tasks.toList) s) :
    ∃ new, s'.log = s.log ++ new ∧ (∀ id, id ≠ task.id → new.filter (Event.isAbout id) = []) ∧
      Episodes.Step (Round task.id) (InProgress (task :: s.tasks.toList) s task.id)
        (InProgress s'.tasks.toList s' task.id)
        ((new.filter (Event.isAbout task.id)).map (Report.mk i)) := by
  cases h with
  | exhausted =>
    refine ⟨[], (List.append_nil _).symm, fun _ _ => rfl, .goesOn fun now hp => ?_⟩
    rw [List.filter_nil, List.map_nil, List.append_nil]
    exact hp.dropped ho
  | @started cmd gslist hleft hw hcreate =>
    obtain ⟨hcommand, hserver⟩ := GameServerCmd.create_command hcreate
    refine ⟨_, startState_log.trans (List.append_assoc _ _ _), fun id hne => ?_,
      .goesOn fun now hp => ?_⟩
    · rw [List.filter_append, filter_beforeEvents]
      simp [Event.isAbout, hne.symm]
    · obtain ⟨rfl, hnot⟩ := hp.waiting ho hw
      have hrun : Running task.id cmd
          [⟨i, .started { task with status := .working } cmd i.forked⟩] :=
        .started i rfl (not_exhausted.mpr hleft) hcommand hserver
      rw [List.filter_append, filter_beforeEvents]
      refine .perm ?_ (Heap.push_perm _ _)
      refine .running (working_cons.mpr (.inl ⟨rfl, rfl⟩)) ?_ (by simpa [Event.isAbout] using hrun)
      show (startState i _ _ _ s).activeCmds.lookup task.id = _
      rw [startState_activeCmds]
      exact Table.lookup_emplace_of_notMem hnot
  | running _ hw =>
    refine ⟨[], (List.append_nil _).symm, fun _ _ => rfl, .goesOn fun now hp => ?_⟩
    obtain ⟨cmd, hlookup, hrun⟩ := hp.working hw
    rw [List.filter_nil, List.map_nil, List.append_nil]
    refine .perm ?_ (Heap.push_perm _ _)
    exact .running (working_cons.mpr (.inl ⟨rfl, hw⟩)) hlookup hrun
  | @completed cmd diff hleft hw hlookup hd hc =>
    obtain ⟨pid, hpid⟩ := Option.isSome_iff_exists.mp
      (AList.lookup_isSome.mpr (ho.commands task List.mem_cons_self hw).2)
    rw [hpid] at hc ⊢
    refine ⟨_, finishState_log.trans proceedState_log, fun id => filter_completeEvents_ne,
      .ends (fun now hp => ?_) ?_⟩
    · obtain ⟨cmd', hlookup', hrun⟩ := hp.working hw
      obtain rfl := Option.some.inj (hlookup'.symm.trans hlookup)
      rw [filter_completeEvents]
      exact .executed i hrun (not_exhausted.mpr hleft) hc hd
    · refine .idle (fun hwork => ?_) ?_
      · rw [finishState_tasks, proceedState_tasks] at hwork
        split at hwork
        · rw [working_perm (Heap.push_perm _ _), working_cons] at hwork
          rcases hwork with ⟨-, hwait⟩ | hwork
          · cases hwait
          · exact ho.not_queued hwork.queued
        · exact ho.not_queued hwork.queued
      · rw [finishState_activeCmds]
        exact fun hmem => (AList.mem_erase.mp hmem).1 rfl

/-! ## Runs -/

/-- An imported task waits, and its id is new. -/
theorem InProgress.imported (hp : InProgress s.tasks.toList s id now) (hw : task.status = .waiting)
    (hfresh : task.id ∉ s.existsTasks) :
    InProgress (importTask task s).tasks.toList (importTask task s) id now := by
  have hperm : (importTask task s).tasks.toList.Perm (task :: s.tasks.toList) := Heap.push_perm _ _
  refine hp.frame (fun hex hq => ?_) ?_ rfl fun hex => Finset.mem_insert_of_mem hex
  · rcases queued_cons.mp ((queued_perm hperm).mp hq) with rfl | hq
    · exact absurd hex hfresh
    · exact hq
  · rw [working_perm hperm, working_cons, hw]
    simp

/-- Bringing the task on top up to date. -/
theorem InProgress.refreshed (hp : InProgress s.tasks.toList s id now)
    (htop : s.tasks[0]? = some top) (hr : refresh tz i top s = .ok (task, s')) :
    InProgress (task :: (taken s').tasks.toList) (taken s') id now ∧
      InProgress s'.tasks.toList s' id now := by
  have hframe := refresh_frame hr
  have hpop : (taken s').tasks = Heap.pop compareTask s.tasks := hframe.pop
  have hold : InProgress (top :: (Heap.pop compareTask s.tasks).toList) s id now :=
    hp.perm (Heap.pop_perm htop).symm
  have hnew : InProgress (task :: (Heap.pop compareTask s.tasks).toList) s' id now := by
    refine hold.frame (fun _ hq => ?_) ?_ (by rw [hframe.activeCmds])
      (by rw [hframe.existsTasks]; exact fun hex => hex)
    · rw [queued_cons, ← hframe.id]
      exact queued_cons.mp hq
    · rw [working_cons, working_cons, hframe.id, hframe.status]
  refine ⟨?_, hnew.perm (refresh_perm htop hr)⟩
  rw [hpop]
  exact hnew.frame (fun _ hq => hq) Iff.rfl rfl fun hex => hex

theorem update_invariant {P : ServersTasks → Prop} {reply : Option Json}
    (h : update tz reply s = .ok s') (h0 : P s)
    (hstep : ∀ task t, task.status = .waiting → task.id ∉ t.existsTasks → P t →
      P (importTask task t)) : P s' := by
  cases reply with
  | none =>
    cases h
    exact h0
  | some jvalue =>
    exact addTasks_invariant h h0 fun _ _ task t hnew => hstep task t (newTask_spec hnew).2.1

theorem update_inProgress {reply : Option Json} (h : update tz reply s = .ok s') :
    s'.log = s.log ∧ ∀ id now, InProgress s.tasks.toList s id now →
      InProgress s'.tasks.toList s' id now := by
  refine update_invariant (P := fun t => t.log = s.log ∧ ∀ id now,
    InProgress s.tasks.toList s id now → InProgress t.tasks.toList t id now) h
    ⟨rfl, fun _ _ hp => hp⟩ ?_
  rintro task t hw hfresh ⟨hlog, hkeep⟩
  exact ⟨hlog, fun id now hp => (hkeep id now hp).imported hw hfresh⟩

theorem turn_episodes {o : Op} (ho : Owned s.tasks.toList s) (h : Turn tz s o s') :
    ∃ new, s'.log = s.log ++ new ∧ (o.reports new).map Report.event = new ∧
      ∀ id, Episodes.Step (Round id) (InProgress s.tasks.toList s id)
        (InProgress s'.tasks.toList s' id) ((o.reports new).filter (Report.isAbout id)) := by
  cases h with
  | update hu =>
    obtain ⟨hlog, hkeep⟩ := update_inProgress hu
    refine ⟨[], by rw [hlog, List.append_nil], rfl, fun id => .goesOn fun now hp => ?_⟩
    show InProgress _ _ id (now ++ [])
    rw [List.append_nil]
    exact hkeep id now hp
  | @runNext _ asked i _ hrun =>
    have hpending : Pending s := fun t ht => ho.pending t (Array.mem_toList_iff.mpr ht)
    obtain ⟨top, task, s1, htop, hr, hcase⟩ := runNext_run hpending hrun
    have hlog1 := (refresh_frame hr).log
    rcases hcase with ⟨-, rfl⟩ | ⟨-, hcase⟩
    · refine ⟨[], by rw [hlog1, List.append_nil], rfl, fun id => .goesOn fun now hp => ?_⟩
      show InProgress _ _ id (now ++ [])
      rw [List.append_nil]
      exact (hp.refreshed htop hr).2
    · obtain ⟨new, hlog, hother, hfirst⟩ := hcase.episode (refresh_owned ho htop hr).1
      have hevents : (new.map (Report.mk i)).map Report.event = new := by
        rw [List.map_map]
        exact List.map_id new
      have hfilter : ∀ id, (Op.reports (.runNext asked i) new).filter (Report.isAbout id) =
          (new.filter (Event.isAbout id)).map (Report.mk i) := fun id => List.filter_map
      refine ⟨new, by rw [hlog]; exact congrArg (· ++ new) hlog1, hevents, fun id => ?_⟩
      rw [hfilter]
      by_cases hid : id = task.id
      · rw [hid]
        cases hfirst with
        | goesOn hpart => exact .goesOn fun now hp => hpart now (hp.refreshed htop hr).1
        | ends hwhole hpart =>
          exact .ends (fun now hp => hwhole now (hp.refreshed htop hr).1) hpart
      · rw [hother id hid]
        refine .goesOn fun now hp => ?_
        rw [List.map_nil, List.append_nil]
        exact hcase.others_inProgress hid (hp.refreshed htop hr).1

/-- Every run is reported. -/
theorem Reported.of_run (h : Run (ServersTasks.Turn tz) Any s s') :
    ∃ reports, Run (Reported.Turn tz) Any ⟨s, []⟩ ⟨s', reports⟩ := by
  induction h with
  | refl => exact ⟨[], .refl _⟩
  | @step t u o _ _ hturn ih =>
    obtain ⟨reports, hrun⟩ := ih
    refine ⟨reports ++ o.reports (u.log.drop t.log.length), hrun.step trivial ⟨hturn, rfl⟩⟩

/-- **The rounds of a task.** In every run, whatever the panel lists, answers and changes, and
whatever the clock says, the reports of each id are whole rounds, followed by the start of one if
the task is working or has been dropped while it was, and by nothing otherwise. -/
theorem run_rounds {gslist : GameServersList} {c : Reported}
    (h : Run (Reported.Turn tz) Any ⟨init gslist, []⟩ c) (id : Nat) :
    c.reports.map Report.event = c.tasks.log ∧
      ∃ (rounds : List (List Report)) (now : List Report),
        c.reports.filter (Report.isAbout id) = rounds.flatten ++ now ∧
        (∀ round ∈ rounds, Round id round) ∧ InProgress c.tasks.tasks.toList c.tasks id now := by
  have hstep : ∀ c o c', Owned c.tasks.tasks.toList c.tasks → Reported.Turn tz c o c' →
      ∃ new, c'.tasks.log = c.tasks.log ++ new ∧ c'.reports = c.reports ++ o.reports new ∧
        (o.reports new).map Report.event = new ∧
        ∀ id, Episodes.Step (Round id) (InProgress c.tasks.tasks.toList c.tasks id)
          (InProgress c'.tasks.tasks.toList c'.tasks id)
          ((o.reports new).filter (Report.isAbout id)) := by
    rintro c o c' ho ⟨hturn, hreports⟩
    obtain ⟨new, hlog, hevents, hnew⟩ := turn_episodes ho hturn
    rw [hlog, List.drop_left] at hreports
    exact ⟨new, hlog, hreports, hevents, hnew⟩
  refine ⟨?_, ?_⟩
  · refine (h.invariant (I := fun c => Owned c.tasks.tasks.toList c.tasks ∧
      c.reports.map Report.event = c.tasks.log) ⟨init_owned gslist, rfl⟩ ?_).2
    rintro c o c' ⟨ho, hlog⟩ - hturn
    obtain ⟨new, hnew, hreports, hevents, -⟩ := hstep c o c' ho hturn
    refine ⟨turn_owned ho hturn.1, ?_⟩
    rw [hreports, List.map_append, hlog, hevents, hnew]
  · refine Run.episodes Reported.reports Report.isAbout Round
      (fun c => InProgress c.tasks.tasks.toList c.tasks) h
      (I := fun c => Owned c.tasks.tasks.toList c.tasks) (init_owned gslist)
      (fun id => .nil (.idle ?_ ?_)) (fun c o c' ho _ hturn => ?_) id
    · rintro ⟨t, ht, -⟩
      exact absurd ht List.not_mem_nil
    · exact AList.notMem_empty id
    · obtain ⟨new, -, hreports, -, hnew⟩ := hstep c o c' ho hturn
      exact ⟨turn_owned ho hturn.1, _, hreports, hnew⟩

/-- **A dropped task is silent.** A task whose id is still in `exists_tasks` but not in the queue
is never started again, whatever the panel says of it. -/
theorem dropped_silent {gslist : GameServersList} (h0 : Run (Turn tz) Any (init gslist) s)
    (h : Run (Turn tz) Any s s') (hnot : ¬ Queued s.tasks.toList id) (hex : id ∈ s.existsTasks) :
    s'.log.filter (Event.isAbout id) = s.log.filter (Event.isAbout id) ∧
      ¬ Queued s'.tasks.toList id ∧ id ∈ s'.existsTasks := by
  have ho : Owned s.tasks.toList s :=
    h0.invariant (I := fun s => Owned s.tasks.toList s) (init_owned gslist)
      fun _ _ _ ho _ hs => turn_owned ho hs
  refine (h.invariant (I := fun t => Owned t.tasks.toList t ∧
    t.log.filter (Event.isAbout id) = s.log.filter (Event.isAbout id) ∧
    ¬ Queued t.tasks.toList id ∧ id ∈ t.existsTasks) ⟨ho, rfl, hnot, hex⟩ ?_).2
  rintro t o u ⟨ht, hlog, hnot, hex⟩ - hstep
  refine ⟨turn_owned ht hstep, ?_⟩
  cases hstep with
  | update hu =>
    refine update_invariant (P := fun u =>
      u.log.filter (Event.isAbout id) = s.log.filter (Event.isAbout id) ∧
      ¬ Queued u.tasks.toList id ∧ id ∈ u.existsTasks) hu ⟨hlog, hnot, hex⟩ ?_
    rintro task u hw hfresh ⟨hlog, hnot, hex⟩
    refine ⟨hlog, fun hq => ?_, Finset.mem_insert_of_mem hex⟩
    rcases queued_cons.mp ((queued_perm (Heap.push_perm _ _)).mp hq) with rfl | hq
    · exact hfresh hex
    · exact hnot hq
  | runNext _ hrun =>
    have hpending : Pending t := fun x hx => ht.pending x (Array.mem_toList_iff.mpr hx)
    obtain ⟨top, task, s1, htop, hr, hcase⟩ := runNext_run hpending hrun
    have hframe := refresh_frame hr
    have hperm := refresh_perm htop hr
    have hnot1 : ¬ Queued s1.tasks.toList id := by
      rw [queued_perm hperm, queued_cons, hframe.id, ← queued_cons,
        ← queued_perm (Heap.pop_perm htop)]
      exact hnot
    rcases hcase with ⟨-, rfl⟩ | ⟨-, hcase⟩
    · rw [hframe.log, hframe.existsTasks]
      exact ⟨hlog, hnot1, hex⟩
    · rw [queued_perm hperm, queued_cons] at hnot1
      obtain ⟨hne, hrest⟩ := not_or.mp hnot1
      obtain ⟨new, hnew, hother, -⟩ := hcase.episode (refresh_owned ht htop hr).1
      have hpop : (taken s1).tasks = Heap.pop compareTask t.tasks := hframe.pop
      have hlog1 : (taken s1).log = t.log := hframe.log
      have hex1 : id ∈ (taken s1).existsTasks := hframe.existsTasks ▸ hex
      refine ⟨?_, ?_, (hcase.containers_ne (Ne.symm hne)).2 hex1⟩
      · rw [hnew, List.filter_append, hother id (Ne.symm hne), List.append_nil, hlog1]
        exact hlog
      · rw [(hcase.queue_ne (Ne.symm hne)).1, hpop]
        exact hrest

/-! ## A task that is run once -/

/-- The command of the task has restarted the server. -/
def finishedState : ServersTasks :=
  resultD (startedState [countedTask 1 0])
    (runNext 0 (plainRun 500 succeededPoll) (startedState [countedTask 1 0]))

theorem run_finished :
    Run (Turn 0) Any (init (GameServersList.plainList [1])) finishedState := by
  have hstarted : Run (Turn 0) Any (init (GameServersList.plainList [1]))
      (startedState [countedTask 1 0]) :=
    run_started (countedTask 1 0) (by decide) (by decide) (by decide) trivial trivial
  refine hstarted.step (i := .runNext 500 (plainRun 500 succeededPoll)) trivial ?_
  exact .runNext (by decide) (eq_ok_resultD _ (by decide))

theorem rounds_runOnce : ∃ reports : List Report, reports ≠ [] ∧
    reports.map Report.event = finishedState.log ∧
    ∃ rounds : List (List Report), reports.filter (Report.isAbout 1) = rounds.flatten ∧
      ∀ round ∈ rounds, Round 1 round := by
  have hnone : finishedState.tasks.toList = [] := by decide
  have hex : 1 ∉ finishedState.existsTasks := by decide
  obtain ⟨reports, hrun⟩ := Reported.of_run run_finished
  obtain ⟨hlog, rounds, now, hreports, hrounds, hnow⟩ := run_rounds hrun 1
  have hnil : now = [] := by
    cases hnow with
    | idle => rfl
    | running hwork =>
      obtain ⟨t, ht, -⟩ := hwork
      rw [hnone] at ht
      cases ht
    | abandoned _ hmem => exact absurd hmem hex
  rw [hnil, List.append_nil] at hreports
  refine ⟨reports, ?_, hlog, rounds, hreports, hrounds⟩
  rintro rfl
  have hne : finishedState.log ≠ [] := by decide
  exact hne hlog.symm

end ServersTasks

end GameAP
