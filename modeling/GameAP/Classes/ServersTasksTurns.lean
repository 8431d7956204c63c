import GameAP.Classes.ServersTasksSteps
import Mathlib.Data.List.Chain

/-!
# How often a scheduled task is started

The panel stores what it receives of a task and returns what it has stored: `Panel.after` is its
record after the events of a log, and `Serves` says that every reply shows it. A task goes round
the phases of `Phase`: it is imported, waits, works, and waits again. `spaced_of_run`: in a run
whose steps are all `Kept`, a task that is held with a repeat and a counter is started no more
often than the difference, and each time a period after the last. Three things break this: a
repeat that is zero in 16 bits, a record that is read back after an update of it was lost, and a
date that is read back earlier than it was sent.
-/

namespace GameAP

open Lib

namespace ServersTasks

/-! ## The panel's record -/

/-- The record of a task that the panel holds. -/
structure Panel where
  repeats : Nat
  counter : Nat
  period : Nat
  executeDate : String
  /-- the last update sent to it has been received -/
  current : Bool
  deriving DecidableEq

namespace Panel

def see (id : Nat) (p : Panel) : Event → Panel
  | .synced i body received =>
    if i = id then
      if received then
        { p with
          repeats := body.repeats
          counter := body.counter
          executeDate := body.executeDate
          current := true }
      else { p with current := false }
    else p
  | _ => p

/-- The record of the task `id` after the events of a log. -/
def after (id : Nat) (p : Panel) (log : List Event) : Panel := log.foldl (see id) p

/-- A reply that shows the record. -/
structure Shows (p : Panel) (j : Json) : Prop where
  repeats : j.getUInt "repeat" = .ok (getJsonUInt (.int p.repeats))
  period : j.getUInt "repeat_period" = .ok (getJsonUInt (.int p.period))
  counter : j.getUInt "counter" = .ok (getJsonUInt (.int p.counter))
  executeDate : j.getString "execute_date" = .ok p.executeDate

theorem after_append (id : Nat) (p : Panel) (l l' : List Event) :
    p.after id (l ++ l') = (p.after id l).after id l' := List.foldl_append

end Panel

/-- The time at which an event starts the task `id`. -/
def startTime (id : Nat) : Event → Option Int
  | .started task _ time => if task.id = id then some time else none
  | _ => none

def startTimes (id : Nat) (log : List Event) : List Int := log.filterMap (startTime id)

/-- At most `most` starts, each at least `period` seconds after the one before. -/
structure Spaced (most period : Nat) (times : List Int) : Prop where
  few : times.length ≤ most
  apart : times.IsChain fun (a b : Int) => a + period ≤ b

theorem startTimes_append (id : Nat) (l l' : List Event) :
    startTimes id (l ++ l') = startTimes id l ++ startTimes id l' := List.filterMap_append

/-! ## The events of a step -/

section Events

variable {id : Nat} {p : Panel} {i : RunInput} {poll : Poll} {diff : Int} {task : ServerTask}
  {cmd : GameServerCmd}

theorem startTimes_beforeEvents : startTimes id (beforeEvents task) = [] := by
  unfold beforeEvents
  split <;> rfl

theorem after_beforeEvents : p.after id (beforeEvents task) = p := by
  unfold beforeEvents
  split <;> rfl

theorem startTimes_afterEvents : startTimes id (afterEvents task) = [] := by
  unfold afterEvents
  split
  · split <;> rfl
  · split <;> rfl
  · split <;> rfl
  · rfl

theorem after_afterEvents : p.after id (afterEvents task) = p := by
  unfold afterEvents
  split
  · split <;> rfl
  · split <;> rfl
  · split <;> rfl
  · rfl

theorem startTimes_completeEvents : startTimes id (completeEvents i poll diff task cmd) = [] := by
  unfold completeEvents
  simp only [startTimes_append, startTimes_afterEvents]
  split <;> rfl

/-- Of the events of a completed command, the panel's record sees the update. -/
theorem after_completeEvents : p.after id (completeEvents i poll diff task cmd) =
    p.see id (.synced task.id (taskUpdate diff (completedTask i poll task)) i.received) := by
  unfold completeEvents
  simp only [Panel.after_append]
  rw [show p.after id [.completed { task with
      status := if poll.succeeded then .success else .fail } cmd poll] = p from rfl,
    after_afterEvents]
  split <;> rfl

theorem see_of_ne (hne : task.id ≠ id) {body : TaskUpdate} {received : Bool} :
    p.see id (.synced task.id body received) = p := if_neg hne

end Events

/-! ## The queue's part -/

/-- The queued tasks with the id; there is at most one. -/
def queued (id : Nat) (ts : Array ServerTask) : List ServerTask :=
  ts.toList.filter fun t => t.id = id

section Queued

variable {id : Nat} {ts : Array ServerTask} {top task : ServerTask}

theorem filter_perm_self {l l' : List ServerTask} (hp : l.Perm (task :: l')) (h : task.id = id) :
    (l.filter fun t => t.id = id).Perm (task :: l'.filter fun t => t.id = id) := by
  have hf := hp.filter fun t => t.id = id
  rwa [List.filter_cons, if_pos (decide_eq_true h)] at hf

theorem filter_perm_ne {l l' : List ServerTask} (hp : l.Perm (task :: l')) (h : task.id ≠ id) :
    (l.filter fun t => t.id = id).Perm (l'.filter fun t => t.id = id) := by
  have hf := hp.filter fun t => t.id = id
  rwa [List.filter_cons, if_neg (by simpa using h)] at hf

theorem queued_push_self (h : task.id = id) :
    (queued id (Heap.push compareTask ts task)).Perm (task :: queued id ts) :=
  filter_perm_self (Heap.push_perm ts task) h

theorem queued_push_ne (h : task.id ≠ id) :
    (queued id (Heap.push compareTask ts task)).Perm (queued id ts) :=
  filter_perm_ne (Heap.push_perm ts task) h

theorem queued_pop_self (htop : ts[0]? = some top) (h : top.id = id) :
    (queued id ts).Perm (top :: queued id (Heap.pop compareTask ts)) :=
  filter_perm_self (Heap.pop_perm htop) h

theorem queued_pop_ne (htop : ts[0]? = some top) (h : top.id ≠ id) :
    (queued id ts).Perm (queued id (Heap.pop compareTask ts)) :=
  filter_perm_ne (Heap.pop_perm htop) h

theorem queued_set_self (htop : ts[0]? = some top) (h : task.id = id) :
    (queued id (ts.setIfInBounds 0 task)).Perm (task :: queued id (Heap.pop compareTask ts)) :=
  filter_perm_self (Heap.toList_setIfInBounds htop task) h

theorem queued_set_ne (htop : ts[0]? = some top) (h : task.id ≠ id) (h' : top.id ≠ id) :
    (queued id (ts.setIfInBounds 0 task)).Perm (queued id ts) :=
  (filter_perm_ne (Heap.toList_setIfInBounds htop task) h).trans (queued_pop_ne htop h').symm

end Queued

/-! ## The phases of a task -/

/-- A turn that is left to start, and not dated earlier than a period after the last start. -/
def Ready (held : Panel) (times : List Int) (counter : Nat) (date : Int) : Prop :=
  held.counter + times.length ≤ counter ∧ ∀ f ∈ times.getLast?, f + held.period ≤ date + 1

/-- A later record of the same task. -/
structure Panel.Continues (p held : Panel) : Prop where
  repeats : p.repeats % 2 ^ 16 = held.repeats % 2 ^ 16
  small : p.repeats < 2 ^ 32
  period : p.period = held.period
  counter : p.counter < 2 ^ 32

/-- If the record is current, it shows a turn that is ready. -/
def Panel.ShowsReady (p : Panel) (tz : Int) (held : Panel) (times : List Int) : Prop :=
  p.current = true → Ready held times p.counter (humanToTimestamp tz p.executeDate)

/-- If the record is current, its counter lags behind by the running command at most. -/
def Panel.ShowsRunning (p held : Panel) (times : List Int) : Prop :=
  p.current = true → held.counter + times.length ≤ p.counter + 1

section Phases

variable (tz : Int) (held : Panel)

/-- A task as the record describes it. -/
structure Fits (t : ServerTask) : Prop where
  repeats : t.repeats = held.repeats % 2 ^ 16
  period : t.repeatPeriod = held.period
  counter : t.counter < 2 ^ 32

/-- Where a task is after the starts `times`: `known` is its place in `exists_tasks`, and the
list its place in the queue. -/
inductive Phase (times : List Int) (p : Panel) (known : Prop) : List ServerTask → Prop where
  /-- it may be imported -/
  | away : ¬ known → p.ShowsReady tz held times → Phase times p known []
  /-- it was used up when its turn came, and is not imported again -/
  | dropped : known → Phase times p known []
  | waiting {t : ServerTask} : known → Fits held t → t.status = .waiting →
      Ready held times t.counter t.executeDate → p.ShowsReady tz held times →
      Phase times p known [t]
  | working {t : ServerTask} : known → Fits held t → t.status = .working →
      held.counter + times.length ≤ t.counter + 1 →
      (∀ f ∈ times.getLast?, f + 30 ≤ t.executeDate) → p.ShowsRunning held times →
      Phase times p known [t]

variable {tz held} {times : List Int} {p : Panel} {known : Prop} {l l' : List ServerTask}
  {task task' : ServerTask}

theorem Phase.perm (h : Phase tz held times p known l) (hp : l'.Perm l) :
    Phase tz held times p known l' := by
  have hl : l' = l := by
    cases h with
    | away _ _ => exact hp.eq_nil
    | dropped _ => exact hp.eq_nil
    | waiting _ _ _ _ _ => exact List.perm_singleton.mp hp
    | working _ _ _ _ _ _ => exact List.perm_singleton.mp hp
  exact hl ▸ h

theorem Phase.iff {known' : Prop} (h : Phase tz held times p known l) (hk : known ↔ known') :
    Phase tz held times p known' l := propext hk ▸ h

/-! ## Reading the record -/

theorem getJsonUInt_int {n : Nat} (h : n < 2 ^ 32) : getJsonUInt (.int n) = n := by
  have hnumber : IsNumber n (.int n) := .int (by omega)
  rw [hnumber.getJsonUInt_eq, if_pos h]

/-- What is read of a later record. -/
theorem Panel.Shows.values {j : Json} (hs : p.Shows j) (hc : p.Continues held)
    (hperiod : held.period < 2 ^ 32) : j.getUInt "repeat" = .ok p.repeats ∧
      j.getUInt "repeat_period" = .ok held.period ∧ j.getUInt "counter" = .ok p.counter := by
  refine ⟨?_, ?_, ?_⟩
  · rw [hs.repeats, getJsonUInt_int hc.small]
  · rw [hs.period, hc.period, getJsonUInt_int hperiod]
  · rw [hs.counter, getJsonUInt_int hc.counter]

theorem ReadFrom.fits {j : Json} (hread : ReadFrom tz j task) (hc : p.Continues held)
    (hperiod : held.period < 2 ^ 32) (hs : p.Shows j) :
    Fits held task ∧ task.counter = p.counter ∧
      task.executeDate = humanToTimestamp tz p.executeDate := by
  obtain ⟨hr, hp, hn⟩ := hs.values hc hperiod
  obtain ⟨n, hn', hrepeats⟩ := hread.repeats
  obtain ⟨text, hd', hdate⟩ := hread.executeDate
  obtain rfl : p.repeats = n := Except.ok.inj (hr.symm.trans hn')
  obtain rfl : p.executeDate = text := Except.ok.inj (hs.executeDate.symm.trans hd')
  have hcounter : p.counter = task.counter := Except.ok.inj (hn.symm.trans hread.counter)
  have hper : held.period = task.repeatPeriod := Except.ok.inj (hp.symm.trans hread.repeatPeriod)
  exact ⟨⟨hrepeats.trans hc.repeats, hper.symm, hcounter ▸ hc.counter⟩, hcounter.symm, hdate⟩

end Phases

/-! ## Steps -/

section Steps

variable (tz : Int) (id : Nat) (held : Panel)

/-- What the log tells of a task. -/
structure Counted (s : ServersTasks) : Prop where
  record : (held.after id s.log).Continues held
  bound : startTimes id s.log = [] ∨
    held.counter + (startTimes id s.log).length ≤ held.repeats % 2 ^ 16
  apart : (startTimes id s.log).IsChain fun (a b : Int) => a + held.period ≤ b

/-- What a run keeps of a task. -/
structure Turns (s : ServersTasks) : Prop extends Counted id held s where
  phase : Phase tz held (startTimes id s.log) (held.after id s.log) (id ∈ s.existsTasks)
    (queued id s.tasks)

/-- The panel returns what it stores of the task. -/
def Serves (t : Timed) : Op → Prop
  | .update reply => ∀ jvalue, reply = some jvalue → ∀ j ∈ jvalue.elems,
      j.getUInt "id" = .ok id → (held.after id t.tasks.log).Shows j
  | .runNext _ i => ∀ top j, t.tasks.tasks[0]? = some top → top.id = id → i.task = some j →
      (held.after id t.tasks.log).Shows j

/-- The date that is sent for `date` is read back at most 31 seconds earlier: a command is not
looked at before 30 seconds have passed. -/
def ReadsBack (diff date : Int) : Prop :=
  date ≤ humanToTimestamp tz (formatTime (date - diff)) + 31

/-- No record is read that misses the last update, and an update that is received can be read
back. -/
def Kept (t : Timed) : Op → Prop
  | .update reply => ∀ jvalue, reply = some jvalue →
      (∃ j ∈ jvalue.elems, j.getUInt "id" = .ok id) → id ∉ t.tasks.existsTasks →
      (held.after id t.tasks.log).current = true
  | .runNext _ i => ∀ top, t.tasks.tasks[0]? = some top → top.id = id →
      (needsSync i.now id t.tasks = true → i.task ≠ none →
        (held.after id t.tasks.log).current = true) ∧
      (top.status = .working →
        (i.poll.withPid (t.tasks.cmdProcesses.lookup id)).cmdCompleted = true →
        i.received = true → ∀ diff, i.timediff = some diff →
        ReadsBack tz diff (i.finished + held.period))

variable {tz id held} {s s' s1 : ServersTasks} {i : RunInput} {top task : ServerTask}

theorem readsBack_iff {diff date : Int} (h0 : 0 ≤ date - diff) (h1 : date - diff < 253370764800) :
    ReadsBack tz diff date ↔ diff + tz ≤ 31 := by
  unfold ReadsBack
  rw [humanToTimestamp_formatTime tz h0 h1]
  omega

theorem Turns.of_same (hi : Turns tz id held s) (hstarts : startTimes id s'.log = startTimes id s.log)
    (hrecord : held.after id s'.log = held.after id s.log)
    (hknown : id ∈ s'.existsTasks ↔ id ∈ s.existsTasks)
    (hqueued : (queued id s'.tasks).Perm (queued id s.tasks)) : Turns tz id held s' where
  record := hrecord ▸ hi.record
  bound := hstarts ▸ hi.bound
  apart := hstarts ▸ hi.apart
  phase := by
    rw [hstarts, hrecord]
    exact (hi.phase.perm hqueued).iff hknown.symm

/-! ### The import -/

theorem importTask_turns {j : Json} (hi : Turns tz id held s) (hperiod : held.period < 2 ^ 32)
    (hnew : newTask tz j = .ok task) (hfresh : task.id ∉ s.existsTasks)
    (hserves : j.getUInt "id" = .ok id → (held.after id s.log).Shows j)
    (hkept : j.getUInt "id" = .ok id → (held.after id s.log).current = true) :
    Turns tz id held (importTask task s) := by
  obtain ⟨hid, hw, hread⟩ := newTask_spec hnew
  by_cases hsame : task.id = id
  · rw [hsame] at hid hfresh
    obtain ⟨hfits, hcounter, hdate⟩ := hread.fits hi.record hperiod (hserves hid)
    refine { hi with phase := ?_ }
    have hphase := hi.phase
    generalize hq : queued id s.tasks = l at hphase
    cases hphase with
    | away _ hready =>
      have hpush : (queued id (importTask task s).tasks).Perm [task] := by
        rw [← hq]
        exact queued_push_self hsame
      refine Phase.perm (.waiting ?_ hfits hw ?_ hready) hpush
      · exact hsame ▸ Finset.mem_insert_self _ _
      · rw [hcounter, hdate]
        exact hready (hkept hid)
    | dropped hk => exact absurd hk hfresh
    | waiting hk => exact absurd hk hfresh
    | working hk => exact absurd hk hfresh
  · refine hi.of_same rfl rfl ?_ (queued_push_ne hsame)
    simp only [importTask, push, Finset.mem_insert, Ne.symm hsame, false_or]

theorem addTasks_turns {js : List Json} (hi : Turns tz id held s) (hperiod : held.period < 2 ^ 32)
    (hserves : ∀ j ∈ js, j.getUInt "id" = .ok id → (held.after id s.log).Shows j)
    (hkept : (∃ j ∈ js, j.getUInt "id" = .ok id) → id ∉ s.existsTasks →
      (held.after id s.log).current = true)
    (h : addTasks tz js s = .ok s') : Turns tz id held s' := by
  have hall : s'.log = s.log ∧ s.existsTasks ⊆ s'.existsTasks ∧ Turns tz id held s' := by
    refine addTasks_invariant (P := fun t => t.log = s.log ∧ s.existsTasks ⊆ t.existsTasks ∧
      Turns tz id held t) h ⟨rfl, Finset.Subset.refl _, hi⟩ ?_
    rintro j hj task t hnew hfresh ⟨hlog, hsub, ht⟩
    refine ⟨hlog, hsub.trans (Finset.subset_insert _ _), ?_⟩
    refine importTask_turns ht hperiod hnew hfresh (fun hid => hlog ▸ hserves j hj hid) fun hid => ?_
    have hsame : task.id = id := Except.ok.inj ((newTask_spec hnew).1.symm.trans hid)
    rw [hlog]
    exact hkept ⟨j, hj, hid⟩ fun hmem => hfresh (hsub (hsame ▸ hmem))
  exact hall.2.2

/-! ### The task on top -/

/-- The task of `id` as `run_next` has it in its hands. -/
structure Taken (tz : Int) (held p : Panel) (times : List Int) (now : Int) (task : ServerTask) :
    Prop where
  fits : Fits held task
  turn : (task.status = .waiting ∧ Ready held times task.counter task.executeDate ∧
      p.ShowsReady tz held times) ∨
    (task.status = .working ∧ held.counter + times.length ≤ task.counter + 1 ∧
      (∀ f ∈ times.getLast?, f + 30 ≤ now) ∧ p.ShowsRunning held times)

theorem Phase.taken {times : List Int} {p : Panel} {known : Prop} {l : List ServerTask}
    (h : Phase tz held times p known (top :: l)) {now : Int} (hdue : top.executeDate ≤ now) :
    l = [] ∧ known ∧ Taken tz held p times now top := by
  cases h with
  | waiting hk hf hw hready hshows => exact ⟨rfl, hk, hf, .inl ⟨hw, hready, hshows⟩⟩
  | working hk hf hw hcount hlast hshows =>
    exact ⟨rfl, hk, hf, .inr ⟨hw, hcount, fun f hf => (hlast f hf).trans hdue, hshows⟩⟩

/-- A refresh that reads a current record. -/
theorem Taken.refresh {p : Panel} {times : List Int} {now : Int} {j : Json}
    (ht : Taken tz held p times now top) (hc : p.Continues held) (hperiod : held.period < 2 ^ 32)
    (hs : p.Shows j) (hcur : p.current = true) (h : syncFromApi tz (some j) top = .ok task) :
    Taken tz held p times now task := by
  obtain ⟨-, hst, hread⟩ := syncFromApi_spec h
  obtain ⟨hfits, hcounter, hdate⟩ := hread.fits hc hperiod hs
  refine ⟨hfits, ht.turn.imp ?_ ?_⟩
  · rintro ⟨hw, -, hshows⟩
    refine ⟨hst.trans hw, ?_, hshows⟩
    rw [hcounter, hdate]
    exact hshows hcur
  · rintro ⟨hw, -, hlast, hshows⟩
    refine ⟨hst.trans hw, ?_, hlast, hshows⟩
    rw [hcounter]
    exact hshows hcur

theorem refresh_taken (hi : Turns tz id held s) (hperiod : held.period < 2 ^ 32)
    (htop : s.tasks[0]? = some top) (hid : top.id = id) (hdue : top.executeDate ≤ i.now)
    (hserves : ∀ j, i.task = some j → (held.after id s.log).Shows j)
    (hkept : needsSync i.now id s = true → i.task ≠ none → (held.after id s.log).current = true)
    (h : refresh tz i top s = .ok (task, s1)) :
    id ∈ s.existsTasks ∧ queued id (Heap.pop compareTask s.tasks) = [] ∧
      Taken tz held (held.after id s.log) (startTimes id s.log) i.now task := by
  obtain ⟨hnil, hknown, htaken⟩ :=
    (hi.phase.perm (queued_pop_self htop hid).symm).taken hdue
  refine ⟨hknown, hnil, ?_⟩
  rcases refresh_cases h with ⟨-, rfl, -⟩ | ⟨hneeds, hsync, -⟩
  · exact htaken
  · cases hreply : i.task with
    | none =>
      rw [hreply] at hsync
      cases hsync
      exact htaken
    | some j =>
      rw [hid] at hneeds
      rw [hreply] at hsync
      exact htaken.refresh hi.record hperiod (hserves j hreply)
        (hkept hneeds (by rw [hreply]; simp)) hsync

/-- The task stays on top of the queue. -/
theorem refreshed_turns (hi : Turns tz id held s) (hperiod : held.period < 2 ^ 32)
    (htop : s.tasks[0]? = some top) (hid : top.id = id) (hdue : top.executeDate ≤ i.now)
    (hserves : ∀ j, i.task = some j → (held.after id s.log).Shows j)
    (hkept : needsSync i.now id s = true → i.task ≠ none → (held.after id s.log).current = true)
    (h : refresh tz i top s = .ok (task, s1)) (hstay : i.now ≤ task.executeDate) :
    Turns tz id held s1 := by
  obtain ⟨hknown, hnil, htaken⟩ := refresh_taken hi hperiod htop hid hdue hserves hkept h
  rcases refresh_cases h with ⟨-, -, rfl⟩ | ⟨-, hsync, rfl⟩
  · exact hi
  · refine { hi with phase := ?_ }
    have hset := queued_set_self htop ((syncFromApi_same hsync).1.trans hid)
    rw [hnil] at hset
    refine Phase.perm ?_ hset
    rcases htaken.turn with ⟨hw, hready, hshows⟩ | ⟨hw, hcount, hlast, hshows⟩
    · exact .waiting hknown htaken.fits hw hready hshows
    · exact .working hknown htaken.fits hw hcount (fun f hf => (hlast f hf).trans hstay) hshows

/-! ### The task that is run -/

theorem finishState_existsTasks : (finishState task s).existsTasks =
    if task.repeats = 0 ∨ task.counter < task.repeats then s.existsTasks
    else s.existsTasks.erase task.id := by
  unfold finishState requeue
  split <;> rfl

theorem finishState_tasks : (finishState task s).tasks =
    if task.repeats = 0 ∨ task.counter < task.repeats then
      Heap.push compareTask s.tasks { task with status := .waiting }
    else s.tasks := by
  unfold finishState requeue
  split <;> rfl

/-- Running another task. -/
theorem RunTask.others (h : RunTask tz i task s s') (hne : task.id ≠ id)
    (hi : Turns tz id held s) : Turns tz id held s' := by
  cases h with
  | exhausted => exact hi
  | @started cmd gslist hleft hw hc =>
    have hlog : (push { task with status := .working, executeDate := i.later + 30 }
        (startState i { task with status := .working } cmd gslist s)).log =
        s.log ++ beforeEvents { task with status := .working } ++
          [.started { task with status := .working } cmd i.forked] := startState_log
    refine hi.of_same ?_ ?_ ?_ ?_
    · rw [hlog, startTimes_append, startTimes_append, startTimes_beforeEvents]
      simp [startTimes, startTime, hne]
    · rw [hlog, Panel.after_append, Panel.after_append, after_beforeEvents]
      rfl
    · simp [push]
    · have hpush : (queued id (Heap.push compareTask s.tasks { task with
          status := .working, executeDate := i.later + 30 })).Perm (queued id s.tasks) :=
        queued_push_ne hne
      simpa [push] using hpush
  | running hleft hw hl hp => exact hi.of_same rfl rfl Iff.rfl (queued_push_ne hne)
  | @completed cmd diff hleft hw hl hd hp =>
    refine hi.of_same ?_ ?_ ?_ ?_
    · rw [finishState_log, proceedState_log, startTimes_append, startTimes_completeEvents,
        List.append_nil]
    · rw [finishState_log, proceedState_log, Panel.after_append, after_completeEvents,
        see_of_ne hne]
    · rw [finishState_existsTasks, proceedState_existsTasks]
      split
      · exact Iff.rfl
      · rw [Finset.mem_erase]
        exact and_iff_right (Ne.symm hne)
    · rw [finishState_tasks, proceedState_tasks]
      split
      · exact queued_push_ne hne
      · exact List.Perm.refl _

/-- One more start. -/
theorem Ready.start {times : List Int} {counter : Nat} {date time : Int}
    (hready : Ready held times counter date) (htime : date < time)
    (hchain : times.IsChain fun (a b : Int) => a + held.period ≤ b) :
    (times ++ [time]).IsChain fun (a b : Int) => a + held.period ≤ b := by
  refine hchain.append (List.isChain_singleton _) ?_
  intro f hf b hb
  obtain rfl : time = b := by simpa using hb
  have := hready.2 f hf
  omega

/-- The task goes back into a queue that holds no other with its id. -/
theorem Phase.push {times : List Int} {p : Panel} {known : Prop} {ts : Array ServerTask}
    (h : Phase tz held times p known [task]) (hid : task.id = id) (hnil : queued id ts = []) :
    Phase tz held times p known (queued id (Heap.push compareTask ts task)) := by
  refine h.perm ?_
  have hpush : (queued id (Heap.push compareTask ts task)).Perm (task :: queued id ts) :=
    queued_push_self hid
  rwa [hnil] at hpush

theorem see_self {p : Panel} {body : TaskUpdate} {received : Bool} :
    p.see id (.synced id body received) =
      if received then
        { p with
          repeats := body.repeats
          counter := body.counter
          executeDate := body.executeDate
          current := true }
      else { p with current := false } := if_pos rfl

/-- The record after a completed command. -/
theorem see_synced {p : Panel} {body : TaskUpdate} {received : Bool} (hp : p.Continues held)
    (hrepeats : body.repeats = held.repeats % 2 ^ 16) (hcounter : body.counter < 2 ^ 32) :
    (p.see id (.synced id body received)).Continues held := by
  rw [see_self]
  split
  · have hsmall : body.repeats < 2 ^ 16 := hrepeats ▸ Nat.mod_lt _ (by decide)
    refine ⟨?_, ?_, hp.period, hcounter⟩
    · show body.repeats % 2 ^ 16 = _
      rw [hrepeats, Nat.mod_mod]
    · show body.repeats < 2 ^ 32
      exact hsmall.trans (by decide)
  · exact ⟨hp.repeats, hp.small, hp.period, hp.counter⟩

theorem see_synced_ready {p : Panel} {body : TaskUpdate} {received : Bool} {times : List Int}
    (hready : received = true →
      Ready held times body.counter (humanToTimestamp tz body.executeDate)) :
    (p.see id (.synced id body received)).ShowsReady tz held times := by
  rw [see_self]
  split
  · next hr => exact fun _ => hready hr
  · exact fun hcur => absurd hcur (by simp)

/-- A waiting task is started. -/
theorem start_turns {cmd : GameServerCmd} {gslist : GameServersList} (hi : Counted id held s)
    (hid : task.id = id) (hknown : id ∈ s.existsTasks) (hnil : queued id s.tasks = [])
    (hfits : Fits held task) (hleft : task.counter < held.repeats % 2 ^ 16)
    (hready : Ready held (startTimes id s.log) task.counter task.executeDate)
    (hshows : (held.after id s.log).ShowsReady tz held (startTimes id s.log))
    (hdue : task.executeDate < i.forked) (hlater : i.forked ≤ i.later) :
    Turns tz id held (push { task with status := .working, executeDate := i.later + 30 }
      (startState i { task with status := .working } cmd gslist s)) := by
  have hlog : (push { task with status := .working, executeDate := i.later + 30 }
      (startState i { task with status := .working } cmd gslist s)).log =
      s.log ++ beforeEvents { task with status := .working } ++
        [.started { task with status := .working } cmd i.forked] := startState_log
  have htimes : startTimes id (s.log ++ beforeEvents { task with status := .working } ++
      [.started { task with status := .working } cmd i.forked]) =
      startTimes id s.log ++ [i.forked] := by
    rw [startTimes_append, startTimes_append, startTimes_beforeEvents]
    simp [startTimes, startTime, hid]
  have hafter : held.after id (s.log ++ beforeEvents { task with status := .working } ++
      [.started { task with status := .working } cmd i.forked]) = held.after id s.log := by
    rw [Panel.after_append, Panel.after_append, after_beforeEvents]
    rfl
  have hlength : (startTimes id s.log ++ [i.forked]).length = (startTimes id s.log).length + 1 :=
    List.length_append
  have hcount := hready.1
  refine ⟨⟨?_, ?_, ?_⟩, ?_⟩
  · rw [hlog, hafter]
    exact hi.record
  · rw [hlog, htimes]
    exact .inr (by omega)
  · rw [hlog, htimes]
    exact hready.start hdue hi.apart
  · rw [hlog, htimes, hafter]
    have hphase : Phase tz held (startTimes id s.log ++ [i.forked]) (held.after id s.log)
        (id ∈ s.existsTasks) [{ task with status := .working, executeDate := i.later + 30 }] := by
      refine .working hknown ⟨hfits.1, hfits.2, hfits.3⟩ rfl ?_ ?_ ?_
      · show _ ≤ task.counter + 1
        omega
      · intro f hf
        obtain rfl : i.forked = f := by simpa using hf
        exact Int.add_le_add_right hlater 30
      · intro hcur
        have := (hshows hcur).1
        omega
    simpa [push] using hphase.push hid hnil

theorem completedTask_counter {poll : Poll} (hleft : task.counter < held.repeats % 2 ^ 16) :
    (completedTask i poll task).counter = task.counter + 1 := by
  have hmod : held.repeats % 2 ^ 16 < 2 ^ 16 := Nat.mod_lt _ (by decide)
  exact Nat.mod_eq_of_lt (by omega)

theorem completedTask_executeDate {poll : Poll} (hfits : Fits held task) :
    (completedTask i poll task).executeDate = i.finished + held.period := by
  rw [← hfits.period]
  rfl

theorem completed_ready {poll : Poll} (hfits : Fits held task)
    (hleft : task.counter < held.repeats % 2 ^ 16)
    (hcount : held.counter + (startTimes id s.log).length ≤ task.counter + 1)
    (hlast : ∀ f ∈ (startTimes id s.log).getLast?, f + 30 ≤ i.finished) :
    Ready held (startTimes id s.log) (completedTask i poll task).counter
      (completedTask i poll task).executeDate := by
  rw [completedTask_counter hleft, completedTask_executeDate hfits]
  refine ⟨hcount, fun f hf => ?_⟩
  have := hlast f hf
  omega

/-- What the panel shows of a completed task, if it has received its record. -/
theorem completed_shows {poll : Poll} {diff : Int} (hfits : Fits held task)
    (hready : Ready held (startTimes id s.log) (completedTask i poll task).counter
      (completedTask i poll task).executeDate)
    (hlast : ∀ f ∈ (startTimes id s.log).getLast?, f + 30 ≤ i.finished)
    (hback : i.received = true → ReadsBack tz diff (i.finished + held.period)) :
    ((held.after id s.log).see id
      (.synced id (taskUpdate diff (completedTask i poll task)) i.received)).ShowsReady tz held
        (startTimes id s.log) := by
  refine see_synced_ready fun hr => ⟨hready.1, fun f hf => ?_⟩
  have hb : i.finished + held.period ≤ humanToTimestamp tz (formatTime
      (i.finished + held.period - diff)) + 31 := hback hr
  have := hlast f hf
  simp only [taskUpdate, completedTask_executeDate hfits]
  omega

/-- A command is completed. -/
theorem complete_turns {cmd : GameServerCmd} {poll : Poll} {diff : Int} (hi : Counted id held s)
    (hid : task.id = id) (hknown : id ∈ s.existsTasks) (hnil : queued id s.tasks = [])
    (hfits : Fits held task) (hleft : task.counter < held.repeats % 2 ^ 16)
    (hcount : held.counter + (startTimes id s.log).length ≤ task.counter + 1)
    (hlast : ∀ f ∈ (startTimes id s.log).getLast?, f + 30 ≤ i.finished)
    (hback : i.received = true → ReadsBack tz diff (i.finished + held.period)) :
    Turns tz id held (finishState (completedTask i poll task)
      (proceedState i poll diff task cmd s)) := by
  have hcounter : (completedTask i poll task).counter < 2 ^ 32 := by
    have hmod : held.repeats % 2 ^ 16 < 2 ^ 16 := Nat.mod_lt _ (by decide)
    rw [completedTask_counter hleft]
    omega
  have htimes : startTimes id (s.log ++ completeEvents i poll diff task cmd) =
      startTimes id s.log := by
    rw [startTimes_append, startTimes_completeEvents, List.append_nil]
  have hafter : held.after id (s.log ++ completeEvents i poll diff task cmd) =
      (held.after id s.log).see id
        (.synced id (taskUpdate diff (completedTask i poll task)) i.received) := by
    rw [Panel.after_append, after_completeEvents, hid]
  have hready : Ready held (startTimes id s.log) (completedTask i poll task).counter
      (completedTask i poll task).executeDate := completed_ready hfits hleft hcount hlast
  have hshows := completed_shows hfits hready hlast hback
  refine ⟨⟨?_, ?_, ?_⟩, ?_⟩
  · rw [finishState_log, proceedState_log, hafter]
    exact see_synced hi.record hfits.repeats hcounter
  · rw [finishState_log, proceedState_log, htimes]
    exact hi.bound
  · rw [finishState_log, proceedState_log, htimes]
    exact hi.apart
  · rw [finishState_log, proceedState_log, htimes, hafter, finishState_tasks,
      finishState_existsTasks, proceedState_tasks, proceedState_existsTasks]
    split
    · have hput : Fits held { completedTask i poll task with status := .waiting } :=
        ⟨hfits.1, hfits.2, hcounter⟩
      exact Phase.push (.waiting hknown hput rfl hready hshows) hid hnil
    · rw [hnil]
      refine .away ?_ hshows
      rw [show (completedTask i poll task).id = id from hid]
      exact Finset.notMem_erase _ _

/-- Running the task itself. -/
theorem RunTask.self (h : RunTask tz i task s s') (hi : Counted id held s) (hid : task.id = id)
    (hknown : id ∈ s.existsTasks) (hnil : queued id s.tasks = [])
    (htaken : Taken tz held (held.after id s.log) (startTimes id s.log) i.now task)
    (hpos : held.repeats % 2 ^ 16 ≠ 0) (hord : i.Ordered) (hdue : task.executeDate < i.now)
    (hback : task.status = .working →
      (i.poll.withPid (s.cmdProcesses.lookup id)).cmdCompleted = true →
      i.received = true → ∀ diff, i.timediff = some diff →
      ReadsBack tz diff (i.finished + held.period)) : Turns tz id held s' := by
  obtain ⟨hfork, hlater, hfin, -⟩ := hord
  obtain ⟨hfits, hturn⟩ := htaken
  have hleft : task.repeats = 0 ∨ task.counter < task.repeats →
      task.counter < held.repeats % 2 ^ 16 := fun hleft => by
    rw [← hfits.repeats] at hpos ⊢
    exact hleft.resolve_left hpos
  rcases hturn with ⟨hwait, hready, hshows⟩ | ⟨hwork, hcount, hlast, hshows⟩
  · cases h with
    | exhausted => exact ⟨hi, by rw [hnil]; exact .dropped hknown⟩
    | started hmore _ hc =>
      exact start_turns hi hid hknown hnil hfits (hleft hmore) hready hshows
        (hdue.trans_le hfork) hlater
    | running _ hw _ _ => rw [hwait] at hw; cases hw
    | completed _ hw _ _ _ => rw [hwait] at hw; cases hw
  · cases h with
    | exhausted => exact ⟨hi, by rw [hnil]; exact .dropped hknown⟩
    | started _ hw _ => rw [hwork] at hw; cases hw
    | running hmore _ hl hp =>
      have hphase : Phase tz held (startTimes id s.log) (held.after id s.log)
          (id ∈ s.existsTasks) [{ task with executeDate := i.later + 30 }] := by
        refine .working hknown ⟨hfits.1, hfits.2, hfits.3⟩ hwork hcount ?_ hshows
        intro f hf
        have : f + 30 ≤ i.now := hlast f hf
        show f + 30 ≤ i.later + 30
        omega
      exact ⟨⟨hi.record, hi.bound, hi.apart⟩, hphase.push hid hnil⟩
    | completed hmore _ hl hd hp =>
      rw [hid] at hp
      refine complete_turns hi hid hknown hnil hfits (hleft hmore) hcount ?_ fun hr =>
        hback hwork hp hr _ hd
      exact fun f hf => (hlast f hf).trans hfin

theorem Counted.of_log (hi : Counted id held s) (hlog : s'.log = s.log) : Counted id held s' where
  record := hlog ▸ hi.record
  bound := hlog ▸ hi.bound
  apart := hlog ▸ hi.apart

/-- A `run_next` with another task on top. -/
theorem runNext_others (hi : Turns tz id held s) (hp : Pending s) (htop : s.tasks[0]? = some top)
    (hne : top.id ≠ id) (h : runNext tz i s = .ok s') : Turns tz id held s' := by
  obtain ⟨top', task, s1, htop', hr, hcase⟩ := runNext_run hp h
  obtain rfl : top = top' := Option.some.inj (htop.symm.trans htop')
  obtain ⟨hid, -, hlog, -, hknown, -, -, hpop⟩ := refresh_frame hr
  rw [← hid] at hne
  rcases hcase with ⟨-, rfl⟩ | ⟨-, hrun⟩
  · refine hi.of_same (by rw [hlog]) (by rw [hlog]) (by rw [hknown]) ?_
    rcases refresh_cases hr with ⟨-, -, rfl⟩ | ⟨-, -, rfl⟩
    · exact List.Perm.refl _
    · exact queued_set_ne htop hne (hid ▸ hne)
  · refine hrun.others hne (hi.of_same ?_ ?_ ?_ ?_)
    · exact congrArg _ hlog
    · exact congrArg _ hlog
    · show id ∈ s1.existsTasks ↔ _
      rw [hknown]
    · show (queued id (Heap.pop compareTask s1.tasks)).Perm _
      rw [hpop]
      exact (queued_pop_ne htop (hid ▸ hne)).symm

/-- A `run_next` with the task itself on top. -/
theorem runNext_self {clock asked : Int} (hi : Turns tz id held s) (hp : Pending s)
    (hperiod : held.period < 2 ^ 32) (hpos : held.repeats % 2 ^ 16 ≠ 0)
    (htop : s.tasks[0]? = some top) (hid : top.id = id)
    (hasked : empty asked s = false) (hnow : asked ≤ i.now) (hord : i.Ordered)
    (hserves : Serves id held ⟨s, clock⟩ (.runNext asked i))
    (hkept : Kept tz id held ⟨s, clock⟩ (.runNext asked i)) (h : runNext tz i s = .ok s') :
    Turns tz id held s' := by
  obtain ⟨hcur, hback⟩ := hkept top htop hid
  have hshown : ∀ j, i.task = some j → (held.after id s.log).Shows j := fun j =>
    hserves top j htop hid
  have hdue : top.executeDate ≤ i.now := by
    unfold empty at hasked
    rw [htop] at hasked
    exact (not_lt.mp (of_decide_eq_false hasked)).trans hnow
  obtain ⟨top', task, s1, htop', hr, hcase⟩ := runNext_run hp h
  obtain rfl : top = top' := Option.some.inj (htop.symm.trans htop')
  rcases hcase with ⟨hstay, rfl⟩ | ⟨hlate, hrun⟩
  · exact refreshed_turns hi hperiod htop hid hdue hshown hcur hr hstay
  · obtain ⟨htask, hstatus, hlog, -, hknown, -, hproc, hpop⟩ := refresh_frame hr
    obtain ⟨hmem, hnil, htaken⟩ := refresh_taken hi hperiod htop hid hdue hshown hcur hr
    refine hrun.self (hi.toCounted.of_log hlog) (htask.trans hid) ?_ ?_ ?_ hpos hord hlate ?_
    · show id ∈ s1.existsTasks
      rwa [hknown]
    · show queued id (Heap.pop compareTask s1.tasks) = []
      rwa [hpop]
    · show Taken tz held (held.after id s1.log) (startTimes id s1.log) i.now task
      rwa [hlog]
    · show _ → (i.poll.withPid (s1.cmdProcesses.lookup id)).cmdCompleted = true → _
      rwa [hproc, hstatus]

theorem step_turns {t u : Timed} {o : Op} (hi : Turns tz id held t.tasks) (hp : Pending t.tasks)
    (hperiod : held.period < 2 ^ 32) (hpos : held.repeats % 2 ^ 16 ≠ 0)
    (hserves : Serves id held t o) (hkept : Kept tz id held t o) (h : Step tz t o u) :
    Turns tz id held u.tasks := by
  cases h with
  | @update s s' clock reply hu =>
    cases reply with
    | none => cases hu; exact hi
    | some jvalue => exact addTasks_turns hi hperiod (hserves jvalue rfl) (hkept jvalue rfl) hu
  | @runNext s s' clock asked i hclock hasked hnow hord hrun =>
    obtain ⟨top, task, s1, htop, -⟩ := runNext_cases hrun
    by_cases hid : top.id = id
    · exact runNext_self hi hp hperiod hpos htop hid hasked hnow hord hserves hkept hrun
    · exact runNext_others hi hp htop hid hrun

theorem init_turns {gslist : GameServersList} (hrepeats : held.repeats < 2 ^ 32)
    (hcounter : held.counter < 2 ^ 32) : Turns tz id held (init gslist) where
  record := ⟨rfl, hrepeats, rfl, hcounter⟩
  bound := .inl rfl
  apart := List.isChain_nil
  phase := .away (by simp [init]) fun _ => ⟨Nat.le_refl _, fun f hf => by cases hf⟩

/-- **How often a task is started.** The panel holds the task `id` with a repeat, a counter and a
period; in every run against it whose steps are all `Kept`, the task is started at most as often
as the counter falls short of the repeat, and each time a period after the last. -/
theorem spaced_of_run {gslist : GameServersList} {clock : Int} {t : Timed}
    (hrepeats : held.repeats < 2 ^ 32) (hpos : held.repeats % 2 ^ 16 ≠ 0)
    (hperiod : held.period < 2 ^ 32) (hcounter : held.counter ≤ held.repeats)
    (h : Run (Step tz) (fun t o => Serves id held t o ∧ Kept tz id held t o)
      ⟨init gslist, clock⟩ t) :
    Spaced (held.repeats - held.counter) held.period (startTimes id t.tasks.log) := by
  have hinv : Turns tz id held t.tasks ∧ Pending t.tasks :=
    h.invariant (I := fun t => Turns tz id held t.tasks ∧ Pending t.tasks)
      ⟨init_turns hrepeats (hcounter.trans_lt hrepeats), fun t ht => by simp [init] at ht⟩
      fun t o u hi hok hs =>
        ⟨step_turns hi.1 hi.2 hperiod hpos hok.1 hok.2 hs, step_pending hi.2 hs⟩
  refine ⟨?_, hinv.1.apart⟩
  rcases hinv.1.bound with hnone | hbound
  · rw [hnone]
    exact Nat.zero_le _
  · have := Nat.mod_le held.repeats (2 ^ 16)
    omega

end Steps

/-! ## Runs -/

/-- A task for server 1 that the panel holds with the period of a minute. -/
def heldTask (repeats counter : Nat) : Panel :=
  { repeats, counter, period := 60, executeDate := "1970-01-01 00:00:10", current := true }

/-- The panel's entry of that task, with the id 1. -/
def heldEntry (repeats counter : Nat) : Json :=
  .obj [("command", .str "restart"), ("counter", .int counter),
    ("execute_date", .str "1970-01-01 00:00:10"), ("id", .int 1), ("payload", .null),
    ("repeat", .int repeats), ("repeat_period", .int 60), ("server_id", .int 1)]

theorem heldTask_shows (repeats counter : Nat) :
    (heldTask repeats counter).Shows (heldEntry repeats counter) :=
  ⟨rfl, rfl, rfl, rfl⟩

/-- The import of the task, and the `run_next` that starts it, are served. -/
theorem serves_heldEntry (repeats counter : Nat) :
    Serves 1 (heldTask repeats counter) ⟨init (GameServersList.plainList [1]), 0⟩
        (.update (some (.arr [heldEntry repeats counter]))) ∧
      ∀ t, Serves 1 (heldTask repeats counter) t (.runNext 100 (plainRun 100 runningPoll)) := by
  constructor
  · rintro jvalue hj j hmem -
    cases hj
    obtain rfl := List.mem_singleton.mp hmem
    exact heldTask_shows repeats counter
  · intro t top j _ _ hj
    cases hj

def succeededPoll : Poll := { child := .success, complete := true, result := true, output := "" }

/-- The command of the task has succeeded. -/
def completedState : ServersTasks :=
  resultD (startedState [heldEntry 2 0])
    (runNext 0 (plainRun 200 succeededPoll) (startedState [heldEntry 2 0]))

/-- It has been started again. -/
def restartedState : ServersTasks :=
  resultD completedState (runNext 0 (plainRun 300 runningPoll) completedState)

example : startTimes 1 restartedState.log = [100, 300] := by decide

/-- A run that reads the task once, when it imports it. -/
theorem kept_plainRun {t : Timed} {asked now : Int} {poll : Poll} {held : Panel}
    (hdone : ∀ top, t.tasks.tasks[0]? = some top → top.status = .working →
      ReadsBack 0 0 (now + held.period)) :
    Serves 1 held t (.runNext asked (plainRun now poll)) ∧
      Kept 0 1 held t (.runNext asked (plainRun now poll)) := by
  constructor
  · intro top j _ _ hj
    cases hj
  · refine fun top htop _ => ⟨fun _ hne => absurd rfl hne, fun hwork _ _ diff hdiff => ?_⟩
    cases hdiff
    exact hdone top htop hwork

theorem not_working {t : Timed} {held : Panel} {now : Int}
    (hw : t.tasks.tasks[0]?.map (·.status) = some .waiting) : ∀ top,
      t.tasks.tasks[0]? = some top → top.status = .working →
        ReadsBack 0 0 (now + held.period) := by
  intro top htop hwork
  rw [htop, Option.map_some, hwork] at hw
  cases hw

theorem spaced_of_run_twice : Spaced (2 - 0) 60 (startTimes 1 restartedState.log) := by
  obtain ⟨hserve, -⟩ := serves_heldEntry 2 0
  have hstarted : Run (Step 0) (fun t o => Serves 1 (heldTask 2 0) t o ∧ Kept 0 1 (heldTask 2 0) t o)
      ⟨init (GameServersList.plainList [1]), 0⟩ ⟨startedState [heldEntry 2 0], 100⟩ :=
    run_startedState (by decide) (by decide) (by decide)
      ⟨hserve, fun _ _ _ _ => rfl⟩ (kept_plainRun (not_working (by decide)))
  have hcompletes : Step 0 ⟨startedState [heldEntry 2 0], 100⟩
      (.runNext 200 (plainRun 200 succeededPoll)) ⟨completedState, 200⟩ :=
    .runNext (by decide) (by decide) (by decide) ⟨by decide, by decide, by decide, by decide⟩
      (eq_ok_resultD _ (by decide))
  have hrestarts : Step 0 ⟨completedState, 200⟩ (.runNext 300 (plainRun 300 runningPoll))
      ⟨restartedState, 300⟩ :=
    .runNext (by decide) (by decide) (by decide) ⟨by decide, by decide, by decide, by decide⟩
      (eq_ok_resultD _ (by decide))
  have hcompleted := hstarted.step (kept_plainRun fun _ _ _ =>
    (readsBack_iff (by decide) (by decide)).mpr (by decide)) hcompletes
  have hrestarted := hcompleted.step (kept_plainRun (not_working (by decide))) hrestarts
  exact @spaced_of_run 0 1 (heldTask 2 0) _ _ ⟨restartedState, 300⟩ (by decide) (by decide)
    (by decide) (by decide) hrestarted

/-- A repeat of 65536 is no repeat in 16 bits: the task is started though its counter has reached
it. -/
theorem not_spaced_repeat_65536 :
    ¬ ∀ (tz : Int) (id : Nat) (held : Panel) (gslist : GameServersList) (clock : Int) (t : Timed),
      0 < held.repeats → held.counter ≤ held.repeats → held.current = true →
      Run (Step tz) (Serves id held) ⟨init gslist, clock⟩ t →
      Spaced (held.repeats - held.counter) held.period (startTimes id t.tasks.log) := by
  intro h
  obtain ⟨hserve1, hserve2⟩ := serves_heldEntry 65536 65536
  have hspaced := h 0 1 (heldTask 65536 65536) (GameServersList.plainList [1]) 0
    ⟨startedState [heldEntry 65536 65536], 100⟩ (by decide) (by decide) rfl
    (run_startedState (by decide) (by decide) (by decide) hserve1 (hserve2 _))
  have hone : (startTimes 1 (startedState [heldEntry 65536 65536]).log).length = 1 := by decide
  have := hspaced.few
  simp only [heldTask, hone] at this
  omega

end ServersTasks

end GameAP
