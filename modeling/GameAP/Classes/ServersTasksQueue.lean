import GameAP.Classes.ServersTasksSteps

/-!
# Due tasks and the top of the queue

`empty` looks only at the task on top of the heap. The heap puts every waiting task above every
working one, whatever their dates, so a working task is hidden until the waiting ones are due:
`Covered` says that this hides no task. A step can break it, and so can a refresh, which changes
the date of the task on top without moving it. `StepOk` excludes both, and
`empty_of_run`: in a run of such steps `empty` is true only when no queued task is due.
-/

namespace GameAP

open Lib

namespace ServersTasks

/-! ## The order of the heap -/

theorem compareTask_eq_false {t1 t2 : ServerTask} :
    compareTask t1 t2 = false ↔
      t1.status.toNat ≤ t2.status.toNat ∧
        (t1.status = t2.status → t1.executeDate ≤ t2.executeDate) := by
  unfold compareTask
  by_cases h : t1.status = t2.status
  · simp [h]
  · simp [h]

theorem toNat_inj {a b : ServerTask.Status} (h : a.toNat = b.toNat) : a = b := by
  revert h
  cases a <;> cases b <;> decide

theorem compareTask_strictWeak : Heap.StrictWeak compareTask where
  asymm := by
    intro x y h
    rw [compareTask_eq_false]
    by_contra hn
    have hxy : compareTask x y = false := by
      rw [compareTask_eq_false]
      unfold compareTask at h
      split at h
      · next he => simp only [he, decide_eq_true_eq] at h hn ⊢; omega
      · next he =>
        simp only [decide_eq_true_eq] at h
        exact absurd ⟨by omega, fun e => absurd e.symm he⟩ hn
    rw [h] at hxy
    cases hxy
  negTrans := by
    intro x y z h1 h2
    rw [compareTask_eq_false] at h1 h2 ⊢
    refine ⟨h1.1.trans h2.1, fun hxz => ?_⟩
    have hy : x.status = y.status := by
      refine toNat_inj (le_antisymm h1.1 ?_)
      rw [hxz]
      exact h2.1
    exact (h1.2 hy).trans (h2.2 (hy.symm.trans hxz))

/-! ## Covered tasks -/

/-- The dates of the tasks in a status. -/
def dates (st : ServerTask.Status) (ts : List ServerTask) : List Int :=
  (ts.filter fun t => t.status = st).map (·.executeDate)

/-- Every working task has a waiting one that is dated no later, or is already due at `clock`;
or no task is waiting. -/
def Covered (working waiting : List Int) (clock : Int) : Prop :=
  waiting = [] ∨ ∀ w ∈ working, ∃ x ∈ waiting, x ≤ max clock w

theorem Covered.mono {working waiting : List Int} {c c' : Int} (h : Covered working waiting c)
    (hc : c ≤ c') : Covered working waiting c' := by
  rcases h with h | h
  · exact .inl h
  · refine .inr fun w hw => ?_
    obtain ⟨x, hx, hle⟩ := h w hw
    exact ⟨x, hx, hle.trans (max_le_max_right w hc)⟩

theorem Covered.perm {working waiting working' waiting' : List Int} {c : Int}
    (h : Covered working waiting c) (h1 : working'.Perm working) (h2 : waiting'.Perm waiting) :
    Covered working' waiting' c := by
  rcases h with h | h
  · exact .inl (h ▸ h2).eq_nil
  · refine .inr fun w hw => ?_
    obtain ⟨x, hx, hle⟩ := h w (h1.mem_iff.mp hw)
    exact ⟨x, h2.mem_iff.mpr hx, hle⟩

theorem mem_dates {st : ServerTask.Status} {ts : List ServerTask} {d : Int} :
    d ∈ dates st ts ↔ ∃ t ∈ ts, t.status = st ∧ t.executeDate = d := by
  simp [dates, and_assoc]

theorem dates_perm {st : ServerTask.Status} {ts us : List ServerTask} (h : ts.Perm us) :
    (dates st ts).Perm (dates st us) := (h.filter _).map _

/-- A heap of tasks that are not completed. -/
structure QueueShape (s : ServersTasks) : Prop where
  heap : Heap.IsHeap compareTask s.tasks
  status : Pending s

/-- What the queue keeps. -/
structure QueueInv (clock : Int) (s : ServersTasks) : Prop extends QueueShape s where
  covered : Covered (dates .working s.tasks.toList) (dates .waiting s.tasks.toList) clock

variable {s s' : ServersTasks} {clock : Int} {top : ServerTask}

/-- If all waiting tasks are later than `now`, so are those the top covers. -/
theorem QueueInv.no_due (h : QueueInv clock s) {now : Int} (hnow : clock ≤ now)
    (he : empty now s = true) : ∀ t ∈ s.tasks, now < t.executeDate := by
  intro t ht
  unfold empty at he
  split at he
  · next hnone =>
    obtain ⟨k, hk, -⟩ := Array.mem_iff_getElem.mp ht
    rw [Array.getElem?_eq_none_iff] at hnone
    omega
  · next top htop =>
    have hlate : now < top.executeDate := of_decide_eq_true he
    have hle : ∀ x ∈ s.tasks, compareTask top x = false := fun x hx =>
      h.heap.top compareTask_strictWeak htop hx
    obtain ⟨hst, hdate⟩ := compareTask_eq_false.mp (hle t ht)
    by_cases hsame : top.status = t.status
    · exact lt_of_lt_of_le hlate (hdate hsame)
    · have htopmem : top ∈ s.tasks := Array.mem_of_getElem? htop
      have hws : top.status = .waiting ∧ t.status = .working := by
        rcases h.status top htopmem with h1 | h1 <;> rcases h.status t ht with h2 | h2
        · exact absurd (h1.trans h2.symm) hsame
        · exact ⟨h1, h2⟩
        · rw [h1, h2] at hst; exact absurd hst (by decide)
        · exact absurd (h1.trans h2.symm) hsame
      have hcov := h.covered
      have htd : top.executeDate ∈ dates .waiting s.tasks.toList :=
        mem_dates.mpr ⟨top, Array.mem_toList_iff.mpr htopmem, hws.1, rfl⟩
      rcases hcov with hnil | hcov
      · rw [hnil] at htd; cases htd
      · obtain ⟨x, hx, hxle⟩ :=
          hcov t.executeDate (mem_dates.mpr ⟨t, Array.mem_toList_iff.mpr ht, hws.2, rfl⟩)
        obtain ⟨y, hy, hyw, rfl⟩ := mem_dates.mp hx
        have hty := (compareTask_eq_false.mp (hle y (Array.mem_toList_iff.mp hy))).2
          (hws.1.trans hyw.symm)
        omega

/-- **A hidden task is due at some time.** What the queue keeps cannot be weakened. -/
theorem covered_of_no_due (hheap : Heap.IsHeap compareTask s.tasks)
    (h : ∀ now, clock ≤ now → empty now s = true → ∀ t ∈ s.tasks, now < t.executeDate) :
    Covered (dates .working s.tasks.toList) (dates .waiting s.tasks.toList) clock := by
  by_contra hn
  obtain ⟨hne, hn⟩ := not_or.mp hn
  push Not at hn
  obtain ⟨w, hw, hlate⟩ := hn
  obtain ⟨t, ht, -, rfl⟩ := mem_dates.mp hw
  obtain ⟨d, hd⟩ := List.exists_mem_of_ne_nil _ hne
  obtain ⟨x, hx, hxw, rfl⟩ := mem_dates.mp hd
  have hempty : empty (max clock t.executeDate) s = true := by
    unfold empty
    split
    · rfl
    · next top htop =>
      have hbelow := hheap.top compareTask_strictWeak htop (Array.mem_toList_iff.mp hx)
      obtain ⟨hst, hdate⟩ := compareTask_eq_false.mp hbelow
      have htw : top.status = .waiting := by
        rw [hxw] at hst
        exact toNat_inj (Nat.le_zero.mp hst)
      refine decide_eq_true (hlate _ (mem_dates.mpr ⟨top, ?_, htw, rfl⟩))
      exact Array.mem_toList_iff.mpr (Array.mem_of_getElem? htop)
  have := h _ (le_max_left _ _) hempty t (Array.mem_toList_iff.mp ht)
  exact absurd this (not_lt.mpr (le_max_right _ _))

/-! ## Steps that hide no task -/

/-- The tasks that a list of the panel adds to those with the given ids. -/
def newTasks (tz : Int) : List Json → Finset Nat → List ServerTask
  | [], _ => []
  | jtask :: rest, ids =>
    match newTask tz jtask with
    | .error _ => newTasks tz rest ids
    | .ok task =>
      if task.id ∈ ids then newTasks tz rest ids
      else task :: newTasks tz rest (insert task.id ids)

/-- The condition under which a `run_next` at the top `top`, which the refresh makes into `task`,
leaves every due task in sight; `poll` is what it finds of the command, and `rest` are the other
tasks of the queue. -/
structure RunOk (i : RunInput) (poll : Poll) (top task : ServerTask) (rest : List ServerTask) :
    Prop where
  /-- a task that stays on top is not postponed past another one -/
  inPlace : i.now ≤ task.executeDate → top.executeDate < task.executeDate →
    ∀ x ∈ rest, task.executeDate ≤ x.executeDate
  /-- a used-up task was not the only one to cover a working one -/
  dropped : task.executeDate < i.now → Exhausted task → task.status = .waiting →
    Covered (dates .working rest) (dates .waiting rest) i.later
  /-- nor was a task that is started, and that now counts as working itself -/
  started : task.executeDate < i.now → ¬ Exhausted task → task.status = .waiting →
    Covered ((i.later + 30) :: dates .working rest) (dates .waiting rest) i.later
  /-- the next turn of a completed task is not later than another working task -/
  completed : task.executeDate < i.now → ¬ Exhausted task → task.status = .working →
    poll.cmdCompleted = true → task.repeats = 0 ∨ (task.counter + 1) % 2 ^ 32 < task.repeats →
    Covered (dates .working rest) [i.finished + task.repeatPeriod] i.later

def StepOk (tz : Int) (t : Timed) : Op → Prop
  | .update none => True
  | .update (some jvalue) =>
    Covered (dates .working t.tasks.tasks.toList)
      (dates .waiting t.tasks.tasks.toList ++
        (newTasks tz jvalue.elems t.tasks.existsTasks).map (·.executeDate)) t.clock
  | .runNext _ i => ∀ top task s1, t.tasks.tasks[0]? = some top →
      refresh tz i top t.tasks = .ok (task, s1) →
      RunOk i (i.poll.withPid (t.tasks.cmdProcesses.lookup task.id)) top task
        (Heap.pop compareTask t.tasks.tasks).toList

/-- A lone task hides no other. -/
theorem runOk_alone (i : RunInput) (poll : Poll) (top task : ServerTask) :
    RunOk i poll top task [] where
  inPlace := fun _ _ x hx => by cases hx
  dropped := fun _ _ _ => .inl rfl
  started := fun _ _ _ => .inl rfl
  completed := fun _ _ _ _ _ => .inr fun w hw => by cases hw

/-! ## What a step keeps -/

variable {tz : Int} {i : RunInput} {task : ServerTask}

theorem addTasks_perm {js : List Json} (h : addTasks tz js s = .ok s') :
    s'.tasks.toList.Perm (newTasks tz js s.existsTasks ++ s.tasks.toList) := by
  induction js generalizing s with
  | nil => cases h; exact .refl _
  | cons jtask rest ih =>
    unfold addTasks at h
    unfold newTasks
    obtain ⟨id, hid, h⟩ := ok_of_bind h
    split at h
    · next hmem =>
      have hskip : newTasks tz (jtask :: rest) s.existsTasks = newTasks tz rest s.existsTasks := by
        rw [newTasks]
        cases ht : newTask tz jtask with
        | error e => rfl
        | ok task =>
          have hsame : id = task.id := Except.ok.inj (hid.symm.trans (newTask_spec ht).1)
          simp only [← hsame, hmem, if_true]
      rw [newTasks] at hskip
      rw [hskip]
      exact ih h
    · next hnew =>
      obtain ⟨task, ht, h⟩ := ok_of_bind h
      have hsame : id = task.id := Except.ok.inj (hid.symm.trans (newTask_spec ht).1)
      subst hsame
      simp only [ht, if_neg hnew]
      apply (ih h).trans
      apply ((Heap.push_perm s.tasks task).append_left _).trans
      exact List.perm_middle

theorem newTasks_waiting {js : List Json} {ids : Finset Nat} :
    ∀ t ∈ newTasks tz js ids, t.status = .waiting := by
  induction js generalizing ids with
  | nil => intro t ht; cases ht
  | cons jtask rest ih =>
    intro t ht
    unfold newTasks at ht
    split at ht
    · exact ih t ht
    · next task hn =>
      split at ht
      · exact ih t ht
      · rcases List.mem_cons.mp ht with rfl | ht
        · exact (newTask_spec hn).2.1
        · exact ih t ht

theorem dates_append (st : ServerTask.Status) (ts us : List ServerTask) :
    dates st (ts ++ us) = dates st ts ++ dates st us := by
  simp [dates]

theorem dates_of_all {st : ServerTask.Status} {ts : List ServerTask}
    (h : ∀ t ∈ ts, t.status = st) : dates st ts = ts.map (·.executeDate) := by
  unfold dates
  rw [List.filter_eq_self.mpr fun t ht => decide_eq_true (h t ht)]

theorem dates_of_none {st : ServerTask.Status} {ts : List ServerTask}
    (h : ∀ t ∈ ts, t.status ≠ st) : dates st ts = [] := by
  unfold dates
  rw [List.filter_eq_nil_iff.mpr fun t ht => by simpa using h t ht, List.map_nil]

theorem dates_cons (st : ServerTask.Status) (t : ServerTask) (ts : List ServerTask) :
    dates st (t :: ts) = if t.status = st then t.executeDate :: dates st ts else dates st ts := by
  unfold dates
  rw [List.filter_cons]
  split <;> simp_all

theorem QueueInv.of_tasks {u : ServersTasks} (h : QueueInv clock s) (hu : u.tasks = s.tasks) :
    QueueInv clock u := by
  obtain ⟨⟨h1, h2⟩, h3⟩ := h
  unfold Pending at h2
  rw [← hu] at h1 h2 h3
  exact ⟨⟨h1, h2⟩, h3⟩

theorem QueueInv.mono {c : Int} (h : QueueInv clock s) (hc : clock ≤ c) : QueueInv c s :=
  { h with covered := h.covered.mono hc }

theorem addTasks_queueInv {js : List Json} (h : addTasks tz js s = .ok s')
    (hi : QueueInv clock s)
    (hok : Covered (dates .working s.tasks.toList)
      (dates .waiting s.tasks.toList ++
        (newTasks tz js s.existsTasks).map (·.executeDate)) clock) : QueueInv clock s' := by
  have hperm := addTasks_perm h
  have hnew : ∀ t ∈ newTasks tz js s.existsTasks, t.status = .waiting := newTasks_waiting
  refine ⟨⟨?_, addTasks_pending hi.status h⟩, ?_⟩
  · refine addTasks_invariant (P := fun t => Heap.IsHeap compareTask t.tasks) h hi.heap
      fun _ _ task t _ _ hheap => ?_
    exact hheap.push compareTask_strictWeak task
  · refine hok.perm ((dates_perm hperm).trans ?_) ((dates_perm hperm).trans ?_)
    · rw [dates_append, dates_of_none fun t ht => by rw [hnew t ht]; decide]
      exact .refl _
    · rw [dates_append, dates_of_all hnew]
      exact List.perm_append_comm

/-- No other task comes before the one on top. -/
theorem rest_not_below (hi : QueueInv clock s) (htop : s.tasks[0]? = some top) :
    ∀ x ∈ (Heap.pop compareTask s.tasks).toList, compareTask top x = false := fun _ hx =>
  hi.heap.top compareTask_strictWeak htop (Heap.mem_of_mem_pop htop (Array.mem_toList_iff.mp hx))

/-- The other tasks when the one on top is working: none of them waits. -/
theorem rest_not_waiting (hi : QueueInv clock s) (htop : s.tasks[0]? = some top)
    (hw : top.status = .working) :
    ∀ t ∈ (Heap.pop compareTask s.tasks).toList, t.status ≠ .waiting := by
  intro t ht hwait
  have hle := (compareTask_eq_false.mp (rest_not_below hi htop t ht)).1
  rw [hw, hwait] at hle
  exact absurd hle (by decide)

/-- A waiting task with another date still covers the working ones. -/
theorem refreshed_covered (hi : QueueInv clock s) (htop : s.tasks[0]? = some top)
    (hst : task.status = top.status) (hw : top.status = .waiting)
    (hok : top.executeDate < task.executeDate →
      ∀ x ∈ (Heap.pop compareTask s.tasks).toList, task.executeDate ≤ x.executeDate) :
    Covered (dates .working (task :: (Heap.pop compareTask s.tasks).toList))
      (dates .waiting (task :: (Heap.pop compareTask s.tasks).toList)) clock := by
  have hold : (top :: (Heap.pop compareTask s.tasks).toList).Perm s.tasks.toList :=
    (Heap.pop_perm htop).symm
  have hcov := hi.covered.perm (dates_perm hold) (dates_perm hold)
  have hne : top.status ≠ .working := by rw [hw]; decide
  rw [dates_cons, dates_cons, if_neg hne, if_pos hw] at hcov
  rw [dates_cons, dates_cons, if_neg (hst ▸ hne), if_pos (hst.trans hw)]
  rcases hcov with h | h
  · cases h
  · refine .inr fun w hwork => ⟨_, List.mem_cons_self, ?_⟩
    by_cases hlt : top.executeDate < task.executeDate
    · obtain ⟨t, ht, -, rfl⟩ := mem_dates.mp hwork
      exact (hok hlt t ht).trans (le_max_right _ _)
    · obtain ⟨x, hx, hxle⟩ := h w hwork
      have htopx : top.executeDate ≤ x := by
        rcases List.mem_cons.mp hx with rfl | hx
        · exact le_refl _
        · obtain ⟨t, ht, htw, rfl⟩ := mem_dates.mp hx
          exact (compareTask_eq_false.mp (rest_not_below hi htop t ht)).2 (hw.trans htw.symm)
      exact (not_lt.mp hlt).trans (htopx.trans hxle)

/-- A refresh that leaves the task in the queue. -/
theorem refreshed_queueInv (hi : QueueInv clock s) (htop : s.tasks[0]? = some top)
    (hst : task.status = top.status)
    (hok : top.executeDate < task.executeDate →
      ∀ x ∈ (Heap.pop compareTask s.tasks).toList, task.executeDate ≤ x.executeDate) :
    QueueInv clock (refreshed i task s) := by
  have hrest := rest_not_below hi htop
  have hdate : ∀ x ∈ (Heap.pop compareTask s.tasks).toList, x.status = task.status →
      task.executeDate ≤ x.executeDate := by
    intro x hx hxs
    by_cases hlt : top.executeDate < task.executeDate
    · exact hok hlt x hx
    · exact (not_lt.mp hlt).trans
        ((compareTask_eq_false.mp (hrest x hx)).2 (hst.symm.trans hxs.symm))
  have hperm : (s.tasks.setIfInBounds 0 task).toList.Perm
      (task :: (Heap.pop compareTask s.tasks).toList) := Heap.toList_setIfInBounds htop task
  refine ⟨⟨?_, hi.status.of_setTop htop hst rfl⟩, ?_⟩
  · refine hi.heap.setIfInBounds htop fun y hy => compareTask_eq_false.mpr ⟨?_, fun hsame => ?_⟩
    · rw [hst]
      exact (compareTask_eq_false.mp (hrest y (Array.mem_toList_iff.mpr hy))).1
    · exact hdate y (Array.mem_toList_iff.mpr hy) hsame.symm
  · refine Covered.perm ?_ (dates_perm hperm) (dates_perm hperm)
    rcases hi.status top (Array.mem_of_getElem? htop) with hw | hw
    · exact refreshed_covered hi htop hst hw hok
    · refine .inl ?_
      rw [dates_cons, if_neg (by rw [hst, hw]; decide),
        dates_of_none (rest_not_waiting hi htop hw)]

/-- Putting a task back into what is left of the queue. -/
theorem push_queueInv {u : ServersTasks} {c : Int} (hi : QueueShape s)
    (ht : task.status = .waiting ∨ task.status = .working) (hu : u.tasks = s.tasks)
    (hcov : Covered (dates .working (task :: s.tasks.toList))
      (dates .waiting (task :: s.tasks.toList)) c) : QueueInv c (push task u) := by
  have hperm : (Heap.push compareTask u.tasks task).toList.Perm (task :: s.tasks.toList) := by
    rw [← hu]
    exact Heap.push_perm u.tasks task
  refine ⟨⟨?_, hi.status.of_push ht ?_⟩, hcov.perm (dates_perm hperm) (dates_perm hperm)⟩
  · have hheap := hi.heap
    rw [← hu] at hheap
    exact hheap.push compareTask_strictWeak task
  · simp only [push, hu]

/-- **Running the task that has been taken from the queue.** -/
theorem runTask_queueInv (hi : QueueShape s)
    (hq : task.status = .waiting ∨ task.status = .working)
    (hwork : task.status = .working → ∀ t ∈ s.tasks.toList, t.status ≠ .waiting)
    (hdue : task.executeDate < i.now)
    (hok : RunOk i (i.poll.withPid (s.cmdProcesses.lookup task.id)) top task s.tasks.toList)
    (h : runTask tz i task s = .ok s') : QueueInv i.later s' := by
  have hnone : task.status = .working → dates .waiting s.tasks.toList = [] := fun hw =>
    dates_of_none (hwork hw)
  cases runTask_cases hq h with
  | exhausted h0 h1 =>
    refine ⟨hi, ?_⟩
    rcases hq with hw | hw
    · exact hok.dropped hdue ⟨h0, h1⟩ hw
    · exact .inl (hnone hw)
  | started hleft hw hcreate =>
    have hnot : ¬ Exhausted task := not_exhausted.mpr hleft
    apply push_queueInv hi
    · exact .inr rfl
    · exact startState_tasks
    · rw [dates_cons, dates_cons, if_pos rfl, if_neg (by simp)]
      exact hok.started hdue hnot hw
  | running hleft hw hl hp =>
    refine push_queueInv hi ?_ ?_ (.inl ?_)
    · exact .inr hw
    · rfl
    · rw [dates_cons, if_neg (by rw [hw]; decide), hnone hw]
  | completed hleft hw hl hd hp =>
    have hnot : ¬ Exhausted task := not_exhausted.mpr hleft
    rename_i cmd diff
    generalize i.poll.withPid (s.cmdProcesses.lookup task.id) = poll at hok hp ⊢
    unfold finishState requeue
    split
    · next hmore =>
      have hpush : QueueInv i.later (push { completedTask i poll task with status := .waiting }
          (proceedState i poll diff task cmd s)) := by
        apply push_queueInv hi
        · exact .inl rfl
        · exact proceedState_tasks
        · rw [dates_cons, dates_cons, if_neg (by simp), if_pos rfl, hnone hw]
          exact hok.completed hdue hnot hw hp hmore
      exact hpush.of_tasks rfl
    · have hleft' : QueueInv i.later s := ⟨hi, .inl (hnone hw)⟩
      apply hleft'.of_tasks
      simp only [proceedState_tasks]

/-- **What a `run_next` keeps.** -/
theorem runNext_queueInv (hi : QueueInv clock s) (hc : clock ≤ i.later)
    (hok : ∀ top task s1, s.tasks[0]? = some top → refresh tz i top s = .ok (task, s1) →
      RunOk i (i.poll.withPid (s.cmdProcesses.lookup task.id)) top task
        (Heap.pop compareTask s.tasks).toList)
    (h : runNext tz i s = .ok s') : QueueInv i.later s' := by
  obtain ⟨top, task, s1, htop, hr, hcase⟩ := runNext_cases h
  have hrun := hok top task s1 htop hr
  obtain ⟨-, hst, -, -, -, -, hproc, hpop⟩ := refresh_frame hr
  rcases hcase with ⟨hle, rfl⟩ | ⟨hdue, hrest⟩
  · rcases refresh_cases hr with ⟨-, -, rfl⟩ | ⟨-, -, rfl⟩
    · exact hi.mono hc
    · exact (refreshed_queueInv hi htop hst (hrun.inPlace hle)).mono hc
  · rw [hpop] at hrest
    rw [← hproc] at hrun
    have hheap : Heap.IsHeap compareTask (Heap.pop compareTask s.tasks) :=
      hi.heap.pop compareTask_strictWeak
    refine runTask_queueInv (s := { s1 with tasks := Heap.pop compareTask s.tasks }) ⟨hheap, ?_⟩
      ?_ ?_ hdue hrun hrest
    · exact fun t ht => hi.status t (Heap.mem_of_mem_pop htop ht)
    · rw [hst]
      exact hi.status top (Array.mem_of_getElem? htop)
    · rw [hst]
      exact rest_not_waiting hi htop

theorem step_queueInv {t u : Timed} {o : Op} (hi : QueueInv t.clock t.tasks)
    (hok : StepOk tz t o) (h : Step tz t o u) : QueueInv u.clock u.tasks := by
  cases h with
  | update hu =>
    rename_i reply
    cases reply with
    | none => cases hu; exact hi
    | some jvalue => exact addTasks_queueInv hu hi hok
  | runNext hasked _ hnow hord hrun =>
    exact runNext_queueInv hi (by have := hord.1; have := hord.2.1; simp only; omega) hok hrun

theorem init_queueInv (gslist : GameServersList) : QueueInv clock (init gslist) where
  heap := fun _ _ => rfl
  status := fun _ ht => by simp [init] at ht
  covered := .inl rfl

/-- **`empty` tells the truth.** After a run whose steps hide no task, `empty` is true at a time
only if no queued task is due then. -/
theorem empty_of_run {gslist : GameServersList} {clock : Int} {t : Timed}
    (h : Run (Step tz) (StepOk tz) ⟨init gslist, clock⟩ t) (now : Int) (hnow : t.clock ≤ now)
    (he : empty now t.tasks = true) : ∀ task ∈ t.tasks.tasks, now < task.executeDate := by
  have hinv : QueueInv t.clock t.tasks :=
    h.invariant (I := fun t => QueueInv t.clock t.tasks) (init_queueInv gslist)
      fun _ _ _ hi hok hs => step_queueInv hi hok hs
  exact hinv.no_due hnow he

/-! ## A hidden task -/

theorem empty_of_run_alone :
    (startedState [plainTask 1 "restart" "1970-01-01 00:00:10"]).tasks.all
      (fun task => decide (110 < task.executeDate)) = true := by
  have hrest : (Heap.pop compareTask
      (importedState [plainTask 1 "restart" "1970-01-01 00:00:10"]).tasks).toList = [] := by decide
  have hlate := empty_of_run
    (t := ⟨startedState [plainTask 1 "restart" "1970-01-01 00:00:10"], 100⟩)
    (run_startedState (by decide) (by decide) (by decide) (.inr fun w hw => by cases hw)
      (by intro top task s1 _ _; simp only [hrest]; exact runOk_alone _ _ _ _))
    110 (by decide) (by decide)
  rw [Array.all_eq_true']
  exact fun task hmem => decide_eq_true (hlate task hmem)

/-- Task 1 is started at time 100, next to task 2, which waits for the next day. At time 200 the
command of task 1 has been due for a look for 70 seconds, and `empty` is true. -/
theorem working_task_hidden :
    ¬ ∀ (tz : Int) (gslist : GameServersList) (clock : Int) (t : Timed),
      Run (Step tz) Any ⟨init gslist, clock⟩ t → ∀ now, t.clock ≤ now →
        empty now t.tasks = true → ∀ task ∈ t.tasks.tasks, now < task.executeDate := by
  intro h
  have hlate := h 0 (GameServersList.plainList [1]) 0
    ⟨startedState [plainTask 1 "restart" "1970-01-01 00:00:10",
      plainTask 2 "restart" "1970-01-02 00:00:00"], 100⟩
    (run_startedState (by decide) (by decide) (by decide) trivial trivial) 200 (by decide)
    (by decide)
  have hdue : ∃ task ∈ (startedState [plainTask 1 "restart" "1970-01-01 00:00:10",
      plainTask 2 "restart" "1970-01-02 00:00:00"]).tasks.toList, task.executeDate = 130 := by decide
  obtain ⟨task, hmem, hdate⟩ := hdue
  have := hlate task (Array.mem_toList_iff.mp hmem)
  omega

end ServersTasks

end GameAP
