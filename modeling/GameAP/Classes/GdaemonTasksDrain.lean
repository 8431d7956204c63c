import GameAP.Classes.GdaemonTasksProgress
import Mathlib.Tactic.Linarith
import Mathlib.Tactic.Ring

/-!
# How long the daemon is busy

`run_next` looks after one task with each call, and a task whose predecessor is queued only moves to
the end. `Watched` counts the calls on a queue that is not empty. `calls_le`: if the tasks never wait
for one another in a cycle and no command is found running more than `k` times, there are at most so
many of these calls in any run, with any updates in between. The calls are counted against the work
that the queue still holds (`work`) and the place of the first task that is not blocked (`place`).
-/

namespace GameAP

open Lib

namespace GdaemonTasks

structure Watched where
  tasks : GdaemonTasks
  /-- how often the running command of a task has been found running -/
  polls : Nat → Nat
  /-- the calls of `run_next` on a queue that is not empty -/
  calls : Nat
  imported : Nat

namespace Watched

def init (gslist : GameServersList) : Watched :=
  { tasks := .init gslist, polls := fun _ => 0, calls := 0, imported := 0 }

/-- The first task is looked at unless it is blocked. -/
def polled (s : GdaemonTasks) (polls : Nat → Nat) : Nat → Nat :=
  match s.tasks with
  | [] => polls
  | task :: _ =>
    if Blocked s task then polls
    else Function.update polls task.id (if task.status = .working then polls task.id + 1 else 0)

inductive Step (tz : Int) : Watched → Op → Watched → Prop where
  | imports {w : Watched} {o : Op} {s : GdaemonTasks} : (∀ i, o ≠ .runNext i) →
      GdaemonTasks.Step tz w.tasks o s →
      Step tz w o { w with
        tasks := s, imported := w.imported + (s.tasks.length - w.tasks.tasks.length) }
  | runNext {w : Watched} {i : RunInput} {s : GdaemonTasks} : w.tasks.empty = false →
      GdaemonTasks.Step tz w.tasks (.runNext i) s →
      Step tz w (.runNext i) { w with
        tasks := s, polls := polled w.tasks w.polls, calls := w.calls + 1 }

/-- No task waits for itself, and a command that has been found running `k` times is found
completed. -/
structure Prompt (k : Nat) (w : Watched) (o : Op) : Prop where
  acyclic : Acyclic (Awaits w.tasks)
  completes : ∀ i task rest, o = .runNext i → w.tasks.tasks = task :: rest →
    task.status = .working → k ≤ w.polls task.id →
    (i.poll.withPid (w.tasks.cmdProcesses.lookup task.id)).cmdCompleted = true

/-! ## Work and place -/

/-- How many calls a task may still need that do not find it blocked. -/
def weight (k : Nat) (polls : Nat → Nat) (task : GdaemonTask) : Nat :=
  if task.status = .working then k + 1 - polls task.id else k + 2

def work (k : Nat) (polls : Nat → Nat) (ts : List GdaemonTask) : Nat :=
  (ts.map (weight k polls)).sum

/-- The place of the first task that is not blocked. -/
def place (s : GdaemonTasks) : Nat := s.tasks.findIdx fun t => !decide (Blocked s t)

def rank (k : Nat) (w : Watched) : Nat :=
  work k w.polls w.tasks.tasks * (w.imported + 1) + place w.tasks

variable {tz : Int} {k : Nat} {i : RunInput} {task : GdaemonTask} {ts us rest : List GdaemonTask}
  {s s' : GdaemonTasks} {w w' : Watched} {polls : Nat → Nat} {o : Op}

theorem weight_le (task : GdaemonTask) : weight k polls task ≤ k + 2 := by
  unfold weight
  split <;> omega

theorem weight_waiting (h : task.status = .waiting) : weight k polls task = k + 2 := by
  unfold weight
  rw [h]
  rfl

theorem weight_working (h : task.status = .working) :
    weight k polls task = k + 1 - polls task.id := if_pos h

theorem work_cons : work k polls (task :: ts) = weight k polls task + work k polls ts := by
  simp [work]

theorem work_append : work k polls (ts ++ us) = work k polls ts + work k polls us := by
  simp [work]

theorem work_le (ts : List GdaemonTask) : work k polls ts ≤ ts.length * (k + 2) := by
  induction ts with
  | nil => exact Nat.zero_le _
  | cons task ts ih =>
    have hle := @weight_le k polls task
    rw [work_cons, List.length_cons, Nat.succ_mul]
    omega

/-- The tasks that come in all wait. -/
theorem work_waiting (h : ∀ t ∈ ts, t.status = .waiting) :
    work k polls ts = ts.length * (k + 2) := by
  induction ts with
  | nil => simp [work]
  | cons task ts ih =>
    rw [work_cons, List.length_cons, Nat.succ_mul, ih fun t ht => h t (List.mem_cons_of_mem _ ht),
      weight_waiting (h task List.mem_cons_self), Nat.add_comm]

theorem work_update {id n : Nat} (h : ∀ t ∈ ts, t.id ≠ id) :
    work k (Function.update polls id n) ts = work k polls ts := by
  unfold work
  congr 1
  refine List.map_congr_left fun t ht => ?_
  unfold weight
  rw [Function.update_of_ne (h t ht)]

theorem place_le (s : GdaemonTasks) : place s ≤ s.tasks.length := List.findIdx_le_length

theorem blocked_congr (hex : s'.existsTasks = s.existsTasks) (t : GdaemonTask) :
    Blocked s' t ↔ Blocked s t := by
  unfold Blocked
  rw [hex]

/-- A blocked task in front makes room for the first that is not. -/
theorem place_rotate (hs : s.tasks = task :: rest) (hb : Blocked s task)
    (hready : ∃ t ∈ s.tasks, ¬ Blocked s t) (hs' : s'.tasks = rest ++ [task])
    (hex : s'.existsTasks = s.existsTasks) : place s' + 1 = place s := by
  obtain ⟨t, ht, hfree⟩ := hready
  have hrest : t ∈ rest := by
    rw [hs] at ht
    refine (List.mem_cons.mp ht).resolve_left ?_
    rintro rfl
    exact hfree hb
  have hlt : (rest.findIdx fun t => !decide (Blocked s t)) < rest.length :=
    List.findIdx_lt_length.mpr ⟨t, hrest, by simp [hfree]⟩
  unfold place
  simp only [blocked_congr hex]
  rw [hs, hs', List.findIdx_append, if_pos hlt, List.findIdx_cons]
  simp [hb]

/-! ## One step -/

/-- What holds between the calls. -/
structure Inv (k : Nat) (w : Watched) : Prop extends TablesInv w.tasks where
  polls_le : ∀ t ∈ w.tasks.tasks, t.status = .working → w.polls t.id ≤ k
  length_le : w.tasks.tasks.length ≤ w.imported
  bound : w.calls + rank k w ≤ (k + 3) * w.imported * (w.imported + 1)

theorem init_inv (gslist : GameServersList) : Inv k (init gslist) where
  toTablesInv := init_tablesInv gslist
  polls_le := fun _ ht => absurd ht List.not_mem_nil
  length_le := Nat.le_refl 0
  bound := by simp [init, rank, work, place, GdaemonTasks.init]

/-- A call that finds a task that is not blocked leaves less work. -/
theorem work_lt (hi : Inv k w) (hs : w.tasks.tasks = task :: rest)
    (hfree : ¬ Blocked w.tasks task) (h : RunNext tz i w.tasks task rest s)
    (hprompt : task.status = .working → k ≤ w.polls task.id →
      (i.poll.withPid (w.tasks.cmdProcesses.lookup task.id)).cmdCompleted = true) :
    (∀ t ∈ s.tasks, t.status = .working → polled w.tasks w.polls t.id ≤ k) ∧
      work k (polled w.tasks w.polls) s.tasks < work k w.polls w.tasks.tasks ∧
      s.tasks.length ≤ w.tasks.tasks.length := by
  have hnodup := hi.nodup
  rw [hs] at hnodup
  have hother : ∀ t ∈ rest, t.id ≠ task.id := fun t ht he => not_queued_rest hnodup ⟨t, ht, he⟩
  have hpolled : polled w.tasks w.polls = Function.update w.polls task.id
      (if task.status = .working then w.polls task.id + 1 else 0) := by
    unfold polled
    rw [hs]
    exact if_neg hfree
  have hkeep : ∀ t ∈ rest, t.status = .working → polled w.tasks w.polls t.id ≤ k := by
    intro t ht hw
    rw [hpolled, Function.update_of_ne (hother t ht)]
    exact hi.polls_le t (hs ▸ List.mem_cons_of_mem _ ht) hw
  have hrest : work k (polled w.tasks w.polls) rest = work k w.polls rest := by
    rw [hpolled, work_update hother]
  have hwork : work k w.polls w.tasks.tasks = weight k w.polls task + work k w.polls rest := by
    rw [hs, work_cons]
  have hlength : w.tasks.tasks.length = rest.length + 1 := by rw [hs, List.length_cons]
  -- the task leaves the queue
  have hgone : 0 < weight k w.polls task → work k (polled w.tasks w.polls) rest <
      work k w.polls w.tasks.tasks ∧ rest.length ≤ w.tasks.tasks.length := fun hpos => by
    rw [hrest, hwork]
    exact ⟨by omega, by omega⟩
  -- the task moves to the end
  have hmoved : ∀ task' : GdaemonTask, weight k (polled w.tasks w.polls) task' <
      weight k w.polls task → work k (polled w.tasks w.polls) (rest ++ [task']) <
      work k w.polls w.tasks.tasks ∧ (rest ++ [task']).length ≤ w.tasks.tasks.length :=
    fun task' hlt => by
      rw [work_append, hrest, hwork, List.length_append, hlength]
      refine ⟨?_, Nat.le_refl _⟩
      simp only [work, List.map_cons, List.map_nil, List.sum_cons, List.sum_nil]
      omega
  cases h with
  | blocked hpos hex => exact absurd ⟨hpos, hex⟩ hfree
  | @started cmd s1 hw hm =>
    have hnew : weight k (polled w.tasks w.polls) { task with status := .working } = k + 1 := by
      rw [weight_working rfl, hpolled, hw]
      show k + 1 - Function.update w.polls task.id _ task.id = k + 1
      rw [Function.update_self]
      rfl
    refine ⟨fun t ht hwork => ?_, hmoved _ ?_⟩
    · rcases List.mem_append.mp ht with ht | ht
      · exact hkeep t ht hwork
      · rw [List.mem_singleton.mp ht, hpolled, hw]
        show Function.update w.polls task.id _ task.id ≤ k
        rw [Function.update_self]
        exact Nat.zero_le k
    · rw [hnew, weight_waiting hw]
      omega
  | rejected hw => exact ⟨hkeep, hgone (by rw [weight_waiting hw]; omega)⟩
  | lost hw hlookup =>
    have hmem : task.id ∈ w.tasks.activeCmds :=
      (hi.active _).mpr ⟨task, hs ▸ List.mem_cons_self, rfl, hw⟩
    rw [← AList.lookup_isSome, hlookup] at hmem
    cases hmem
  | running hw _ hrun =>
    have hlt : w.polls task.id < k := by
      by_contra hge
      rw [hprompt hw (Nat.not_lt.mp hge)] at hrun
      cases hrun
    have hself : polled w.tasks w.polls task.id = w.polls task.id + 1 := by
      rw [hpolled, Function.update_self, if_pos hw]
    refine ⟨fun t ht hwork => ?_, hmoved _ ?_⟩
    · rcases List.mem_append.mp ht with ht | ht
      · exact hkeep t ht hwork
      · rw [List.mem_singleton.mp ht, hself]
        exact hlt
    · rw [weight_working hw, weight_working hw, hself]
      omega
  | completed hw =>
    have hle := hi.polls_le task (hs ▸ List.mem_cons_self) hw
    exact ⟨hkeep, hgone (by rw [weight_working hw]; omega)⟩

/-- Less work, or as much and a nearer place. -/
theorem rank_lt {n a b p q : Nat} (h : a < b ∧ p ≤ n ∨ a = b ∧ p < q) :
    a * (n + 1) + p < b * (n + 1) + q := by
  rcases h with ⟨hlt, hp⟩ | ⟨rfl, hlt⟩
  · have hle : (a + 1) * (n + 1) ≤ b * (n + 1) := Nat.mul_le_mul_right _ hlt
    rw [Nat.add_mul, Nat.one_mul] at hle
    omega
  · omega

theorem Inv.runNext (hi : Inv k w) (hok : Prompt k w (.runNext i))
    (hstep : GdaemonTasks.Step tz w.tasks (.runNext i) s) :
    Inv k { w with tasks := s, polls := polled w.tasks w.polls, calls := w.calls + 1 } := by
  have htables := step_tablesInv hi.toTablesInv hstep
  obtain ⟨task, rest, hs, hcase⟩ := runNext_cases hi.pending hstep
  have hbound := hi.bound
  by_cases hb : Blocked w.tasks task
  · -- the queue turns, and the first task that is not blocked comes nearer
    have hs' := runNext_blocked hs hb hstep
    have htasks : s.tasks = rest ++ [task] := by rw [hs']
    have hpolled : polled w.tasks w.polls = w.polls := by
      unfold polled
      rw [hs]
      exact if_pos hb
    have hperm : s.tasks.Perm w.tasks.tasks := by
      rw [hs, htasks]
      exact List.perm_append_singleton task rest
    have hready : ∃ t ∈ w.tasks.tasks, ¬ Blocked w.tasks t :=
      exists_not_blocked hi.toIdsInv (by rw [hs]; exact List.cons_ne_nil _ _) hok.acyclic
    have hplace : place s + 1 = place w.tasks :=
      place_rotate hs hb hready htasks (by rw [hs'])
    have hwork : work k w.polls s.tasks = work k w.polls w.tasks.tasks := (hperm.map _).sum_eq
    have hlt : work k w.polls s.tasks * (w.imported + 1) + place s < rank k w :=
      rank_lt (.inr ⟨hwork, by omega⟩)
    refine ⟨htables, fun t ht hw => ?_, ?_, ?_⟩
    · exact hpolled.symm ▸ hi.polls_le t (hperm.mem_iff.mp ht) hw
    · exact hperm.length_eq.trans_le hi.length_le
    · show w.calls + 1 + (work k (polled w.tasks w.polls) s.tasks * (w.imported + 1) + place s) ≤
        (k + 3) * w.imported * (w.imported + 1)
      rw [hpolled]
      omega
  · obtain ⟨hpolls, hwork, hlength⟩ := work_lt hi hs hb hcase
      fun hw hk => hok.completes i task rest rfl hs hw hk
    refine ⟨htables, hpolls, hlength.trans hi.length_le, ?_⟩
    have hplace : place s ≤ w.imported := (place_le s).trans (hlength.trans hi.length_le)
    have hlt : work k (polled w.tasks w.polls) s.tasks * (w.imported + 1) + place s < rank k w :=
      rank_lt (.inl ⟨hwork, hplace⟩)
    show w.calls + 1 + (work k (polled w.tasks w.polls) s.tasks * (w.imported + 1) + place s) ≤
      (k + 3) * w.imported * (w.imported + 1)
    omega

/-- An import adds waiting tasks at the end, and nothing else if it adds none. -/
theorem imports_tasks (ho : ∀ i, o ≠ .runNext i) (h : GdaemonTasks.Step tz s o s') :
    ∃ new, s'.tasks = s.tasks ++ new ∧ (∀ t ∈ new, t.status = .waiting) ∧
      (new = [] → s'.existsTasks = s.existsTasks) := by
  obtain himp | ⟨i, he, -⟩ := step_cases h
  · refine importTasks_invariant (P := fun u => ∃ new, u.tasks = s.tasks ++ new ∧
      (∀ t ∈ new, t.status = .waiting) ∧ (new = [] → u.existsTasks = s.existsTasks)) himp
      ⟨[], (List.append_nil _).symm, fun _ ht => absurd ht List.not_mem_nil, fun _ => rfl⟩
      (fun _ _ hu => hu) ?_
    rintro e - task u hnew - - - ⟨new, htasks, hwait, -⟩
    refine ⟨new ++ [task], ?_, fun t ht => ?_, fun he => absurd he (by simp)⟩
    · show u.tasks ++ [task] = _
      rw [htasks, List.append_assoc]
    · rcases List.mem_append.mp ht with ht | ht
      · exact hwait t ht
      · rw [List.mem_singleton.mp ht]
        exact (newTask_spec hnew).2.2
  · exact absurd he (ho i)

/-- The bound grows by what `m` more tasks can cost. -/
theorem bound_add {n m a p : Nat} (hm : 0 < m) (ha : a ≤ n * (k + 2)) (hp : p ≤ n + m) :
    (a + m * (k + 2)) * (n + m + 1) + p + (k + 3) * n * (n + 1) ≤
      a * (n + 1) + (k + 3) * (n + m) * (n + m + 1) := by
  have hbound : (k + 3) * (n + m) * (n + m + 1) = (k + 3) * n * (n + 1) +
      (n * (k + 2) * m + m * (k + 2) * (n + m + 1)) + m * (2 * n + m + 1) := by ring
  have hleft : (a + m * (k + 2)) * (n + m + 1) =
      a * (n + 1) + a * m + m * (k + 2) * (n + m + 1) := by ring
  have hwork : a * m ≤ n * (k + 2) * m := Nat.mul_le_mul_right m ha
  have hplace : n + m ≤ m * (2 * n + m + 1) := by nlinarith
  omega

theorem Inv.imports (hi : Inv k w) (ho : ∀ i, o ≠ .runNext i)
    (hstep : GdaemonTasks.Step tz w.tasks o s) : Inv k { w with
      tasks := s, imported := w.imported + (s.tasks.length - w.tasks.tasks.length) } := by
  obtain ⟨new, htasks, hwait, hnone⟩ := imports_tasks ho hstep
  have hlength : s.tasks.length = w.tasks.tasks.length + new.length := by
    rw [htasks, List.length_append]
  have hadded : s.tasks.length - w.tasks.tasks.length = new.length := by omega
  have hle := hi.length_le
  have hbound := hi.bound
  rw [hadded]
  refine ⟨step_tablesInv hi.toTablesInv hstep, fun t ht hw => ?_, ?_, ?_⟩
  · rcases List.mem_append.mp (htasks ▸ ht : t ∈ w.tasks.tasks ++ new) with ht | ht
    · exact hi.polls_le t ht hw
    · rw [hwait t ht] at hw
      cases hw
  · show s.tasks.length ≤ w.imported + new.length
    omega
  · show w.calls + (work k w.polls s.tasks * (w.imported + new.length + 1) + place s) ≤
      (k + 3) * (w.imported + new.length) * (w.imported + new.length + 1)
    unfold rank at hbound
    have hwork : work k w.polls s.tasks =
        work k w.polls w.tasks.tasks + new.length * (k + 2) := by
      rw [htasks, work_append, work_waiting hwait]
    rcases Nat.eq_zero_or_pos new.length with hzero | hpos
    · have hnil := List.length_eq_zero_iff.mp hzero
      have hsame : place s = place w.tasks := by
        unfold place
        simp only [blocked_congr (hnone hnil)]
        rw [htasks, hnil, List.append_nil]
      rw [hwork, hsame, hzero, Nat.zero_mul, Nat.add_zero, Nat.add_zero]
      exact hbound
    · have hcap : work k w.polls w.tasks.tasks ≤ w.imported * (k + 2) :=
        (work_le _).trans (Nat.mul_le_mul_right _ hle)
      have hplace : place s ≤ w.imported + new.length := (place_le s).trans (by omega)
      have hadd := bound_add hpos hcap hplace
      rw [hwork]
      omega

/-! ## Every run -/

/-- **The daemon comes to an end with its tasks.** In every run of the daemon's tasks, with any
updates between the calls, in which the queued tasks never wait for one another in a cycle and no
command is found running more than `k` times: of the calls of `run_next`, at most
`(k + 3) * n * (n + 1)` find a task in the queue, where `n` is the number of tasks imported so
far. -/
theorem calls_le {gslist : GameServersList} (h : Run (Step tz) (Prompt k) (init gslist) w) :
    w.calls ≤ (k + 3) * w.imported * (w.imported + 1) := by
  have hi : Inv k w := by
    refine h.invariant (init_inv gslist) fun w o w' hi hok hstep => ?_
    cases hstep with
    | imports ho hs => exact hi.imports ho hs
    | runNext _ hs => exact hi.runNext hok hs
  exact (Nat.le_add_right _ _).trans hi.bound

/-- Task 6, which waits for task 5, is first. -/
def waitingPair : Op := .update (some [laterEntry 6 5, plainEntry 5 "gsstart" 1 1])

/-- Where no command is running, nothing is asked of the polls. -/
theorem prompt_waiting (hacyc : ∀ t ∈ w.tasks.tasks, t.runAftId ≠ 0 → t.runAftId < t.id)
    (hwait : ∀ t ∈ w.tasks.tasks, t.status = .waiting) : Prompt k w o where
  acyclic := acyclic_of_lt hacyc
  completes := fun i task rest _ hs hw _ => by
    have hwaiting := hwait task (hs ▸ List.mem_cons_self)
    rw [hw] at hwaiting
    cases hwaiting

theorem calls_le_pair : ∃ w : Watched, w.calls = 2 ∧ w.imported = 2 ∧
    w.calls ≤ (0 + 3) * w.imported * (w.imported + 1) := by
  have h1 := (Run.refl (R := Step 0) (init (GameServersList.plainList [1]))).step
    (i := waitingPair) (prompt_waiting (k := 0) (by decide) (by decide))
    (.imports (fun i he => by cases he) (eq_ok_resultD plainInit (by decide)))
  have h2 := h1.step (i := .runNext (plainRun runningPoll true))
    (prompt_waiting (by decide) (by decide))
    (.runNext (by decide) (eq_ok_resultD plainInit (by decide)))
  have h3 := h2.step (i := .runNext (plainRun runningPoll true))
    (prompt_waiting (by decide) (by decide))
    (.runNext (by decide) (eq_ok_resultD plainInit (by decide)))
  exact ⟨_, rfl, by decide, calls_le h3⟩

end Watched

end GdaemonTasks

end GameAP
