import GameAP.Classes.GdaemonTasksQueue
import GameAP.Lib.Waits

/-!
# Progress of the daemon's tasks

A task whose predecessor is queued is blocked, and a `run_next` that finds it first only sends it
to the end of the queue. `some_task_called`: if no task waits for itself, directly or through
others, then within as many calls of `run_next` as there are tasks one of them calls `start` or
`proceed`, and never for a blocked task.
-/

namespace GameAP

open Lib

namespace GdaemonTasks

/-- Task `t` waits for task `u`. -/
def Awaits (s : GdaemonTasks) (t u : GdaemonTask) : Prop :=
  t ∈ s.tasks ∧ u ∈ s.tasks ∧ t.runAftId ≠ 0 ∧ u.id = t.runAftId

/-- `start` or `proceed` is called for this task: they are replaced by a function that only
reports its task. -/
def Calls (s : GdaemonTasks) (task : GdaemonTask) : Prop :=
  runNextWith none (fun task _ => .error (some task)) (fun task _ => .error (some task)) s =
    .error (some task)

variable {tz : Int} {i : RunInput} {task : GdaemonTask} {rest : List GdaemonTask}
  {s s' : GdaemonTasks}

/-! ## The first task -/

theorem calls_of_not_blocked (hs : s.tasks = task :: rest)
    (hst : task.status = .waiting ∨ task.status = .working) (hb : ¬ Blocked s task) :
    Calls s task := by
  unfold Blocked at hb
  unfold Calls runNextWith
  rw [hs]
  rcases hst with hw | hw
  · simp only [if_neg hb, hw]
    rfl
  · simp only [if_neg hb, hw]
    rfl

/-- What `start` and `proceed` are called for is the first task, and it is not blocked. -/
theorem Calls.not_blocked (h : Calls s task) :
    ∃ rest, s.tasks = task :: rest ∧ ¬ Blocked s task := by
  unfold Calls runNextWith at h
  split at h
  · cases h
  · next first rest hs =>
    simp only at h
    split at h
    · cases h
    · next hb =>
      have hfirst : first = task := by
        cases hst : first.status <;> rw [hst] at h <;> cases h <;> rfl
      subst hfirst
      exact ⟨rest, hs, hb⟩

/-! ## The whole queue -/

/-- The blocked tasks in front go to the end of the queue, one with each `run_next`. -/
theorem pass_blocked {pre post : List GdaemonTask} {is : List RunInput}
    (hs : s.tasks = pre ++ post) (hb : ∀ t ∈ pre, Blocked s t) (hlen : is.length = pre.length) :
    is.foldlM (fun s i => runNext tz i s) s = .ok { s with tasks := post ++ pre } := by
  induction pre generalizing s is post with
  | nil =>
    obtain rfl := List.length_eq_zero_iff.mp hlen
    rw [List.append_nil, ← List.nil_append post, ← hs]
    rfl
  | cons task pre ih =>
    obtain ⟨i, is, rfl⟩ := List.exists_cons_of_length_eq_add_one hlen
    have hfirst : runNext tz i s = .ok { s with tasks := pre ++ (post ++ [task]) } := by
      have hrun : Blocked s task := hb task List.mem_cons_self
      unfold Blocked at hrun
      unfold runNext runNextWith
      rw [hs, List.cons_append]
      simp only [if_pos hrun, List.append_assoc]
    rw [List.foldlM_cons, hfirst]
    have hrest := @ih { s with tasks := pre ++ (post ++ [task]) } (post ++ [task]) is rfl
      (fun t ht => hb t (List.mem_cons_of_mem _ ht)) (Nat.succ.inj hlen)
    rw [List.append_assoc] at hrest
    exact hrest

theorem exists_not_blocked (hi : IdsInv s) (hne : s.tasks ≠ []) (hacyc : Acyclic (Awaits s)) :
    ∃ t ∈ s.tasks, ¬ Blocked s t := by
  obtain ⟨t, ht, hready⟩ := exists_ready hacyc hne
  refine ⟨t, ht, ?_⟩
  rintro ⟨hpos, hex⟩
  obtain ⟨u, hu, he⟩ := (hi.existing _).mp hex
  exact hready u hu ⟨ht, hu, Nat.pos_iff_ne_zero.mp hpos, he⟩

/-- **Progress.** In every run, if the tasks in the queue do not wait for one another in a cycle,
one of them is not blocked, and one of as many calls of `run_next` as there are tasks calls
`start` or `proceed`, whatever the calls read; and these are never called for a task whose
predecessor is in the queue. -/
theorem some_task_called {ok : GdaemonTasks → Op → Prop} {gslist : GameServersList}
    (h : Run (Step tz) ok (init gslist) s) :
    (s.tasks ≠ [] → Acyclic (Awaits s) →
      (∃ t ∈ s.tasks, ¬ Blocked s t) ∧
      ∀ is : List RunInput, is.length = s.tasks.length →
        ∃ pre i post t task, is = pre ++ i :: post ∧
          pre.foldlM (fun s i => runNext tz i s) s = .ok t ∧ task ∈ s.tasks ∧ Calls t task) ∧
    ∀ task, Calls s task → ¬ ∃ u ∈ s.tasks, task.runAftId ≠ 0 ∧ u.id = task.runAftId := by
  have hi := idsInv_of_run h
  refine ⟨fun hne hacyc => ?_, fun task hcall => ?_⟩
  · have hfree := exists_not_blocked hi hne hacyc
    refine ⟨hfree, fun is hlen => ?_⟩
    obtain ⟨pre, task, post, hs, hb, hpre⟩ := exists_first hfree
    have hk : pre.length < is.length := by
      rw [hlen, hs, List.length_append, List.length_cons]
      omega
    have hpass : (is.take pre.length).foldlM (fun s i => runNext tz i s) s =
        .ok { s with tasks := (task :: post) ++ pre } :=
      pass_blocked hs (fun t ht => not_not.mp (hpre t ht)) (by rw [List.length_take]; omega)
    have hmem : task ∈ s.tasks := hs ▸ List.mem_append_right _ List.mem_cons_self
    refine ⟨is.take pre.length, is[pre.length], is.drop (pre.length + 1), _, task, ?_, hpass, hmem, ?_⟩
    · rw [← List.drop_eq_getElem_cons hk, List.take_append_drop]
    · exact calls_of_not_blocked rfl (hi.pending task hmem) hb
  · rintro ⟨u, hu, hne, he⟩
    obtain ⟨rest, -, hb⟩ := hcall.not_blocked
    exact hb ⟨Nat.pos_of_ne_zero hne, (hi.existing _).mpr ⟨u, hu, he⟩⟩

/-- A task that waits for another one. -/
def laterEntry (id runAftId : Int) : Entry :=
  (.obj [("cmd", .null), ("id", .int id), ("run_aft_id", .int runAftId), ("server_id", .int 1),
      ("status_num", .int 1), ("task", .str "gsstart")],
    { now := 100, later := 100, list := none, server := none })

/-- Tasks that wait only for earlier ones do not wait in a cycle. -/
theorem acyclic_of_lt (h : ∀ t ∈ s.tasks, t.runAftId ≠ 0 → t.runAftId < t.id) :
    Acyclic (Awaits s) := by
  have hlt : ∀ t u, Relation.TransGen (Awaits s) t u → u.id < t.id := by
    intro t u hpath
    induction hpath with
    | single hw =>
      obtain ⟨ht, -, hne, he⟩ := hw
      exact he ▸ h _ ht hne
    | tail _ hw ih =>
      obtain ⟨ht, -, hne, he⟩ := hw
      exact (he ▸ h _ ht hne).trans ih
  exact fun t hcyc => Nat.lt_irrefl _ (hlt t t hcyc)

/-- Task 6, which waits for task 5, is first. -/
theorem some_task_called_later : ∃ pre i post t task,
    [plainRun runningPoll true, plainRun runningPoll true] = pre ++ i :: post ∧
      pre.foldlM (fun s i => runNext 0 i s)
        (performAll [.update (some [laterEntry 6 5, plainEntry 5 "gsstart" 1 1])]) = .ok t ∧
      task ∈ (performAll [.update (some [laterEntry 6 5, plainEntry 5 "gsstart" 1 1])]).tasks ∧
      Calls t task := by
  have h1 : Run (Step 0) Any plainInit
      (performAll [.update (some [laterEntry 6 5, plainEntry 5 "gsstart" 1 1])]) :=
    run_snoc [] _ (.refl plainInit) trivial (by decide)
  exact ((some_task_called h1).1 (by decide) (acyclic_of_lt (by decide))).2 _ rfl

end GdaemonTasks

end GameAP
