import GameAP.Classes.GdaemonTasksQueue

/-!
# Tasks that are started twice

The daemon forgets a completed task, so only the panel keeps it from being started again, and
the panel goes by the status updates that it has received. `Consistent` is a panel that lists a
task as waiting only until it has received one. `restarts_lost`: against such a panel a task is
started again only if every status update sent for it so far was lost, the one that says that it
is working and the one with its result among them.
-/

namespace GameAP

open Lib

namespace GdaemonTasks

/-! ## What the log tells about a task -/

def Started (log : List Event) (id : Nat) : Prop := ∃ task cmd, .started task cmd ∈ log ∧ task.id = id

/-- The panel has received none of the task's status updates. -/
def Lost (log : List Event) (id : Nat) : Prop :=
  ∀ st received, .status id st received ∈ log → received = false

/-- The status working has been sent. -/
def SentWorking (log : List Event) (id : Nat) : Prop :=
  ∃ received, .status id .working received ∈ log

/-- The task's result has been sent. -/
def SentResult (log : List Event) (id : Nat) : Prop :=
  ∃ st received, .status id st received ∈ log ∧ st ≠ .working

/-- Events that neither start a task nor send a status. -/
def Event.Quiet : Event → Prop
  | .started _ _ => False
  | .status _ _ _ => False
  | _ => True

/-- A panel that has received a status of the tasks `known` before the daemon started: it lists
as working only such tasks, at the daemon's start, and as waiting only tasks of which it has
received no status. -/
def Consistent (known : Finset Nat) (s : GdaemonTasks) : Op → Prop
  | .checkAfterCrash reply => s.log = [] ∧
      ∀ e ∈ reply.getD [], ∀ id, e.1.getUInt "id" = .ok id →
        e.1.getUInt "status_num" = .ok GdaemonTask.Status.working.toNat → id ∈ known
  | .update reply =>
      ∀ e ∈ reply.getD [], ∀ id, e.1.getUInt "id" = .ok id →
        e.1.getUInt "status_num" = .ok GdaemonTask.Status.waiting.toNat →
          id ∉ known ∧ Lost s.log id
  | .runNext _ => True

/-- Every start of a task that has been started before comes after lost updates only. -/
def RestartsLost (known : Finset Nat) (log : List Event) : Prop :=
  ∀ pre task cmd post, log = pre ++ .started task cmd :: post → Started pre task.id →
    task.id ∉ known ∧ Lost pre task.id ∧ SentWorking pre task.id ∧ SentResult pre task.id

variable {tz : Int} {i : RunInput} {task : GdaemonTask} {rest : List GdaemonTask}
  {s s' : GdaemonTasks} {id : Nat} {log new : List Event} {known : Finset Nat}

theorem started_append : Started (log ++ new) id ↔ Started log id ∨ Started new id := by
  simp only [Started, List.mem_append, or_and_right, exists_or]

theorem lost_append : Lost (log ++ new) id ↔ Lost log id ∧ Lost new id := by
  simp only [Lost, List.mem_append, or_imp, forall_and]

theorem SentWorking.append (h : SentWorking log id) (new : List Event) :
    SentWorking (log ++ new) id :=
  let ⟨r, hr⟩ := h; ⟨r, List.mem_append_left _ hr⟩

theorem sentResult_append : SentResult (log ++ new) id ↔ SentResult log id ∨ SentResult new id := by
  simp only [SentResult, List.mem_append, or_and_right, exists_or]

theorem SentResult.append (h : SentResult log id) (new : List Event) :
    SentResult (log ++ new) id := sentResult_append.mpr (.inl h)

/-- Nothing in a list of quiet events starts a task. -/
theorem not_started_of_quiet (h : ∀ e ∈ new, e.Quiet) : ¬ Started new id := by
  rintro ⟨task, cmd, hm, -⟩
  exact h _ hm

theorem lost_of_quiet (h : ∀ e ∈ new, e.Quiet) : Lost new id := fun _ _ hm => (h _ hm).elim

theorem makeCmd_quiet {cmd? : Option Cmd} (h : makeCmd tz i task s = .ok (cmd?, s')) :
    ∃ new, s'.log = s.log ++ new ∧ ∀ e ∈ new, e.Quiet := by
  obtain ⟨new, hlog, hout⟩ := makeCmd_log h
  refine ⟨new, hlog, fun e he => ?_⟩
  rw [hout e he]
  trivial

theorem beforeEvents_quiet : ∀ e ∈ beforeEvents task, e.Quiet := by
  intro e he
  rw [mem_beforeEvents he]
  trivial

theorem outputEvents_quiet {output : String} : ∀ e ∈ outputEvents task output, e.Quiet := by
  intro e he
  rw [mem_outputEvents he]
  trivial

/-- A `run_next` for a task starts no other one, and sends no status of another one. -/
theorem not_started_other (h : ∀ e ∈ new, RunEvent i s task e) (hne : id ≠ task.id) :
    ¬ Started new id := by
  rintro ⟨u, cmd, hm, rfl⟩
  cases h _ hm
  exact hne rfl

theorem lost_other (h : ∀ e ∈ new, RunEvent i s task e) (hne : id ≠ task.id) : Lost new id := by
  intro st r hm
  cases h _ hm
  exact absurd rfl hne

/-! ## Restarts in a growing log -/

theorem RestartsLost.snoc {e : Event} (h : RestartsLost known log)
    (he : ∀ task cmd, e = .started task cmd → Started log task.id →
      task.id ∉ known ∧ Lost log task.id ∧ SentWorking log task.id ∧ SentResult log task.id) :
    RestartsLost known (log ++ [e]) := by
  intro pre task cmd post heq hst
  rcases List.eq_nil_or_concat post with rfl | ⟨post', last, rfl⟩
  · obtain ⟨rfl, hlast⟩ := List.append_inj' heq rfl
    exact he task cmd (List.singleton_inj.mp hlast) hst
  · rw [List.concat_eq_append, ← List.cons_append, ← List.append_assoc] at heq
    obtain ⟨hlog, -⟩ := List.append_inj' heq rfl
    exact h pre task cmd post' hlog hst

/-- Events that start no task. -/
theorem RestartsLost.append (h : RestartsLost known log)
    (hnew : ∀ task cmd, .started task cmd ∉ new) : RestartsLost known (log ++ new) := by
  induction new generalizing log with
  | nil => rw [List.append_nil]; exact h
  | cons e new ih =>
    have hsplit : log ++ e :: new = (log ++ [e]) ++ new := by simp
    rw [hsplit]
    refine ih (h.snoc fun task cmd he _ => ?_) fun task cmd hm => ?_
    · exact absurd (he ▸ List.mem_cons_self) (hnew task cmd)
    · exact hnew task cmd (List.mem_cons_of_mem _ hm)

/-! ## What a step keeps -/

structure PanelInv (known : Finset Nat) (s : GdaemonTasks) : Prop where
  ids : IdsInv s
  fresh : ∀ t ∈ s.tasks, t.status = .waiting → Started s.log t.id → t.id ∉ known ∧ Lost s.log t.id
  ended : ∀ id, Started s.log id → Working s.tasks id ∨ SentResult s.log id
  sent : ∀ id, Started s.log id → SentWorking s.log id
  restarts : RestartsLost known s.log

/-- A step that moves the first task to the end and tells the panel nothing about tasks. -/
theorem PanelInv.quiet (hi : PanelInv known s) (hids : IdsInv s') (ht : s'.tasks.Perm s.tasks)
    (hlog : s'.log = s.log ++ new) (hq : ∀ e ∈ new, e.Quiet) : PanelInv known s' := by
  have hst : ∀ id, Started s'.log id → Started s.log id := fun id h => by
    rw [hlog, started_append] at h
    exact h.resolve_right (not_started_of_quiet hq)
  refine ⟨hids, fun t hm hw h => ?_, fun id h => ?_, fun id h => ?_, ?_⟩
  · obtain ⟨hk, hl⟩ := hi.fresh t (ht.mem_iff.mp hm) hw (hst _ h)
    rw [hlog]
    exact ⟨hk, lost_append.mpr ⟨hl, lost_of_quiet hq⟩⟩
  · rw [hlog, working_perm ht]
    exact (hi.ended id (hst id h)).imp (fun hw => hw) fun hr => hr.append new
  · rw [hlog]
    exact (hi.sent id (hst id h)).append new
  · rw [hlog]
    exact hi.restarts.append fun task cmd hm => hq _ hm

/-- A step that takes the first task from the queue and sends its result. -/
theorem PanelInv.removed (hi : PanelInv known s) (hids : IdsInv s') (hs : s.tasks = task :: rest)
    (hlog : s'.log = s.log ++ new) (hev : ∀ e ∈ new, RunEvent i s task e)
    (hend : Ends s s' task rest new) : PanelInv known s' := by
  have hst : ∀ id, Started s'.log id → Started s.log id := by
    intro id h
    rw [hlog, started_append] at h
    apply h.resolve_right
    rintro ⟨u, cmd, hm, -⟩
    exact hend.started u cmd hm
  have hnodup := hi.ids.nodup
  rw [hs] at hnodup
  refine ⟨hids, fun t hm hw h => ?_, fun id h => ?_, fun id h => ?_, ?_⟩
  · rw [hend.tasks] at hm
    have hne : t.id ≠ task.id := fun he => not_queued_rest hnodup ⟨t, hm, he⟩
    obtain ⟨hk, hl⟩ := hi.fresh t (hs ▸ List.mem_cons_of_mem _ hm) hw (hst _ h)
    rw [hlog]
    exact ⟨hk, lost_append.mpr ⟨hl, lost_other hev hne⟩⟩
  · rw [hlog, hend.tasks]
    by_cases hid : id = task.id
    · exact .inr (sentResult_append.mpr (.inr (hid ▸ hend.result)))
    · rcases hi.ended id (hst id h) with hw | hr
      · exact .inl ((working_removed hi.ids hs).mp ⟨hid, hw⟩)
      · exact .inr (hr.append new)
  · rw [hlog]
    exact (hi.sent id (hst id h)).append new
  · rw [hlog]
    exact hi.restarts.append hend.started

/-- If the task that is started has been started before, all its updates were lost. -/
theorem PanelInv.restarts_started {cmd : Cmd} {quiet : List Event} {received : Bool}
    (hi : PanelInv known s) (htask : task ∈ s.tasks) (hw : task.status = .waiting)
    (hq : ∀ e ∈ quiet, e.Quiet) : RestartsLost known
      (s.log ++ (quiet ++ [.started task cmd, .status task.id .working received])) := by
  have hold : RestartsLost known (s.log ++ quiet) :=
    hi.restarts.append fun task cmd hm => hq _ hm
  have hsplit : s.log ++ (quiet ++ [.started task cmd, .status task.id .working received]) =
      ((s.log ++ quiet) ++ [.started task cmd]) ++ [.status task.id .working received] := by simp
  rw [hsplit]
  refine RestartsLost.snoc (hold.snoc fun u c he hstarted => ?_) fun u c he _ => by cases he
  cases he
  have hbefore : Started s.log task.id :=
    (started_append.mp hstarted).resolve_right (not_started_of_quiet hq)
  obtain ⟨hk, hl⟩ := hi.fresh task htask hw hbefore
  refine ⟨hk, lost_append.mpr ⟨hl, lost_of_quiet hq⟩, (hi.sent _ hbefore).append _, ?_⟩
  rcases hi.ended _ hbefore with ⟨u, hu, he, hwk⟩ | hr
  · obtain rfl := List.inj_on_of_nodup_map hi.ids.nodup hu htask he
    rw [hw] at hwk
    cases hwk
  · exact hr.append _

/-- The start of the first task. -/
theorem PanelInv.started {received : Bool} (hi : PanelInv known s) (hids : IdsInv s')
    (hs : s.tasks = task :: rest) (ht : s'.tasks = rest ++ [{ task with status := .working }])
    (hlog : s'.log = s.log ++ new) (hev : ∀ e ∈ new, RunEvent i s task e)
    (hsent : .status task.id .working received ∈ new)
    (hrestarts : RestartsLost known (s.log ++ new)) : PanelInv known s' := by
  have hnodup := hi.ids.nodup
  rw [hs] at hnodup
  have hst : ∀ id, id ≠ task.id → Started s'.log id → Started s.log id := fun id hne h => by
    rw [hlog, started_append] at h
    exact h.resolve_right (not_started_other hev hne)
  refine ⟨hids, fun t hm hwt h => ?_, fun id h => ?_, fun id h => ?_, hlog ▸ hrestarts⟩
  · rw [ht] at hm
    rcases List.mem_append.mp hm with hm | hm
    · have hne : t.id ≠ task.id := fun he => not_queued_rest hnodup ⟨t, hm, he⟩
      obtain ⟨hk, hl⟩ := hi.fresh t (hs ▸ List.mem_cons_of_mem _ hm) hwt (hst _ hne h)
      rw [hlog]
      exact ⟨hk, lost_append.mpr ⟨hl, lost_other hev hne⟩⟩
    · obtain rfl := List.mem_singleton.mp hm
      cases hwt
  · rw [ht, hlog]
    by_cases hid : id = task.id
    · exact .inl ((working_started hs).mp (.inl hid))
    · rcases hi.ended id (hst id hid h) with hwk | hr
      · exact .inl ((working_started hs).mp (.inr hwk))
      · exact .inr (hr.append _)
  · rw [hlog]
    by_cases hid : id = task.id
    · exact ⟨received, List.mem_append_right _ (hid ▸ hsent)⟩
    · exact (hi.sent id (hst id hid h)).append _

/-- **A `run_next` starts a task again only after lost updates.** -/
theorem RunNext.panelInv (hi : PanelInv known s) (hs : s.tasks = task :: rest)
    (h : RunNext tz i s task rest s') : PanelInv known s' := by
  have hids := h.idsInv hi.ids hs
  have htask : task ∈ s.tasks := hs ▸ List.mem_cons_self
  have hperm : (rest ++ [task]).Perm s.tasks := by
    rw [hs]
    exact List.perm_append_singleton task rest
  have hnil : ∀ e ∈ ([] : List Event), e.Quiet := fun _ he => by cases he
  obtain ⟨new, hlog, hev, hsame | hend⟩ := h.events
  · -- the task stays in the queue
    have hstays : s.existsTasks.erase task.id ≠ s.existsTasks := fun he =>
      Finset.erase_eq_self.mp he ((hi.ids.existing _).mpr ⟨task, htask, rfl⟩)
    cases h with
    | blocked => exact hi.quiet hids hperm (List.append_nil _).symm hnil
    | @started cmd s1 hw hm =>
      obtain ⟨out, hout, hq⟩ := makeCmd_quiet hm
      have hquiet : ∀ e ∈ out ++ beforeEvents task, e.Quiet := fun e he =>
        (List.mem_append.mp he).elim (hq e) (beforeEvents_quiet e)
      have hnew := hlog
      rw [hout, List.append_assoc] at hnew
      obtain rfl := List.append_cancel_left hnew
      have hsent : Event.status task.id .working i.received ∈ out ++ (beforeEvents task ++
          [.started task cmd, .status task.id .working i.received]) := by simp
      refine hi.started hids hs rfl hlog hev hsent ?_
      rw [← List.append_assoc out]
      exact hi.restarts_started htask hw hquiet
    | rejected => exact absurd hsame hstays
    | lost => exact hi.quiet hids hperm (List.append_nil _).symm hnil
    | running => exact hi.quiet hids hperm rfl outputEvents_quiet
    | completed => exact absurd hsame hstays
  · exact hi.removed hids hs hlog hev hend

theorem importTask_panelInv (hi : PanelInv known s) (hnew : task.id ∉ s.existsTasks)
    (hw : task.status = .waiting)
    (hf : Started s.log task.id → task.id ∉ known ∧ Lost s.log task.id) :
    PanelInv known (importTask task s) := by
  have hperm : (s.tasks ++ [task]).Perm (task :: s.tasks) := List.perm_append_singleton task s.tasks
  refine ⟨hi.ids.imported hnew hw, fun t hm hwt h => ?_, fun id h => ?_, hi.sent, hi.restarts⟩
  · rcases List.mem_append.mp hm with hm | hm
    · exact hi.fresh t hm hwt h
    · obtain rfl := List.mem_singleton.mp hm
      exact hf h
  · refine (hi.ended id h).imp (fun hwk => ?_) fun hr => hr
    exact (working_perm hperm).mpr (working_cons.mpr (.inr hwk))

theorem step_panelInv {o : Op} (hi : PanelInv known s) (hok : Consistent known s o)
    (h : Step tz s o s') : PanelInv known s' := by
  rcases step_cases h with himp | ⟨i, -, hrun⟩
  · refine (importTasks_invariant (P := fun t => PanelInv known t ∧ t.log = s.log) himp
      ⟨hi, rfl⟩ ?_ ?_).1
    · rintro t gslist ⟨⟨hids, hf, he, hsent, hr⟩, hlog⟩
      exact ⟨⟨⟨hids.nodup, hids.pending, hids.existing⟩, hf, he, hsent, hr⟩, hlog⟩
    · rintro e he task t hnew hnum - hfresh ⟨ht, hlog⟩
      obtain ⟨hid, -, hw⟩ := newTask_spec hnew
      refine ⟨importTask_panelInv ht hfresh hw fun hst => ?_, hlog⟩
      rw [hlog] at hst ⊢
      cases o with
      | checkAfterCrash reply =>
        obtain ⟨u, c, hm, -⟩ := hst
        rw [hok.1] at hm
        cases hm
      | update reply => exact hok e he _ hid hnum
      | runNext i => cases he
  · obtain ⟨task, rest, hs, hcase⟩ := runNext_cases hi.ids.pending hrun
    exact hcase.panelInv hi hs

theorem init_panelInv (gslist : GameServersList) : PanelInv known (init gslist) where
  ids := init_idsInv gslist
  fresh := fun _ ht => by cases ht
  ended := fun _ ⟨_, _, hm, _⟩ => by cases hm
  sent := fun _ ⟨_, _, hm, _⟩ => by cases hm
  restarts := fun pre task cmd post h => by simp [init] at h

/-- **A task is started again only after lost updates.** Against a panel that lists a task as
waiting until it has received a status for it, a start of a task that was started before finds
that all its status updates were lost; the ones to working and to its result had been sent. -/
theorem restarts_lost {gslist : GameServersList}
    (h : Run (Step tz) (Consistent known) (init gslist) s) : RestartsLost known s.log := by
  have hinv : PanelInv known s :=
    h.invariant (I := PanelInv known) (init_panelInv gslist) fun _ _ _ hi hok hs =>
      step_panelInv hi hok hs
  exact hinv.restarts

/-! ## A task that is started twice -/

/-- The deletion of server 1 is started and succeeds; both updates of its status are lost. -/
def lostOps : List Op :=
  [.update (some [plainEntry 5 "gsdel" 1 1]), .runNext (plainRun runningPoll false),
    .runNext (plainRun donePoll false)]

/-- The panel lists it again, and it is started again. -/
def againOps : List Op :=
  lostOps ++ [.update (some [plainEntry 5 "gsdel" 1 1])] ++ [.runNext (plainRun runningPoll false)]

theorem run_againOps : Run (Step 0) (Consistent ∅) plainInit (performAll againOps) := by
  have hlist : ∀ s, Lost s.log 5 → Consistent ∅ s (.update (some [plainEntry 5 "gsdel" 1 1])) := by
    intro s hl e he id hid _
    obtain rfl := List.mem_singleton.mp he
    obtain rfl : 5 = id := Except.ok.inj hid
    exact ⟨Finset.notMem_empty _, hl⟩
  have h1 := run_snoc [] _ (.refl plainInit) (hlist _ fun _ _ hm => by cases hm) (by decide)
  have h2 := run_snoc _ (.runNext (plainRun runningPoll false)) h1 trivial (by decide)
  have h3 := run_snoc _ (.runNext (plainRun donePoll false)) h2 trivial (by decide)
  have hlog : (performAll lostOps).log.filter (fun e => e matches .status _ _ _) =
      [.status 5 .working false, .status 5 .success false] := by decide
  have h4 := run_snoc lostOps _ h3 (hlist _ fun st r hm => by
    have hmem : .status 5 st r ∈ (performAll lostOps).log.filter
        (fun e => e matches .status _ _ _) := List.mem_filter.mpr ⟨hm, rfl⟩
    rw [hlog] at hmem
    rcases List.mem_pair.mp hmem with he | he <;> cases he <;> rfl) (by decide)
  exact run_snoc _ (.runNext (plainRun runningPoll false)) h4 trivial (by decide)

theorem restarts_lost_again : RestartsLost ∅ (performAll againOps).log :=
  restarts_lost run_againOps

/-- The deletion is executed twice: neither of its two updates reached the panel. -/
theorem deletion_started_twice :
    ¬ ∀ (tz : Int) (known : Finset Nat) (gslist : GameServersList) (s : GdaemonTasks),
      Run (Step tz) (Consistent known) (init gslist) s → ∀ id,
        s.log.countP (fun e => match e with
          | .started task _ => task.id == id
          | _ => false) ≤ 1 := by
  intro h
  exact absurd (h 0 ∅ _ _ run_againOps 5) (by decide)

end GdaemonTasks

end GameAP
