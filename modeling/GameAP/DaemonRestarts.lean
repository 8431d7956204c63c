import GameAP.DaemonTasks

/-!
# The tasks across the daemon's processes

When a worker ends, the monitor forks another, which starts with an empty queue and asks the panel
once for the tasks that are working. A worker can end at any point, also within a `run_next`
(`Told`). `starts_le`: however often that happens, a task is started at most once more than it was
interrupted and its results were lost, and never after the panel has a result of it.
`none_forgotten`: when the panel has answered both questions of a worker, each pending task is in
its queue, but for those whose result this worker has sent in vain.
-/

namespace GameAP

open Lib GdaemonTasks

/-- The panel does not list a task with such a status. -/
def GdaemonTask.Status.ended (st : GdaemonTask.Status) : Bool := st != .waiting && st != .working

namespace DaemonRestarts

open CheckTasks (Panel)

/-! ## What a log tells about a task -/

def isStart (id : Nat) : Event → Bool
  | .started task _ => task.id == id
  | _ => false

/-- A result of the task, with what the panel has got of it. -/
def isResult (id : Nat) (received : Bool) : Event → Bool
  | .status id' st received' => id' == id && st.ended && received' == received
  | _ => false

def starts (log : List Event) (id : Nat) : Nat := log.countP (isStart id)

def results (received : Bool) (log : List Event) (id : Nat) : Nat :=
  log.countP (isResult id received)

def runningStep (ids : List Nat) : Event → List Nat
  | .started task _ => task.id :: ids
  | .status id st _ => if st.ended then ids.erase id else ids
  | _ => ids

/-- The tasks that have been started and whose result has not been sent. -/
def running (log : List Event) : List Nat := log.foldl runningStep []

/-- No start of the task after a result that the panel has received. -/
def NoneAfter (id : Nat) (log : List Event) : Prop :=
  log.Pairwise fun e e' => isResult id true e = true → isStart id e' = false

/-! ## The processes -/

structure World where
  /-- the worker -/
  loop : CheckTasks.World
  /-- its `check_after_crash` has been answered -/
  asked : Bool
  /-- what the workers before it have told the outside -/
  past : List Event
  /-- what they had running when they ended -/
  interrupted : List Nat

def World.log (w : World) : List Event := w.past ++ w.loop.tasks.log

def boot (gslist : GameServersList) (panel : Panel) : World :=
  { loop := CheckTasks.boot gslist panel, asked := false, past := [], interrupted := [] }

/-- The next worker, when the one before has told so much. -/
def World.restart (w : World) (log : List Event) (gslist : GameServersList) : World :=
  { loop := CheckTasks.boot gslist (w.loop.panel.receive (log.drop w.loop.tasks.log.length))
    asked := false
    past := w.past ++ log
    interrupted := w.interrupted ++ running log }

inductive Label where
  | panel (panel : Panel)
  | loop (l : CheckTasks.Label)
  | restart (log : List Event) (gslist : GameServersList)

/-- The panel has answered `check_after_crash`. -/
def answered : CheckTasks.Label → Bool
  | .checkAfterCrash (some _) => true
  | _ => false

/-- What a worker has told when it ends: between two calls, or before the end of a `run_next`. -/
inductive Told (tz : Int) (w : CheckTasks.World) : List Event → Prop where
  | between : Told tz w w.tasks.log
  | during {i : RunInput} {s : GdaemonTasks} {new : List Event} :
      w.stage = .runNext → w.tasks.empty = false → runNext tz i w.tasks = .ok s →
      w.tasks.log ++ new <+: s.log → Told tz w (w.tasks.log ++ new)

inductive Micro (tz : Int) : World → Label → World → Prop where
  | panel {w : World} (panel : Panel) :
      Micro tz w (.panel panel) { w with loop := { w.loop with panel } }
  | loop {w : World} {l : CheckTasks.Label} {loop : CheckTasks.World} :
      l ≠ .panel → CheckTasks.Micro tz w.loop l loop →
      Micro tz w (.loop l) { w with loop, asked := w.asked || answered l }
  | restart {w : World} {log : List Event} (gslist : GameServersList) :
      Told tz w.loop log → Micro tz w (.restart log gslist) (w.restart log gslist)

def Ended (panel : Panel) (id : Nat) : Prop := ∃ st, panel id = some st ∧ st.ended = true

/-- By itself the panel only adds waiting tasks and ends tasks. One that is deleted counts as
ended. -/
def Fair (panel panel' : Panel) : Prop :=
  ∀ id, panel' id = panel id ∨ (panel id = none ∧ panel' id = some .waiting) ∨ Ended panel' id

def Honest (w : World) : Label → Prop
  | .panel panel => Fair w.loop.panel panel
  | .loop l => CheckTasks.Honest w.loop l
  | .restart _ _ => True

variable {tz : Int} {i : RunInput} {task : GdaemonTask} {rest : List GdaemonTask}
  {s s' : GdaemonTasks} {w w' : World} {id : Nat} {log new : List Event} {panel panel' : Panel}
  {received : Bool}

/-! ## Logs that grow -/

theorem starts_append : starts (log ++ new) id = starts log id + starts new id :=
  List.countP_append

theorem results_append :
    results received (log ++ new) id = results received log id + results received new id :=
  List.countP_append

theorem running_append : running (log ++ new) = new.foldl runningStep (running log) :=
  List.foldl_append

theorem starts_quiet (h : ∀ e ∈ new, e.Quiet) : starts new id = 0 :=
  List.countP_eq_zero.mpr fun e he => by
    have hq := h e he
    cases e <;> first | exact hq.elim | exact Bool.false_ne_true

theorem results_quiet (h : ∀ e ∈ new, e.Quiet) : results received new id = 0 :=
  List.countP_eq_zero.mpr fun e he => by
    have hq := h e he
    cases e <;> first | exact hq.elim | exact Bool.false_ne_true

theorem running_quiet (h : ∀ e ∈ new, e.Quiet) : running (log ++ new) = running log := by
  rw [running_append]
  induction new using List.reverseRecOn with
  | nil => rfl
  | append_singleton new e ih =>
    have hq := h e (by simp)
    rw [List.foldl_append, ih fun e' he' => h e' (List.mem_append_left _ he')]
    cases e <;> first | exact hq.elim | rfl

/-- Each start is running still or has been followed by a result. -/
theorem starts_le_running (log : List Event) (id : Nat) :
    starts log id ≤ (running log).count id + (results true log id + results false log id) := by
  induction log using List.reverseRecOn with
  | nil => exact Nat.le_refl 0
  | append_singleton log e ih =>
    rw [running_append, starts_append, results_append, results_append]
    cases e with
    | started task cmd =>
      have hcount : (task.id :: running log).count id =
          (running log).count id + if task.id == id then 1 else 0 := List.count_cons
      have hstart : starts [.started task cmd] id = if task.id == id then 1 else 0 := by
        simp [starts, isStart]
      show _ ≤ (task.id :: running log).count id + _
      omega
    | status id' st r =>
      have hstart : starts [.status id' st r] id = 0 := rfl
      show _ ≤ (if st.ended then (running log).erase id' else running log).count id + _
      cases hst : st.ended with
      | false =>
        show _ ≤ (running log).count id + _
        omega
      | true =>
        show _ ≤ ((running log).erase id').count id + _
        by_cases hid : id' = id
        · subst hid
          have hresult : results true [.status id' st r] id' +
              results false [.status id' st r] id' = 1 := by
            cases r <;> simp [results, isResult, hst]
          have herase : ((running log).erase id').count id' = (running log).count id' - 1 :=
            List.count_erase_self
          omega
        · have herase : ((running log).erase id').count id = (running log).count id :=
            List.count_erase_of_ne (Ne.symm hid)
          omega
    | completed | installStatus | output => exact ih

theorem NoneAfter.append (h : NoneAfter id log)
    (hnew : starts new id = 0 ∨ results true (log ++ new) id = 0) : NoneAfter id (log ++ new) := by
  rcases hnew with hnone | hnone
  · have hstart : ∀ e ∈ new, isStart id e = false := fun e he =>
      eq_false_of_ne_true (List.countP_eq_zero.mp hnone e he)
    refine List.pairwise_append.mpr ⟨h, ?_, fun e _ e' he' _ => hstart e' he'⟩
    exact List.pairwise_of_forall_mem_list fun e _ e' he' _ => hstart e' he'
  · exact List.pairwise_of_forall_mem_list fun e he e' _ hresult =>
      absurd hresult (List.countP_eq_zero.mp hnone e he)

/-! ## What the panel holds -/

theorem Ended.not_pending (h : Ended panel id) : ¬ panel.Pending id := by
  obtain ⟨st, hst, hended⟩ := h
  rintro (hp | hp) <;> cases hst.symm.trans hp <;> cases hended

theorem receive_append : panel.receive (log ++ new) = (panel.receive log).receive new :=
  List.foldl_append

theorem Ended.fair (h : Ended panel id) (hfair : Fair panel panel') : Ended panel' id := by
  rcases hfair id with hsame | ⟨hnone, -⟩ | hended
  · obtain ⟨st, hst, hended⟩ := h
    exact ⟨st, hsame.trans hst, hended⟩
  · obtain ⟨st, hst, -⟩ := h
    cases hnone.symm.trans hst
  · exact hended

/-- Nothing but the status working takes back what the panel has of a task. -/
theorem receive_ended (hnone : ∀ st r, .status id st r ∈ new → st.ended = true)
    (h : Ended panel id ∨ 0 < results true new id) : Ended (panel.receive new) id := by
  induction new using List.reverseRecOn with
  | nil => exact h.resolve_right (Nat.lt_irrefl 0)
  | append_singleton new e ih =>
    have hbefore : Ended panel id ∨ 0 < results true new id → Ended (panel.receive new) id :=
      ih fun st r hm => hnone st r (List.mem_append_left _ hm)
    rw [receive_append]
    rw [results_append] at h
    cases e with
    | status id' st r =>
      cases r with
      | false =>
        have hlost : results true [.status id' st false] id = 0 := by simp [results, isResult]
        rw [hlost] at h
        exact hbefore h
      | true =>
        show Ended (Function.update (panel.receive new) id' (some st)) id
        by_cases hid : id' = id
        · subst hid
          exact ⟨st, Function.update_self .., hnone st true (by simp)⟩
        · have hother : results true [.status id' st true] id = 0 := by
            simp [results, isResult, hid]
          rw [hother] at h
          obtain ⟨st', hst', hended⟩ := hbefore h
          exact ⟨st', (Function.update_of_ne (Ne.symm hid) ..).trans hst', hended⟩
    | started | completed | installStatus | output => exact hbefore h

/-! ## What a `run_next` tells -/

/-- Nothing about tasks, the start of the first one, or its result. -/
inductive News (s s' : GdaemonTasks) (task : GdaemonTask) (rest : List GdaemonTask) :
    List Event → Prop where
  | nothing {new : List Event} : (∀ e ∈ new, e.Quiet) → s'.tasks = rest ++ [task] →
      s'.existsTasks = s.existsTasks → News s s' task rest new
  | start {quiet : List Event} {cmd : Cmd} {received : Bool} : (∀ e ∈ quiet, e.Quiet) →
      task.status = .waiting → s'.tasks = rest ++ [{ task with status := .working }] →
      s'.existsTasks = s.existsTasks →
      News s s' task rest (quiet ++ [.started task cmd, .status task.id .working received])
  | result {quiet quiet' : List Event} {st : GdaemonTask.Status} {received : Bool} :
      (∀ e ∈ quiet, e.Quiet) → (∀ e ∈ quiet', e.Quiet) → st.ended = true → s'.tasks = rest →
      s'.existsTasks = s.existsTasks.erase task.id →
      News s s' task rest (quiet ++ .status task.id st received :: quiet')

theorem afterEvents_quiet : ∀ e ∈ afterEvents task, e.Quiet := by
  intro e he
  obtain ⟨st, rfl⟩ := mem_afterEvents he
  trivial

theorem completedTask_ended (poll : Poll) : (completedTask poll task).status.ended = true := by
  unfold completedTask
  cases poll.succeeded <;> rfl

theorem news_of_runNext (h : RunNext tz i s task rest s') :
    ∃ new, s'.log = s.log ++ new ∧ News s s' task rest new := by
  have hnil : ∀ e ∈ ([] : List Event), e.Quiet := fun _ he => by cases he
  cases h with
  | blocked | lost => exact ⟨[], (List.append_nil _).symm, .nothing hnil rfl rfl⟩
  | running => exact ⟨_, rfl, .nothing outputEvents_quiet rfl rfl⟩
  | @started cmd s1 hw hm =>
    obtain ⟨out, hout, hq⟩ := makeCmd_quiet hm
    refine ⟨(out ++ beforeEvents task) ++ [.started task cmd, .status task.id .working i.received],
      ?_, ?_⟩
    · show s1.log ++ _ = _
      rw [hout]
      simp
    · exact .start (fun e he => (List.mem_append.mp he).elim (hq e) (beforeEvents_quiet e)) hw rfl
        rfl
  | @rejected s1 hw hm =>
    obtain ⟨out, hout, hq⟩ := makeCmd_quiet hm
    refine ⟨(out ++ [.output task.id "Empty cmd"]) ++ [.status task.id .error i.received], ?_, ?_⟩
    · show s1.log ++ _ = _
      rw [hout]
      simp
    · refine .result (fun e he => ?_) hnil rfl rfl rfl
      rcases List.mem_append.mp he with he | he
      · exact hq e he
      · rw [List.mem_singleton.mp he]
        trivial
  | @completed cmd poll hw _ _ _ =>
    refine ⟨(.completed (completedTask poll task) cmd poll :: afterEvents (completedTask poll task))
      ++ .status task.id (completedTask poll task).status i.received ::
        outputEvents task (finalOutput poll), ?_, ?_⟩
    · show s.log ++ _ ++ _ = _
      simp
    · refine .result (fun e he => ?_) outputEvents_quiet (completedTask_ended poll) rfl rfl
      rcases List.mem_cons.mp he with rfl | he
      · trivial
      · exact afterEvents_quiet e he

/-! ## What holds in every run -/

structure Inv (w : World) : Prop where
  ids : IdsInv w.loop.tasks
  idle : ∀ t ∈ w.loop.tasks.tasks, t.status = .waiting → t.id ∉ running w.loop.tasks.log
  existing : ∀ id ∈ running w.loop.tasks.log, id ∈ w.loop.tasks.existsTasks
  fresh : ∀ id ∈ w.loop.tasks.existsTasks, results true w.log id = 0
  once : ∀ id, (running w.loop.tasks.log).count id + results true w.log id ≤ 1
  ended : ∀ id, 0 < results true w.log id → Ended w.loop.panel id
  past : ∀ id, starts w.past id ≤
    w.interrupted.count id + (results true w.past id + results false w.past id)
  order : ∀ id, NoneAfter id w.log

theorem boot_inv (gslist : GameServersList) (panel : Panel) : Inv (boot gslist panel) where
  ids := init_idsInv gslist
  idle := fun _ ht => by cases ht
  existing := fun _ hm => by cases hm
  fresh := fun _ hm => absurd hm (Finset.notMem_empty _)
  once := fun _ => Nat.zero_le 1
  ended := fun _ h => absurd h (Nat.lt_irrefl 0)
  past := fun _ => Nat.le_refl 0
  order := fun _ => List.Pairwise.nil

/-- The panel's own changes. -/
theorem Inv.changed (hi : Inv w) (hfair : Fair w.loop.panel panel) :
    Inv { w with loop := { w.loop with panel } } :=
  ⟨hi.ids, hi.idle, hi.existing, hi.fresh, hi.once, fun id h => (hi.ended id h).fair hfair, hi.past,
    hi.order⟩

/-- An import tells nothing, and what it queues is pending. -/
theorem Inv.imports {status : GdaemonTask.Status} {entries : List Entry} (hi : Inv w)
    (hids : IdsInv s) (h : importTasks tz status entries w.loop.tasks = .ok s)
    (hpending : ∀ e ∈ entries, ∀ id, e.1.getUInt "id" = .ok id →
      e.1.getUInt "status_num" = .ok status.toNat → w.loop.panel.Pending id)
    (stage : CheckTasks.Stage) (imported : Finset Nat) (asked : Bool) :
    Inv { w with loop := { w.loop with tasks := s, stage, imported }, asked } := by
  have hlog := (CheckTasks.importTasks_grows h).1
  have hnew : w.loop.tasks.existsTasks ⊆ s.existsTasks ∧
      (∀ t ∈ s.tasks, t.status = .waiting → t.id ∉ running w.loop.tasks.log) ∧
      ∀ id ∈ s.existsTasks, results true w.log id = 0 := by
    refine importTasks_invariant (P := fun u => w.loop.tasks.existsTasks ⊆ u.existsTasks ∧
        (∀ t ∈ u.tasks, t.status = .waiting → t.id ∉ running w.loop.tasks.log) ∧
        ∀ id ∈ u.existsTasks, results true w.log id = 0) h
      ⟨Finset.Subset.refl _, hi.idle, hi.fresh⟩ (fun _ _ hu => hu) ?_
    rintro e he task u hnew hnum - hfresh ⟨hsub, hidle, hzero⟩
    refine ⟨hsub.trans (Finset.subset_insert _ _), fun t ht hw => ?_, fun id hm => ?_⟩
    · rcases List.mem_append.mp ht with ht | ht
      · exact hidle t ht hw
      · rw [List.mem_singleton.mp ht]
        exact fun hrun => hfresh (hsub (hi.existing _ hrun))
    · rcases Finset.mem_insert.mp hm with rfl | hm
      · by_contra hne
        refine (hi.ended _ (Nat.pos_of_ne_zero hne)).not_pending ?_
        exact hpending e he _ (newTask_spec hnew).1 hnum
      · exact hzero id hm
  have hworld : ({ w with loop := { w.loop with tasks := s, stage, imported }, asked } :
      World).log = w.log := congrArg (w.past ++ ·) hlog
  refine ⟨hids, ?_, ?_, ?_, ?_, ?_, hi.past, ?_⟩
  · exact fun t ht hw => hlog ▸ hnew.2.1 t ht hw
  · exact fun id hm => hnew.1 (hi.existing id (hlog ▸ hm))
  · exact fun id hm => hworld ▸ hnew.2.2 id hm
  · exact fun id => hworld ▸ hlog ▸ hi.once id
  · exact fun id h => hi.ended id (hworld ▸ h)
  · exact fun id => hworld ▸ hi.order id

/-! ## The three kinds of news -/

section News

variable {quiet quiet' : List Event} {cmd : Cmd} {st : GdaemonTask.Status}

theorem running_start (hq : ∀ e ∈ quiet, e.Quiet) :
    running (log ++ (quiet ++ [.started task cmd, .status task.id .working received])) =
      task.id :: running log := by
  rw [← List.append_assoc, running_append, running_quiet hq]
  rfl

theorem results_start {r : Bool} (hq : ∀ e ∈ quiet, e.Quiet) :
    results r (quiet ++ [.started task cmd, .status task.id .working received]) id = 0 := by
  rw [results_append, results_quiet hq]
  simp [results, isResult, GdaemonTask.Status.ended]

theorem starts_start_other (hq : ∀ e ∈ quiet, e.Quiet) (hne : id ≠ task.id) :
    starts (quiet ++ [.started task cmd, .status task.id .working received]) id = 0 := by
  rw [starts_append, starts_quiet hq]
  simp [starts, isStart, hne.symm]

theorem running_result (hq : ∀ e ∈ quiet, e.Quiet) (hq' : ∀ e ∈ quiet', e.Quiet)
    (hst : st.ended = true) :
    running (log ++ (quiet ++ .status task.id st received :: quiet')) =
      (running log).erase task.id := by
  have hsplit : log ++ (quiet ++ .status task.id st received :: quiet') =
      log ++ quiet ++ [.status task.id st received] ++ quiet' := by simp
  rw [hsplit, running_quiet hq', running_append, running_quiet hq]
  exact if_pos hst

theorem results_result (hq : ∀ e ∈ quiet, e.Quiet) (hq' : ∀ e ∈ quiet', e.Quiet) :
    results true (quiet ++ .status task.id st received :: quiet') id =
      results true [.status task.id st received] id := by
  have hsplit : quiet ++ .status task.id st received :: quiet' =
      quiet ++ [.status task.id st received] ++ quiet' := by simp
  rw [hsplit, results_append, results_append, results_quiet hq, results_quiet hq', Nat.zero_add,
    Nat.add_zero]

theorem results_result_other (hq : ∀ e ∈ quiet, e.Quiet) (hq' : ∀ e ∈ quiet', e.Quiet)
    (hne : id ≠ task.id) :
    results true (quiet ++ .status task.id st received :: quiet') id = 0 := by
  rw [results_result hq hq']
  simp [results, isResult, hne.symm]

theorem results_result_le (hq : ∀ e ∈ quiet, e.Quiet) (hq' : ∀ e ∈ quiet', e.Quiet) :
    results true (quiet ++ .status task.id st received :: quiet') id ≤ 1 := by
  rw [results_result hq hq']
  exact List.countP_le_length

theorem starts_result (hq : ∀ e ∈ quiet, e.Quiet) (hq' : ∀ e ∈ quiet', e.Quiet) :
    starts (quiet ++ .status task.id st received :: quiet') id = 0 := by
  have hsplit : quiet ++ .status task.id st received :: quiet' =
      quiet ++ [.status task.id st received] ++ quiet' := by simp
  rw [hsplit, starts_append, starts_append, starts_quiet hq, starts_quiet hq']
  rfl

end News

/-- The worker after a `run_next` that has told `new`. -/
def World.next (w : World) (s : GdaemonTasks) (stage : CheckTasks.Stage) (new : List Event) :
    World :=
  { w with loop := { w.loop with tasks := s, stage, panel := w.loop.panel.receive new } }

theorem World.log_next {stage : CheckTasks.Stage} (hlog : s.log = w.loop.tasks.log ++ new) :
    (w.next s stage new).log = w.log ++ new := by
  show w.past ++ s.log = w.past ++ w.loop.tasks.log ++ new
  rw [hlog, List.append_assoc]

section First

variable {stage : CheckTasks.Stage} (hi : Inv w) (hids : IdsInv s)
  (hs : w.loop.tasks.tasks = task :: rest) (hlog : s.log = w.loop.tasks.log ++ new)

include hs in
theorem first_mem : task ∈ w.loop.tasks.tasks := hs ▸ List.mem_cons_self

include hi hs in
theorem first_exists : task.id ∈ w.loop.tasks.existsTasks :=
  (hi.ids.existing _).mpr ⟨task, first_mem hs, rfl⟩

include hi hs in
theorem rest_ne {t : GdaemonTask} (ht : t ∈ rest) : t.id ≠ task.id := by
  have hnodup := hi.ids.nodup
  rw [hs] at hnodup
  exact fun he => not_queued_rest hnodup ⟨t, ht, he⟩

include hs in
theorem rest_mem {t : GdaemonTask} (ht : t ∈ rest) : t ∈ w.loop.tasks.tasks :=
  hs ▸ List.mem_cons_of_mem _ ht

include hi hids hs hlog in
theorem Inv.nothing (hq : ∀ e ∈ new, e.Quiet) (htasks : s.tasks = rest ++ [task])
    (hex : s.existsTasks = w.loop.tasks.existsTasks) : Inv (w.next s stage new) := by
  have hrun : running s.log = running w.loop.tasks.log := by rw [hlog, running_quiet hq]
  have hresults : ∀ id, results true (w.next s stage new).log id = results true w.log id :=
    fun id => by rw [World.log_next hlog, results_append, results_quiet hq, Nat.add_zero]
  refine ⟨hids, fun t ht hw => ?_, fun id hm => ?_, fun id hm => ?_, fun id => ?_, fun id hpos => ?_,
    hi.past, fun id => ?_⟩
  · show t.id ∉ running s.log
    rw [hrun]
    refine hi.idle t ?_ hw
    rw [hs]
    exact (List.perm_append_singleton task rest).mem_iff.mp (htasks ▸ ht)
  · exact hex.symm ▸ hi.existing id (hrun ▸ hm)
  · rw [hresults]
    exact hi.fresh id (hex ▸ hm)
  · rw [hresults]
    exact hrun.symm ▸ hi.once id
  · rw [hresults] at hpos
    exact receive_ended (fun st r hm => (hq _ hm).elim) (.inl (hi.ended id hpos))
  · rw [World.log_next hlog]
    exact (hi.order id).append (.inl (starts_quiet hq))

include hi hids hs hlog in
theorem Inv.started {quiet : List Event} {cmd : Cmd}
    (hnew : new = quiet ++ [.started task cmd, .status task.id .working received])
    (hq : ∀ e ∈ quiet, e.Quiet) (hwait : task.status = .waiting)
    (htasks : s.tasks = rest ++ [{ task with status := .working }])
    (hex : s.existsTasks = w.loop.tasks.existsTasks) : Inv (w.next s stage new) := by
  have hrun : running s.log = task.id :: running w.loop.tasks.log := by
    rw [hlog, hnew, running_start hq]
  have hresults : ∀ id, results true (w.next s stage new).log id = results true w.log id :=
    fun id => by rw [World.log_next hlog, results_append, hnew, results_start hq, Nat.add_zero]
  have hfresh := hi.fresh _ (first_exists hi hs)
  have hidle := hi.idle task (first_mem hs) hwait
  refine ⟨hids, fun t ht hw => ?_, fun id hm => ?_, fun id hm => ?_, fun id => ?_, fun id hpos => ?_,
    hi.past, fun id => ?_⟩
  · show t.id ∉ running s.log
    rw [hrun]
    rcases List.mem_append.mp (htasks ▸ ht : t ∈ rest ++ [_]) with ht | ht
    · exact List.not_mem_cons_of_ne_of_not_mem (rest_ne hi hs ht) (hi.idle t (rest_mem hs ht) hw)
    · rw [List.mem_singleton.mp ht] at hw
      cases hw
  · have hm : id ∈ task.id :: running w.loop.tasks.log := hrun ▸ hm
    show id ∈ s.existsTasks
    rw [hex]
    rcases List.mem_cons.mp hm with rfl | hm
    · exact first_exists hi hs
    · exact hi.existing id hm
  · rw [hresults]
    exact hi.fresh id (hex ▸ hm)
  · rw [hresults]
    show (running s.log).count id + _ ≤ 1
    rw [hrun]
    by_cases hid : task.id = id
    · subst hid
      rw [List.count_cons_self, List.count_eq_zero.mpr hidle, hfresh]
    · rw [List.count_cons_of_ne hid]
      exact hi.once id
  · rw [hresults] at hpos
    refine receive_ended (fun st r hm => ?_) (.inl (hi.ended id hpos))
    have hid : id ≠ task.id := by
      rintro rfl
      omega
    rw [hnew] at hm
    rcases List.mem_append.mp hm with hm | hm
    · exact (hq _ hm).elim
    · simp [hid] at hm
  · rw [World.log_next hlog]
    refine (hi.order id).append ?_
    by_cases hid : id = task.id
    · subst hid
      exact .inr (by rw [← World.log_next hlog, hresults, hfresh])
    · exact .inl (hnew ▸ starts_start_other hq hid)

include hi hids hs hlog in
theorem Inv.resulted {quiet quiet' : List Event} {st : GdaemonTask.Status}
    (hnew : new = quiet ++ .status task.id st received :: quiet')
    (hq : ∀ e ∈ quiet, e.Quiet) (hq' : ∀ e ∈ quiet', e.Quiet) (hst : st.ended = true)
    (htasks : s.tasks = rest) (hex : s.existsTasks = w.loop.tasks.existsTasks.erase task.id) :
    Inv (w.next s stage new) := by
  have hrun : running s.log = (running w.loop.tasks.log).erase task.id := by
    rw [hlog, hnew, running_result hq hq' hst]
  have hresults : ∀ id, results true (w.next s stage new).log id =
      results true w.log id + results true new id := fun id => by
    rw [World.log_next hlog, results_append]
  have hother : ∀ id, id ≠ task.id → results true new id = 0 := fun id hid =>
    hnew ▸ results_result_other hq hq' hid
  have hfresh := hi.fresh _ (first_exists hi hs)
  have herase : ((running w.loop.tasks.log).erase task.id).count task.id = 0 := by
    rw [List.count_erase_self]
    have honce := hi.once task.id
    omega
  refine ⟨hids, fun t ht hw => ?_, fun id hm => ?_, fun id hm => ?_, fun id => ?_, fun id hpos => ?_,
    hi.past, fun id => ?_⟩
  · show t.id ∉ running s.log
    rw [hrun]
    have ht : t ∈ rest := htasks ▸ ht
    exact fun hm => hi.idle t (rest_mem hs ht) hw (List.mem_of_mem_erase hm)
  · have hm : id ∈ (running w.loop.tasks.log).erase task.id := hrun ▸ hm
    show id ∈ s.existsTasks
    rw [hex]
    refine Finset.mem_erase.mpr ⟨?_, hi.existing id (List.mem_of_mem_erase hm)⟩
    rintro rfl
    exact List.count_eq_zero.mp herase hm
  · have hm : id ∈ w.loop.tasks.existsTasks.erase task.id := hex ▸ hm
    obtain ⟨hid, hm⟩ := Finset.mem_erase.mp hm
    rw [hresults, hi.fresh id hm, hother id hid]
  · rw [hresults]
    show (running s.log).count id + _ ≤ 1
    rw [hrun]
    by_cases hid : id = task.id
    · subst hid
      rw [herase, hfresh, Nat.zero_add, Nat.zero_add, hnew]
      exact results_result_le hq hq'
    · rw [List.count_erase_of_ne hid, hother id hid, Nat.add_zero]
      exact hi.once id
  · rw [hresults] at hpos
    refine receive_ended (fun st' r hm => ?_) ?_
    · rw [hnew] at hm
      rcases List.mem_append.mp hm with hm | hm
      · exact (hq _ hm).elim
      · rcases List.mem_cons.mp hm with he | hm
        · cases he
          exact hst
        · exact (hq' _ hm).elim
    · rcases Nat.eq_zero_or_pos (results true w.log id) with hzero | hpos'
      · exact .inr (by omega)
      · exact .inl (hi.ended id hpos')
  · rw [World.log_next hlog]
    exact (hi.order id).append (.inl (hnew ▸ starts_result hq hq'))

end First

/-- What a `run_next` keeps. -/
theorem Inv.runNext (hi : Inv w) (hs : w.loop.tasks.tasks = task :: rest)
    (h : RunNext tz i w.loop.tasks task rest s) (stage : CheckTasks.Stage) :
    Inv (w.next s stage (s.log.drop w.loop.tasks.log.length)) := by
  have hids := h.idsInv hi.ids hs
  obtain ⟨new, hlog, hnews⟩ := news_of_runNext h
  rw [hlog, List.drop_left]
  cases hnews with
  | nothing hq htasks hex => exact hi.nothing hids hs hlog hq htasks hex
  | start hq hwait htasks hex => exact hi.started hids hs hlog rfl hq hwait htasks hex
  | result hq hq' hst htasks hex => exact hi.resulted hids hs hlog rfl hq hq' hst htasks hex

/-! ## The end of a worker -/

/-- Of the statuses that a `run_next` sends only the one of a start is no result. -/
theorem News.status (h : News s s' task rest new) {st : GdaemonTask.Status} {r : Bool}
    (hm : .status id st r ∈ new) :
    st.ended = true ∨ id = task.id ∧ results true new id = 0 := by
  cases h with
  | nothing hq => exact (hq _ hm).elim
  | start hq =>
    rcases List.mem_append.mp hm with hm | hm
    · exact (hq _ hm).elim
    · refine .inr ⟨?_, results_start hq⟩
      simp only [List.mem_cons, List.not_mem_nil, or_false, reduceCtorEq, false_or,
        Event.status.injEq] at hm
      exact hm.1
  | result hq hq' hst =>
    rcases List.mem_append.mp hm with hm | hm
    · exact (hq _ hm).elim
    · rcases List.mem_cons.mp hm with he | hm
      · cases he
        exact .inl hst
      · exact (hq' _ hm).elim

theorem results_le (h : log <+: new) : results received log id ≤ results received new id :=
  h.sublist.countP_le

/-- The worker that follows one that has told a part of what it could have told. -/
theorem Inv.cut (hi : Inv w) (hlog : log <+: w.loop.tasks.log)
    (hended : ∀ id, 0 < results true (w.past ++ log) id → Ended panel id)
    (gslist : GameServersList) : Inv
      { loop := CheckTasks.boot gslist panel, asked := false, past := w.past ++ log
        interrupted := w.interrupted ++ running log } := by
  have hworld : w.past ++ log ++ [] <+: w.log := by
    rw [List.append_nil]
    exact (List.prefix_append_right_inj w.past).mpr hlog
  refine ⟨init_idsInv gslist, fun _ ht => absurd ht List.not_mem_nil,
    fun _ hm => absurd hm List.not_mem_nil, fun _ hm => absurd hm (Finset.notMem_empty _),
    fun id => ?_, fun id hpos => ?_, fun id => ?_, fun id => ?_⟩
  · have honce := hi.once id
    have hle := @results_le id _ _ true hworld
    show 0 + results true (w.past ++ log ++ []) id ≤ 1
    omega
  · have hpos : 0 < results true (w.past ++ log ++ []) id := hpos
    rw [List.append_nil] at hpos
    exact hended id hpos
  · have hpast := hi.past id
    have hrunning := starts_le_running log id
    show starts (w.past ++ log) id ≤ (w.interrupted ++ running log).count id + _
    rw [starts_append, results_append, results_append, List.count_append]
    omega
  · exact (hi.order id).sublist hworld.sublist

theorem Inv.restart (hi : Inv w) (h : Told tz w.loop log) (gslist : GameServersList) :
    Inv (w.restart log gslist) := by
  cases h with
  | between =>
    refine hi.cut List.prefix_rfl (fun id hpos => ?_) gslist
    rw [List.drop_length]
    exact hi.ended id hpos
  | @during i s new hstage hne hrun hprefix =>
    obtain ⟨task, rest, hs, hcase⟩ := runNext_cases hi.ids.pending hrun
    have hnext := hi.runNext hs hcase .update
    obtain ⟨all, hlog, hnews⟩ := news_of_runNext hcase
    have hpart : new <+: all := (List.prefix_append_right_inj _).mp (hlog ▸ hprefix)
    refine hnext.cut hprefix (fun id hpos => ?_) gslist
    rw [List.drop_left]
    have hsplit : w.past ++ (w.loop.tasks.log ++ new) = w.log ++ new :=
      (List.append_assoc _ _ _).symm
    have hpos : 0 < results true (w.log ++ new) id := hsplit ▸ hpos
    rw [results_append] at hpos
    refine receive_ended (fun st r hm => ?_) ?_
    · refine (hnews.status (hpart.subset hm)).resolve_right ?_
      rintro ⟨rfl, hnone⟩
      have hle := @results_le task.id _ _ true hpart
      have hfresh := hi.fresh _ (first_exists hi hs)
      omega
    · rcases Nat.eq_zero_or_pos (results true w.log id) with hzero | hpos'
      · exact .inr (by omega)
      · exact .inl (hi.ended id hpos')

/-! ## Every run -/

theorem Inv.micro {l : Label} (hi : Inv w) (hok : Honest w l) (h : Micro tz w l w') : Inv w' := by
  cases h with
  | panel panel => exact hi.changed hok
  | restart gslist htold => exact hi.restart htold gslist
  | @loop l loop hl hm =>
    cases hm with
    | panel => exact absurd rfl hl
    | empty => exact ⟨hi.ids, hi.idle, hi.existing, hi.fresh, hi.once, hi.ended, hi.past, hi.order⟩
    | @checkAfterCrash reply s _ hcheck =>
      have hstep : Step tz w.loop.tasks (.checkAfterCrash reply) s := hcheck
      refine hi.imports (step_idsInv hi.ids hstep) ((step_cases hstep).resolve_right ?_) ?_ _ _ _
      · rintro ⟨i, he, -⟩
        cases he
      · cases reply with
        | none => exact fun _ he => by cases he
        | some entries => exact fun e he id hid hnum => .inr ((hok id).mpr ⟨e, he, hid, hnum⟩)
    | @update reply s _ hupdate =>
      have hstep : Step tz w.loop.tasks (.update reply) s := hupdate
      refine hi.imports (step_idsInv hi.ids hstep) ((step_cases hstep).resolve_right ?_) ?_ _ _ _
      · rintro ⟨i, he, -⟩
        cases he
      · cases reply with
        | none => exact fun _ he => by cases he
        | some entries => exact fun e he id hid hnum => .inl ((hok id).mpr ⟨e, he, hid, hnum⟩)
    | @runNext i s _ _ hrun =>
      obtain ⟨task, rest, hs, hcase⟩ := runNext_cases hi.ids.pending hrun
      have hnext := hi.runNext hs hcase .update
      exact ⟨hnext.ids, hnext.idle, hnext.existing, hnext.fresh, hnext.once, hnext.ended,
        hnext.past, hnext.order⟩

theorem inv_of_run {gslist : GameServersList}
    (h : Run (Micro tz) Honest (boot gslist panel) w) : Inv w :=
  h.invariant (boot_inv gslist panel) fun _ _ _ hi hok hm => hi.micro hok hm

/-- **How often a task is started.** In every run of workers that follow one another, against a
panel that lists what it holds and takes over what it receives: the starts of a task are at most
one more than the ends of workers that interrupted it and the results of it that the panel has not
got, and none comes after a result that it has got. -/
theorem starts_le {gslist : GameServersList} (h : Run (Micro tz) Honest (boot gslist panel) w)
    (id : Nat) :
    starts w.log id ≤ 1 + w.interrupted.count id + results false w.log id ∧ NoneAfter id w.log := by
  have hi := inv_of_run h
  refine ⟨?_, hi.order id⟩
  have hpast := hi.past id
  have hnow := starts_le_running w.loop.tasks.log id
  have honce := hi.once id
  unfold World.log at honce ⊢
  rw [results_append] at honce
  rw [starts_append, results_append]
  omega

/-! ## No task is forgotten -/

/-- An import skips the entry: it names no task, or its server is not found. -/
def Refused (tz : Int) (e : Entry) (s : GdaemonTasks) : Prop :=
  e.1.getString "task" = .ok "" ∨ ∃ serverId gslist,
    (e.1.get "server_id" >>= Json.asLargestUInt) = .ok serverId ∧
      findServer tz e.2 serverId s.gslist = .ok (false, gslist)

/-- One of the entries with this id is skipped so, each in the state that the entries before it
lead to. -/
def RefusesTask (tz : Int) (status : GdaemonTask.Status) (id : Nat) :
    List Entry → GdaemonTasks → Prop
  | [], _ => False
  | e :: rest, s => (e.1.getUInt "id" = .ok id ∧ Refused tz e s) ∨
      ∃ t, importTasks tz status [e] s = .ok t ∧ RefusesTask tz status id rest t

/-- What the panel lists of this task can be queued. -/
def Takes (tz : Int) (id : Nat) (w : World) : Label → Prop
  | .loop (.checkAfterCrash (some entries)) => ¬ RefusesTask tz .working id entries w.loop.tasks
  | .loop (.update (some entries)) => ¬ RefusesTask tz .waiting id entries w.loop.tasks
  | _ => True

theorem importTasks_takes {status : GdaemonTask.Status} {entries : List Entry} {e : Entry}
    (h : importTasks tz status entries s = .ok s') (he : e ∈ entries)
    (hid : e.1.getUInt "id" = .ok id) (hnum : e.1.getUInt "status_num" = .ok status.toNat)
    (htakes : ¬ RefusesTask tz status id entries s) : id ∈ s'.existsTasks := by
  induction entries generalizing s with
  | nil => cases he
  | cons first rest ih =>
    obtain ⟨t, hone, hentry, hrest⟩ := importTasks_cases h
    obtain ⟨hfirst, hothers⟩ := not_or.mp htakes
    rcases List.mem_cons.mp he with rfl | he
    · refine (CheckTasks.importTasks_grows hrest).2 ?_
      have hno : ¬ Refused tz e s := fun hr => hfirst ⟨hid, hr⟩
      cases hentry with
      | skipped hskip =>
        rcases hskip with ⟨id', hid', hm⟩ | hempty | ⟨num, hnum', hne⟩
        · cases hid.symm.trans hid'
          exact hm
        · exact absurd (.inl hempty) hno
        · cases hnum.symm.trans hnum'
          exact absurd rfl hne
      | @noServer jtask r serverId gslist hwanted hfind =>
        obtain ⟨j, hj, hlarge⟩ := hwanted.server
        refine absurd (.inr ⟨serverId, gslist, ?_, hfind⟩) hno
        show (jtask.get "server_id" >>= Json.asLargestUInt) = .ok serverId
        rw [hj]
        exact hlarge
      | @imported jtask r serverId gslist task hwanted hfind hnew hfresh =>
        cases hid.symm.trans (newTask_spec hnew).1
        exact Finset.mem_insert_self _ _
    · exact ih hrest he fun hr => hothers ⟨t, hone, hr⟩

/-- The worker, when it has been told which tasks are working, has each of these in its queue or
has sent its result. -/
def Kept (id : Nat) (w : World) : Prop :=
  w.asked = true → w.loop.panel id = some .working → id ∈ w.loop.tasks.existsTasks ∨
    0 < results true w.loop.tasks.log id + results false w.loop.tasks.log id

theorem Kept.imports {status : GdaemonTask.Status} {entries : List Entry} (hk : Kept id w)
    (h : importTasks tz status entries w.loop.tasks = .ok s) (stage : CheckTasks.Stage)
    (imported : Finset Nat) :
    Kept id { w with loop := { w.loop with tasks := s, stage, imported } } := by
  obtain ⟨hlog, hsub⟩ := CheckTasks.importTasks_grows h
  intro hasked hpanel
  refine (hk hasked hpanel).imp (fun hm => hsub hm) fun hpos => ?_
  show 0 < results true s.log id + results false s.log id
  rw [hlog]
  exact hpos

/-- A status of another task changes nothing for this one. -/
theorem receive_other (h : ∀ st r, .status id st r ∉ new) : panel.receive new id = panel id := by
  induction new using List.reverseRecOn with
  | nil => rfl
  | append_singleton new e ih =>
    have hbefore := ih fun st r hm => h st r (List.mem_append_left _ hm)
    rw [receive_append]
    cases e with
    | status id' st r =>
      cases r with
      | false => exact hbefore
      | true =>
        have hid : id ≠ id' := by
          rintro rfl
          exact h st true (by simp)
        exact (Function.update_of_ne hid ..).trans hbefore
    | started | completed | installStatus | output => exact hbefore

theorem results_pos {st : GdaemonTask.Status} {r : Bool} (hm : .status id st r ∈ new)
    (hst : st.ended = true) : 0 < results true new id + results false new id := by
  have hpos : 0 < results r new id :=
    List.countP_pos_iff.mpr ⟨_, hm, by simp [isResult, hst]⟩
  cases r <;> omega

theorem Kept.runNext (hk : Kept id w) (hi : Inv w) (hs : w.loop.tasks.tasks = task :: rest)
    (h : RunNext tz i w.loop.tasks task rest s) (stage : CheckTasks.Stage) :
    Kept id (w.next s stage (s.log.drop w.loop.tasks.log.length)) := by
  obtain ⟨new, hlog, hnews⟩ := news_of_runNext h
  obtain ⟨new', hlog', hev, -⟩ := h.events
  obtain rfl := List.append_cancel_left (hlog.symm.trans hlog')
  rw [hlog, List.drop_left]
  intro hasked hpanel
  show id ∈ s.existsTasks ∨ 0 < results true s.log id + results false s.log id
  rw [hlog, results_append, results_append]
  by_cases hid : id = task.id
  · rw [hid]
    cases hnews with
    | nothing _ _ hex | start _ _ _ hex => exact .inl (hex ▸ first_exists hi hs)
    | @result quiet quiet' st received _ _ hst =>
      have hmem : .status task.id st received ∈ quiet ++ .status task.id st received :: quiet' := by
        simp
      have hpos := results_pos hmem hst
      exact .inr (by omega)
  · have hsame : w.loop.panel.receive new id = w.loop.panel id := by
      refine receive_other fun st r hm => ?_
      cases hev _ hm
      exact hid rfl
    rcases hk hasked (hsame ▸ hpanel) with hm | hpos
    · refine .inl ?_
      cases hnews with
      | nothing _ _ hex | start _ _ _ hex => exact hex ▸ hm
      | result _ _ _ _ hex => exact hex ▸ Finset.mem_erase.mpr ⟨hid, hm⟩
    · exact .inr (by omega)

theorem Kept.micro {l : Label} (hk : Kept id w) (hi : Inv w) (hok : Honest w l)
    (htakes : Takes tz id w l) (h : Micro tz w l w') : Kept id w' := by
  cases h with
  | panel panel =>
    intro hasked hpanel
    refine hk hasked ?_
    rcases hok id with hsame | ⟨-, hwait⟩ | hended
    · exact hsame ▸ hpanel
    · cases hwait.symm.trans hpanel
    · exact absurd (.inr hpanel) hended.not_pending
  | restart => exact fun hasked => by cases hasked
  | @loop l loop hl hm =>
    cases hm with
    | panel => exact absurd rfl hl
    | empty => simpa [Kept, answered] using hk
    | @checkAfterCrash reply s _ hcheck =>
      cases reply with
      | none =>
        cases hcheck
        simpa [Kept, answered] using hk
      | some entries =>
        intro _ hpanel
        obtain ⟨e, he, hid, hnum⟩ := (hok id).mp hpanel
        exact .inl (importTasks_takes hcheck he hid hnum htakes)
    | @update reply s _ hupdate =>
      have himp : ∃ entries, importTasks tz .waiting entries w.loop.tasks = .ok s := by
        cases reply with
        | none => exact ⟨[], hupdate⟩
        | some entries => exact ⟨entries, hupdate⟩
      obtain ⟨entries, himp⟩ := himp
      simpa [Kept, answered] using hk.imports himp .runNext (w.loop.imported ∪ s.existsTasks)
    | @runNext i s _ _ hrun =>
      obtain ⟨task, rest, hs, hcase⟩ := runNext_cases hi.ids.pending hrun
      simpa [Kept, answered, World.next] using hk.runNext hi hs hcase .update

/-- **No task is forgotten.** In every such run, when a worker whose `check_after_crash` has been
answered gets the list of the waiting tasks, each task that the panel holds as waiting or working,
and whose entries could be queued, is in its queue, or the worker has sent a result of it and the
panel has none. -/
theorem none_forgotten {gslist : GameServersList} {entries : List Entry}
    (h : Run (Micro tz) (fun w l => Honest w l ∧ Takes tz id w l) (boot gslist panel) w)
    (hasked : w.asked = true) (hok : Honest w (.loop (.update (some entries))))
    (htakes : Takes tz id w (.loop (.update (some entries))))
    (hstep : Micro tz w (.loop (.update (some entries))) w')
    (hpending : w'.loop.panel.Pending id) :
    (∃ t ∈ w'.loop.tasks.tasks, t.id = id) ∨
      0 < results false w'.loop.tasks.log id ∧ results true w'.log id = 0 := by
  have hi : Inv w := inv_of_run (h.mono fun _ _ ho => ho.1)
  have hk : Kept id w := by
    refine (h.invariant (I := fun w => Inv w ∧ Kept id w) ⟨boot_inv gslist panel, ?_⟩ ?_).2
    · exact fun hasked => by cases hasked
    · rintro w l w' ⟨hi, hk⟩ ⟨hok, htakes⟩ hm
      exact ⟨hi.micro hok hm, hk.micro hi hok htakes hm⟩
  have hi' := hi.micro hok hstep
  have hk' := hk.micro hi hok htakes hstep
  have hqueued : id ∈ w'.loop.tasks.existsTasks ∨
      0 < results true w'.loop.tasks.log id + results false w'.loop.tasks.log id := by
    cases hstep with
    | loop _ hm =>
      cases hm with
      | update _ hupdate =>
        rcases hpending with hwait | hwork
        · obtain ⟨e, he, hid, hnum⟩ := (hok id).mp hwait
          exact .inl (importTasks_takes hupdate he hid hnum htakes)
        · exact hk' (by rw [hasked]; rfl) hwork
  rcases hqueued with hm | hpos
  · exact .inl ((hi'.ids.existing id).mp hm)
  · have hnone : results true w'.log id = 0 := by
      by_contra hne
      exact (hi'.ended id (Nat.pos_of_ne_zero hne)).not_pending hpending
    rw [World.log, results_append] at hnone
    exact .inr ⟨by omega, by rw [World.log, results_append, hnone]⟩

/-! ## A task that is interrupted -/

/-- Task 4 waits, and there is no other. -/
def waiting4 : Panel := Function.update (fun _ => none) 4 (some .waiting)

def working4 : Panel := Function.update (fun _ => none) 4 (some .working)

theorem lists_none {status : GdaemonTask.Status} (h : ∀ id, panel id ≠ some status) :
    CheckTasks.Lists status panel [] :=
  fun id => iff_of_false (h id) fun ⟨_, he, _⟩ => absurd he List.not_mem_nil

theorem lists_task {status : GdaemonTask.Status}
    (h : panel = Function.update (fun _ => none) 4 (some status)) :
    CheckTasks.Lists status panel [plainEntry 4 "gsstop" 1 status.toNat] := by
  intro id
  rw [h]
  by_cases hid : id = 4
  · subst hid
    refine iff_of_true (Function.update_self ..) ⟨_, List.mem_singleton_self _, rfl, ?_⟩
    cases status <;> rfl
  · rw [Function.update_of_ne hid]
    refine iff_of_false nofun ?_
    rintro ⟨e, he, hread, -⟩
    rw [List.mem_singleton.mp he] at hread
    exact hid (Except.ok.inj hread).symm

theorem takes_task (status : GdaemonTask.Status) :
    ¬ RefusesTask 0 status 4 [plainEntry 4 "gsstop" 1 status.toNat] plainInit := by
  rintro (⟨-, hname | ⟨serverId, gslist, hid, hfind⟩⟩ | ⟨t, -, hno⟩)
  · exact absurd (Except.ok.inj hname) (by decide)
  · obtain rfl : 1 = serverId := Except.ok.inj hid
    have hfound : some true = some false := congrArg (fun r => r.toOption.map Prod.fst) hfind
    cases hfound
  · exact hno

theorem takes_none {status : GdaemonTask.Status} : ¬ RefusesTask tz status id [] s := fun h => h

/-- A run in which what the panel lists of task 4 can be queued. -/
def Reaches (w : World) : Prop :=
  Run (Micro 0) (fun w l => Honest w l ∧ Takes 0 4 w l)
    (boot (GameServersList.plainList [1]) waiting4) w

theorem Reaches.check {entries : List Entry} (h : Reaches w)
    (hstage : w.loop.stage = .checkAfterCrash)
    (hlists : CheckTasks.Lists .working w.loop.panel entries)
    (htakes : ¬ RefusesTask 0 .working 4 entries w.loop.tasks)
    (hcheck : checkAfterCrash 0 (some entries) w.loop.tasks = .ok s) :
    Reaches { w with
      loop := { w.loop with
        tasks := s, stage := .update, imported := w.loop.imported ∪ s.existsTasks }
      asked := w.asked || true } :=
  h.step (i := .loop (.checkAfterCrash (some entries))) ⟨hlists, htakes⟩
    (.loop (fun he => by cases he) (.checkAfterCrash hstage hcheck))

theorem Reaches.update {entries : List Entry} (h : Reaches w) (hstage : w.loop.stage = .update)
    (hlists : CheckTasks.Lists .waiting w.loop.panel entries)
    (htakes : ¬ RefusesTask 0 .waiting 4 entries w.loop.tasks)
    (hupdate : GdaemonTasks.update 0 (some entries) w.loop.tasks = .ok s) :
    Reaches { w with
      loop := { w.loop with
        tasks := s, stage := .runNext, imported := w.loop.imported ∪ s.existsTasks }
      asked := w.asked || false } :=
  h.step (i := .loop (.update (some entries))) ⟨hlists, htakes⟩
    (.loop (fun he => by cases he) (.update hstage hupdate))

theorem Reaches.runNext (h : Reaches w) (hstage : w.loop.stage = .runNext)
    (hne : w.loop.tasks.empty = false) (hrun : GdaemonTasks.runNext 0 i w.loop.tasks = .ok s) :
    Reaches { w with
      loop := { w.loop with
        tasks := s, stage := .update
        panel := w.loop.panel.receive (s.log.drop w.loop.tasks.log.length) }
      asked := w.asked || false } :=
  h.step (i := .loop (.runNext i)) ⟨trivial, trivial⟩
    (.loop (fun he => by cases he) (.runNext hstage hne hrun))

theorem Reaches.restart (h : Reaches w) (gslist : GameServersList) :
    Reaches (w.restart w.loop.tasks.log gslist) :=
  h.step (i := .restart w.loop.tasks.log gslist) ⟨trivial, trivial⟩ (.restart gslist .between)

/-- The first worker starts task 4 and ends; the second has asked for the working tasks. -/
theorem reaches_interrupted : ∃ w, Reaches w ∧
    w.loop.tasks = performAll [.checkAfterCrash (some [plainEntry 4 "gsstop" 1 2])] ∧
    w.loop.panel = working4 ∧ w.loop.stage = .update ∧ w.asked = true ∧ w.interrupted = [4] ∧
    starts w.past 4 = 1 := by
  have hnone : ∀ id, waiting4 id ≠ some .working := by
    intro id
    by_cases hid : id = 4
    · subst hid
      decide
    · rw [waiting4, Function.update_of_ne hid]
      decide
  have hworking : Function.update waiting4 4 (some .working) = working4 :=
    Function.update_idem ..
  have h1 := Reaches.check (.refl _) rfl (lists_none hnone) takes_none
    (eq_ok_resultD plainInit (by decide))
  have h2 := h1.update rfl (lists_task rfl) (takes_task .waiting)
    (eq_ok_resultD plainInit (by decide))
  have h3 := h2.runNext (i := plainRun runningPoll true) rfl (by decide)
    (eq_ok_resultD plainInit (by decide))
  have h4 := (h3.restart (GameServersList.plainList [1])).check rfl (lists_task hworking)
    (takes_task .working) (eq_ok_resultD plainInit (by decide))
  exact ⟨_, h4, rfl, hworking, rfl, rfl, by decide, by decide⟩

theorem none_waiting : CheckTasks.Lists .waiting working4 [] := by
  refine lists_none fun id => ?_
  by_cases hid : id = 4
  · subst hid
    decide
  · rw [working4, Function.update_of_ne hid]
    decide

/-- The second worker starts the task again. -/
theorem starts_le_again : ∃ w : World, starts w.log 4 = 2 ∧ w.interrupted = [4] ∧
    (starts w.log 4 ≤ 1 + w.interrupted.count 4 + results false w.log 4 ∧ NoneAfter 4 w.log) := by
  obtain ⟨w, hw, htasks, hpanel, hstage, hasked, hinterrupted, hstarts⟩ := reaches_interrupted
  have h1 := hw.update (s := w.loop.tasks) hstage (hpanel ▸ none_waiting) takes_none rfl
  have h2 := h1.runNext (i := plainRun runningPoll true) rfl (by rw [htasks]; decide)
    (by rw [htasks]; exact eq_ok_resultD plainInit (by decide))
  refine ⟨_, ?_, ?_, starts_le (h2.mono fun _ _ ho => ho.1) 4⟩
  · rw [World.log, starts_append, hstarts]
    show 1 + starts (performAll [.checkAfterCrash (some [plainEntry 4 "gsstop" 1 2]),
      .runNext (plainRun runningPoll true)]).log 4 = 2
    decide
  · exact hinterrupted

theorem none_forgotten_again : ∃ w : World, w.asked = true ∧ w.interrupted = [4] ∧
    ((∃ t ∈ w.loop.tasks.tasks, t.id = 4) ∨
      0 < results false w.loop.tasks.log 4 ∧ results true w.log 4 = 0) := by
  obtain ⟨w, hw, htasks, hpanel, hstage, hasked, hinterrupted, -⟩ := reaches_interrupted
  have hstep : Micro 0 w (.loop (.update (some []))) _ :=
    .loop (fun he => by cases he) (.update (s := w.loop.tasks) hstage rfl)
  have hlists : CheckTasks.Lists .waiting w.loop.panel [] := hpanel ▸ none_waiting
  refine ⟨_, ?_, ?_, none_forgotten hw hasked hlists takes_none hstep (.inr ?_)⟩
  · rw [hasked]
    rfl
  · exact hinterrupted
  · show w.loop.panel 4 = some .working
    rw [hpanel]
    decide

end DaemonRestarts

end GameAP
