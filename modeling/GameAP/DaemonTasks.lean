import GameAP.Classes.GdaemonTasksProgress
import GameAP.Classes.GdaemonTasksRestart

/-!
# The loop of the tasks

`check_tasks` asks the panel once for the tasks that were working when the daemon stopped, and
then calls `update` and `run_next` in turn. The panel may change at any time, and it takes over
the statuses that it receives. A task waits for its predecessor as long as that is in the queue,
so for one that no import has taken it does not wait at all. `start_waits_iff`: where the panel
holds the predecessor of a task that is being started as pending, the daemon has completed it
exactly when it has imported it.
-/

namespace GameAP

open Lib GdaemonTasks

namespace CheckTasks

/-- The statuses of the tasks, as the panel holds them. -/
abbrev Panel := Nat → Option GdaemonTask.Status

/-- The panel takes over the statuses that it receives. -/
def Panel.receive (panel : Panel) (events : List Event) : Panel :=
  events.foldl (fun panel e => match e with
    | .status id st true => Function.update panel id (some st)
    | _ => panel) panel

def Panel.Pending (panel : Panel) (id : Nat) : Prop :=
  panel id = some .waiting ∨ panel id = some .working

instance (panel : Panel) (id : Nat) : Decidable (panel.Pending id) :=
  inferInstanceAs (Decidable (_ ∨ _))

/-- What the loop does next. -/
inductive Stage where
  | checkAfterCrash
  | update
  | runNext
  deriving DecidableEq, Repr

structure World where
  tasks : GdaemonTasks
  panel : Panel
  stage : Stage
  /-- all that have been imported -/
  imported : Finset Nat

def boot (gslist : GameServersList) (panel : Panel) : World :=
  { tasks := .init gslist, panel, stage := .checkAfterCrash, imported := ∅ }

inductive Label where
  | panel
  | checkAfterCrash (reply : Option (List Entry))
  | update (reply : Option (List Entry))
  | empty
  | runNext (i : RunInput)

/-- One step of the loop, or a change of the panel. -/
inductive Micro (tz : Int) : World → Label → World → Prop where
  | panel {w : World} (panel : Panel) : Micro tz w .panel { w with panel }
  | checkAfterCrash {w : World} {reply : Option (List Entry)} {s : GdaemonTasks} :
      w.stage = .checkAfterCrash → checkAfterCrash tz reply w.tasks = .ok s →
      Micro tz w (.checkAfterCrash reply) { w with
        tasks := s, stage := .update, imported := w.imported ∪ s.existsTasks }
  | update {w : World} {reply : Option (List Entry)} {s : GdaemonTasks} :
      w.stage = .update → update tz reply w.tasks = .ok s →
      Micro tz w (.update reply) { w with
        tasks := s, stage := .runNext, imported := w.imported ∪ s.existsTasks }
  | empty {w : World} : w.stage = .runNext → w.tasks.empty = true →
      Micro tz w .empty { w with stage := .update }
  | runNext {w : World} {i : RunInput} {s : GdaemonTasks} :
      w.stage = .runNext → w.tasks.empty = false → runNext tz i w.tasks = .ok s →
      Micro tz w (.runNext i) { w with
        tasks := s, stage := .update
        panel := w.panel.receive (s.log.drop w.tasks.log.length) }

/-- The `run_next` that comes next calls `start` for this task. -/
def Starts (w : World) (task : GdaemonTask) : Prop :=
  w.stage = .runNext ∧ Calls w.tasks task ∧ task.status = .waiting

variable {tz : Int} {i : RunInput} {task : GdaemonTask} {s s' : GdaemonTasks} {w w' : World}

/-! ## What holds in every run -/

/-- What has been imported is in the queue or has ended, and nothing else. -/
structure Inv (w : World) : Prop where
  ids : IdsInv w.tasks
  kept : ∀ id ∈ w.imported, id ∈ w.tasks.existsTasks ∨ SentResult w.tasks.log id
  existing : ∀ id ∈ w.tasks.existsTasks, id ∈ w.imported
  ended : ∀ id, SentResult w.tasks.log id → id ∈ w.imported

theorem boot_inv (gslist : GameServersList) (panel : Panel) : Inv (boot gslist panel) where
  ids := init_idsInv gslist
  kept := fun id h => absurd h (Finset.notMem_empty id)
  existing := fun id h => absurd h (Finset.notMem_empty id)
  ended := fun id ⟨_, _, hm, _⟩ => by cases hm

/-- An import leaves the log as it is, and no id leaves `exists_tasks`. -/
theorem importTasks_grows {status : GdaemonTask.Status} {entries : List Entry}
    (h : importTasks tz status entries s = .ok s') :
    s'.log = s.log ∧ s.existsTasks ⊆ s'.existsTasks := by
  refine importTasks_invariant (P := fun t => t.log = s.log ∧ s.existsTasks ⊆ t.existsTasks) h
    ⟨rfl, Finset.Subset.refl _⟩ (fun t gslist ht => ht) ?_
  rintro e - task t - - - - ⟨hlog, hsub⟩
  exact ⟨hlog, hsub.trans (Finset.subset_insert _ _)⟩

theorem Inv.imports (hi : Inv w) {status : GdaemonTask.Status} {entries : List Entry}
    (hids : IdsInv s) (h : importTasks tz status entries w.tasks = .ok s) (stage : Stage) :
    Inv { w with tasks := s, stage, imported := w.imported ∪ s.existsTasks } := by
  obtain ⟨hlog, hsub⟩ := importTasks_grows h
  refine ⟨hids, fun id hm => ?_, fun id hm => Finset.mem_union_right _ hm, fun id hr => ?_⟩
  · rcases Finset.mem_union.mp hm with hm | hm
    · rw [hlog]
      exact (hi.kept id hm).imp_left fun hex => hsub hex
    · exact .inl hm
  · rw [hlog] at hr
    exact Finset.mem_union_left _ (hi.ended id hr)

theorem Inv.runNext (hi : Inv w) (h : GdaemonTasks.runNext tz i w.tasks = .ok s) (panel : Panel)
    (stage : Stage) : Inv { w with tasks := s, stage, panel } := by
  obtain ⟨task, rest, hs, hcase⟩ := runNext_cases hi.ids.pending h
  obtain ⟨new, hlog, hev, hex⟩ := hcase.events
  have htask : task.id ∈ w.tasks.existsTasks :=
    (hi.ids.existing _).mpr ⟨task, hs ▸ List.mem_cons_self, rfl⟩
  have hsub : s.existsTasks ⊆ w.tasks.existsTasks := by
    rcases hex with he | hend
    · rw [he]
    · rw [hend.existing]
      exact Finset.erase_subset _ _
  refine ⟨hcase.idsInv hi.ids hs, fun id hm => ?_, fun id hm => hi.existing id (hsub hm),
    fun id hr => ?_⟩
  · rw [hlog]
    rcases hi.kept id hm with hin | hr
    · rcases hex with he | hend
      · exact .inl (he ▸ hin)
      · by_cases hid : id = task.id
        · exact .inr (sentResult_append.mpr (.inr (hid ▸ hend.result)))
        · exact .inl (hend.existing ▸ Finset.mem_erase.mpr ⟨hid, hin⟩)
    · exact .inr (hr.append new)
  · rw [hlog] at hr
    rcases sentResult_append.mp hr with hr | ⟨st, r, hm, -⟩
    · exact hi.ended id hr
    · -- a status of another task is not sent
      have hid : id = task.id := by
        cases hev _ hm
        rfl
      rw [hid]
      exact hi.existing _ htask

/-- **What a step keeps.** -/
theorem Inv.micro {l : Label} (hi : Inv w) (h : Micro tz w l w') : Inv w' := by
  cases h with
  | panel => exact ⟨hi.ids, hi.kept, hi.existing, hi.ended⟩
  | @checkAfterCrash reply s _ hcheck =>
    have hstep : Step tz w.tasks (.checkAfterCrash reply) s := hcheck
    rcases step_cases hstep with himp | ⟨i, he, -⟩
    · exact hi.imports (step_idsInv hi.ids hstep) himp _
    · cases he
  | @update reply s _ hupdate =>
    have hstep : Step tz w.tasks (.update reply) s := hupdate
    rcases step_cases hstep with himp | ⟨i, he, -⟩
    · exact hi.imports (step_idsInv hi.ids hstep) himp _
    · cases he
  | empty => exact ⟨hi.ids, hi.kept, hi.existing, hi.ended⟩
  | runNext _ _ hrun => exact hi.runNext hrun _ _

/-! ## The predecessor of a task that is started -/

/-- **What a start has waited for.** Whenever, in any run of the loop, `start` is called for a
task with a predecessor, it is true that the daemon has completed this predecessor if the panel
holds it as waiting or working, exactly when it is true that the daemon has imported it if the
panel holds it so. -/
theorem start_waits_iff {ok : World → Label → Prop} {gslist : GameServersList} {panel : Panel}
    (h : Run (Micro tz) ok (boot gslist panel) w) (hs : Starts w task) (hne : task.runAftId ≠ 0) :
    (w.panel.Pending task.runAftId → SentResult w.tasks.log task.runAftId) ↔
      (w.panel.Pending task.runAftId → task.runAftId ∈ w.imported) := by
  have hi : Inv w := h.invariant (boot_inv gslist panel) fun _ _ _ hi _ hm => hi.micro hm
  obtain ⟨rest, -, hb⟩ := hs.2.1.not_blocked
  have hout : task.runAftId ∉ w.tasks.existsTasks := fun hex =>
    hb ⟨Nat.pos_of_ne_zero hne, hex⟩
  refine imp_congr_right fun _ => ⟨hi.ended _, fun hm => ?_⟩
  exact (hi.kept _ hm).resolve_left hout

/-! ## Two runs of the loop -/

/-- A round of the loop. -/
theorem run_round {ok : World → Label → Prop} {w0 : World} {reply : Option (List Entry)}
    {t : GdaemonTasks} (h : Run (Micro tz) ok w0 w) (hu : ok w (.update reply))
    (hr : ∀ w, ok w (.runNext i)) (hstage : w.stage = .update)
    (hupdate : update tz reply w.tasks = .ok s) (hne : s.empty = false)
    (hrun : runNext tz i s = .ok t) : Run (Micro tz) ok w0 { w with
      tasks := t, imported := w.imported ∪ s.existsTasks
      panel := w.panel.receive (t.log.drop s.log.length) } := by
  have h1 := (h.step hu (.update hstage hupdate)).step (hr _) (.runNext rfl hne hrun)
  rw [← hstage] at h1
  exact h1

/-- The task that waits for task 4. -/
def laterTask : GdaemonTask :=
  { id := 5, runAftId := 4, serverId := 1, task := "gsstart", cmd := "", status := .waiting }

theorem laterTask_called (hs : s.tasks = [laterTask]) (hb : ¬ Blocked s laterTask) :
    Calls s laterTask := calls_of_not_blocked hs (.inl rfl) hb

/-- Task 4 was working when the daemon stopped. -/
def crashed : Panel := fun id =>
  if id = 4 then some .working else if id = 5 then some .waiting else none

/-- The daemon executes task 4 again, its result is lost, and then task 5 is started. -/
theorem start_waits_lost : SentResult (performAll [
    .checkAfterCrash (some [plainEntry 4 "gsstop" 1 2]), .update (some []),
    .runNext (plainRun runningPoll true), .update (some []), .runNext (plainRun donePoll false),
    .update (some [laterEntry 5 4])]).log 4 := by
  have h1 : Run (Micro 0) Any (boot (GameServersList.plainList [1]) crashed) _ :=
    (Run.refl _).step (i := Label.checkAfterCrash (some [plainEntry 4 "gsstop" 1 2])) trivial
      (.checkAfterCrash rfl (eq_ok_resultD plainInit (by decide)))
  have h2 := run_round (i := plainRun runningPoll true) h1 trivial (fun _ => trivial) rfl
    (eq_ok_resultD plainInit (by decide : (update 0 (some []) _).toBool = true)) (by decide)
    (eq_ok_resultD plainInit (by decide))
  have h3 := run_round (i := plainRun donePoll false) h2 trivial (fun _ => trivial) rfl
    (eq_ok_resultD plainInit (by decide : (update 0 (some []) _).toBool = true)) (by decide)
    (eq_ok_resultD plainInit (by decide))
  have h4 := h3.step (i := Label.update (some [laterEntry 5 4])) trivial
    (.update rfl (eq_ok_resultD plainInit (by decide)))
  have hs := @start_waits_iff 0 laterTask _ _ _ _ h4
    ⟨rfl, laterTask_called (by decide) (by decide), rfl⟩ (by decide)
  exact hs.mpr (fun _ => by decide) (by decide)

/-- The entries are those of the tasks that the panel holds with this status. -/
def Lists (status : GdaemonTask.Status) (panel : Panel) (entries : List Entry) : Prop :=
  ∀ id, panel id = some status ↔ ∃ e ∈ entries, e.1.getUInt "id" = .ok id ∧
    e.1.getUInt "status_num" = .ok status.toNat

/-- The panel answers with the list that is asked for, or not at all. -/
def Honest (w : World) : Label → Prop
  | .checkAfterCrash (some entries) => Lists .working w.panel entries
  | .update (some entries) => Lists .waiting w.panel entries
  | _ => True

/-- The daemon could not ask for the working tasks, and starts task 5 while the panel holds
task 4 as working. -/
theorem start_not_waiting :
    ¬ ∀ (tz : Int) (gslist : GameServersList) (panel : Panel) (w : World) (task : GdaemonTask),
      Run (Micro tz) Honest (boot gslist panel) w → Starts w task → task.runAftId ≠ 0 →
        w.panel.Pending task.runAftId → SentResult w.tasks.log task.runAftId := by
  intro h
  have hlists : Lists .waiting crashed [laterEntry 5 4] := by
    intro id
    constructor
    · intro hw
      by_cases h5 : id = 5
      · subst h5
        exact ⟨_, List.mem_cons_self, rfl, rfl⟩
      · by_cases h4 : id = 4
        · subst h4
          cases hw
        · simp [crashed, h4, h5] at hw
    · rintro ⟨e, he, hid, -⟩
      obtain rfl := List.mem_singleton.mp he
      cases hid
      rfl
  have h1 : Run (Micro 0) Honest (boot (GameServersList.plainList [1]) crashed) _ :=
    (Run.refl _).step (i := Label.checkAfterCrash none) trivial
      (.checkAfterCrash rfl (eq_ok_resultD plainInit (by decide)))
  have h2 := h1.step (i := Label.update (some [laterEntry 5 4])) hlists
    (.update rfl (eq_ok_resultD plainInit (by decide)))
  obtain ⟨st, r, hm, -⟩ := h 0 _ _ _ laterTask h2
    ⟨rfl, laterTask_called (by decide) (by decide), rfl⟩ (by decide) (.inr rfl)
  cases hm

end CheckTasks

end GameAP
