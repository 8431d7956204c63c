import GameAP.Classes.ServersTasksBookkeeping
import Mathlib.Data.List.Chain

/-!
# How often a task is read from the panel

`run_next` reads the task on top again once the last time is more than `cache_ttl` ago. The time of
the last sync is inserted into `last_sync` and never replaced, so from then on it is that of the
first one since the task was completed. `Watched` remembers when `run_next` has come upon one task;
`syncs_apart_iff` says from these times when its syncs lie far enough apart.
-/

namespace GameAP

open Lib

namespace ServersTasks

/-! ## The history of one task -/

/-- A `run_next` that finds the task on top, and whether it calls `sync_from_api`. -/
structure Visit where
  now : Int
  called : Bool
  deriving DecidableEq

/-- The scheduler and the visits of one task: those of each of its executions that has been
completed, and those since. -/
structure Watched where
  tasks : ServersTasks
  past : List (List Visit)
  current : List Visit

def Watched.executions (w : Watched) : List (List Visit) := w.past ++ [w.current]

def watchInit (gslist : GameServersList) : Watched :=
  { tasks := init gslist, past := [], current := [] }

/-- The task is found completed. -/
def completes (id : Nat) : Event → Bool
  | .completed task _ _ => task.id == id
  | _ => false

/-- A `run_next` is entered, whether or not it returns. -/
def visit (id : Nat) (i : RunInput) (w : Watched) : Watched :=
  match w.tasks.tasks[0]? with
  | none => w
  | some top =>
    if top.id = id then
      { w with current := w.current ++ [{ now := i.now, called := needsSync i.now id w.tasks }] }
    else w

/-- A step has led to `s'`: an execution ends if it completes the task. -/
def settle (id : Nat) (s' : ServersTasks) (w : Watched) : Watched :=
  if (s'.log.drop w.tasks.log.length).any (completes id) then
    { tasks := s', past := w.past ++ [w.current], current := [] }
  else { w with tasks := s' }

/-- A step of the scheduler, and what it adds to the history. -/
inductive Watch (tz : Int) (id : Nat) : Watched → Op → Watched → Prop where
  | update {w : Watched} {s' : ServersTasks} {reply : Option Json} :
      Turn tz w.tasks (.update reply) s' → Watch tz id w (.update reply) (settle id s' w)
  | runNext {w : Watched} {s' : ServersTasks} {asked : Int} {i : RunInput} :
      Turn tz w.tasks (.runNext asked i) s' →
      Watch tz id w (.runNext asked i) (settle id s' (visit id i w))

/-- They lie more than `cache_ttl` seconds apart. -/
def Apart (times : List Int) : Prop := times.IsChain fun a b => cacheTtl < |b - a|

/-- The times of the calls of `sync_from_api`. -/
def calls (visits : List Visit) : List Int := (visits.filter Visit.called).map Visit.now

/-- The times of the visits more than `cache_ttl` seconds after the first. -/
def late (visits : List Visit) : List Int :=
  match visits with
  | [] => []
  | first :: rest => (rest.map Visit.now).filter fun time => decide (first.now + cacheTtl < time)

/-- In no execution of the task two consecutive syncs lie too close. -/
def Watched.SyncsApart (w : Watched) : Prop := ∀ visits ∈ w.executions, Apart (calls visits)

/-- In no execution of the task two consecutive late visits lie too close. -/
def Watched.LateApart (w : Watched) : Prop := ∀ visits ∈ w.executions, Apart (late visits)

variable {tz : Int} {id : Nat} {i : RunInput} {task top : ServerTask} {s s' s1 : ServersTasks}
  {w w' : Watched} {visits : List Visit}

@[simp] theorem settle_tasks : (settle id s' w).tasks = s' := by
  unfold settle; split <;> rfl

@[simp] theorem visit_tasks : (visit id i w).tasks = w.tasks := by
  unfold visit
  split
  · rfl
  · split <;> rfl

/-- Every run of the scheduler is that of a watched one. -/
theorem watched_of_run {gslist : GameServersList} (id : Nat)
    (h : Run (Turn tz) Any (init gslist) s) :
    ∃ w, Run (Watch tz id) Any (watchInit gslist) w ∧ w.tasks = s := by
  induction h with
  | refl => exact ⟨_, .refl _, rfl⟩
  | @step s s' o _ _ hstep ih =>
    obtain ⟨w, hw, rfl⟩ := ih
    cases o with
    | update reply => exact ⟨_, hw.step trivial (.update hstep), settle_tasks⟩
    | runNext asked i => exact ⟨_, hw.step trivial (.runNext hstep), settle_tasks⟩

/-! ## The last sync -/

/-- The first visit calls `sync_from_api`, and so do exactly the late ones after it. -/
def Marked (visits : List Visit) : Prop :=
  ∀ first rest, visits = first :: rest →
    first.called = true ∧ ∀ v ∈ rest, v.called = decide (first.now + cacheTtl < v.now)

structure SyncInv (id : Nat) (w : Watched) : Prop where
  pending : Pending w.tasks
  /-- the last sync is the first of the execution -/
  last : w.tasks.lastSync.lookup id = w.current.head?.map Visit.now
  marked : ∀ visits ∈ w.executions, Marked visits

theorem Marked.calls_eq (h : Marked visits) :
    calls visits = (visits.head?.map Visit.now).toList ++ late visits := by
  cases visits with
  | nil => rfl
  | cons first rest =>
    obtain ⟨hfirst, hrest⟩ := h first rest rfl
    have hlate : late (first :: rest) =
        (rest.filter fun v => decide (first.now + cacheTtl < v.now)).map Visit.now :=
      List.filter_map
    unfold calls
    rw [hlate, List.filter_cons_of_pos hfirst, List.filter_congr hrest]
    rfl

theorem Marked.apart_iff (h : Marked visits) : Apart (calls visits) ↔ Apart (late visits) := by
  rw [h.calls_eq]
  cases visits with
  | nil => exact Iff.rfl
  | cons first rest =>
    refine List.isChain_cons (x := first.now).trans (and_iff_right fun time htime => ?_)
    have hlate := List.of_mem_filter (List.mem_of_mem_head? htime)
    have hfar : cacheTtl < time - first.now := by
      have := of_decide_eq_true hlate
      omega
    exact lt_of_lt_of_le hfar (le_abs_self _)

theorem marked_append {now : Int} (h : Marked visits)
    (hlast : s.lastSync.lookup id = visits.head?.map Visit.now) :
    Marked (visits ++ [{ now, called := needsSync now id s }]) := by
  intro first rest heq
  unfold needsSync at heq
  rw [hlast] at heq
  cases visits with
  | nil =>
    cases heq
    exact ⟨rfl, nofun⟩
  | cons first' rest' =>
    obtain ⟨hfirst, hrest⟩ := h first' rest' rfl
    cases heq
    refine ⟨hfirst, fun v hv => ?_⟩
    rcases List.mem_append.mp hv with hv | hv
    · exact hrest v hv
    · rw [List.mem_singleton.mp hv]
      exact decide_eq_decide.mpr
        (show first.now < now - cacheTtl ↔ first.now + cacheTtl < now by omega)

theorem visit_marked (hi : SyncInv id w) : ∀ visits ∈ (visit id i w).executions, Marked visits := by
  unfold visit
  split
  · exact hi.marked
  · split
    · intro visits hv
      rcases List.mem_append.mp hv with hv | hv
      · exact hi.marked visits (List.mem_append_left _ hv)
      · rw [List.mem_singleton.mp hv]
        exact marked_append (hi.marked _ (List.mem_append_right _ (List.mem_singleton_self _)))
          hi.last
    · exact hi.marked

/-! ## Steps -/

theorem lookup_refreshed : (refreshed i task s).lastSync.lookup id =
    if task.id = id then some ((s.lastSync.lookup id).getD i.now) else s.lastSync.lookup id := by
  show (s.lastSync.emplace task.id i.now).lookup id = _
  split
  · next h =>
    subst h
    unfold Table.emplace
    split
    · next hmem =>
      obtain ⟨time, htime⟩ := Table.exists_lookup hmem
      rw [htime]
      rfl
    · next hmem => rw [AList.lookup_insert, AList.lookup_eq_none.mpr hmem]; rfl
  · next h => exact Table.lookup_emplace_ne (Ne.symm h)

/-- A refresh leaves the first sync of the task on top. -/
theorem refresh_lastSync (h : refresh tz i top s = .ok (task, s1)) :
    s1.lastSync.lookup id =
      if top.id = id then some ((s.lastSync.lookup id).getD i.now)
      else s.lastSync.lookup id := by
  rcases refresh_cases h with ⟨hno, rfl, rfl⟩ | ⟨-, hsync, rfl⟩
  · split
    · next hid =>
      subst hid
      unfold needsSync at hno
      split at hno
      · cases hno
      · next time htime => rw [htime]; rfl
    · rfl
  · rw [lookup_refreshed, (syncFromApi_same hsync).1]

theorem any_completes_beforeEvents : (beforeEvents task).any (completes id) = false := by
  unfold beforeEvents
  split <;> rfl

theorem any_completes_completeEvents {poll : Poll} {diff : Int} {cmd : GameServerCmd} :
    (completeEvents i poll diff task cmd).any (completes id) = (task.id == id) := by
  have hafter (t : ServerTask) : (afterEvents t).any (completes id) = false := by
    unfold afterEvents
    split
    · split <;> rfl
    · split <;> rfl
    · split <;> rfl
    · rfl
  unfold completeEvents
  simp only [List.any_append, hafter, List.any_cons, List.any_nil, completes, Bool.or_false]
  split <;> simp [completes]

theorem finishState_lookup : (finishState task s).lastSync.lookup id =
    if task.id = id then none else s.lastSync.lookup id := by
  have hrequeue : (requeue task s).lastSync = s.lastSync := by
    unfold requeue
    split <;> rfl
  show ((requeue task s).lastSync.erase task.id).lookup id = _
  rw [hrequeue]
  split
  · next h => rw [h, AList.lookup_erase]
  · next h => exact AList.lookup_erase_ne (Ne.symm h)

/-- The last sync is forgotten exactly if the task is completed. -/
theorem RunTask.lastSync (h : RunTask tz i task s s') (id : Nat) : ∃ new, s'.log = s.log ++ new ∧
    s'.lastSync.lookup id =
      if new.any (completes id) then none else s.lastSync.lookup id := by
  cases h with
  | exhausted => exact ⟨[], (List.append_nil _).symm, rfl⟩
  | started =>
    refine ⟨_, startState_log.trans (List.append_assoc _ _ _), ?_⟩
    rw [List.any_append, any_completes_beforeEvents]
    unfold startState
    rw [beforeCmd_eq]
    rfl
  | running => exact ⟨[], (List.append_nil _).symm, rfl⟩
  | completed =>
    refine ⟨_, finishState_log.trans proceedState_log, ?_⟩
    rw [finishState_lookup, any_completes_completeEvents, proceedState_eq]
    simp only [beq_iff_eq]
    rfl

/-- A `run_next` keeps the time of the first sync until the task is completed. -/
theorem runNext_lastSync (hp : Pending s) (h : runNext tz i s = .ok s') (id : Nat) :
    ∃ top new, s.tasks[0]? = some top ∧ s'.log = s.log ++ new ∧
      s'.lastSync.lookup id =
        if new.any (completes id) then none
        else if top.id = id then some ((s.lastSync.lookup id).getD i.now)
        else s.lastSync.lookup id := by
  obtain ⟨top, task, s1, htop, hr, ⟨-, rfl⟩ | ⟨-, hrun⟩⟩ := runNext_run hp h
  · refine ⟨top, [], htop, ?_, refresh_lastSync hr⟩
    rw [(refresh_frame hr).log, List.append_nil]
  · obtain ⟨new, hlog, hlast⟩ := hrun.lastSync id
    refine ⟨top, new, htop, ?_, ?_⟩
    · rw [hlog]
      exact congrArg (· ++ new) (refresh_frame hr).log
    · rw [hlast, ← refresh_lastSync hr]
      rfl

theorem update_lastSync {reply : Option Json} (h : update tz reply s = .ok s') :
    s'.log = s.log ∧ s'.lastSync = s.lastSync := by
  cases reply with
  | none => cases h; exact ⟨rfl, rfl⟩
  | some jvalue =>
    exact addTasks_invariant (P := fun u => u.log = s.log ∧ u.lastSync = s.lastSync) h ⟨rfl, rfl⟩
      fun _ _ _ _ _ _ hu => hu

theorem turn_pending {o : Op} (hp : Pending s) (h : Turn tz s o s') : Pending s' := by
  cases h with
  | @update _ reply hu =>
    cases reply with
    | none => cases hu; exact hp
    | some jvalue => exact addTasks_pending hp hu
  | runNext _ hrun => exact runNext_pending hp hrun

/-- What a step must do to the last sync, after the visit that it may begin with. -/
theorem settle_inv (new : List Event) (hmarked : ∀ visits ∈ w.executions, Marked visits)
    (hp : Pending s') (hlog : s'.log = w.tasks.log ++ new)
    (hlast : s'.lastSync.lookup id =
      if new.any (completes id) then none else w.current.head?.map Visit.now) :
    SyncInv id (settle id s' w) := by
  have hdrop : s'.log.drop w.tasks.log.length = new := by rw [hlog, List.drop_left]
  refine ⟨settle_tasks.symm ▸ hp, ?_, ?_⟩
  · rw [settle_tasks, hlast]
    unfold settle
    rw [hdrop]
    split <;> rfl
  · unfold settle
    split
    · intro visits hv
      rcases List.mem_append.mp hv with hv | hv
      · exact hmarked visits hv
      · rw [List.mem_singleton.mp hv]
        exact nofun
    · exact hmarked

theorem watch_syncInv {o : Op} (hi : SyncInv id w) (h : Watch tz id w o w') : SyncInv id w' := by
  cases h with
  | update hturn =>
    have hp := turn_pending hi.pending hturn
    cases hturn with
    | update hu =>
      obtain ⟨hlog, hlast⟩ := update_lastSync hu
      refine settle_inv [] hi.marked hp (hlog.trans (List.append_nil _).symm) ?_
      rw [hlast]
      exact hi.last
  | @runNext s' _ i hturn =>
    have hp := turn_pending hi.pending hturn
    cases hturn with
    | runNext _ hrun =>
      obtain ⟨top, new, htop, hlog, hlast⟩ := runNext_lastSync hi.pending hrun id
      refine settle_inv new (visit_marked hi) hp ?_ ?_
      · rw [hlog, visit_tasks]
      · have hhead : (visit id i w).current.head?.map Visit.now =
            if top.id = id then some ((w.current.head?.map Visit.now).getD i.now)
            else w.current.head?.map Visit.now := by
          unfold visit
          rw [htop]
          simp only
          split
          · cases w.current <;> rfl
          · rfl
        rw [hlast, hhead, hi.last]

theorem watchInit_syncInv (gslist : GameServersList) : SyncInv id (watchInit gslist) where
  pending := fun _ ht => absurd ht (Array.not_mem_empty _)
  last := rfl
  marked := fun visits hv => by
    rw [List.mem_singleton.mp hv]
    exact nofun

/-- **How far apart the syncs of a task lie.** In every run, and however the next `run_next` ends,
two consecutive syncs of the task without a completion between them lie more than `cache_ttl`
apart exactly if two consecutive late visits do. -/
theorem syncs_apart_iff {gslist : GameServersList}
    (h : Run (Watch tz id) Any (watchInit gslist) w) :
    (w.SyncsApart ↔ w.LateApart) ∧
      ∀ i, (visit id i w).SyncsApart ↔ (visit id i w).LateApart := by
  have hi : SyncInv id w := h.invariant (I := SyncInv id) (watchInit_syncInv gslist)
    fun _ _ _ hi _ hs => watch_syncInv hi hs
  exact ⟨forall₂_congr fun visits hv => (hi.marked visits hv).apart_iff,
    fun i => forall₂_congr fun visits hv => (visit_marked hi visits hv).apart_iff⟩

/-! ## A long execution -/

/-- A task that is started at the time 100, the panel not answering, and then looked after. -/
def longRun (times : List Int) : Watched :=
  times.foldl (fun w now => settle 1
      (resultD w.tasks (runNext 0 (plainRun now runningPoll) w.tasks))
      (visit 1 (plainRun now runningPoll) w))
    (settle 1 (importedState [plainTask 1 "restart" "1970-01-01 00:00:10"])
      (watchInit (GameServersList.plainList [1])))

theorem longRun_snoc (times : List Int) (now : Int)
    (h : Run (Watch 0 1) Any (watchInit (GameServersList.plainList [1])) (longRun times))
    (hdue : empty now (longRun times).tasks = false)
    (hok : (runNext 0 (plainRun now runningPoll) (longRun times).tasks).toBool = true) :
    Run (Watch 0 1) Any (watchInit (GameServersList.plainList [1]))
      (longRun (times ++ [now])) := by
  have hlast : longRun (times ++ [now]) = settle 1
      (resultD (longRun times).tasks
        (runNext 0 (plainRun now runningPoll) (longRun times).tasks))
      (visit 1 (plainRun now runningPoll) (longRun times)) := by
    unfold longRun
    rw [List.foldl_append]
    rfl
  rw [hlast]
  exact h.step trivial (.runNext (.runNext hdue (eq_ok_resultD _ hok)))

theorem longRun_started :
    Run (Watch 0 1) Any (watchInit (GameServersList.plainList [1])) (longRun [100]) := by
  have hupdate : Turn 0 (init (GameServersList.plainList [1]))
      (.update (some (.arr [plainTask 1 "restart" "1970-01-01 00:00:10"])))
      (importedState [plainTask 1 "restart" "1970-01-01 00:00:10"]) :=
    .update (eq_ok_resultD _ (by decide))
  have hstep : Watch 0 1 (watchInit (GameServersList.plainList [1]))
      (.update (some (.arr [plainTask 1 "restart" "1970-01-01 00:00:10"]))) (longRun []) :=
    .update (w := watchInit _) hupdate
  have himported : Run (Watch 0 1) Any (watchInit (GameServersList.plainList [1])) (longRun []) :=
    (Run.refl _).step trivial hstep
  exact longRun_snoc [] 100 himported (by decide) (by decide)

/-- The next visit after 301 seconds is the first late one. -/
theorem syncs_apart_started : (visit 1 (plainRun 401 runningPoll) (longRun [100])).SyncsApart := by
  refine ((syncs_apart_iff longRun_started).2 (plainRun 401 runningPoll)).mpr ?_
  intro visits hv
  have hone : (visit 1 (plainRun 401 runningPoll) (longRun [100])).executions =
      [[⟨100, true⟩, ⟨401, true⟩]] := by decide
  rw [hone, List.mem_singleton] at hv
  rw [hv]
  exact List.isChain_singleton _

/-- The task is read again at 401 and at 432. -/
theorem syncs_not_apart : ¬ ∀ (tz : Int) (id : Nat) (gslist : GameServersList) (w : Watched),
    Run (Watch tz id) Any (watchInit gslist) w → w.SyncsApart := by
  intro h
  have hrun : Run (Watch 0 1) Any (watchInit (GameServersList.plainList [1]))
      (longRun [100, 401, 432]) :=
    longRun_snoc [100, 401] 432 (longRun_snoc [100] 401 longRun_started (by decide) (by decide))
      (by decide) (by decide)
  have hapart := h 0 1 _ _ hrun [⟨100, true⟩, ⟨401, true⟩, ⟨432, true⟩] (by decide)
  unfold Apart at hapart
  exact absurd hapart (by decide)

end ServersTasks

end GameAP
