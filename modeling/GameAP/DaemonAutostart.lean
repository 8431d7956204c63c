import GameAP.Daemon

/-!
# Servers that were stopped

A stop is meant to last: it switches autostart off, and the loop starts only servers whose
autostart is on. But the stop is executed by a child, so it switches autostart off in the child's
registry. `respected_of_run`: the loop respects the stops of a server if at each of them the
daemon's own registry has its autostart off, and no record of the panel switches it on before the
next start. `started_of_autostart`: otherwise a pass starts it again.
-/

namespace GameAP

open Lib GameServersList

namespace Daemon

/-! ## Stops and starts in the log -/

/-- Whether server `id` is stopped after an event: by a `gsstop` task that ends in success, until
a start or a restart of it is executed. -/
def stopNext (id : Nat) (b : Bool) : Event → Bool
  | .gdaemon (.completed task _ _) =>
    if task.task = "gsstop" ∧ task.serverId = id ∧ task.status = .success then true else b
  | .executed cmd =>
    if cmd.hasServer = true ∧ cmd.serverId = id ∧ (cmd.command = .start ∨ cmd.command = .restart) then
      false
    else b
  | _ => b

def stopped (id : Nat) (log : List Event) : Bool := log.foldl (stopNext id) false

/-- The loop does not start the server while it is stopped. -/
def Respected (id : Nat) (log : List Event) : Prop :=
  ∀ pre post x, log = pre ++ .loop (.started id x) :: post → stopped id pre = false

variable {tz : Int} {id : Nat} {log new : List Event}

theorem stopped_append : stopped id (log ++ new) = new.foldl (stopNext id) (stopped id log) :=
  List.foldl_append

theorem respected_append (h : Respected id log)
    (hnew : ∀ pre post x, new = pre ++ .loop (.started id x) :: post →
      stopped id (log ++ pre) = false) : Respected id (log ++ new) := by
  intro pre post x heq
  rcases List.append_eq_append_iff.mp heq with ⟨l, rfl, hl⟩ | ⟨l, rfl, hl⟩
  · exact hnew l post x hl
  · cases l with
    | nil => simpa using hnew [] post x hl.symm
    | cons e l =>
      obtain ⟨rfl, -⟩ := List.cons.inj hl
      exact h pre l x rfl

theorem stopped_loop (evs : List LoopEvent) (b : Bool) :
    (evs.map Event.loop).foldl (stopNext id) b = b := by
  induction evs with
  | nil => rfl
  | cons e evs ih => exact ih

/-! ## The registry in the steps of the schedulers -/

theorem setInstallStatus_off {c : StampClock} {other : Nat} {st : InstallStatus}
    {g : GameServersList} (h : HoldsOf AutostartOff id g) :
    HoldsOf AutostartOff id (setInstallStatus c other st g) := by
  unfold setInstallStatus
  split
  · exact h
  · have hmod : HoldsOf AutostartOff id { g with
        serversList := g.serversList.modify other fun s =>
          { s with installed := st, updatedAt := c.now } } :=
      holdsOf_modify h fun _ server hs => (autostart_eq_of_settings (t := server) rfl).trans hs
    intro server hl
    simp only [syncAll, Table.lookup_mapVals] at hl
    obtain ⟨server0, h0, rfl⟩ := Option.map_eq_some_iff.mp hl
    exact (autostart_eq_of_settings (t := server0) rfl).trans (hmod _ h0)

/-- The record that a reply brings of the server, if it is about it, leaves autostart off. -/
def Harmless (id other : Nat) (reply : Option Json) : Prop :=
  other = id → ∀ j, reply = some j → NoCurrent j ∧ NotOn j

theorem getServer_ok_off {r : ServerReplies} {other : Nat} {g g' : GameServersList} {found : Bool}
    (hr : Harmless id other r.server) (h : HoldsOf AutostartOff id g)
    (hget : getServer tz r other g = .ok found g') : HoldsOf AutostartOff id g' := by
  rw [← endState_of_ok hget]
  exact getServer_off hr g h

theorem create_off {r : ServerReplies} {command : Command} {other : Nat} {g g' : GameServersList}
    {cmd : GameServerCmd} (hr : Harmless id other r.server) (h : HoldsOf AutostartOff id g)
    (hc : GameServerCmd.create tz r command other g = .ok (cmd, g')) :
    HoldsOf AutostartOff id g' := by
  unfold GameServerCmd.create at hc
  split at hc
  · next hget =>
    cases hc
    exact getServer_ok_off hr h hget
  · cases hc

section Gdaemon

open GdaemonTasks

variable {s s' : GdaemonTasks} {i : GdaemonTasks.RunInput} {task : GdaemonTask}
  {rest : List GdaemonTask}

theorem findServer_off {r : ServerReplies} {other : Nat} {g g' : GameServersList} {found : Bool}
    (hr : Harmless id other r.server) (h : HoldsOf AutostartOff id g)
    (hf : findServer tz r other g = .ok (found, g')) : HoldsOf AutostartOff id g' := by
  unfold findServer at hf
  split at hf
  · split at hf
    · next hget =>
      cases hf
      exact getServer_ok_off hr h hget
    · cases hf
  · cases hf
    exact h

/-- The server that an entry of the panel's list of tasks is about. -/
def entryServer (jtask : Json) : Except Exn Nat := do (← jtask.get "server_id").asLargestUInt

theorem entryServer_of_wanted {status : GdaemonTask.Status} {jtask : Json} {other : Nat}
    (h : GdaemonTasks.Wanted status s jtask other) : entryServer jtask = .ok other := by
  obtain ⟨j, hj, ho⟩ := h.server
  unfold entryServer
  rw [hj]
  exact ho

theorem importTasks_off {status : GdaemonTask.Status} {entries : List Entry}
    (hr : ∀ e ∈ entries, ∀ other, entryServer e.1 = .ok other → Harmless id other e.2.server)
    (h : HoldsOf AutostartOff id s.gslist) (himp : importTasks tz status entries s = .ok s') :
    HoldsOf AutostartOff id s'.gslist := by
  induction entries generalizing s with
  | nil =>
    cases himp
    exact h
  | cons e rest ih =>
    obtain ⟨t, -, hentry, himp⟩ := GdaemonTasks.importTasks_cases himp
    refine ih (fun e he => hr e (List.mem_cons_of_mem _ he)) ?_ himp
    cases hentry with
    | skipped => exact h
    | noServer hwanted hfind =>
      exact findServer_off (hr _ List.mem_cons_self _ (entryServer_of_wanted hwanted)) h hfind
    | imported hwanted hfind =>
      exact findServer_off (hr _ List.mem_cons_self _ (entryServer_of_wanted hwanted)) h hfind

theorem gdaemonBefore_off {c : StampClock} (h : HoldsOf AutostartOff id s.gslist) :
    HoldsOf AutostartOff id (GdaemonTasks.beforeCmd c task s).gslist := by
  unfold GdaemonTasks.beforeCmd
  split
  · exact setInstallStatus_off h
  · exact h

theorem gdaemonAfter_off {c : StampClock} (h : HoldsOf AutostartOff id s.gslist) :
    HoldsOf AutostartOff id (GdaemonTasks.afterCmd c task s).gslist := by
  unfold GdaemonTasks.afterCmd
  split
  · split
    · exact setInstallStatus_off h
    · exact setInstallStatus_off h
    · exact setInstallStatus_off h
    · exact h
  · split
    · split
      · exact setInstallStatus_off h
      · exact h
    · exact h

theorem makeCmd_off {cmd? : Option Cmd} (hr : Harmless id task.serverId i.server.server)
    (h : HoldsOf AutostartOff id s.gslist) (hm : makeCmd tz i task s = .ok (cmd?, s')) :
    HoldsOf AutostartOff id s'.gslist := by
  unfold makeCmd at hm
  split at hm
  · obtain ⟨⟨cmd, gslist⟩, hc, hm⟩ := ok_of_bind hm
    cases hm
    exact create_off hr h hc
  · split at hm
    · cases hm
      exact h
    · cases hm
      exact h

theorem gdaemonStart_off {cmd : Cmd} (h : HoldsOf AutostartOff id s.gslist) :
    HoldsOf AutostartOff id (GdaemonTasks.startState i task cmd s).gslist := by
  unfold GdaemonTasks.startState
  exact gdaemonBefore_off (s := { s with activeCmds := s.activeCmds.emplace task.id cmd }) h

theorem gdaemonComplete_off {poll : Poll} {cmd : Cmd} (h : HoldsOf AutostartOff id s.gslist) :
    HoldsOf AutostartOff id (GdaemonTasks.completeState i poll cmd task s).gslist := by
  unfold GdaemonTasks.completeState GdaemonTasks.complete
  exact gdaemonAfter_off (s := GdaemonTasks.record _ s) h

/-- A `run_next` reads the record of its task's server only when it starts the task. -/
theorem gdaemonRun_off (hr : task.status = .waiting → Harmless id task.serverId i.server.server)
    (h : HoldsOf AutostartOff id s.gslist) (hcase : GdaemonTasks.RunNext tz i s task rest s') :
    HoldsOf AutostartOff id s'.gslist := by
  cases hcase with
  | blocked => exact h
  | @started cmd s1 hw hm =>
    have hmade : HoldsOf AutostartOff id s1.gslist :=
      makeCmd_off (s := { s with tasks := rest }) (hr hw) h hm
    exact gdaemonStart_off hmade
  | @rejected s1 hw hm =>
    have hmade : HoldsOf AutostartOff id s1.gslist :=
      makeCmd_off (s := { s with tasks := rest }) (hr hw) h hm
    exact hmade
  | lost => exact h
  | running => exact h
  | @completed cmd poll hw hl hp hc =>
    have hdone : HoldsOf AutostartOff id
        (GdaemonTasks.completeState i poll cmd task { s with tasks := rest }).gslist :=
      gdaemonComplete_off h
    exact hdone

/-- A command that is completed is the one of the first task. -/
theorem gdaemonRun_events (hcase : GdaemonTasks.RunNext tz i s task rest s') :
    ∃ new, s'.log = s.log ++ new ∧ ∀ t cmd poll, .completed t cmd poll ∈ new →
      task.status = .working ∧ poll = i.poll.withPid (s.cmdProcesses.lookup task.id) ∧
        t = completedTask poll task := by
  obtain ⟨new, hlog, hev, -⟩ := hcase.events
  refine ⟨new, hlog, fun t cmd poll hm => ?_⟩
  cases hev _ hm with
  | completed _ _ hw hp => exact ⟨hw, hp, rfl⟩

theorem gdaemonRun_pending (hq : ∀ t ∈ s.tasks, t.status = .waiting ∨ t.status = .working)
    (hs : s.tasks = task :: rest) (hcase : GdaemonTasks.RunNext tz i s task rest s') :
    ∀ t ∈ s'.tasks, t.status = .waiting ∨ t.status = .working := by
  have hrest : ∀ t ∈ rest, t.status = .waiting ∨ t.status = .working := fun t ht =>
    hq t (hs ▸ List.mem_cons_of_mem _ ht)
  have hrot : ∀ u : GdaemonTask, u.status = .waiting ∨ u.status = .working →
      ∀ t ∈ rest ++ [u], t.status = .waiting ∨ t.status = .working := by
    intro u hu t ht
    rcases List.mem_append.mp ht with ht | ht
    · exact hrest t ht
    · exact List.mem_singleton.mp ht ▸ hu
  have htask := hq task (hs ▸ List.mem_cons_self)
  cases hcase with
  | blocked => exact hrot _ htask
  | started => exact hrot _ (.inr rfl)
  | rejected => exact hrest
  | lost => exact hrot _ htask
  | running => exact hrot _ htask
  | completed => exact hrest

end Gdaemon

section Servers

open ServersTasks

variable {s s' : ServersTasks} {i : ServersTasks.RunInput} {task : ServerTask}

theorem serversBefore_off {c : StampClock} (h : HoldsOf AutostartOff id s.gslist) :
    HoldsOf AutostartOff id (ServersTasks.beforeCmd c task s).gslist := by
  unfold ServersTasks.beforeCmd
  split
  · exact setInstallStatus_off h
  · exact setInstallStatus_off h
  · exact h

theorem serversAfter_off {c : StampClock} (h : HoldsOf AutostartOff id s.gslist) :
    HoldsOf AutostartOff id (ServersTasks.afterCmd c task s).gslist := by
  unfold ServersTasks.afterCmd
  split
  · split
    · exact setInstallStatus_off h
    · exact setInstallStatus_off h
    · exact h
  · split
    · exact setInstallStatus_off h
    · exact setInstallStatus_off h
    · exact h
  · split
    · exact setInstallStatus_off h
    · exact h
  · exact h

theorem serversStart_off {cmd : GameServerCmd} {gslist : GameServersList}
    (h : HoldsOf AutostartOff id gslist) :
    HoldsOf AutostartOff id (ServersTasks.startState i task cmd gslist s).gslist := by
  unfold ServersTasks.startState
  exact serversBefore_off (s := { s with
    gslist, activeCmds := s.activeCmds.emplace task.id cmd }) h

theorem serversProceed_off {poll : Poll} {diff : Int} {cmd : GameServerCmd}
    (h : HoldsOf AutostartOff id s.gslist) :
    HoldsOf AutostartOff id (ServersTasks.proceedState i poll diff task cmd s).gslist := by
  unfold ServersTasks.proceedState ServersTasks.judgedState
  have hafter : ∀ t : ServerTask, HoldsOf AutostartOff id (ServersTasks.afterCmd i.stamp t
      (ServersTasks.record (.completed t cmd poll) s)).gslist := fun t =>
    serversAfter_off (s := ServersTasks.record (.completed t cmd poll) s) h
  simp only
  split
  · exact hafter _
  · exact hafter _

theorem finishState_gslist : (ServersTasks.finishState task s).gslist = s.gslist := by
  unfold ServersTasks.finishState ServersTasks.requeue
  split <;> rfl

theorem serversRun_off (hr : task.status = .waiting → Harmless id task.serverId i.server.server)
    (h : HoldsOf AutostartOff id s.gslist) (hrun : ServersTasks.RunTask tz i task s s') :
    HoldsOf AutostartOff id s'.gslist := by
  cases hrun with
  | exhausted => exact h
  | started hleft hw hc => exact serversStart_off (create_off (hr hw) h hc)
  | running => exact h
  | completed =>
    rw [finishState_gslist]
    exact serversProceed_off h

end Servers

/-! ## What a step keeps -/

variable (tz id)

/-- Every record of the server that the step reads has the property. -/
def Reads (P : Json → Prop) (w : World) : Op → Prop
  | .gdaemon o =>
    (∀ e ∈ o.imports.2, entryServer e.1 = .ok id → ∀ j, e.2.server = some j → P j) ∧
    ∀ i task rest, o = .runNext i → w.gdaemonTasks.tasks = task :: rest →
      task.status = .waiting → task.serverId = id → ∀ j, i.server.server = some j → P j
  | .servers o => ∀ asked i top task s, o = .runNext asked i →
      w.servers.tasks.tasks[0]? = some top →
      ServersTasks.refresh tz i top w.servers.tasks = .ok (task, s) →
      task.status = .waiting → task.serverId = id → ∀ j, i.server.server = some j → P j
  | .loop i => ∀ j, (i.status id).replies.server = some j ∨
      (i.start id).replies.server = some j → P j
  | _ => True

/-- The step ends a `gsstop` task of the server in success. -/
def Stops (w : World) : Op → Prop
  | .gdaemon (.runNext i) => ∃ task rest, w.gdaemonTasks.tasks = task :: rest ∧
      task.task = "gsstop" ∧ task.serverId = id ∧ task.status = .working ∧
      (i.poll.withPid (w.gdaemonTasks.cmdProcesses.lookup task.id)).succeeded = true
  | _ => False

/-- At a stop the daemon's own registry has autostart off, and until the next start no record
switches it on. -/
structure Kept (w : World) (o : Op) : Prop where
  atStop : Stops id w o → HoldsOf AutostartOff id w.gslist
  stopped : stopped id w.log = true → Reads tz id NotOn w o

structure Inv (w : World) : Prop where
  respected : Respected id w.log
  off : stopped id w.log = true → HoldsOf AutostartOff id w.gslist
  gdaemon : ∀ t ∈ w.gdaemonTasks.tasks, t.status = .waiting ∨ t.status = .working
  servers : ServersTasks.Pending w.serversTasks.tasks

variable {tz id} {w w' : World} {o : Op}

theorem reads_both {P Q : Json → Prop} (hP : Reads tz id P w o) (hQ : Reads tz id Q w o) :
    Reads tz id (fun j => P j ∧ Q j) w o := by
  cases o with
  | gdaemon o =>
    exact ⟨fun e he hs j hj => ⟨hP.1 e he hs j hj, hQ.1 e he hs j hj⟩,
      fun i task rest ho ht hw hs j hj => ⟨hP.2 i task rest ho ht hw hs j hj,
        hQ.2 i task rest ho ht hw hs j hj⟩⟩
  | servers o =>
    exact fun asked i top task s ho ht hr hw hs j hj =>
      ⟨hP asked i top task s ho ht hr hw hs j hj, hQ asked i top task s ho ht hr hw hs j hj⟩
  | loop i => exact fun j hj => ⟨hP j hj, hQ j hj⟩
  | execute pid outcome => trivial
  | exit pid => trivial

/-- No event of the log stops or starts the server, or is one of the loop. -/
theorem stopped_gdaemon {new : List GdaemonTasks.Event} {b : Bool}
    (h : ∀ t cmd poll, .completed t cmd poll ∈ new →
      ¬ (t.task = "gsstop" ∧ t.serverId = id ∧ t.status = .success)) :
    (new.map Event.gdaemon).foldl (stopNext id) b = b := by
  induction new with
  | nil => rfl
  | cons e new ih =>
    have hstep : stopNext id b (.gdaemon e) = b := by
      cases e with
      | completed t cmd poll => exact if_neg (h t cmd poll List.mem_cons_self)
      | _ => rfl
    rw [List.map_cons, List.foldl_cons, hstep]
    exact ih fun t cmd poll ht => h t cmd poll (List.mem_cons_of_mem _ ht)

theorem stopped_servers (new : List ServersTasks.Event) (b : Bool) :
    (new.map Event.servers).foldl (stopNext id) b = b := by
  induction new with
  | nil => rfl
  | cons e new ih => exact ih

theorem respected_map {ε : Type} {f : ε → Event} {new : List ε} (h : Respected id log)
    (hf : ∀ e x, f e ≠ .loop (.started id x)) : Respected id (log ++ new.map f) := by
  refine respected_append h fun pre post x heq => ?_
  have hmem : .loop (.started id x) ∈ new.map f := heq ▸ List.mem_append_right _ List.mem_cons_self
  obtain ⟨e, -, he⟩ := List.mem_map.mp hmem
  exact absurd he (hf e x)

theorem importTasks_frame {status : GdaemonTask.Status} {entries : List GdaemonTasks.Entry}
    {s s' : GdaemonTasks} (hq : ∀ t ∈ s.tasks, t.status = .waiting ∨ t.status = .working)
    (h : GdaemonTasks.importTasks tz status entries s = .ok s') :
    s'.log = s.log ∧ ∀ t ∈ s'.tasks, t.status = .waiting ∨ t.status = .working := by
  refine GdaemonTasks.importTasks_invariant (P := fun u => u.log = s.log ∧
    ∀ t ∈ u.tasks, t.status = .waiting ∨ t.status = .working) h ⟨rfl, hq⟩ (fun _ _ hu => hu) ?_
  rintro e _ task u hnew - - - ⟨hlog, hu⟩
  refine ⟨hlog, fun t ht => ?_⟩
  rcases List.mem_append.mp ht with ht | ht
  · exact hu t ht
  · exact .inl (List.mem_singleton.mp ht ▸ (GdaemonTasks.newTask_spec hnew).2.2)

/-- An import adds no event to the log. -/
theorem gdaemonImport_inv {o : GdaemonTasks.Op} {s : GdaemonTasks} (hi : Inv id w)
    (hreads : stopped id w.log = true → ∀ e ∈ o.imports.2, ∀ other,
      entryServer e.1 = .ok other → Harmless id other e.2.server)
    (h : GdaemonTasks.importTasks tz o.imports.1 o.imports.2 w.gdaemon = .ok s) :
    Inv id (w.afterGdaemon o s) := by
  have hpending : ∀ t ∈ w.gdaemon.tasks, t.status = .waiting ∨ t.status = .working := hi.gdaemon
  obtain ⟨hlog, hq⟩ := importTasks_frame hpending h
  have hnone : w.gdaemonEvents s = [] := by
    unfold World.gdaemonEvents
    rw [hlog]
    exact List.drop_length
  have hsame : (w.afterGdaemon o s).log = w.log := by
    simp [World.afterGdaemon, hnone]
  refine ⟨hsame ▸ hi.respected, fun hs => ?_, hq, hi.servers⟩
  rw [hsame] at hs
  exact importTasks_off (hreads hs) (hi.off hs) h

/-- A `run_next` that does not stop the server finds it stopped if it leaves it stopped. -/
theorem stopped_before {i : GdaemonTasks.RunInput} {task : GdaemonTask}
    {rest : List GdaemonTask} {new : List GdaemonTasks.Event}
    (htasks : w.gdaemon.tasks = task :: rest)
    (hnew : ∀ t cmd poll, .completed t cmd poll ∈ new → task.status = .working ∧
      poll = i.poll.withPid (w.gdaemon.cmdProcesses.lookup task.id) ∧
        t = GdaemonTasks.completedTask poll task)
    (hstops : ¬ Stops id w (.gdaemon (.runNext i))) :
    stopped id (w.log ++ new.map .gdaemon) = stopped id w.log := by
  rw [stopped_append]
  apply stopped_gdaemon
  rintro t cmd poll ht ⟨hname, hserver, hsuccess⟩
  obtain ⟨hwork, rfl, rfl⟩ := hnew t cmd poll ht
  refine hstops ⟨task, rest, htasks, hname, hserver, hwork, ?_⟩
  by_contra hno
  have hfailed : (i.poll.withPid (w.gdaemon.cmdProcesses.lookup task.id)).succeeded = false :=
    Bool.not_eq_true _ ▸ hno
  unfold GdaemonTasks.completedTask at hsuccess
  rw [hfailed] at hsuccess
  cases hsuccess

theorem gdaemonRun_inv {i : GdaemonTasks.RunInput} {s : GdaemonTasks} (hi : Inv id w)
    (hreads : stopped id w.log = true → ∀ task rest, w.gdaemon.tasks = task :: rest →
      task.status = .waiting → Harmless id task.serverId i.server.server)
    (hstop : Stops id w (.gdaemon (.runNext i)) → HoldsOf AutostartOff id w.gslist)
    (h : GdaemonTasks.runNext tz i w.gdaemon = .ok s) :
    Inv id (w.afterGdaemon (.runNext i) s) := by
  have hpending : ∀ t ∈ w.gdaemon.tasks, t.status = .waiting ∨ t.status = .working := hi.gdaemon
  obtain ⟨task, rest, htasks, hcase⟩ := GdaemonTasks.runNext_cases hpending h
  obtain ⟨new, hlog, hnew⟩ := gdaemonRun_events hcase
  have hevents : w.gdaemonEvents s = new := by
    unfold World.gdaemonEvents
    rw [hlog]
    exact List.drop_left
  have hworld : (w.afterGdaemon (.runNext i) s).log = w.log ++ new.map .gdaemon := by
    rw [← hevents]
    rfl
  refine ⟨?_, fun hs => ?_, gdaemonRun_pending hpending htasks hcase, hi.servers⟩
  · rw [hworld]
    exact respected_map hi.respected fun e x he => by cases he
  · by_cases hstops : Stops id w (.gdaemon (.runNext i))
    · -- the task is working, so no record is read
      have hoff := hstop hstops
      obtain ⟨task', rest', htasks', -, -, hwork, -⟩ := hstops
      obtain ⟨rfl, -⟩ := List.cons.inj (htasks.symm.trans htasks')
      refine gdaemonRun_off (fun hw => ?_) hoff hcase
      rw [hwork] at hw
      cases hw
    · rw [hworld, stopped_before htasks hnew hstops] at hs
      exact gdaemonRun_off (hreads hs task rest htasks) (hi.off hs) hcase

theorem gdaemonStep_inv {o : GdaemonTasks.Op} {s : GdaemonTasks} (hi : Inv id w)
    (hcur : Reads tz id NoCurrent w (.gdaemon o)) (hkept : Kept tz id w (.gdaemon o))
    (h : GdaemonTasks.Step tz w.gdaemon o s) : Inv id (w.afterGdaemon o s) := by
  have hreads := fun hs => reads_both hcur (hkept.stopped hs)
  rcases GdaemonTasks.step_cases h with himp | ⟨i, rfl, hrun⟩
  · refine gdaemonImport_inv hi (fun hs e he other ho => ?_) himp
    rintro rfl
    exact (hreads hs).1 e he ho
  · exact gdaemonRun_inv hi (fun hs task rest htasks hw hserver =>
      (hreads hs).2 i task rest rfl htasks hw hserver) hkept.atStop hrun

theorem addTasks_frame {js : List Json} {s s' : ServersTasks}
    (h : ServersTasks.addTasks tz js s = .ok s') : s'.log = s.log ∧ s'.gslist = s.gslist :=
  ServersTasks.addTasks_invariant (P := fun u => u.log = s.log ∧ u.gslist = s.gslist) h ⟨rfl, rfl⟩
    fun _ _ _ _ _ _ hu => hu

/-- A step of the scheduled tasks neither stops the server nor switches autostart on. -/
theorem serversStep_inv {o : ServersTasks.Op} {t : ServersTasks.Timed} (hi : Inv id w)
    (hcur : Reads tz id NoCurrent w (.servers o)) (hkept : Kept tz id w (.servers o))
    (h : ServersTasks.Step tz w.servers o t) : Inv id (w.afterServers o t) := by
  have hreads := fun hs => reads_both hcur (hkept.stopped hs)
  have hpending : ServersTasks.Pending w.servers.tasks := hi.servers
  have hstopped : stopped id (w.afterServers o t).log = stopped id w.log :=
    stopped_append.trans (stopped_servers _ _)
  refine ⟨respected_map hi.respected fun e x he => (by cases he), fun hs => ?_, hi.gdaemon,
    ServersTasks.step_pending hpending h⟩
  rw [hstopped] at hs
  have hoff : HoldsOf AutostartOff id w.servers.tasks.gslist := hi.off hs
  show HoldsOf AutostartOff id t.tasks.gslist
  generalize hv : w.servers = v at h hpending hoff hreads
  cases h with
  | @update s s' clock reply hu =>
    cases reply with
    | none =>
      cases hu
      exact hoff
    | some jvalue =>
      show HoldsOf AutostartOff id s'.gslist
      rw [(addTasks_frame hu).2]
      exact hoff
  | @runNext s s' clock asked i _ _ _ _ hrun =>
    obtain ⟨top, task, s1, htop, hr, hcase⟩ := ServersTasks.runNext_run hpending hrun
    have hone : HoldsOf AutostartOff id s1.gslist := by
      rw [(ServersTasks.refresh_frame hr).gslist]
      exact hoff
    rcases hcase with ⟨-, rfl⟩ | ⟨-, hcase⟩
    · exact hone
    · refine serversRun_off (fun hw hserver => ?_) (s := ServersTasks.taken s1) hone hcase
      have htop' : w.servers.tasks.tasks[0]? = some top := by
        rw [hv]
        exact htop
      exact hreads hs asked i top task s1 rfl htop' (by rw [hv]; exact hr) hw hserver

theorem loopStep_inv {i : LoopInput} (hi : Inv id w) (hcur : Reads tz id NoCurrent w (.loop i))
    (hkept : Kept tz id w (.loop i)) :
    Inv id (w.afterLoop (endState (loop tz i) { gslist := w.gslist, log := [] })) := by
  have hquiet : stopped id w.log = true →
      Quiet id (endState (loop tz i) { gslist := w.gslist, log := [] }) := fun hs =>
    loop_quiet (fun j hj => reads_both hcur (hkept.stopped hs) j (.inl hj)) _
      ⟨hi.off hs, fun x hx => by cases hx⟩
  refine ⟨?_, fun hs => ?_, hi.gdaemon, hi.servers⟩
  · refine respected_append hi.respected fun pre post x heq => ?_
    obtain ⟨pre', rest, hlog, rfl, hrest⟩ := List.map_eq_append_iff.mp heq
    have hmem : LoopEvent.started id x ∈
        (endState (loop tz i) { gslist := w.gslist, log := [] }).log := by
      obtain ⟨e, post', rfl, he, -⟩ := List.map_eq_cons_iff.mp hrest
      obtain rfl := Event.loop.inj he
      rw [hlog]
      exact List.mem_append_right _ List.mem_cons_self
    rw [stopped_append, stopped_loop]
    by_contra hs
    exact (hquiet (Bool.not_eq_false _ ▸ hs)).2 x hmem
  · have hsame : stopped id (w.afterLoop
        (endState (loop tz i) { gslist := w.gslist, log := [] })).log = stopped id w.log :=
      stopped_append.trans (stopped_loop _ _)
    exact (hquiet (hsame ▸ hs)).1

theorem step_inv (hi : Inv id w) (hcur : Reads tz id NoCurrent w o) (hkept : Kept tz id w o)
    (h : Step tz w o w') : Inv id w' := by
  cases h with
  | gdaemon _ hs => exact gdaemonStep_inv hi hcur hkept hs
  | servers _ hs => exact serversStep_inv hi hcur hkept hs
  | loop => exact loopStep_inv hi hcur hkept
  | @execute pid outcome child hl hx =>
    have hlog : (w.afterExecute pid outcome child).log = w.log ++ [child.cmd].map .executed := rfl
    refine ⟨hlog ▸ respected_map hi.respected fun e x he => (by cases he), fun hs => ?_,
      hi.gdaemon, hi.servers⟩
    refine hi.off ?_
    rw [hlog, stopped_append] at hs
    by_contra hno
    rw [Bool.not_eq_true] at hno
    simp [hno, stopNext] at hs
  | exit hl hx => exact ⟨hi.respected, hi.off, hi.gdaemon, hi.servers⟩

theorem init_inv (gslist : GameServersList) (clock : Int) : Inv id (init gslist clock) where
  respected := fun pre post x h => by simp [init] at h
  off := fun h => by cases h
  gdaemon := fun t ht => by simp [init, GdaemonTasks.init] at ht
  servers := fun t ht => by simp [init, ServersTasks.init] at ht

/-- **The loop respects a stop** in every run in which the panel's records of the server do not
carry the session setting and every step is `Kept`. -/
theorem respected_of_run {gslist : GameServersList} {clock : Int}
    (h : Run (Step tz) (fun w o => Reads tz id NoCurrent w o ∧ Kept tz id w o)
      (init gslist clock) w) : Respected id w.log :=
  (h.invariant (I := Inv id) (init_inv gslist clock) fun _ _ _ hi hok hs =>
    step_inv hi hok.1 hok.2 hs).respected

/-- **A stop that the daemon's registry does not know of is undone** by the next pass that finds
the server down. -/
theorem started_of_autostart {i : LoopInput} (hs : stopped id w.log = true)
    (h : Starting id w.gslist) (hd : AllDown i) (hstep : Step tz w (.loop i) w') :
    ¬ Respected id w'.log := by
  cases hstep
  obtain ⟨x, hx⟩ := loop_starts tz hd h
  obtain ⟨pre, post, hlog⟩ := List.append_of_mem hx
  intro hresp
  have hpre := hresp (w.log ++ pre.map .loop) (post.map .loop) x (by
    show w.log ++ List.map Event.loop _ = _
    rw [hlog, List.map_append, List.map_cons, List.append_assoc])
  rw [stopped_append, stopped_loop, hs] at hpre
  cases hpre

/-! ## Two runs -/

/-- A registry whose only server is installed, with a value for its autostart. -/
def oneServer (autostart : String) : GameServersList :=
  { serversList := (∅ : Table Nat Server).emplace 1
      (({ plainServer 1 with installed := .installed } : Server).setSetting "autostart" autostart)
    lastUpdated := 0 }

/-- The world after a step of the daemon's tasks, if it throws nothing. -/
def gdaemonDone (o : GdaemonTasks.Op) (w : World) : World :=
  w.afterGdaemon o (resultD w.gdaemon (GdaemonTasks.perform 0 w.gdaemon o))

theorem step_gdaemonDone {o : GdaemonTasks.Op} (hsees : SeesGdaemon w o)
    (h : (GdaemonTasks.perform 0 w.gdaemon o).toBool = true) :
    Step 0 w (.gdaemon o) (gdaemonDone o w) :=
  .gdaemon hsees (eq_ok_resultD _ h)

/-- The stop of server 1, its fork included. -/
def stopForked (autostart : String) : World :=
  gdaemonDone (.runNext (GdaemonTasks.plainRun GdaemonTasks.runningPoll true))
    (gdaemonDone (.update (some [GdaemonTasks.plainEntry 5 "gsstop" 1 1]))
      (init (oneServer autostart) 0))

def stopChild (autostart : String) : Child :=
  { cmd := { serverId := 1, command := .stop, hasServer := true }, memory := oneServer autostart,
    executed := none, exited := false }

def allOk : GameServerCmd.Outcome := fun _ => .ok true

/-- The child has executed the stop, successfully, and is gone. -/
def stopExited (autostart : String) : World :=
  let w := (stopForked autostart).afterExecute 7 allOk (stopChild autostart)
  w.afterExit 7 ((w.children.lookup 7).getD (stopChild autostart))

/-- The task has ended in success. -/
def stopDone (autostart : String) : World :=
  gdaemonDone (.runNext (GdaemonTasks.plainRun GdaemonTasks.donePoll true)) (stopExited autostart)

theorem sees_running {w : World} : SeesGdaemon w
    (.runNext (GdaemonTasks.plainRun GdaemonTasks.runningPoll true)) :=
  fun _ _ _ _ _ _ _ hgone => by cases hgone

theorem stopForked_child (a : String) :
    (stopForked a).children.lookup 7 = some (stopChild a) := rfl

theorem sees_done (a : String) : SeesGdaemon (stopExited a)
    (.runNext (GdaemonTasks.plainRun GdaemonTasks.donePoll true)) := by
  rintro task rest htasks pid child hpid hchild -
  have h7 : pid = 7 := by
    have hall : (stopExited a).children.keys = [7] := rfl
    have hmem : pid ∈ (stopExited a).children.keys := Table.mem_of_lookup hchild
    rw [hall] at hmem
    exact List.mem_singleton.mp hmem
  subst h7
  cases hchild
  exact ⟨rfl, _, rfl, rfl⟩

/-- The run up to the end of the stop, for a condition that its steps meet. -/
theorem run_stopDone (a : String) {ok : World → Op → Prop}
    (h1 : ok (init (oneServer a) 0)
      (.gdaemon (.update (some [GdaemonTasks.plainEntry 5 "gsstop" 1 1]))))
    (h2 : ∀ w, ok w (.gdaemon (.runNext (GdaemonTasks.plainRun GdaemonTasks.runningPoll true))))
    (h3 : ∀ w, ok w (.execute 7 allOk)) (h4 : ∀ w, ok w (.exit 7))
    (h5 : ok (stopExited a) (.gdaemon
      (.runNext (GdaemonTasks.plainRun GdaemonTasks.donePoll true)))) :
    Run (Step 0) ok (init (oneServer a) 0) (stopDone a) := by
  have hforked : Run (Step 0) ok (init (oneServer a) 0) (stopForked a) :=
    ((Run.refl _).step h1 (step_gdaemonDone trivial rfl)).step (h2 _)
      (step_gdaemonDone sees_running rfl)
  have hexecuted := hforked.step (h3 _) (.execute (stopForked_child a) rfl)
  have hexited : Run (Step 0) ok (init (oneServer a) 0) (stopExited a) := by
    refine hexecuted.step (h4 _) (.exit ?_ ?_)
    · rfl
    · exact fun h => by cases h
  exact hexited.step h5 (step_gdaemonDone (sees_done a) rfl)

/-- A pass without replies, in which nothing that is asked for succeeds. -/
def downPass : LoopInput :=
  { status := fun _ => ⟨{ now := 100, later := 100, list := none, server := none }, fun _ => .ok false⟩
    checked := fun _ => 100
    start := fun _ => ⟨{ now := 100, later := 100, list := none, server := none }, fun _ => .ok false⟩
    timediff := none }

theorem allDown_downPass : AllDown downPass := ⟨fun _ => rfl, fun _ => rfl, fun _ _ => rfl⟩

theorem reads_stopUpdate (P : Json → Prop) : Reads tz id P w
    (.gdaemon (.update (some [GdaemonTasks.plainEntry 5 "gsstop" 1 1]))) := by
  refine ⟨fun e he _ j hj => ?_, fun i task rest ho => by cases ho⟩
  obtain rfl := List.mem_singleton.mp he
  cases hj

theorem reads_plainRun (P : Json → Prop) (poll : Poll) : Reads tz id P w
    (.gdaemon (.runNext (GdaemonTasks.plainRun poll true))) := by
  refine ⟨fun e he => (by cases he), fun i task rest ho _ _ _ j hj => ?_⟩
  cases ho
  cases hj

theorem reads_downPass (P : Json → Prop) : Reads tz id P w (.loop downPass) :=
  fun _ hj => hj.elim (fun h => by cases h) fun h => by cases h

theorem kept_running : Kept tz id w
    (.gdaemon (.runNext (GdaemonTasks.plainRun GdaemonTasks.runningPoll true))) where
  atStop := by
    rintro ⟨task, rest, -, -, -, -, hsucc⟩
    have hresult := (Poll.succeeded_iff.mp hsucc).1
    cases hl : w.gdaemonTasks.cmdProcesses.lookup task.id <;> rw [hl] at hresult <;> cases hresult
  stopped := fun _ => reads_plainRun _ _

/-- A server without autostart, and a pass after its stop. -/
theorem respected_of_run_off : Respected 1 ((stopDone "0").afterLoop
    (endState (loop 0 downPass) { gslist := (stopDone "0").gslist, log := [] })).log := by
  have hstop : Run (Step 0) (fun w o => Reads 0 1 NoCurrent w o ∧ Kept 0 1 w o)
      (init (oneServer "0") 0) (stopDone "0") := by
    refine run_stopDone "0" ⟨reads_stopUpdate _, ?_⟩ (fun w => ⟨reads_plainRun _ _, kept_running⟩)
      (fun w => ⟨trivial, fun h => h.elim, fun _ => trivial⟩)
      (fun w => ⟨trivial, fun h => h.elim, fun _ => trivial⟩)
      ⟨reads_plainRun _ _, fun _ => ?_, fun _ => reads_plainRun _ _⟩
    · exact ⟨fun h => h.elim, fun _ => reads_stopUpdate _⟩
    · intro server hl
      cases hl
      show Server.autostart _ = false
      decide
  exact respected_of_run (hstop.step
    ⟨reads_downPass _, fun h => h.elim, fun _ => reads_downPass _⟩ .loop)

/-- A server with autostart, and a pass after its stop. -/
theorem not_respected_autostart :
    ¬ ∀ (tz : Int) (id : Nat) (gslist : GameServersList) (clock : Int) (w : World),
      Run (Step tz) (Reads tz id NoCurrent) (init gslist clock) w → Respected id w.log := by
  intro h
  have hstop : Run (Step 0) (Reads 0 1 NoCurrent) (init (oneServer "1") 0) (stopDone "1") :=
    run_stopDone "1" (reads_stopUpdate _) (fun w => reads_plainRun _ _) (fun w => trivial)
      (fun w => trivial) (reads_plainRun _ _)
  have hstopped : stopped 1 (stopDone "1").log = true := by decide
  have hstarting : Starting 1 (stopDone "1").gslist := by
    refine ⟨_, rfl, ?_, rfl⟩
    decide
  exact started_of_autostart hstopped hstarting allDown_downPass .loop
    (h 0 1 _ 0 _ (hstop.step (reads_downPass _) .loop))

end Daemon

end GameAP
