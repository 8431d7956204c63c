import GameAP.Classes.GameServersLoop
import GameAP.Classes.GdaemonTasksQueue
import GameAP.Classes.ServerLookups

/-!
# Servers under installation

`before_cmd` marks the server of a `gsinst` or `gsupd` task as under installation, and `after_cmd`
gives it another status as soon as one command completes, whatever else is active for the server.
`installing_marked`: a server with an active command of that kind is marked in every run in which
no command completes that another installation of its server outlives, and no record of a server
under installation that is read says anything else.
-/

namespace GameAP

open Lib GameServersList

namespace GdaemonTasks

/-- A task that installs or updates its server. -/
def Installation (task : GdaemonTask) : Prop := task.task = "gsinst" ∨ task.task = "gsupd"

instance (task : GdaemonTask) : Decidable (Installation task) :=
  inferInstanceAs (Decidable (_ ∨ _))

/-- The command of such a task is active for server `id`. -/
def Installing (s : GdaemonTasks) (id : Nat) : Prop :=
  ∃ t ∈ s.tasks, Installation t ∧ t.serverId = id ∧ t.id ∈ s.activeCmds

instance (s : GdaemonTasks) (id : Nat) : Decidable (Installing s id) :=
  inferInstanceAs (Decidable (∃ t ∈ s.tasks, _))

/-- `after_cmd` gives the server of the completed task another status. -/
def Resets (task : GdaemonTask) (poll : Poll) : Prop :=
  Installation task ∨ task.task = "gsdel" ∧ poll.succeeded = true

/-- What a `run_next` finds for the first task. -/
structure RunApart (tz : Int) (i : RunInput) (s : GdaemonTasks) (task : GdaemonTask)
    (rest : List GdaemonTask) : Prop where
  reads : task.status = .waiting → (gameServerCommand task.task).isSome = true →
    ∀ id, Installing s id → ¬ (Installation task ∧ task.serverId = id) →
      ReadsAs .installInProcess tz i.server task.serverId id s.gslist
  completes : task.status = .working → task.id ∈ s.activeCmds →
    (i.poll.withPid (s.cmdProcesses.lookup task.id)).cmdCompleted = true →
    Resets task (i.poll.withPid (s.cmdProcesses.lookup task.id)) →
    task.serverId ∈ s.gslist.serversList →
    ∀ u ∈ rest, Installation u → u.serverId = task.serverId → u.id ∉ s.activeCmds

/-- What the lookups of an import find, each in the state that the entries before it lead to. -/
def EntriesApart (tz : Int) (status : GdaemonTask.Status) (entries : List Entry)
    (s : GdaemonTasks) : Prop :=
  ∀ pre jtask r post t, entries = pre ++ (jtask, r) :: post →
    importTasks tz status pre s = .ok t → ∀ serverId, Wanted status t jtask serverId →
    serverId > 0 → ∀ id, Installing t id →
      ReadsAs .installInProcess tz r serverId id t.gslist

/-- No installation outlives the mark of its server. -/
def InstallsApart (tz : Int) (s : GdaemonTasks) : Op → Prop
  | .runNext i => ∀ task rest, s.tasks = task :: rest → ¬ Blocked s task →
      RunApart tz i s task rest
  | o => EntriesApart tz o.imports.1 o.imports.2 s

structure InstallInv (s : GdaemonTasks) : Prop extends ActiveInv s where
  marked : ∀ id, Installing s id → Marked .installInProcess id s.gslist

variable {tz : Int} {i : RunInput} {task : GdaemonTask} {rest : List GdaemonTask}
  {s s' : GdaemonTasks} {id : Nat}

/-! ## Servers that are being installed -/

theorem installing_of_sub {u : GdaemonTasks} (h : Installing u id)
    (ht : ∀ t ∈ u.tasks, t ∈ s.tasks) (ha : ∀ id ∈ u.activeCmds, id ∈ s.activeCmds) :
    Installing s id := by
  obtain ⟨t, hm, hinst, hserver, hact⟩ := h
  exact ⟨t, ht t hm, hinst, hserver, ha _ hact⟩

/-- The first task goes to the end of the queue. -/
theorem installing_rotate {u : GdaemonTasks} (hs : s.tasks = task :: rest) (h : Installing u id)
    (ht : u.tasks = rest ++ [task]) (ha : u.activeCmds = s.activeCmds) : Installing s id := by
  refine installing_of_sub h (fun t hm => ?_) fun _ hm => ha ▸ hm
  rw [ht] at hm
  rw [hs]
  exact (List.perm_append_singleton task rest).mem_iff.mp hm

/-- The first task leaves the queue. -/
theorem installing_removed {u : GdaemonTasks} (hs : s.tasks = task :: rest) (h : Installing u id)
    (ht : u.tasks = rest) (ha : u.activeCmds = s.activeCmds.erase task.id) : Installing s id := by
  refine installing_of_sub h (fun t hm => ?_) fun id hm => ?_
  · rw [ht] at hm
    exact hs ▸ List.mem_cons_of_mem _ hm
  · rw [ha] at hm
    exact (AList.mem_erase.mp hm).2

theorem installing_importTask (hi : ActiveInv s) (hnew : task.id ∉ s.existsTasks)
    (h : Installing (importTask task s) id) : Installing s id := by
  obtain ⟨t, hm, hinst, hserver, hact⟩ := h
  rcases List.mem_append.mp hm with hm | hm
  · exact ⟨t, hm, hinst, hserver, hact⟩
  · obtain rfl := List.mem_singleton.mp hm
    exact absurd hact (hi.fresh hnew)

/-! ## The registry -/

theorem findServer_marked {r : ServerReplies} {serverId : Nat} {found : Bool}
    {g g' : GameServersList} {v : InstallStatus}
    (hr : serverId > 0 → ReadsAs v tz r serverId id g) (h : Marked v id g)
    (hf : findServer tz r serverId g = .ok (found, g')) : Marked v id g' := by
  unfold findServer at hf
  split at hf
  · next hpos =>
    split at hf
    · next hget =>
      cases hf
      exact getServer_marked (hr hpos) h hget
    · cases hf
  · cases hf
    exact h

theorem makeCmd_marked {cmd? : Option Cmd} {v : InstallStatus}
    (hr : (gameServerCommand task.task).isSome = true →
      ReadsAs v tz i.server task.serverId id s.gslist) (h : Marked v id s.gslist)
    (hm : makeCmd tz i task s = .ok (cmd?, s')) : Marked v id s'.gslist := by
  unfold makeCmd at hm
  split at hm
  · next command hc =>
    obtain ⟨⟨cmd, gslist⟩, hcreate, hm⟩ := ok_of_bind hm
    cases hm
    unfold GameServerCmd.create at hcreate
    split at hcreate
    · next hget =>
      cases hcreate
      exact getServer_marked (hr (by rw [hc]; rfl)) h hget
    · cases hcreate
  · split at hm
    · cases hm
      exact h
    · cases hm
      exact h

/-- The server of an installation is marked, and every other one keeps its status. -/
theorem startState_marked {cmd : Cmd}
    (h : ¬ (Installation task ∧ task.serverId = id) → Marked .installInProcess id s.gslist) :
    Marked .installInProcess id (startState i task cmd s).gslist := by
  show Marked .installInProcess id (beforeCmd i.stamp task _).gslist
  unfold beforeCmd
  split
  · next hinst =>
    by_cases hid : id = task.serverId
    · subst hid
      exact setInstallStatus_marked_self
    · exact setInstallStatus_marked (fun _ => hid) (h fun hc => hid hc.2.symm) _
  · next hinst => exact h fun hc => hinst hc.1

theorem afterCmd_marked {c : StampClock} {v : InstallStatus} (h : Marked v id s.gslist)
    (hid : Installation task ∨ task.task = "gsdel" ∧ task.status = .success →
      task.serverId ∈ s.gslist.serversList → id ≠ task.serverId) :
    Marked v id (afterCmd c task s).gslist := by
  unfold afterCmd
  split
  · next hinst =>
    have hne := hid (.inl hinst)
    split
    · exact setInstallStatus_marked hne h _
    · exact setInstallStatus_marked hne h _
    · exact setInstallStatus_marked hne h _
    · exact h
  · split
    · next hdel =>
      split
      · next hsucc => exact setInstallStatus_marked (hid (.inr ⟨hdel, hsucc⟩)) h _
      · exact h
    · exact h

/-- Another server keeps its status, and this one too if the task does not reset it. -/
theorem completeState_marked {poll : Poll} {cmd : Cmd} {v : InstallStatus}
    (h : Marked v id s.gslist)
    (hid : Resets task poll → task.serverId ∈ s.gslist.serversList → id ≠ task.serverId) :
    Marked v id (completeState i poll cmd task s).gslist := by
  have hdone : Marked v id
      (afterCmd i.stamp (completedTask poll task)
        (record (.completed (completedTask poll task) cmd poll) s)).gslist := by
    refine afterCmd_marked h fun hreset => hid (hreset.imp_right fun hdel => ⟨hdel.1, ?_⟩)
    have hstatus := hdel.2
    unfold completedTask at hstatus
    cases hp : poll.succeeded with
    | true => rfl
    | false =>
      rw [hp] at hstatus
      cases hstatus
  exact hdone

/-! ## Steps -/

theorem importEntry_installInv {status : GdaemonTask.Status} {jtask : Json} {r : ServerReplies}
    (hi : InstallInv s) (h : ImportEntry tz status s (jtask, r) s')
    (hok : ∀ serverId, Wanted status s jtask serverId → serverId > 0 → ∀ id, Installing s id →
      ReadsAs .installInProcess tz r serverId id s.gslist) : InstallInv s' := by
  cases h with
  | skipped => exact hi
  | noServer hwanted hfind =>
    refine ⟨⟨⟨hi.nodup, hi.pending, hi.existing⟩, hi.active⟩, fun id hinst => ?_⟩
    exact findServer_marked (fun hpos => hok _ hwanted hpos id hinst) (hi.marked id hinst) hfind
  | @imported _ _ serverId gslist task hwanted hfind htask hnew =>
    have hact : ActiveInv { s with gslist } := ⟨⟨hi.nodup, hi.pending, hi.existing⟩, hi.active⟩
    refine ⟨hact.imported hnew (newTask_spec htask).2.2, fun id hinst => ?_⟩
    have hold : Installing s id := installing_importTask (s := { s with gslist }) hact hnew hinst
    exact findServer_marked (fun hpos => hok _ hwanted hpos id hold) (hi.marked id hold) hfind

theorem importTasks_installInv {status : GdaemonTask.Status} {entries : List Entry}
    (hi : InstallInv s) (hok : EntriesApart tz status entries s)
    (h : importTasks tz status entries s = .ok s') : InstallInv s' := by
  induction entries generalizing s with
  | nil =>
    cases h
    exact hi
  | cons e rest ih =>
    obtain ⟨t, ht, hentry, h⟩ := importTasks_cases h
    refine ih (importEntry_installInv hi hentry (hok [] _ _ rest s rfl rfl)) ?_ h
    intro pre jtask r post u heq hu
    refine hok (e :: pre) jtask r post u (by rw [heq]; rfl) ?_
    rw [importTasks_cons, ht]
    exact hu

/-- **What a `run_next` keeps.** -/
theorem RunNext.installInv (hi : InstallInv s) (hs : s.tasks = task :: rest)
    (hok : RunApart tz i s task rest) (h : RunNext tz i s task rest s') : InstallInv s' := by
  have hact := h.activeInv hi.toActiveInv hs
  have hnodup := hi.nodup
  rw [hs] at hnodup
  cases h with
  | blocked => exact ⟨hact, fun id hinst => hi.marked id (installing_rotate hs hinst rfl rfl)⟩
  | @started cmd s1 hw hm =>
    refine ⟨hact, fun id hinst => startState_marked fun hother => ?_⟩
    have hold : Installing s id := by
      obtain ⟨t, ht, hinst, hserver, hactive⟩ := hinst
      rcases List.mem_append.mp ht with ht | ht
      · refine ⟨t, hs ▸ List.mem_cons_of_mem _ ht, hinst, hserver, ?_⟩
        exact (Table.mem_emplace.mp hactive).resolve_left fun he =>
          not_queued_rest hnodup ⟨t, ht, he⟩
      · obtain rfl := List.mem_singleton.mp ht
        exact absurd ⟨hinst, hserver⟩ hother
    exact makeCmd_marked (s := { s with tasks := rest })
      (fun hcmd => hok.reads hw hcmd id hold hother) (hi.marked id hold) hm
  | @rejected s1 hw hm =>
    refine ⟨hact, fun id hinst => ?_⟩
    have hkept : Marked .installInProcess id s1.gslist :=
      makeCmd_marked (s := { s with tasks := rest })
        (fun hcmd => absurd rfl (makeCmd_known (.inl hcmd) hm).1)
        (hi.marked id (installing_removed hs hinst rfl rfl)) hm
    exact hkept
  | lost => exact ⟨hact, fun id hinst => hi.marked id (installing_rotate hs hinst rfl rfl)⟩
  | running => exact ⟨hact, fun id hinst => hi.marked id (installing_rotate hs hinst rfl rfl)⟩
  | @completed cmd poll hw hl hp hc =>
    subst hp
    refine ⟨hact, fun id hinst => ?_⟩
    have hold : Marked .installInProcess id s.gslist :=
      hi.marked id (installing_removed hs hinst rfl rfl)
    refine completeState_marked (s := { s with tasks := rest }) hold ?_
    rintro hreset hlisted rfl
    obtain ⟨u, hu, huinst, hserver, huact⟩ := hinst
    have hmem : task.id ∈ s.activeCmds :=
      Table.mem_of_lookup hl
    exact hok.completes hw hmem hc hreset hlisted u hu huinst hserver (AList.mem_erase.mp huact).2

theorem step_installInv {o : Op} (hi : InstallInv s) (hok : InstallsApart tz s o)
    (h : Step tz s o s') : InstallInv s' := by
  cases o with
  | checkAfterCrash reply =>
    cases reply with
    | none =>
      cases h
      exact hi
    | some entries => exact importTasks_installInv hi hok h
  | update reply =>
    cases reply with
    | none =>
      cases h
      exact hi
    | some entries => exact importTasks_installInv hi hok h
  | runNext i =>
    obtain ⟨task, rest, hs, hcase⟩ := runNext_cases hi.pending h
    by_cases hb : Blocked s task
    · rw [runNext_blocked hs hb h]
      have hblocked : RunNext tz i s task rest { s with tasks := rest ++ [task] } :=
        .blocked hb.1 hb.2
      refine ⟨hblocked.activeInv hi.toActiveInv hs, ?_⟩
      exact fun id hinst => hi.marked id (installing_rotate hs hinst rfl rfl)
    · exact hcase.installInv hi hs (hok task rest hs hb)

theorem init_installInv (gslist : GameServersList) : InstallInv (init gslist) where
  toActiveInv := init_activeInv gslist
  marked := fun id ⟨t, ht, _⟩ => by cases ht

/-! ## The loop -/

/-- Server `id` is marked as under installation, and the pass has not started it. -/
def Unstarted (id : Nat) (s : LoopState) : Prop :=
  installedIn s.gslist id = some .installInProcess ∧ ∀ x, LoopEvent.started id x ∉ s.log

theorem runCmd_unstarted {command : Command} {v : Visit} {other : Nat} (hne : other ≠ id) :
    Preserves (Unstarted id) (runCmd tz command v other) := by
  rintro s ⟨hmark, hlog⟩
  have hmem : id ∈ s.gslist.serversList := by
    by_contra hout
    rw [installedIn, statusIn_eq_none.mpr hout] at hmark
    cases hmark
  have hget := @getServer_ne tz v.replies id other s.gslist hmem hne
  unfold runCmd
  rw [endState_bind]
  unfold onList
  cases hr : getServer tz v.replies other s.gslist with
  | error e g =>
    rw [endState_of_error hr] at hget
    refine ⟨?_, hlog⟩
    show installedIn g id = _
    rw [installedIn, hget]
    exact hmark
  | ok found g =>
    rw [endState_of_ok hr] at hget
    refine ⟨?_, hlog⟩
    show installedIn (GameServerCmd.executeOn v.outcome _ g).2 id = _
    rw [installedIn, statusIn, executeOn_ne hne]
    show installedIn g id = _
    rw [installedIn, hget]
    exact hmark

theorem startServer_unstarted {i : LoopInput} {other : Nat} :
    Preserves (Unstarted id) (startServer tz i other) := by
  unfold startServer
  refine Preserves.get_bind fun s hs => ?_
  split
  · exact hs
  · next server hl =>
    by_cases he : other = id
    · have hmark : server.installed = .installInProcess := by
        have hmark := hs.1
        rw [installedIn, statusIn, ← he, hl] at hmark
        exact Option.some.inj hmark
      rw [if_pos (by rw [hmark]; simp)]
      exact hs
    · have hrest : Preserves (Unstarted id) (do
          let x ← runCmd tz .start (i.start other) other
          GameServersList.record (.started other x)) := by
        refine (runCmd_unstarted he).bind fun x => Preserves.modify fun t ht => ⟨ht.1, fun y hy => ?_⟩
        rcases List.mem_append.mp hy with hy | hy
        · exact ht.2 y hy
        · exact he (LoopEvent.started.inj (List.mem_singleton.mp hy)).1.symm
      exact (Preserves.ite (Preserves.pure _) hrest) s hs

theorem startServers_unstarted {i : LoopInput} :
    ∀ ids : List Nat, Preserves (Unstarted id) (startServers tz i ids)
  | [] => Preserves.pure _
  | _ :: rest => startServer_unstarted.bind fun _ => startServers_unstarted rest

/-! ## Runs -/

/-- **Servers under installation are marked.** In a run in which no installation outlives the mark
of its server, a server with an active `gsinst` or `gsupd` command is marked as under
installation, if it is in the registry, and `start_down_servers` does not start it. -/
theorem installing_marked {gslist : GameServersList}
    (h : Run (Step tz) (InstallsApart tz) (init gslist) s) (hinst : Installing s id)
    {server : Server} (hl : s.gslist.serversList.lookup id = some server) :
    server.installed = .installInProcess ∧
      ∀ (i : LoopInput) (x : GameServerCmd.Executed), LoopEvent.started id x ∉
        (endState (startDownServers tz i) { gslist := s.gslist, log := [] }).log := by
  have hi : InstallInv s :=
    h.invariant (init_installInv gslist) fun _ _ _ hi hok hs => step_installInv hi hok hs
  have hmark : server.installed = .installInProcess :=
    hi.marked id hinst (status server) (by rw [statusIn, hl]; rfl)
  refine ⟨hmark, fun i => ?_⟩
  unfold startDownServers
  rw [endState_get_bind]
  refine (startServers_unstarted _ _ ⟨?_, fun x hx => by cases hx⟩).2
  rw [installedIn, statusIn, hl, ← hmark]
  rfl

/-! ## Two installations of one server -/

/-- Every request of the step is answered. -/
def Answered (_ : GdaemonTasks) : Op → Prop
  | .runNext i => i.received = true ∧ i.server.list.isSome = true ∧ i.server.server.isSome = true
  | .checkAfterCrash reply | .update reply =>
    reply.isSome = true ∧ ∀ e ∈ reply.getD [], e.2.list.isSome = true ∧ e.2.server.isSome = true

instance (s : GdaemonTasks) (o : Op) : Decidable (Answered s o) := by
  cases o <;> exact inferInstanceAs (Decidable (_ ∧ _))

/-- Server 1, which the panel has known as not installed since time 60. -/
def oldReplies : ServerReplies :=
  { now := 100, later := 100, list := some (.arr []),
    server := some (plainRecord "1970-01-01 00:01:00" true 0) }

def answeredEntry (id : Int) (task : String) : Entry := ((plainEntry id task 1 1).1, oldReplies)

def answeredRun (poll : Poll) : RunInput := { plainRun poll true with server := oldReplies }

/-- Task 5 installs server 1 and task 6 updates it; after both have been started, the first
completes. -/
def overlapping : List Op :=
  [.update (some [answeredEntry 5 "gsinst", answeredEntry 6 "gsupd"]),
    .runNext (answeredRun runningPoll), .runNext (answeredRun runningPoll),
    .runNext (answeredRun donePoll)]

theorem entriesApart_idle {status : GdaemonTask.Status} {e : Entry} (h : s.activeCmds = ∅) :
    EntriesApart tz status [e] s := by
  intro pre jtask r post t heq ht serverId _ _ id hinst
  obtain rfl : pre = [] := by
    cases pre with
    | nil => rfl
    | cons p pre =>
      have hlen := congrArg List.length heq
      simp at hlen
  cases ht
  obtain ⟨_, -, -, -, hact⟩ := hinst
  rw [h] at hact
  exact absurd hact (AList.notMem_empty _)

theorem runApart_idle (h : s.activeCmds = ∅) : RunApart tz i s task rest where
  reads := fun _ _ id hinst => by
    obtain ⟨_, -, -, -, hact⟩ := hinst
    rw [h] at hact
    exact absurd hact (AList.notMem_empty _)
  completes := fun _ hact => by
    rw [h] at hact
    exact absurd hact (AList.notMem_empty _)

/-- Task 5 installs server 1, is started and found running. -/
def installation : List Op :=
  [.update (some [answeredEntry 5 "gsinst"]), .runNext (answeredRun runningPoll),
    .runNext (answeredRun runningPoll)]

theorem installation_run :
    Run (Step 0) (InstallsApart 0) plainInit (performAll installation) := by
  have hidle : (performAll (installation.take 1)).activeCmds = ∅ := rfl
  have h1 : Run (Step 0) (InstallsApart 0) plainInit (performAll (installation.take 1)) :=
    run_snoc [] _ (.refl plainInit) (entriesApart_idle rfl) (by decide)
  have h2 : Run (Step 0) (InstallsApart 0) plainInit (performAll (installation.take 2)) :=
    run_snoc (installation.take 1) _ h1 (fun _ _ _ _ => runApart_idle hidle) (by decide)
  have hfirst : (performAll (installation.take 2)).tasks.head?.map
      (fun task => (task.id, task.status)) = some (5, .working) := by decide
  refine run_snoc (installation.take 2) _ h2 (fun task rest htasks _ => ?_) (by decide)
  rw [htasks] at hfirst
  have hpair : (task.id, task.status) = (5, .working) := Option.some.inj hfirst
  obtain ⟨hid, hstatus⟩ := Prod.mk.inj hpair
  constructor
  · intro hwaiting
    rw [hstatus] at hwaiting
    cases hwaiting
  · intro _ _ hcompleted
    rw [hid] at hcompleted
    exact absurd hcompleted (by decide)

/-- A server that is being installed. -/
theorem installing_marked_running : ∃ server,
    (performAll installation).gslist.serversList.lookup 1 = some server ∧
      server.installed = .installInProcess ∧
      ∀ (i : LoopInput) (x : GameServerCmd.Executed), LoopEvent.started 1 x ∉
        (endState (startDownServers 0 i)
          { gslist := (performAll installation).gslist, log := [] }).log := by
  obtain ⟨server, hl⟩ : ∃ server,
      (performAll installation).gslist.serversList.lookup 1 = some server :=
    Option.isSome_iff_exists.mp (by decide)
  exact ⟨server, hl, installing_marked installation_run (by decide) hl⟩

/-- After the installation the server counts as installed, in the middle of its update. -/
theorem overlapping_unmarked :
    ¬ ∀ (tz : Int) (gslist : GameServersList) (s : GdaemonTasks) (id : Nat) (server : Server),
      Run (Step tz) Answered (init gslist) s → Installing s id →
        s.gslist.serversList.lookup id = some server → server.installed = .installInProcess := by
  intro h
  have h1 : Run (Step 0) Answered plainInit (performAll overlapping) := by
    refine run_snoc (overlapping.take 3) _ (run_snoc (overlapping.take 2) _
      (run_snoc (overlapping.take 1) _ (run_snoc [] _ (.refl plainInit) ?_ ?_) ?_ ?_) ?_ ?_) ?_ ?_
    all_goals decide
  obtain ⟨server, hl⟩ : ∃ server,
      (performAll overlapping).gslist.serversList.lookup 1 = some server :=
    Option.isSome_iff_exists.mp (by decide)
  have hmark := h 0 _ _ 1 server h1 (by decide) hl
  have hinstalled : ((performAll overlapping).gslist.serversList.lookup 1).map (·.installed) =
      some .installed := by decide
  rw [hl] at hinstalled
  rw [Option.map_some, hmark] at hinstalled
  cases hinstalled

end GdaemonTasks

end GameAP
