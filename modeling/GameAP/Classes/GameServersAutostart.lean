import GameAP.Classes.GameServersUpdate
import GameAP.Classes.ServerLookups
import GameAP.Lib.Run

/-!
# Autostart switched off on the panel

The panel's setting `autostart` is written by the syncs only, the session setting
`autostart_current` by the commands only, and where both are set the crash restart asks the second.
So it starts a server whose autostart the panel has switched off if a start has set the session
setting before (`switched_off_is_started`). `restarts_on`: it does so only then, or when the record
that its own start reads is the one that switches autostart off.
-/

namespace GameAP

open Lib GameServersList

namespace CrashRestart

/-- A start executed by `start_down_servers`, and what the last sync before it made of the setting
`autostart`. -/
structure Restart where
  id : Nat
  executed : GameServerCmd.Executed
  autostart : String

structure State where
  gslist : GameServersList
  /-- the setting `autostart` of each server after its last sync -/
  synced : Nat → String
  restarts : List Restart

def State.init : State := { gslist := empty, synced := fun _ => "", restarts := [] }

/-- What the threads of the daemon do with the registry. A command is constructed, which is a look
at its server, and then executed; the restart is one turn of `start_down_servers`. -/
inductive Action where
  | look (r : ServerReplies) (id : Nat)
  | sync (id : Nat) (reply : Option Json)
  | execute (outcome : GameServerCmd.Outcome) (cmd : GameServerCmd)
  | check (id : Nat) (active : Bool) (checked : Int)
  | restart (v : Visit) (id : Nat)

def autostartIn (id : Nat) (g : GameServersList) : String :=
  ((g.serversList.lookup id).map (·.getSetting "autostart")).getD ""

/-- Server `id` has been synchronised. -/
def State.synchronised (s : State) (id : Nat) (g : GameServersList) : State :=
  { s with gslist := g, synced := Function.update s.synced id (autostartIn id g) }

variable (tz : Int)

/-- One turn of `start_down_servers`. -/
def restartServer (v : Visit) (id : Nat) (s : State) : State :=
  match s.gslist.serversList.lookup id with
  | none => s
  | some server =>
    if !server.autostart || server.processActive || server.installed ≠ .installed then s
    else
      match getServer tz v.replies id s.gslist with
      | .error _ g => s.synchronised id g
      | .ok hasServer g =>
        let (x, g') :=
          GameServerCmd.executeOn v.outcome { serverId := id, command := .start, hasServer } g
        { gslist := g'
          synced := (s.synchronised id g).synced
          restarts := s.restarts ++ [{ id, executed := x, autostart := autostartIn id g }] }

def step (s : State) : Action → State
  | .look r id => s.synchronised id (endState (getServer tz r id) s.gslist)
  | .sync id reply => s.synchronised id (endState (syncFromApi tz id reply) s.gslist)
  | .execute outcome cmd => { s with gslist := (GameServerCmd.executeOn outcome cmd s.gslist).2 }
  | .check id active checked => { s with gslist := setProcess id active checked s.gslist }
  | .restart v id => restartServer tz v id s

def Step (s : State) (a : Action) (t : State) : Prop := t = step tz s a

/-! ## A pass in these steps -/

/-- The starts of a pass. -/
def startsOf (log : List LoopEvent) : List (Nat × GameServerCmd.Executed) :=
  log.filterMap fun e =>
    match e with
    | .started id x => some (id, x)
    | .stats _ => none

/-- The registry and the starts are those of the pass. -/
structure Matches (t : State) (l : LoopState) : Prop where
  gslist : t.gslist = l.gslist
  restarts : t.restarts.map (fun e => (e.id, e.executed)) = startsOf l.log

/-- Steps have led to where the pass is. -/
def Follows (s : State) (l : LoopState) : Prop := ∃ t, Run (Step tz) Any s t ∧ Matches t l

variable {tz} {i : LoopInput} {s t : State} {l l' : LoopState} {id other : Nat} {a : Action}

theorem Follows.step (h : Follows tz s l) (a : Action)
    (ha : ∀ t, Matches t l → Matches (CrashRestart.step tz t a) l') : Follows tz s l' := by
  obtain ⟨t, hrun, ht⟩ := h
  exact ⟨_, .step hrun trivial rfl, ha t ht⟩

theorem onList_gslist {α : Type} (m : ListM α) (l : LoopState) :
    endState (onList m) l = { l with gslist := endState m l.gslist } := by
  unfold onList endState
  dsimp only
  cases m l.gslist <;> rfl

theorem look_follows (r : ServerReplies) :
    Preserves (Follows tz s) (onList (getServer tz r id)) := by
  intro l hl
  rw [onList_gslist]
  refine hl.step (.look r id) fun t ht => ⟨?_, ht.restarts⟩
  show endState (getServer tz r id) t.gslist = _
  rw [ht.gslist]

theorem runCmd_follows (command : Command) (v : Visit) :
    Preserves (Follows tz s) (runCmd tz command v id) := by
  refine (look_follows v.replies).bind fun hasServer l hl => ?_
  refine hl.step (.execute v.outcome { serverId := id, command, hasServer }) fun t ht =>
    ⟨?_, ht.restarts⟩
  show (GameServerCmd.executeOn v.outcome _ t.gslist).2 = _
  rw [ht.gslist]
  rfl

theorem statsServer_follows : Preserves (Follows tz s) (statsServer tz i id) := by
  unfold statsServer
  refine Preserves.get.bind fun l0 => ?_
  split
  · exact Preserves.pure _
  · refine Preserves.ite ((runCmd_follows _ _).bind fun x => ?_) (Preserves.pure _)
    refine (Preserves.modify fun l hl => ?_).bind fun _ => Preserves.pure _
    refine hl.step (.check id x.result (i.checked id)) fun t ht => ⟨?_, ht.restarts⟩
    show setProcess id x.result (i.checked id) t.gslist = _
    rw [ht.gslist]

theorem statsServers_follows :
    ∀ ids : List Nat, Preserves (Follows tz s) (statsServers tz i ids)
  | [] => Preserves.pure _
  | _ :: rest => statsServer_follows.bind fun _ =>
      (statsServers_follows rest).bind fun _ => Preserves.pure _

theorem startsOf_stats (log : List LoopEvent) (body : List StatsEntry) :
    startsOf (log ++ [.stats body]) = startsOf log := by
  simp [startsOf]

theorem startsOf_started (log : List LoopEvent) (x : GameServerCmd.Executed) :
    startsOf (log ++ [.started id x]) = startsOf log ++ [(id, x)] := by
  simp [startsOf]

theorem statsProcess_follows : Preserves (Follows tz s) (statsProcess tz i) := by
  unfold statsProcess
  refine Preserves.get.bind fun l0 => (statsServers_follows _).bind fun body => ?_
  refine Preserves.ite (Preserves.pure _) (Preserves.modify fun l hl => ?_)
  obtain ⟨t, hrun, ht⟩ := hl
  exact ⟨t, hrun, ht.gslist, ht.restarts.trans (startsOf_stats _ _).symm⟩

/-- A turn of the pass is a restart. -/
theorem restartServer_matches (h : Matches t l) :
    Matches (restartServer tz (i.start id) id t) (endState (startServer tz i id) l) := by
  unfold restartServer startServer
  rw [endState_get_bind, h.gslist]
  cases l.gslist.serversList.lookup id with
  | none => exact h
  | some server =>
    dsimp only
    split
    · exact h
    · rw [endState_bind]
      unfold runCmd
      cases hlook : getServer tz (i.start id).replies id l.gslist with
      | error e g =>
        have hon : onList (getServer tz (i.start id).replies id) l =
            .error e { l with gslist := g } := by
          unfold onList
          rw [hlook]
        rw [bind_of_error hon]
        exact ⟨rfl, h.restarts⟩
      | ok hasServer g =>
        have hon : onList (getServer tz (i.start id).replies id) l =
            .ok hasServer { l with gslist := g } := by
          unfold onList
          rw [hlook]
        rw [bind_of_ok hon]
        refine ⟨rfl, ?_⟩
        show List.map _ (t.restarts ++ _) = startsOf (l.log ++ [.started id _])
        rw [List.map_append, h.restarts, startsOf_started]
        rfl

theorem startServers_follows :
    ∀ ids : List Nat, Preserves (Follows tz s) (startServers tz i ids)
  | [] => Preserves.pure _
  | id :: rest => by
    refine Preserves.bind (fun l hl => ?_) fun _ => startServers_follows rest
    exact hl.step (.restart (i.start id) id) fun t ht => restartServer_matches ht

/-- **A pass is a run of these steps**, also when it ends in an exception. -/
theorem loop_follows : Preserves (Follows tz s) (GameServersList.loop tz i) := by
  unfold GameServersList.loop startDownServers
  exact statsProcess_follows.bind fun _ => Preserves.get.bind fun l => startServers_follows _

/-! ## Autostart and the session setting -/

/-- The setting `autostart` is `v`, and the session setting is on only if `v` is. -/
structure Settled (v : String) (server : Server) : Prop where
  autostart : server.getSetting "autostart" = v
  current : Server.isOn (server.getSetting "autostart_current") = true → Server.isOn v = true

theorem Settled.setCurrent {v value : String} {server : Server} (h : Settled v server)
    (hon : Server.isOn value = true → Server.isOn v = true) :
    Settled v (server.setSetting "autostart_current" value) where
  autostart := (Server.getSetting_setSetting_ne _ _ (by decide)).trans h.autostart
  current := by rwa [Server.getSetting_setSetting]

/-- No command writes `autostart`, and the session setting is switched on only where it is on. -/
theorem Settled.execute {outcome : GameServerCmd.Outcome} {v : String} {server : Server}
    (h : Settled v server) (command : Command) :
    Settled v (GameServerCmd.execute outcome command server).2.server := by
  rw [GameServerCmd.execute_server]
  refine GameServerCmd.run_preserves (Q := Settled v) (fun s hs hon => ?_) (fun s hs => ?_) command
    { server, scripts := [], output := [] } h
  · exact hs.setCurrent fun _ => hs.autostart ▸ hon
  · exact hs.setCurrent fun hoff => absurd hoff (by decide)

theorem Settled.isOn {v : String} {server : Server} (h : Settled v server)
    (hauto : server.autostart = true) : Server.isOn v = true := by
  by_cases hcur : server.getSetting "autostart_current" = ""
  · rw [Server.autostart_of_current_empty hcur, h.autostart] at hauto
    exact hauto
  · refine h.current ?_
    unfold Server.autostart at hauto
    simpa only [if_neg hcur] using hauto

theorem settled_of_settings {server : Server} (h : server.settings = ∅) : Settled "" server := by
  have hnone : ∀ name, server.getSetting name = "" := fun name => by
    unfold Server.getSetting
    rw [h]
    rfl
  exact ⟨hnone _, fun hon => by rw [hnone] at hon; exact absurd hon (by decide)⟩

/-- A record without the session setting leaves it alone. -/
theorem syncServer_current {j : Json} (h : NoCurrent j) (value : String) :
    Preserves (fun server => server.getSetting "autostart_current" = value) (syncServer tz j) := by
  refine syncServer_preserves (fun s t hst hs => ?_) fun jsettings hj => ?_
  · unfold Server.getSetting at hs ⊢
    rwa [← hst]
  · have hset : ∀ js : List Json, js ⊆ jsettings.elems →
        Preserves (fun server : Server => server.getSetting "autostart_current" = value)
          (syncSettings js) := by
      intro js
      induction js with
      | nil => exact fun _ => Preserves.pure _
      | cons jsetting rest ih =>
        intro hsub
        refine Preserves.orThrow_bind fun name hname => Preserves.orThrow_bind fun v hv => ?_
        refine (Preserves.modify fun s hs => ?_).bind fun _ =>
          ih fun k hk => hsub (List.mem_cons_of_mem _ hk)
        refine (Server.getSetting_setSetting_ne s v ?_).trans hs
        rintro rfl
        exact h v ⟨jsettings, hj, jsetting, hsub List.mem_cons_self, hname, hv⟩
    exact hset _ (List.Subset.refl _)

/-! ## Looks at a server -/

variable {g : GameServersList} {r : ServerReplies} {reply : Option Json} {server : Server}
  {v : String}

theorem updateList_known :
    Preserves (fun g => g.serversList.lookup id = some server) (updateList r) := by
  unfold updateList
  refine Preserves.get.bind fun g0 => Preserves.ite (Preserves.pure _) ?_
  cases r.list with
  | none => exact Preserves.pure _
  | some jlist =>
    have hadd : Preserves (fun g => g.serversList.lookup id = some server)
        (addServers jlist.elems) := fun g hl =>
      (addServers_updated (g := g) jlist.elems (fun _ hj => hj) g .refl).known id server hl
    refine hadd.bind fun _ => (Preserves.modify ?_).bind fun _ => Preserves.pure _
    exact fun g hl => hl

/-- A look at another server. -/
theorem getServer_known (hne : other ≠ id) :
    Preserves (fun g => g.serversList.lookup id = some server) (getServer tz r other) := by
  have hsync : Preserves (fun g => g.serversList.lookup id = some server) (do
      syncFromApi tz other r.server
      return true) :=
    Preserves.bind (fun g hl => (syncFromApi_ne (Ne.symm hne) tz r.server g).trans hl) fun _ =>
      Preserves.pure _
  unfold getServer
  refine Preserves.get.bind fun g0 => ?_
  dsimp only
  refine Preserves.ite ?_ hsync
  refine (Preserves.modify ?_).bind fun _ => updateList_known.bind fun ok => ?_
  · exact fun g hl => hl
  exact Preserves.ite (Preserves.pure _) (Preserves.get.bind fun g =>
    Preserves.ite (Preserves.pure _) hsync)

theorem Settled.afterReply (h : Settled v server)
    (hcur : ∀ j, Brings reply j → NoCurrent j)
    (hon : ∀ j, Brings reply j → Server.isOn (server.getSetting "autostart_current") = true →
      Server.isOn ((endState (syncServer tz j) server).getSetting "autostart") = true) :
    Settled ((GameServersList.afterReply tz reply server).getSetting "autostart")
      (GameServersList.afterReply tz reply server) := by
  unfold GameServersList.afterReply
  cases reply with
  | none => exact ⟨rfl, h.autostart ▸ h.current⟩
  | some j =>
    dsimp only
    cases hj : j.isEmpty with
    | true => exact ⟨rfl, h.autostart ▸ h.current⟩
    | false =>
      refine ⟨rfl, fun hc => hon j ⟨rfl, hj⟩ ?_⟩
      rwa [← syncServer_current (hcur j ⟨rfl, hj⟩) _ server rfl]

/-! ## Runs -/

/-- The action reads this record of server `id`; a restart does so only if it finds it down. -/
def Reads (id : Nat) (s : State) (j : Json) : Action → Prop
  | .look r k => k = id ∧ Brings r.server j
  | .sync k reply => k = id ∧ Brings reply j
  | .restart v k => k = id ∧ Brings v.replies.server j ∧
      ∃ server, s.gslist.serversList.lookup id = some server ∧ Startable server
  | .execute _ _ | .check _ _ _ => False

def Action.isRestart : Action → Bool
  | .restart _ _ => true
  | _ => false

/-- No record is read that leaves autostart off although the session setting is on, and no restart
reads one that leaves it off. -/
def StaysOn (tz : Int) (id : Nat) (s : State) (a : Action) : Prop :=
  ∀ j, Reads id s j a → ∀ server, s.gslist.serversList.lookup id = some server →
    a.isRestart = true ∨ Server.isOn (server.getSetting "autostart_current") = true →
    Server.isOn ((endState (syncServer tz j) server).getSetting "autostart") = true

/-- The records do not name the session setting. -/
def NamesNoCurrent (id : Nat) (s : State) (a : Action) : Prop := ∀ j, Reads id s j a → NoCurrent j

structure Inv (id : Nat) (s : State) : Prop where
  settled : HoldsOf (Settled (s.synced id)) id s.gslist
  absent : id ∉ s.gslist.serversList → s.synced id = ""
  restarts : ∀ e ∈ s.restarts, e.id = id → Server.isOn e.autostart = true

theorem inv_init : Inv id .init where
  settled := fun _ hl => nomatch hl
  absent := fun _ => rfl
  restarts := fun _ he => absurd he List.not_mem_nil

theorem autostartIn_of_lookup (h : g.serversList.lookup id = some server) :
    autostartIn id g = server.getSetting "autostart" := by
  unfold autostartIn
  rw [h]
  rfl

theorem autostartIn_of_notMem (h : id ∉ g.serversList) : autostartIn id g = "" := by
  unfold autostartIn
  rw [AList.lookup_eq_none.mpr h]
  rfl

/-- The server has been synchronised. -/
theorem Inv.synchronised (h : Inv id s) (hg : HoldsOf (Settled (autostartIn id g)) id g) :
    Inv id (s.synchronised id g) where
  settled := by
    show HoldsOf (Settled (Function.update s.synced id (autostartIn id g) id)) id g
    rwa [Function.update_self]
  absent := fun hn => by
    show Function.update s.synced id (autostartIn id g) id = ""
    rw [Function.update_self]
    exact autostartIn_of_notMem hn
  restarts := h.restarts

/-- Another one has. -/
theorem Inv.synchronised_ne (h : Inv id s) (hne : other ≠ id)
    (hg : HoldsOf (Settled (s.synced id)) id g)
    (hmem : id ∈ s.gslist.serversList → id ∈ g.serversList) :
    Inv id (s.synchronised other g) where
  settled := by
    show HoldsOf (Settled (Function.update s.synced other (autostartIn other g) id)) id g
    rwa [Function.update_of_ne (Ne.symm hne)]
  absent := fun hn => by
    show Function.update s.synced other (autostartIn other g) id = ""
    rw [Function.update_of_ne (Ne.symm hne)]
    exact h.absent fun hm => hn (hmem hm)
  restarts := h.restarts

theorem Inv.look_ne (h : Inv id s) (hne : other ≠ id) :
    Inv id (s.synchronised other (endState (getServer tz r other) s.gslist)) := by
  by_cases hm : id ∈ s.gslist.serversList
  · obtain ⟨server, hl⟩ := Table.exists_lookup hm
    have hl' : (endState (getServer tz r other) s.gslist).serversList.lookup id = some server :=
      getServer_known hne s.gslist hl
    refine h.synchronised_ne hne (fun server' hs => ?_) fun _ => Table.mem_of_lookup hl'
    exact h.settled server' (hl.trans (hl'.symm.trans hs))
  · refine h.synchronised_ne hne ?_ fun hm' => absurd hm' hm
    have hempty := h.absent hm
    rw [hempty]
    exact getServer_holds (fun _ => settled_of_settings) (fun he => absurd he hne) s.gslist
      fun server hl => absurd (Table.mem_of_lookup hl) hm

theorem noCurrent_of_isEmpty {j : Json} (h : j.isEmpty = true) : NoCurrent j := by
  rintro value ⟨jsettings, hget, jsetting, hmem, -⟩
  have hnull : jsettings = .null := by
    cases j with
    | null =>
      cases hget
      rfl
    | obj kvs =>
      obtain rfl := List.isEmpty_iff.mp h
      cases hget
      rfl
    | _ => cases hget
  rw [hnull] at hmem
  exact absurd hmem List.not_mem_nil

theorem Inv.sync_ne (h : Inv id s) (hne : other ≠ id) :
    Inv id (s.synchronised other (endState (syncFromApi tz other reply) s.gslist)) := by
  have hl := syncFromApi_ne (Ne.symm hne) tz reply s.gslist
  refine h.synchronised_ne hne (fun server hs => h.settled server (hl ▸ hs)) fun hm => ?_
  exact AList.lookup_isSome.mp (hl.symm ▸ AList.lookup_isSome.mpr hm)

/-- The server's own record is read; its condition is asked of the registry as it was before. -/
theorem Inv.sync_self (h : Inv id s) (hcur : ∀ j, Brings reply j → NoCurrent j)
    (hon : ∀ j, Brings reply j → ∀ server, s.gslist.serversList.lookup id = some server →
      Server.isOn (server.getSetting "autostart_current") = true →
      Server.isOn ((endState (syncServer tz j) server).getSetting "autostart") = true) :
    Inv id (s.synchronised id (endState (syncFromApi tz id reply) s.gslist)) := by
  refine h.synchronised fun server hl => ?_
  rw [autostartIn_of_lookup hl]
  rw [lookup_syncFromApi] at hl
  obtain ⟨server0, h0, rfl⟩ := Option.map_eq_some_iff.mp hl
  exact (h.settled server0 h0).afterReply hcur fun j hj => hon j hj server0 h0

theorem Inv.look_self (h : Inv id s) (hcur : ∀ j, Brings r.server j → NoCurrent j)
    (hon : ∀ j, Brings r.server j → ∀ server, s.gslist.serversList.lookup id = some server →
      Server.isOn (server.getSetting "autostart_current") = true →
      Server.isOn ((endState (syncServer tz j) server).getSetting "autostart") = true) :
    Inv id (s.synchronised id (endState (getServer tz r id) s.gslist)) := by
  by_cases hm : id ∈ s.gslist.serversList
  · rw [getServer_of_mem hm]
    exact h.sync_self hcur hon
  · -- a server that the look adds has no session setting
    have hnew : HoldsOf (fun server => server.getSetting "autostart_current" = "") id
        (endState (getServer tz r id) s.gslist) := by
      refine getServer_holds (fun server hs => ?_) (fun _ j hj => ?_) s.gslist fun server hl =>
        absurd (Table.mem_of_lookup hl) hm
      · unfold Server.getSetting
        rw [hs]
        rfl
      · by_cases he : j.isEmpty = true
        · exact syncServer_current (noCurrent_of_isEmpty he) ""
        · exact syncServer_current (hcur j ⟨hj, Bool.eq_false_iff.mpr he⟩) ""
    refine h.synchronised fun server hl => ?_
    rw [autostartIn_of_lookup hl]
    refine ⟨rfl, fun hc => ?_⟩
    rw [hnew server hl] at hc
    exact absurd hc (by decide)

theorem Inv.execute {outcome : GameServerCmd.Outcome} {cmd : GameServerCmd} (h : Inv id s) :
    Inv id { s with gslist := (GameServerCmd.executeOn outcome cmd s.gslist).2 } where
  settled := executeOn_holds (fun _ _ hs => hs.execute _) h.settled
  absent := fun hn => h.absent fun hm => hn (mem_executeOn.mpr hm)
  restarts := h.restarts

theorem Inv.check {active : Bool} {checked : Int} (h : Inv id s) :
    Inv id { s with gslist := setProcess other active checked s.gslist } where
  settled := holdsOf_modify h.settled fun _ _ hs => ⟨hs.autostart, hs.current⟩
  absent := fun hn => h.absent fun hm => hn (Table.mem_modify.mpr hm)
  restarts := h.restarts

/-- The record that a restart reads leaves autostart on. -/
theorem Inv.on_afterReply {visit : Visit} (h : Inv id s) (hon : StaysOn tz id s (.restart visit id))
    (hl : s.gslist.serversList.lookup id = some server) (hstart : Startable server) :
    Server.isOn ((afterReply tz visit.replies.server server).getSetting "autostart") = true := by
  have hsame : Server.isOn (server.getSetting "autostart") = true := by
    rw [(h.settled server hl).autostart]
    exact (h.settled server hl).isOn hstart.1
  unfold afterReply
  split
  · exact hsame
  · next j hj =>
    split
    · exact hsame
    · next hne =>
      have hbrings : Brings visit.replies.server j := ⟨hj, Bool.eq_false_iff.mpr hne⟩
      exact hon j ⟨rfl, hbrings, server, hl, hstart⟩ server hl (.inl rfl)

/-- The look at a server that is going to be started. -/
theorem Inv.look_restart {visit : Visit} {server : Server} (h : Inv id s)
    (hcur : NamesNoCurrent id s (.restart visit other))
    (hon : StaysOn tz id s (.restart visit other))
    (hl : s.gslist.serversList.lookup other = some server) (hstart : Startable server) :
    Inv id (s.synchronised other (endState (getServer tz visit.replies other) s.gslist)) := by
  by_cases he : other = id
  · subst he
    have hreads : ∀ j, Brings visit.replies.server j →
        Reads other s j (.restart visit other) := fun j hj => ⟨rfl, hj, server, hl, hstart⟩
    exact h.look_self (fun j hj => hcur j (hreads j hj)) fun j hj server0 h0 _ =>
      hon j (hreads j hj) server0 h0 (.inl rfl)
  · exact h.look_ne he

/-- A restart that is executed: the settings of its server are those of the last sync, which left
autostart on. -/
theorem Inv.restart {visit : Visit} (h : Inv id s)
    (hcur : NamesNoCurrent id s (.restart visit other))
    (hon : StaysOn tz id s (.restart visit other)) :
    Inv id (restartServer tz visit other s) := by
  unfold restartServer
  cases hl : s.gslist.serversList.lookup other with
  | none => exact h
  | some server =>
    dsimp only
    split
    · exact h
    next hgo =>
    simp only [Bool.or_eq_true, Bool.not_eq_true', decide_eq_true_eq, not_or, Bool.not_eq_false,
      Bool.not_eq_true, ne_eq, not_not] at hgo
    obtain ⟨⟨hauto, hactive⟩, hinst⟩ := hgo
    have hstart : Startable server := ⟨hauto, hactive, hinst⟩
    have hmem : other ∈ s.gslist.serversList := Table.mem_of_lookup hl
    have hlook := h.look_restart hcur hon hl hstart
    cases hget : getServer tz visit.replies other s.gslist with
    | error e g =>
      rw [endState_of_error hget] at hlook
      exact hlook
    | ok hasServer g =>
      rw [endState_of_ok hget] at hlook
      have hexec : Inv id { s.synchronised other g with
          gslist := (GameServerCmd.executeOn visit.outcome
            { serverId := other, command := .start, hasServer } g).2 } := hlook.execute
      refine ⟨hexec.settled, hexec.absent, fun e he heid => ?_⟩
      rcases List.mem_append.mp he with he | he
      · exact h.restarts e he heid
      obtain rfl := List.mem_singleton.mp he
      subst heid
      show Server.isOn (autostartIn other g) = true
      have hg : g = endState (syncFromApi tz other visit.replies.server) s.gslist := by
        rw [← getServer_of_mem hmem, endState_of_ok hget]
      have hlg : g.serversList.lookup other = some (afterReply tz visit.replies.server server) := by
        rw [hg, lookup_syncFromApi, hl]
        rfl
      rw [autostartIn_of_lookup hlg]
      exact h.on_afterReply hon hl hstart

theorem Inv.step (h : Inv id s) (hcur : NamesNoCurrent id s a) (hon : StaysOn tz id s a) :
    Inv id (CrashRestart.step tz s a) := by
  cases a with
  | look r other =>
    by_cases he : other = id
    · subst he
      exact h.look_self (fun j hj => hcur j ⟨rfl, hj⟩) fun j hj server hl hc =>
        hon j ⟨rfl, hj⟩ server hl (.inr hc)
    · exact h.look_ne he
  | sync other reply =>
    by_cases he : other = id
    · subst he
      exact h.sync_self (fun j hj => hcur j ⟨rfl, hj⟩) fun j hj server hl hc =>
        hon j ⟨rfl, hj⟩ server hl (.inr hc)
    · exact h.sync_ne he
  | execute outcome cmd => exact h.execute
  | check other active checked => exact h.check
  | restart visit other => exact h.restart hcur hon

/-- **What the panel switches off stays down.** In every run of looks, syncs, commands, checks and
restarts whose records do not name the session setting: if no record that is read leaves autostart
off while the session setting is on, and none that a restart reads leaves it off, then at every
restart of the server the last sync had left its autostart on. -/
theorem restarts_on (tz : Int) (id : Nat) (s : State)
    (h : Run (Step tz) (fun s a => NamesNoCurrent id s a ∧ StaysOn tz id s a) .init s) :
    ∀ e ∈ s.restarts, e.id = id → Server.isOn e.autostart = true := by
  have hinv : Inv id s := h.invariant inv_init fun s a t hs hok ht => by
    subst ht
    exact hs.step hok.1 hok.2
  exact hinv.restarts

/-! ## A server that is switched off -/

/-- An installed server with this setting. -/
def recordWith (autostart : String) : Json :=
  .obj [("updated_at", .str "1970-01-01 00:01:00"), ("installed", .int 1),
    ("settings", .arr [.obj [("name", .str "autostart"), ("value", .str autostart)]])]

def lookWith (reply : Option Json) : ServerReplies :=
  { now := 100, later := 100, list := some (.arr [.obj [("id", .int 1)]]), server := reply }

def lookOn : Action := .look (lookWith (some (recordWith "1"))) 1

def lookOff : Action := .look (lookWith (some (recordWith "0"))) 1

def startCmd : Action :=
  .execute (fun _ => .ok true) { serverId := 1, command := .start, hasServer := true }

def restartSilent : Action := .restart { replies := lookWith none, outcome := fun _ => .ok true } 1

def runActions (actions : List Action) (s : State) : State := actions.foldl (step 0) s

theorem noCurrent_recordWith (autostart : String) : NoCurrent (recordWith autostart) := by
  rintro value ⟨jsettings, hget, jsetting, hmem, hname, -⟩
  cases hget
  obtain rfl := List.mem_singleton.mp hmem
  have heq : (Except.ok "autostart" : Except Exn String) = .ok "autostart_current" := hname
  exact absurd (Except.ok.inj heq) (by decide)

theorem look_namesNoCurrent (autostart : String) (s : State) :
    NamesNoCurrent 1 s (.look (lookWith (some (recordWith autostart))) 1) := by
  rintro j ⟨-, hj, -⟩
  cases hj
  exact noCurrent_recordWith autostart

theorem restartSilent_reads (s : State) (j : Json) : ¬ Reads 1 s j restartSilent := by
  rintro ⟨-, ⟨hj, -⟩, -⟩
  cases hj

def stopCmd : Action :=
  .execute (fun _ => .ok true) { serverId := 1, command := .stop, hasServer := true }

/-- The server is switched on, stopped by hand and started again, and found down. -/
theorem run_on : Run (Step 0) (fun s a => NamesNoCurrent 1 s a ∧ StaysOn 0 1 s a) .init
    (runActions [lookOn, stopCmd, startCmd, restartSilent] .init) := by
  have hexecute : ∀ s outcome cmd, NamesNoCurrent 1 s (.execute outcome cmd) ∧
      StaysOn 0 1 s (.execute outcome cmd) := fun s outcome cmd =>
    ⟨fun j hj => hj.elim, fun j hj => hj.elim⟩
  refine .step (i := restartSilent) (.step (i := startCmd) (.step (i := stopCmd)
    (.step (i := lookOn) (.refl _) ⟨look_namesNoCurrent "1" _, fun j _ server hl => nomatch hl⟩ rfl)
    (hexecute _ _ _) rfl) (hexecute _ _ _) rfl) ⟨fun j hj => ?_, fun j hj => ?_⟩ rfl
  · exact absurd hj (restartSilent_reads _ j)
  · exact absurd hj (restartSilent_reads _ j)

theorem restarts_on_stopped :
    (runActions [lookOn, stopCmd, startCmd, restartSilent] .init).restarts.map (·.autostart) =
      ["1"] ∧
    ∀ e ∈ (runActions [lookOn, stopCmd, startCmd, restartSilent] .init).restarts, e.id = 1 →
      Server.isOn e.autostart = true :=
  ⟨rfl, restarts_on 0 1 _ run_on⟩

/-- It is started, then switched off, and found down. -/
theorem run_switched_off : Run (Step 0) (NamesNoCurrent 1) .init
    (runActions [lookOn, startCmd, lookOff, restartSilent] .init) := by
  have hstart : ∀ s, NamesNoCurrent 1 s startCmd := fun s j hj => hj.elim
  have hrestart : ∀ s, NamesNoCurrent 1 s restartSilent := fun s j hj =>
    absurd hj (restartSilent_reads s j)
  exact .step (.step (.step (.step (.refl _) (look_namesNoCurrent "1" _) rfl) (hstart _) rfl)
    (look_namesNoCurrent "0" _) rfl) (hrestart _) rfl

theorem switched_off_is_started : ¬ ∀ tz id s, Run (Step tz) (NamesNoCurrent id) .init s →
    ∀ e ∈ s.restarts, e.id = id → Server.isOn e.autostart = true := by
  intro hall
  have h := hall 0 1 _ run_switched_off
  have hrestarts : (runActions [lookOn, startCmd, lookOff, restartSilent] .init).restarts.map
      (fun e => (e.id, Server.isOn e.autostart)) = [(1, false)] := rfl
  have hmem : (1, false) ∈
      (runActions [lookOn, startCmd, lookOff, restartSilent] .init).restarts.map
        (fun e => (e.id, Server.isOn e.autostart)) := hrestarts ▸ List.mem_singleton_self _
  obtain ⟨e, he, heq⟩ := List.mem_map.mp hmem
  obtain ⟨hid, hoff⟩ := Prod.mk.inj heq
  rw [h e he hid] at hoff
  cases hoff

end CrashRestart

end GameAP
