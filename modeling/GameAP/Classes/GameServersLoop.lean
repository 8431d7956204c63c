import GameAP.Classes.ServerStamps
import GameAP.Commands.GameServerCmd

/-!
# The periodic loop over the game servers

`GameServersList.loop` asks the status of every server (`statsProcess`) and then starts those that
are down and have autostart (`startDownServers`). Its commands are executed in the daemon itself.
An exception ends the pass, and the daemon goes on with the registry as it is by then.

A pass starts a server only if its autostart is on. `loop_holds`: what the settings of a server
keep off stays off, unless a record that is read switches it on.
-/

namespace GameAP

open Lib

namespace GameServersList

/-- What one command of the loop reads: the replies to its look at the server, and what its
scripts return. -/
structure Visit where
  replies : ServerReplies
  outcome : GameServerCmd.Outcome

/-- What one pass reads; each server has at most one command of each kind. -/
structure LoopInput where
  status : Nat → Visit
  /-- the clock after the status command -/
  checked : Nat → Int
  start : Nat → Visit
  timediff : Option Int

/-- One server in the request body of `stats_process`. -/
structure StatsEntry where
  id : Nat
  /-- `last_process_check` and `process_active` of an installed server -/
  process : Option (String × Bool)
  deriving DecidableEq, Repr

inductive LoopEvent where
  | stats (body : List StatsEntry)
  /-- the start command of a server that is down has been executed -/
  | started (id : Nat) (executed : GameServerCmd.Executed)
  deriving DecidableEq, Repr

structure LoopState where
  gslist : GameServersList
  log : List LoopEvent

abbrev LoopM := EStateM Exn LoopState

def onList {α : Type} (m : ListM α) : LoopM α := fun s =>
  match m s.gslist with
  | .ok a g => .ok a { s with gslist := g }
  | .error e g => .error e { s with gslist := g }

def record (e : LoopEvent) : LoopM PUnit := modify fun s => { s with log := s.log ++ [e] }

/-- The constructor of a command and its `execute`. -/
def runCmd (tz : Int) (command : Command) (v : Visit) (id : Nat) :
    LoopM GameServerCmd.Executed := do
  let hasServer ← onList (getServer tz v.replies id)
  let s ← get
  let (x, gslist) := GameServerCmd.executeOn v.outcome { serverId := id, command, hasServer } s.gslist
  set { s with gslist }
  return x

def setProcess (id : Nat) (active : Bool) (checked : Int) (g : GameServersList) :
    GameServersList :=
  { g with serversList := g.serversList.modify id fun s =>
      { s with processActive := active, lastProcessCheck := checked } }

variable (tz : Int) (i : LoopInput)

def statsServer (id : Nat) : LoopM (List StatsEntry) := do
  match (← get).gslist.serversList.lookup id with
  | none => return []
  | some server =>
    if server.installed = .installed then
      let x ← runCmd tz .status (i.status id) id
      modify fun s => { s with gslist := setProcess id x.result (i.checked id) s.gslist }
      return [{
        id := server.id
        process := some (formatTime (i.checked id - i.timediff.getD 0), x.result) }]
    else return [{ id := server.id, process := none }]

def statsServers : List Nat → LoopM (List StatsEntry)
  | [] => return []
  | id :: rest => do
    let entry ← statsServer tz i id
    return entry ++ (← statsServers rest)

def statsProcess : LoopM PUnit := do
  let body ← statsServers tz i (← get).gslist.serversList.keys
  if body = [] then return ⟨⟩
  record (.stats body)

def startServer (id : Nat) : LoopM PUnit := do
  match (← get).gslist.serversList.lookup id with
  | none => return ⟨⟩
  | some server =>
    if !server.autostart || server.processActive || server.installed ≠ .installed then return ⟨⟩
    else
      let x ← runCmd tz .start (i.start id) id
      record (.started id x)

def startServers : List Nat → LoopM PUnit
  | [] => return ⟨⟩
  | id :: rest => do
    startServer tz i id
    startServers rest

def startDownServers : LoopM PUnit := do
  startServers tz i (← get).gslist.serversList.keys

def loop : LoopM PUnit := do
  statsProcess tz i
  startDownServers tz i

/-! ## What a look at a server keeps -/

/-- What holds of server `id`, if it is in the registry. -/
def HoldsOf (Q : Server → Prop) (id : Nat) (g : GameServersList) : Prop :=
  ∀ server, g.serversList.lookup id = some server → Q server

variable {tz i} {Q : Server → Prop} {id other : Nat} {g : GameServersList}

theorem holdsOf_modify {f : Server → Server} (h : HoldsOf Q id g)
    (hf : other = id → ∀ server, Q server → Q (f server)) :
    HoldsOf Q id { g with serversList := g.serversList.modify other f } := by
  intro server hl
  by_cases he : id = other
  · subst he
    rw [Table.lookup_modify] at hl
    obtain ⟨server0, h0, rfl⟩ := Option.map_eq_some_iff.mp hl
    exact hf rfl _ (h _ h0)
  · rw [Table.lookup_modify_ne he] at hl
    exact h _ hl

theorem onServer_holds {α : Type} {f : EStateM Exn Server α} (hf : other = id → Preserves Q f) :
    Preserves (HoldsOf Q id) (onServer other f) := by
  intro g hg server hl
  by_cases he : other = id
  · subst he
    rw [statusIn_onServer] at hl
    obtain ⟨server0, h0, rfl⟩ := Option.map_eq_some_iff.mp hl
    exact hf rfl _ (hg _ h0)
  · rw [onServer_ne (Ne.symm he)] at hl
    exact hg _ hl

theorem syncFromApi_holds {reply : Option Json}
    (h : other = id → ∀ j, reply = some j → Preserves Q (syncServer tz j)) :
    Preserves (HoldsOf Q id) (syncFromApi tz other reply) := by
  unfold syncFromApi
  cases reply with
  | none => exact Preserves.pure _
  | some j => exact Preserves.ite (Preserves.pure _) (onServer_holds fun he => h he j rfl)

/-- A new server has no settings. -/
theorem newServer_settings {j : Json} {server : Server} (h : newServer j = .ok server) :
    server.settings = ∅ := by
  unfold newServer at h
  iterate 21 obtain ⟨_, -, h⟩ := ok_of_bind h
  cases h
  rfl

theorem holdsOf_emplace {k : Nat} {server : Server} (h : HoldsOf Q id g) (hs : Q server) :
    HoldsOf Q id { g with serversList := g.serversList.emplace k server } := by
  intro server' hl
  by_cases hk : id = k
  · subst hk
    by_cases hm : id ∈ g.serversList
    · have hsame : g.serversList.emplace id server = g.serversList := if_pos hm
      rw [hsame] at hl
      exact h _ hl
    · rw [Table.lookup_emplace_of_notMem hm] at hl
      cases hl
      exact hs
  · rw [Table.lookup_emplace_ne hk] at hl
    exact h _ hl

theorem addServers_holds (hnew : ∀ server : Server, server.settings = ∅ → Q server) :
    ∀ js : List Json, Preserves (HoldsOf Q id) (addServers js)
  | [] => Preserves.pure _
  | jserver :: rest => by
    have hrest := addServers_holds hnew rest
    refine (Preserves.orThrow _).bind fun k => Preserves.get.bind fun g => ?_
    dsimp only
    refine Preserves.ite (Preserves.orThrow_bind fun server hserver => ?_) hrest
    refine (Preserves.modify fun g hg => ?_).bind fun _ => hrest
    exact holdsOf_emplace hg (hnew _ (newServer_settings hserver))

theorem updateList_holds (hnew : ∀ server : Server, server.settings = ∅ → Q server)
    (r : ServerReplies) : Preserves (HoldsOf Q id) (updateList r) := by
  unfold updateList
  refine Preserves.get.bind fun g => ?_
  refine Preserves.ite (Preserves.pure _) ?_
  cases r.list with
  | none => exact Preserves.pure _
  | some jvalue =>
    refine (addServers_holds hnew _).bind fun _ => ?_
    refine (Preserves.modify ?_).bind fun _ => Preserves.pure _
    exact fun g hg => hg

/-- **What a look at a server keeps**: the records of that server must keep it, and it must hold
of a server without settings, as a new one is. -/
theorem getServer_holds {r : ServerReplies}
    (hnew : ∀ server : Server, server.settings = ∅ → Q server)
    (h : other = id → ∀ j, r.server = some j → Preserves Q (syncServer tz j)) :
    Preserves (HoldsOf Q id) (getServer tz r other) := by
  have hsync : Preserves (HoldsOf Q id) (do
      syncFromApi tz other r.server
      return true) := (syncFromApi_holds h).bind fun _ => Preserves.pure _
  unfold getServer
  refine Preserves.get.bind fun g => ?_
  dsimp only
  refine Preserves.ite ?_ hsync
  refine (Preserves.modify ?_).bind fun _ => (updateList_holds hnew r).bind fun ok => ?_
  · exact fun g hg => hg
  refine Preserves.ite (Preserves.pure _) (Preserves.get.bind fun g => ?_)
  exact Preserves.ite (Preserves.pure _) hsync

/-! ## Autostart -/

def AutostartOff (server : Server) : Prop := server.autostart = false

/-- A value that a record gives to a setting. -/
def Sets (j : Json) (name value : String) : Prop :=
  ∃ jsettings, j.get "settings" = .ok jsettings ∧ ∃ jsetting ∈ jsettings.elems,
    jsetting.getString "name" = .ok name ∧ jsetting.getString "value" = .ok value

/-- A record without the session setting. -/
def NoCurrent (j : Json) : Prop := ∀ value, ¬ Sets j "autostart_current" value

/-- A record that does not switch autostart on. -/
def NotOn (j : Json) : Prop := ∀ value, Sets j "autostart" value → Server.isOn value = false

theorem autostart_eq_of_settings {server t : Server} (h : server.settings = t.settings) :
    server.autostart = t.autostart := by
  unfold Server.autostart Server.getSetting
  rw [h]

theorem autostartOff_setSetting {server : Server} {name value : String}
    (h : AutostartOff server) (hcur : name ≠ "autostart_current")
    (hon : name = "autostart" → Server.isOn value = false) :
    AutostartOff (server.setSetting name value) := by
  have hsame : (server.setSetting name value).getSetting "autostart_current" =
      server.getSetting "autostart_current" :=
    Server.getSetting_setSetting_ne _ _ (Ne.symm hcur)
  by_cases hname : name = "autostart"
  · subst hname
    by_cases hc : server.getSetting "autostart_current" = ""
    · show (server.setSetting "autostart" value).autostart = false
      rw [Server.autostart_of_current_empty (hsame.trans hc), Server.getSetting_setSetting]
      exact hon rfl
    · unfold AutostartOff Server.autostart at h ⊢
      simpa only [hsame, if_neg hc] using h
  · have hauto : (server.setSetting name value).getSetting "autostart" =
        server.getSetting "autostart" := Server.getSetting_setSetting_ne _ _ (Ne.symm hname)
    unfold AutostartOff Server.autostart at h ⊢
    simpa only [hsame, hauto] using h

theorem syncSettings_off : ∀ js : List Json,
    (∀ jsetting ∈ js, ∀ name value, jsetting.getString "name" = .ok name →
      jsetting.getString "value" = .ok value → name ≠ "autostart_current" ∧
        (name = "autostart" → Server.isOn value = false)) →
    Preserves AutostartOff (syncSettings js)
  | [], _ => Preserves.pure _
  | jsetting :: rest, h => by
    refine Preserves.orThrow_bind fun name hname => Preserves.orThrow_bind fun value hvalue => ?_
    obtain ⟨hcur, hon⟩ := h jsetting List.mem_cons_self name value hname hvalue
    refine (Preserves.modify fun server hoff => autostartOff_setSetting hoff hcur hon).bind
      fun _ => ?_
    exact syncSettings_off rest fun j hj => h j (List.mem_cons_of_mem _ hj)

/-- What depends on a server's settings only. -/
def OfSettings (Q : Server → Prop) : Prop := ∀ s t : Server, s.settings = t.settings → Q s → Q t

/-- Storing a part of the record that is no setting. -/
theorem store_preserves {α : Type} {x : Except Exn α} {set : Server → α → Server}
    {k : PUnit → SyncM PUnit} (hQ : OfSettings Q) (h : ∀ s v, (set s v).settings = s.settings)
    (hk : Preserves Q (k ⟨⟩)) :
    Preserves Q (orThrow x >>= fun v => modify (fun s => set s v) >>= k) := by
  refine (Preserves.orThrow _).bind fun v => (Preserves.modify fun s hs => ?_).bind fun _ => hk
  exact hQ _ _ (h s v).symm hs

theorem setString_preserves {j : Json} {key : String} {set : Server → String → Server}
    {k : PUnit → SyncM PUnit} (hQ : OfSettings Q) (h : ∀ s v, (set s v).settings = s.settings)
    (hk : Preserves Q (k ⟨⟩)) : Preserves Q (setString j key set >>= k) := by
  refine Preserves.bind ?_ fun _ => hk
  refine (Preserves.orThrow _).bind fun v => Preserves.modify fun s hs => ?_
  exact hQ _ _ (h s v).symm hs

theorem syncStatus_preserves (hQ : OfSettings Q) (j : Json) (stamp : Int) :
    Preserves Q (syncStatus j stamp) := by
  unfold syncStatus
  refine Preserves.get.bind fun s => Preserves.ite ?_ (Preserves.pure _)
  refine store_preserves hQ ?_ (store_preserves hQ ?_ ?_)
  · exact fun _ _ => rfl
  · exact fun _ _ => rfl
  · refine (Preserves.orThrow _).bind fun v => Preserves.modify fun s hs => ?_
    exact hQ s _ rfl hs

/-- **What the settings of a record keep, the record keeps.** -/
theorem syncServer_preserves {j : Json} (hQ : OfSettings Q)
    (h : ∀ jsettings, j.get "settings" = .ok jsettings →
      Preserves Q (syncSettings jsettings.elems)) : Preserves Q (syncServer tz j) := by
  unfold syncServer syncFields
  refine (Preserves.orThrow _).bind fun str => (syncStatus_preserves hQ j _).bind fun _ => ?_
  refine (Preserves.modify ?_).bind fun _ => ?_
  · exact fun s hs => hQ s _ rfl hs
  iterate 7 refine setString_preserves hQ ?_ ?_; exact fun _ _ => rfl
  iterate 2 refine store_preserves hQ ?_ ?_; exact fun _ _ => rfl
  iterate 6 refine setString_preserves hQ ?_ ?_; exact fun _ _ => rfl
  refine store_preserves hQ ?_ (Preserves.orThrow_bind h)
  exact fun _ _ => rfl

/-- **What a record keeps off.** -/
theorem syncServer_off {j : Json} (hcur : NoCurrent j) (hon : NotOn j) :
    Preserves AutostartOff (syncServer tz j) := by
  refine syncServer_preserves (fun s t h hs => (autostart_eq_of_settings h).symm.trans hs)
    fun jsettings hj => ?_
  refine syncSettings_off _ fun jsetting hmem name value hname hvalue => ⟨?_, ?_⟩
  · rintro rfl
    exact hcur value ⟨jsettings, hj, jsetting, hmem, hname, hvalue⟩
  · rintro rfl
    exact hon value ⟨jsettings, hj, jsetting, hmem, hname, hvalue⟩

theorem autostartOff_of_settings {server : Server} (h : server.settings = ∅) :
    AutostartOff server := by
  unfold AutostartOff
  rw [autostart_eq_of_settings (t := { server with settings := ∅ }) h]
  rfl

/-- A look at a server leaves the autostart of `id` off. -/
theorem getServer_off {r : ServerReplies}
    (h : other = id → ∀ j, r.server = some j → NoCurrent j ∧ NotOn j) :
    Preserves (HoldsOf AutostartOff id) (getServer tz r other) :=
  getServer_holds (fun _ => autostartOff_of_settings) fun he j hj =>
    syncServer_off (h he j hj).1 (h he j hj).2

/-! ## A pass -/

/-- The autostart of server `id` is off, and the pass has not started it. -/
def Quiet (id : Nat) (s : LoopState) : Prop :=
  HoldsOf AutostartOff id s.gslist ∧ ∀ x, LoopEvent.started id x ∉ s.log

theorem onList_quiet {α : Type} {m : ListM α} (h : Preserves (HoldsOf AutostartOff id) m) :
    Preserves (Quiet id) (onList m) := by
  rintro s ⟨hoff, hlog⟩
  have hm := h s.gslist hoff
  unfold onList endState
  cases hr : m s.gslist with
  | ok a g =>
    rw [endState_of_ok hr] at hm
    simp only [hr]
    exact ⟨hm, hlog⟩
  | error e g =>
    rw [endState_of_error hr] at hm
    simp only [hr]
    exact ⟨hm, hlog⟩

theorem record_quiet {e : LoopEvent} (h : ∀ x, e ≠ .started id x) :
    Preserves (Quiet id) (record e) := by
  refine Preserves.modify fun s hs => ⟨hs.1, fun x hx => ?_⟩
  rcases List.mem_append.mp hx with hx | hx
  · exact hs.2 x hx
  · exact h x (List.mem_singleton.mp hx).symm

/-- What the execution of a command keeps of a server. -/
theorem executeOn_holds {outcome : GameServerCmd.Outcome} {cmd : GameServerCmd}
    (h : cmd.serverId = id → ∀ server, Q server →
      Q (GameServerCmd.execute outcome cmd.command server).2.server) (hg : HoldsOf Q id g) :
    HoldsOf Q id (GameServerCmd.executeOn outcome cmd g).2 := by
  unfold GameServerCmd.executeOn
  split
  · exact hg
  · next server hl =>
    refine holdsOf_modify hg fun he _ _ => h he server (hg server ?_)
    by_cases hs : cmd.hasServer = true
    · rw [if_pos hs] at hl
      rwa [← he]
    · rw [if_neg hs] at hl
      cases hl

/-- A command leaves the autostart of a server off if it is for another one or only asks for the
status. -/
theorem executeOn_off {outcome : GameServerCmd.Outcome} {cmd : GameServerCmd}
    (h : cmd.serverId = id → cmd.command = .status) (hg : HoldsOf AutostartOff id g) :
    HoldsOf AutostartOff id (GameServerCmd.executeOn outcome cmd g).2 := by
  refine executeOn_holds (fun he server hoff => ?_) hg
  rw [h he, GameServerCmd.execute_server]
  show AutostartOff (endState (GameServerCmd.status outcome) _).server
  unfold GameServerCmd.status
  rwa [GameServerCmd.endState_runScript]

theorem runCmd_quiet {command : Command} {v : Visit} (h : other = id → command = .status)
    (hr : other = id → ∀ j, v.replies.server = some j → NoCurrent j ∧ NotOn j) :
    Preserves (Quiet id) (runCmd tz command v other) := by
  refine (onList_quiet (getServer_off hr)).bind fun hasServer => ?_
  rintro s ⟨hoff, hlog⟩
  exact ⟨executeOn_off h hoff, hlog⟩

theorem statsServer_quiet
    (h : ∀ j, (i.status id).replies.server = some j → NoCurrent j ∧ NotOn j) :
    Preserves (Quiet id) (statsServer tz i other) := by
  unfold statsServer
  refine Preserves.get.bind fun s => ?_
  split
  · exact Preserves.pure _
  · refine Preserves.ite ?_ (Preserves.pure _)
    refine (runCmd_quiet (fun _ => rfl) fun he => he ▸ h).bind fun x => ?_
    refine (Preserves.modify fun t ht => ⟨?_, ht.2⟩).bind fun _ => Preserves.pure _
    exact holdsOf_modify ht.1 fun _ server hs =>
      (autostart_eq_of_settings (t := server) rfl).trans hs

theorem statsServers_quiet
    (h : ∀ j, (i.status id).replies.server = some j → NoCurrent j ∧ NotOn j) :
    ∀ ids : List Nat, Preserves (Quiet id) (statsServers tz i ids)
  | [] => Preserves.pure _
  | _ :: rest => (statsServer_quiet h).bind fun _ =>
      (statsServers_quiet h rest).bind fun _ => Preserves.pure _

theorem statsProcess_quiet
    (h : ∀ j, (i.status id).replies.server = some j → NoCurrent j ∧ NotOn j) :
    Preserves (Quiet id) (statsProcess tz i) := by
  unfold statsProcess
  refine Preserves.get.bind fun s => (statsServers_quiet h _).bind fun body => ?_
  exact Preserves.ite (Preserves.pure _) (record_quiet fun x => by simp)

/-- A server whose autostart is off is passed over. -/
theorem startServer_quiet : Preserves (Quiet id) (startServer tz i other) := by
  unfold startServer
  refine Preserves.get_bind fun s hs => ?_
  split
  · exact hs
  · next server hl =>
    by_cases he : other = id
    · have hoff : server.autostart = false := hs.1 server (he ▸ hl)
      rw [hoff]
      exact hs
    · have hrest : Preserves (Quiet id) (do
          let x ← runCmd tz .start (i.start other) other
          record (.started other x)) :=
        (runCmd_quiet (fun h => absurd h he) fun h => absurd h he).bind fun x =>
          record_quiet fun y hy => he (LoopEvent.started.inj hy).1
      exact (Preserves.ite (Preserves.pure _) hrest) s hs

theorem startServers_quiet : ∀ ids : List Nat, Preserves (Quiet id) (startServers tz i ids)
  | [] => Preserves.pure _
  | _ :: rest => startServer_quiet.bind fun _ => startServers_quiet rest

/-- **A pass leaves a server alone whose autostart is off.** -/
theorem loop_quiet (h : ∀ j, (i.status id).replies.server = some j → NoCurrent j ∧ NotOn j) :
    Preserves (Quiet id) (loop tz i) := by
  unfold loop startDownServers
  exact (statsProcess_quiet h).bind fun _ => Preserves.get.bind fun s => startServers_quiet _

/-! ## A pass that finds a server down -/

variable (tz)

/-- A pass in which every request fails and every status command finds the server down. -/
structure AllDown (i : LoopInput) : Prop where
  status : ∀ id, (i.status id).replies.server = none
  start : ∀ id, (i.start id).replies.server = none
  down : ∀ id n, (i.status id).outcome n = .ok false

/-- What the pass is going to start. -/
def Starting (id : Nat) (g : GameServersList) : Prop :=
  ∃ server, g.serversList.lookup id = some server ∧ server.autostart = true ∧
    server.installed = .installed

def Down (id : Nat) (g : GameServersList) : Prop :=
  ∃ server, g.serversList.lookup id = some server ∧ server.processActive = false

theorem getServer_silent {r : ServerReplies} (hmem : other ∈ g.serversList)
    (hr : r.server = none) : getServer tz r other g = .ok true g := by
  unfold getServer
  rw [hr]
  show (if other ∉ g.serversList then _ else _ : ListM Bool) g = _
  rw [if_neg (not_not.mpr hmem)]
  rfl

theorem runCmd_silent (command : Command) {v : Visit} {s : LoopState}
    (hmem : other ∈ s.gslist.serversList) (hr : v.replies.server = none) :
    ∃ x gslist, GameServerCmd.executeOn v.outcome
        { serverId := other, command, hasServer := true } s.gslist = (x, gslist) ∧
      runCmd tz command v other s = .ok x { s with gslist } := by
  refine ⟨_, _, rfl, ?_⟩
  have honList : onList (getServer tz v.replies other) s = .ok true s := by
    unfold onList
    rw [getServer_silent tz hmem hr]
  unfold runCmd
  rw [bind_of_ok honList]
  rfl

theorem execute_status {outcome : GameServerCmd.Outcome} {b : Bool} (h : ∀ n, outcome n = .ok b)
    (server : Server) : (GameServerCmd.execute outcome .status server).1 = b ∧
      (GameServerCmd.execute outcome .status server).2.server = server := by
  have hrun : GameServerCmd.run outcome .status { server, scripts := [], output := [] } =
      .ok b { server, scripts := [.status], output := [] } := by
    show orThrow (outcome 0) _ = _
    rw [h 0]
    rfl
  unfold GameServerCmd.execute
  rw [hrun]
  exact ⟨rfl, rfl⟩

theorem mem_executeOn {outcome : GameServerCmd.Outcome} {cmd : GameServerCmd} {k : Nat} :
    k ∈ (GameServerCmd.executeOn outcome cmd g).2.serversList ↔ k ∈ g.serversList := by
  unfold GameServerCmd.executeOn
  split
  · exact Iff.rfl
  · exact Table.mem_modify

theorem executeOn_ne {outcome : GameServerCmd.Outcome} {cmd : GameServerCmd}
    (h : cmd.serverId ≠ id) :
    (GameServerCmd.executeOn outcome cmd g).2.serversList.lookup id = g.serversList.lookup id := by
  unfold GameServerCmd.executeOn
  split
  · rfl
  · exact Table.lookup_modify_ne (Ne.symm h)

/-- What is visited before the server is started. -/
structure OnTheWay (id : Nat) (keys : List Nat) (s : LoopState) : Prop where
  present : ∀ k ∈ keys, k ∈ s.gslist.serversList
  starting : Starting id s.gslist

/-- A status command that finds the server down. -/
theorem statsServer_installed {s : LoopState} {server : Server} (hd : AllDown i)
    (hl : s.gslist.serversList.lookup other = some server) (hinst : server.installed = .installed) :
    ∃ body, statsServer tz i other s = .ok body { s with
      gslist := setProcess other false (i.checked other) { s.gslist with
        serversList := s.gslist.serversList.modify other fun _ => server } } := by
  have hmem : other ∈ s.gslist.serversList := Table.mem_of_lookup hl
  obtain ⟨x, g, hexec, hrun⟩ := runCmd_silent tz .status hmem (hd.status other)
  obtain ⟨hresult, hserver⟩ := execute_status (hd.down other) server
  have hx : x.result = false ∧ g = { s.gslist with
      serversList := s.gslist.serversList.modify other fun _ => server } := by
    unfold GameServerCmd.executeOn at hexec
    simp only [if_true, hl] at hexec
    cases hexec
    exact ⟨hresult, by rw [hserver]⟩
  obtain ⟨hfalse, rfl⟩ := hx
  refine ⟨[{
    id := server.id
    process := some (formatTime (i.checked other - i.timediff.getD 0), false) }], ?_⟩
  unfold statsServer
  rw [get_bind_apply]
  simp only [hl, hinst, if_true]
  rw [bind_of_ok hrun, modify_bind_apply, hfalse]
  rfl

theorem statsServer_skipped {s : LoopState} {server : Server}
    (hl : s.gslist.serversList.lookup other = some server) (hinst : server.installed ≠ .installed) :
    ∃ body, statsServer tz i other s = .ok body s := by
  refine ⟨[{ id := server.id, process := none }], ?_⟩
  unfold statsServer
  rw [get_bind_apply]
  simp only [hl, if_neg hinst]
  rfl

theorem statsServer_down {keys : List Nat} {s : LoopState} (hd : AllDown i)
    (ho : OnTheWay id keys s) (hk : other ∈ keys) :
    ∃ body t, statsServer tz i other s = .ok body t ∧ OnTheWay id keys t ∧
      (other = id ∨ Down id s.gslist → Down id t.gslist) ∧
      t.gslist.serversList.keys = s.gslist.serversList.keys := by
  obtain ⟨server, hl⟩ := Option.isSome_iff_exists.mp
    (AList.lookup_isSome.mpr (ho.present other hk))
  obtain ⟨target, htl, hauto, htinst⟩ := ho.starting
  by_cases hinst : server.installed = .installed
  · obtain ⟨body, hrun⟩ := statsServer_installed tz hd hl hinst
    refine ⟨body, _, hrun, ⟨fun k hkeys => ?_, ?_⟩, ?_, ?_⟩
    · exact Table.mem_modify.mpr (Table.mem_modify.mpr (ho.present k hkeys))
    · by_cases he : id = other
      · subst he
        obtain rfl : target = server := Option.some.inj (htl.symm.trans hl)
        refine ⟨{ target with processActive := false, lastProcessCheck := i.checked id }, ?_, hauto,
          hinst⟩
        simp only [setProcess, Table.lookup_modify, hl, Option.map_some]
      · refine ⟨target, ?_, hauto, htinst⟩
        simp only [setProcess, Table.lookup_modify_ne he, htl]
    · intro hor
      by_cases he : id = other
      · subst he
        refine ⟨{ server with processActive := false, lastProcessCheck := i.checked id }, ?_, rfl⟩
        simp only [setProcess, Table.lookup_modify, hl, Option.map_some]
      · obtain ⟨down, hdl, hactive⟩ := hor.resolve_left (Ne.symm he)
        refine ⟨down, ?_, hactive⟩
        simp only [setProcess, Table.lookup_modify_ne he, hdl]
    · simp only [setProcess, Table.keys_modify]
  · obtain ⟨body, hrun⟩ := statsServer_skipped tz (i := i) hl hinst
    refine ⟨body, s, hrun, ho, fun hor => hor.resolve_left ?_, rfl⟩
    rintro rfl
    rw [htl] at hl
    cases hl
    exact hinst htinst

theorem statsServers_down {keys : List Nat} (hd : AllDown i) :
    ∀ (ids : List Nat) (s : LoopState), OnTheWay id keys s → (∀ k ∈ ids, k ∈ keys) →
      ∃ body t, statsServers tz i ids s = .ok body t ∧ OnTheWay id keys t ∧
        (id ∈ ids ∨ Down id s.gslist → Down id t.gslist) ∧
        t.gslist.serversList.keys = s.gslist.serversList.keys
  | [], s, ho, _ => ⟨[], s, rfl, ho, fun h => h.resolve_left List.not_mem_nil, rfl⟩
  | k :: rest, s, ho, hsub => by
    obtain ⟨b1, t1, h1, ho1, hdown1, hkeys1⟩ := statsServer_down tz hd ho
      (hsub k List.mem_cons_self)
    obtain ⟨b2, t2, h2, ho2, hdown2, hkeys2⟩ := statsServers_down hd rest t1 ho1 fun j hj =>
      hsub j (List.mem_cons_of_mem _ hj)
    refine ⟨b1 ++ b2, t2, ?_, ho2, ?_, hkeys2.trans hkeys1⟩
    · unfold statsServers
      rw [bind_of_ok h1, bind_of_ok h2]
      rfl
    · rintro (hmem | hdown)
      · rcases List.mem_cons.mp hmem with rfl | hmem
        · exact hdown2 (.inr (hdown1 (.inl rfl)))
        · exact hdown2 (.inl hmem)
      · exact hdown2 (.inr (hdown1 (.inr hdown)))

/-- A server that the pass starts. -/
def Startable (server : Server) : Prop :=
  server.autostart = true ∧ server.processActive = false ∧ server.installed = .installed

theorem startServer_silent {s : LoopState} (hd : AllDown i) (hmem : other ∈ s.gslist.serversList) :
    ∃ t, startServer tz i other s = .ok ⟨⟩ t ∧
      (∀ k, k ∈ t.gslist.serversList ↔ k ∈ s.gslist.serversList) ∧
      (∀ k, k ≠ other → t.gslist.serversList.lookup k = s.gslist.serversList.lookup k) ∧
      s.log ⊆ t.log ∧
      (HoldsOf Startable other s.gslist → ∃ x, LoopEvent.started other x ∈ t.log) := by
  obtain ⟨server, hl⟩ := Table.exists_lookup hmem
  obtain ⟨x, g, hexec, hrun⟩ := runCmd_silent tz .start hmem (hd.start other)
  by_cases hgo : Startable server
  · obtain ⟨hauto, hactive, hinst⟩ := hgo
    have hg : (GameServerCmd.executeOn (i.start other).outcome
        { serverId := other, command := .start, hasServer := true } s.gslist).2 = g := by rw [hexec]
    refine ⟨{ gslist := g, log := s.log ++ [.started other x] }, ?_, fun k => ?_, fun k hk => ?_,
      List.subset_append_left _ _, fun _ => ⟨x, List.mem_append_right _ List.mem_cons_self⟩⟩
    · unfold startServer
      rw [get_bind_apply]
      simp only [hl, hauto, hactive, hinst, Bool.not_true, Bool.or_self, ne_eq, not_true_eq_false,
        decide_false, Bool.false_eq_true, if_false]
      rw [bind_of_ok hrun]
      rfl
    · rw [← hg]
      exact mem_executeOn
    · rw [← hg]
      exact executeOn_ne (Ne.symm hk)
  · refine ⟨s, ?_, fun _ => Iff.rfl, fun _ _ => rfl, List.Subset.refl _, fun h => ?_⟩
    · have hskip : (!server.autostart || server.processActive ||
          server.installed ≠ .installed) = true := by
        by_contra hno
        simp only [Bool.or_eq_true, Bool.not_eq_true', decide_eq_true_eq, not_or, Bool.not_eq_false,
          Bool.not_eq_true, not_not] at hno
        exact hgo ⟨hno.1.1, hno.1.2, hno.2⟩
      unfold startServer
      rw [get_bind_apply]
      simp only [hl, hskip, if_true]
      rfl
    · exact absurd (h server hl) hgo

theorem startServers_silent (id : Nat) (hd : AllDown i) :
    ∀ (ids : List Nat) (s : LoopState), (∀ k ∈ ids, k ∈ s.gslist.serversList) →
      ∃ t, startServers tz i ids s = .ok ⟨⟩ t ∧ s.log ⊆ t.log ∧
        (id ∈ ids → HoldsOf Startable id s.gslist → ∃ x, LoopEvent.started id x ∈ t.log)
  | [], s, _ => ⟨s, rfl, List.Subset.refl _, fun h => by cases h⟩
  | k :: rest, s, hmem => by
    obtain ⟨t1, h1, hkeys, hne, hlog1, hstart⟩ := startServer_silent tz hd
      (hmem k List.mem_cons_self)
    obtain ⟨t2, h2, hlog2, hrest⟩ := startServers_silent id hd rest t1 fun j hj =>
      (hkeys j).mpr (hmem j (List.mem_cons_of_mem _ hj))
    refine ⟨t2, ?_, List.Subset.trans hlog1 hlog2, fun hid hgo => ?_⟩
    · unfold startServers
      rw [bind_of_ok h1, h2]
    · by_cases he : id = k
      · subst he
        obtain ⟨x, hx⟩ := hstart hgo
        exact ⟨x, hlog2 hx⟩
      · refine hrest ((List.mem_cons.mp hid).resolve_left he) ?_
        unfold HoldsOf
        rwa [hne id he]

theorem statsProcess_down {s : LoopState} (hd : AllDown i) (h : Starting id s.gslist) :
    ∃ t, statsProcess tz i s = .ok ⟨⟩ t ∧ OnTheWay id t.gslist.serversList.keys t ∧
      id ∈ t.gslist.serversList.keys ∧ Down id t.gslist := by
  have hid : id ∈ s.gslist.serversList.keys := by
    obtain ⟨server, hl, -⟩ := h
    exact Table.mem_of_lookup hl
  obtain ⟨body, t, hstats, ho, hdown, hkeys⟩ := statsServers_down tz hd
    s.gslist.serversList.keys s ⟨fun k hk => hk, h⟩ fun _ hk => hk
  rw [← hkeys] at ho
  have hend : ∃ u, statsProcess tz i s = .ok ⟨⟩ u ∧ u.gslist = t.gslist := by
    unfold statsProcess
    rw [get_bind_apply, bind_of_ok hstats]
    by_cases hb : body = []
    · refine ⟨t, ?_, rfl⟩
      rw [if_pos hb]
      rfl
    · refine ⟨{ t with log := t.log ++ [.stats body] }, ?_, rfl⟩
      rw [if_neg hb]
      rfl
  obtain ⟨u, hu, hsame⟩ := hend
  refine ⟨u, hu, ?_, ?_, ?_⟩
  · rw [hsame]
    exact ⟨hsame ▸ ho.present, hsame ▸ ho.starting⟩
  · rw [hsame, hkeys]
    exact hid
  · rw [hsame]
    exact hdown (.inl hid)

/-- **A pass starts what it finds down**: an installed server whose autostart is on. -/
theorem loop_starts (hd : AllDown i) (h : Starting id g) :
    ∃ x, LoopEvent.started id x ∈ (endState (loop tz i) { gslist := g, log := [] }).log := by
  obtain ⟨t, hstats, ho, hid, hdown⟩ := statsProcess_down tz
    (s := { gslist := g, log := [] }) hd h
  obtain ⟨u, hstart, -, hevent⟩ := startServers_silent tz id hd
    t.gslist.serversList.keys t ho.present
  have hgo : HoldsOf Startable id t.gslist := by
    obtain ⟨target, htl, hauto, hinst⟩ := ho.starting
    obtain ⟨down, hdl, hactive⟩ := hdown
    obtain rfl : target = down := Option.some.inj (htl.symm.trans hdl)
    intro server hl
    obtain rfl : target = server := Option.some.inj (htl.symm.trans hl)
    exact ⟨hauto, hactive, hinst⟩
  have hloop : loop tz i { gslist := g, log := [] } = .ok ⟨⟩ u := by
    unfold loop startDownServers
    rw [bind_of_ok hstats, get_bind_apply, hstart]
  unfold endState
  rw [hloop]
  exact hevent hid hgo

end GameServersList

end GameAP
