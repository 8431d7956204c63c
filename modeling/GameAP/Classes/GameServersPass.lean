import GameAP.Classes.GameServersLoop
import GameAP.Classes.ServerLookups

/-!
# What a pass starts

When the panel's records are well formed a pass reaches its end. `loop_starts_iff`: it starts a
server exactly once if, after all status commands of the pass, the server is installed, its
autostart is on and its own status command has found it down; it starts no other.
-/

namespace GameAP

open Lib

namespace GameServersList

/-! ## Well-formed records -/

/-- The members of a record that are read as strings. -/
def recordStrings : List String :=
  ["updated_at", "name", "uuid", "uuid_short", "start_command", "stop_command",
    "force_stop_command", "restart_command", "server_ip", "rcon"]

/-- Every member of the record can be read as what `sync_from_api` takes it for. -/
structure WellFormed (j : Json) : Prop where
  status : wellTyped j = true
  strings : ∀ key ∈ recordStrings, (j.getString key).toBool = true
  game : (do readGame (← j.get "game") : Except Exn Game).toBool = true
  gameMod : (do readGameMod (← j.get "game_mod") : Except Exn GameMod).toBool = true
  vars : (readVars j).toBool = true
  settings : (j.get "settings").toBool = true
  setting : ∀ jsettings, j.get "settings" = .ok jsettings → ∀ jsetting ∈ jsettings.elems,
    (jsetting.getString "name").toBool = true ∧ (jsetting.getString "value").toBool = true

/-- The records that a pass may read. -/
structure WellFormedInput (i : LoopInput) : Prop where
  status : ∀ id j, Brings (i.status id).replies.server j → WellFormed j
  start : ∀ id j, Brings (i.start id).replies.server j → WellFormed j

variable {tz : Int} {i : LoopInput} {j : Json} {id other : Nat} {g : GameServersList}

theorem syncSettings_noThrow : ∀ js : List Json, (∀ jsetting ∈ js,
    (jsetting.getString "name").toBool = true ∧ (jsetting.getString "value").toBool = true) →
    NoThrow (syncSettings js)
  | [], _ => NoThrow.pure _
  | jsetting :: rest, h => by
    obtain ⟨hname, hvalue⟩ := h jsetting List.mem_cons_self
    refine (NoThrow.orThrow hname).bind fun name => (NoThrow.orThrow hvalue).bind fun value => ?_
    refine (NoThrow.modify _).bind fun _ => syncSettings_noThrow rest fun k hk => ?_
    exact h k (List.mem_cons_of_mem _ hk)

theorem setString_noThrow {key : String} {set : Server → String → Server}
    {k : PUnit → SyncM PUnit} (h : WellFormed j) (hkey : key ∈ recordStrings)
    (hk : NoThrow (k ⟨⟩)) : NoThrow (setString j key set >>= k) :=
  ((NoThrow.orThrow (h.strings key hkey)).bind fun _ => NoThrow.modify _).bind fun _ => hk

theorem store_noThrow {α : Type} {x : Except Exn α} {set : Server → α → Server}
    {k : PUnit → SyncM PUnit} (hx : x.toBool = true) (hk : NoThrow (k ⟨⟩)) :
    NoThrow (orThrow x >>= fun v => modify (fun s => set s v) >>= k) :=
  (NoThrow.orThrow hx).bind fun _ => (NoThrow.modify _).bind fun _ => hk

theorem syncStatus_noThrow (h : WellFormed j) (stamp : Int) : NoThrow (syncStatus j stamp) := by
  have htyped := h.status
  unfold wellTyped at htyped
  simp only [Bool.and_eq_true] at htyped
  obtain ⟨⟨henabled, hinstalled⟩, hblocked⟩ := htyped
  unfold syncStatus
  refine NoThrow.get.bind fun s => NoThrow.ite ?_ (NoThrow.pure _)
  refine store_noThrow henabled (store_noThrow hinstalled ?_)
  exact (NoThrow.orThrow hblocked).bind fun _ => NoThrow.modify _

variable (tz)

/-- **A well-formed record is taken over to its end.** -/
theorem syncServer_noThrow (h : WellFormed j) : NoThrow (syncServer tz j) := by
  unfold syncServer syncFields
  refine (NoThrow.orThrow (h.strings _ (by decide))).bind fun str => ?_
  refine (syncStatus_noThrow h _).bind fun _ => (NoThrow.modify _).bind fun _ => ?_
  iterate 7 refine setString_noThrow h (by decide) ?_
  refine store_noThrow h.game (store_noThrow h.gameMod ?_)
  iterate 6 refine setString_noThrow h (by decide) ?_
  refine store_noThrow h.vars ?_
  intro s
  obtain ⟨jsettings, hget⟩ : ∃ jsettings, j.get "settings" = .ok jsettings :=
    ⟨_, eq_ok_resultD .null h.settings⟩
  rw [orThrow_ok_bind hget]
  exact syncSettings_noThrow _ (h.setting jsettings hget) s

/-! ## One turn -/

theorem keys_onServer {α : Type} (f : EStateM Exn Server α) :
    (endState (onServer id f) g).serversList.keys = g.serversList.keys := by
  unfold onServer endState
  cases hl : g.serversList.lookup id with
  | none => simp only [hl]
  | some server => cases hf : f server <;> simp [hl, hf]

theorem keys_syncFromApi {reply : Option Json} :
    (endState (syncFromApi tz id reply) g).serversList.keys = g.serversList.keys := by
  unfold syncFromApi
  cases reply with
  | none => rfl
  | some j =>
    dsimp only
    split
    · rfl
    · exact keys_onServer _

/-- What changes of the registry in a turn for server `id`: its entry only. -/
structure Turn (id : Nat) (g g' : GameServersList) : Prop where
  keys : g'.serversList.keys = g.serversList.keys
  others : ∀ k, k ≠ id → g'.serversList.lookup k = g.serversList.lookup k

theorem Turn.trans {g1 g2 : GameServersList} (h1 : Turn id g g1) (h2 : Turn id g1 g2) :
    Turn id g g2 where
  keys := h2.keys.trans h1.keys
  others := fun k hk => (h2.others k hk).trans (h1.others k hk)

theorem turn_modify {f : Server → Server} :
    Turn id g { g with serversList := g.serversList.modify id f } where
  keys := Table.keys_modify
  others := fun _ hk => Table.lookup_modify_ne hk

/-- A look at a known server, with a well-formed record. -/
theorem getServer_wellFormed {r : ServerReplies} {server : Server}
    (hl : g.serversList.lookup id = some server) (h : ∀ j, Brings r.server j → WellFormed j) :
    ∃ g', getServer tz r id g = .ok true g' ∧ Turn id g g' ∧
      g'.serversList.lookup id = some (afterReply tz r.server server) := by
  have hmem : id ∈ g.serversList := Table.mem_of_lookup hl
  have hsync : ∃ g', syncFromApi tz id r.server g = .ok ⟨⟩ g' := by
    unfold syncFromApi
    cases hr : r.server with
    | none => exact ⟨g, rfl⟩
    | some j =>
      dsimp only
      cases hj : j.isEmpty with
      | true => exact ⟨g, rfl⟩
      | false =>
        obtain ⟨u, t, ht⟩ := syncServer_noThrow tz (h j ⟨hr, hj⟩) server
        show ∃ g', onServer id (syncServer tz j) g = .ok ⟨⟩ g'
        unfold onServer
        rw [hl]
        dsimp only
        rw [ht]
        exact ⟨_, rfl⟩
  obtain ⟨g', hg'⟩ := hsync
  have hend : g' = endState (syncFromApi tz id r.server) g := (endState_of_ok hg').symm
  refine ⟨g', ?_, ⟨?_, fun k hk => ?_⟩, ?_⟩
  · unfold getServer
    rw [get_bind_apply, if_neg (not_not.mpr hmem)]
    show (syncFromApi tz id r.server >>= fun _ => pure true) g = _
    rw [bind_of_ok hg']
    rfl
  · rw [hend, keys_syncFromApi]
  · rw [hend, syncFromApi_ne hk]
  · rw [hend, lookup_syncFromApi, hl]
    rfl

/-- A command of the loop for a known server is executed on it. -/
theorem runCmd_wellFormed (command : Command) {v : Visit} {s : LoopState} {server : Server}
    (hl : s.gslist.serversList.lookup id = some server)
    (h : ∀ j, Brings v.replies.server j → WellFormed j) :
    ∃ g', runCmd tz command v id s =
        .ok { result := (GameServerCmd.execute v.outcome command
                (afterReply tz v.replies.server server)).1
              scripts := (GameServerCmd.execute v.outcome command
                (afterReply tz v.replies.server server)).2.scripts
              output := (GameServerCmd.execute v.outcome command
                (afterReply tz v.replies.server server)).2.output }
          { s with gslist := g' } ∧
      Turn id s.gslist g' ∧ ∃ server', g'.serversList.lookup id = some server' := by
  obtain ⟨g1, hget, hturn, hl1⟩ := getServer_wellFormed tz hl h
  have hon : onList (getServer tz v.replies id) s = .ok true { s with gslist := g1 } := by
    unfold onList
    rw [hget]
  refine ⟨{ g1 with serversList := g1.serversList.modify id fun _ =>
    (GameServerCmd.execute v.outcome command (afterReply tz v.replies.server server)).2.server },
    ?_, hturn.trans turn_modify, ?_⟩
  · unfold runCmd
    rw [bind_of_ok hon, get_bind_apply]
    unfold GameServerCmd.executeOn
    simp only [if_true, hl1]
    rfl
  · rw [Table.lookup_modify, hl1]
    exact ⟨_, rfl⟩

/-! ## The status commands -/

/-- The entry of a server's turn names what its status command has reported, and so does the
server; an installed server has had one. -/
def Polled (entry : StatsEntry) (server : Server) : Prop :=
  server.installed = .installed → entry.process.map Prod.snd = some server.processActive

theorem statsServer_turn {s : LoopState} {server : Server} (hwf : WellFormedInput i)
    (hl : s.gslist.serversList.lookup id = some server) :
    ∃ entry g', statsServer tz i id s = .ok [entry] { s with gslist := g' } ∧
      Turn id s.gslist g' ∧
      ∃ server', g'.serversList.lookup id = some server' ∧ Polled entry server' := by
  unfold statsServer
  rw [get_bind_apply]
  simp only [hl]
  by_cases hinst : server.installed = .installed
  · rw [if_pos hinst]
    obtain ⟨g1, hrun, hturn, server1, hl1⟩ := runCmd_wellFormed tz .status hl
      (hwf.status id)
    rw [bind_of_ok hrun, modify_bind_apply]
    refine ⟨_, _, rfl, hturn.trans turn_modify, ?_⟩
    rw [setProcess, Table.lookup_modify, hl1]
    exact ⟨_, rfl, fun _ => rfl⟩
  · rw [if_neg hinst]
    refine ⟨_, s.gslist, rfl, ⟨rfl, fun _ _ => rfl⟩, server, hl, fun h => absurd h hinst⟩

/-- What the status command of server `id` has reported, as the request body of `stats_process`
tells it for the servers `ids`. -/
def reported (ids : List Nat) (body : List StatsEntry) (id : Nat) : Option Bool :=
  ((ids.zip body).lookup id).bind fun entry => entry.process.map Prod.snd

/-- After the status commands of the servers `ids`. -/
structure Checked (ids : List Nat) (body : List StatsEntry) (g g' : GameServersList) : Prop where
  length : body.length = ids.length
  keys : g'.serversList.keys = g.serversList.keys
  others : ∀ k ∉ ids, g'.serversList.lookup k = g.serversList.lookup k
  polled : ∀ id ∈ ids, ∃ server, g'.serversList.lookup id = some server ∧
    (server.installed = .installed → reported ids body id = some server.processActive)

theorem statsServers_checked (hwf : WellFormedInput i) : ∀ (ids : List Nat) (s : LoopState),
    ids.Nodup → (∀ k ∈ ids, k ∈ s.gslist.serversList) →
    ∃ body g', statsServers tz i ids s = .ok body { s with gslist := g' } ∧
      Checked ids body s.gslist g'
  | [], s, _, _ => ⟨[], s.gslist, rfl, rfl, rfl, fun _ _ => rfl, fun _ h => nomatch h⟩
  | k :: rest, s, hnodup, hmem => by
    obtain ⟨hk, hrest⟩ := List.nodup_cons.mp hnodup
    obtain ⟨server, hl⟩ := Option.isSome_iff_exists.mp
      (AList.lookup_isSome.mpr (hmem k List.mem_cons_self))
    obtain ⟨entry, g1, h1, hturn, server1, hl1, hpolled⟩ := statsServer_turn tz hwf hl
    obtain ⟨body, g2, h2, hc⟩ := statsServers_checked hwf rest { s with gslist := g1 } hrest
      fun id hid => by
        rw [AList.mem_keys, hturn.keys, ← AList.mem_keys]
        exact hmem id (List.mem_cons_of_mem _ hid)
    refine ⟨entry :: body, g2, ?_, ?_, hc.keys.trans hturn.keys, fun id hid => ?_, fun id hid => ?_⟩
    · unfold statsServers
      rw [bind_of_ok h1, bind_of_ok h2]
      rfl
    · rw [List.length_cons, List.length_cons, hc.length]
    · obtain ⟨hne, hnot⟩ := not_or.mp (mt List.mem_cons.mpr hid)
      rw [hc.others id hnot]
      exact hturn.others id hne
    · by_cases he : id = k
      · -- the turns after its own leave the server alone
        subst he
        refine ⟨server1, (hc.others id hk).trans hl1, fun hinst => ?_⟩
        unfold reported
        rw [List.zip_cons_cons, List.lookup_cons_self]
        exact hpolled hinst
      · obtain ⟨server2, hl2, hrep⟩ := hc.polled id ((List.mem_cons.mp hid).resolve_left he)
        refine ⟨server2, hl2, fun hinst => ?_⟩
        unfold reported
        rw [List.zip_cons_cons, List.lookup_cons, beq_false_of_ne he]
        exact hrep hinst

/-! ## The starts -/

theorem execute_start_scripts {outcome : GameServerCmd.Outcome} (server : Server) :
    (GameServerCmd.execute outcome .start server).2.scripts = [GameServerCmd.Script.start] := by
  rw [(GameServerCmd.execute_eq .start server).1]
  show (endState (GameServerCmd.start outcome) _).scripts = _
  unfold GameServerCmd.start
  rw [endState_modify_bind]
  have hscript : ∀ e : GameServerCmd.Execution,
      (endState (GameServerCmd.runScript outcome .start) e).scripts =
        e.scripts ++ [GameServerCmd.Script.start] := fun e => by
      unfold GameServerCmd.runScript
      rw [endState_get_bind]
      show (endState (orThrow _) { e with
        scripts := e.scripts ++ [GameServerCmd.Script.start] }).scripts = _
      rw [endState_orThrow]
  rw [hscript]
  split <;> rfl

/-- A server that `start_down_servers` is to start. -/
def Crashed (g : GameServersList) (id : Nat) : Prop :=
  ∃ server, g.serversList.lookup id = some server ∧ Startable server

def isStart (id : Nat) : LoopEvent → Bool
  | .started k _ => k == id
  | .stats _ => false

/-- How often server `id` has been started. -/
def starts (id : Nat) (log : List LoopEvent) : Nat := log.countP (isStart id)

theorem startServer_crashed {s : LoopState} (hwf : WellFormedInput i)
    (h : Crashed s.gslist id) : ∃ x g',
      startServer tz i id s = .ok ⟨⟩ { gslist := g', log := s.log ++ [.started id x] } ∧
      Turn id s.gslist g' ∧ x.scripts = [.start] := by
  obtain ⟨server, hl, hauto, hactive, hinst⟩ := h
  obtain ⟨g1, hrun, hturn, -⟩ := runCmd_wellFormed tz .start hl (hwf.start id)
  have hturns : startServer tz i id s = (do
      let x ← runCmd tz .start (i.start id) id
      record (.started id x) : LoopM PUnit) s := by
    unfold startServer
    rw [get_bind_apply]
    simp only [hl, hauto, hactive, hinst, Bool.not_true, Bool.or_self, ne_eq, not_true_eq_false,
      decide_false, Bool.false_eq_true, if_false]
  rw [hturns, bind_of_ok hrun]
  exact ⟨_, g1, rfl, hturn, execute_start_scripts _⟩

theorem startServer_skipped {s : LoopState} (hmem : id ∈ s.gslist.serversList)
    (h : ¬ Crashed s.gslist id) : startServer tz i id s = .ok ⟨⟩ s := by
  obtain ⟨server, hl⟩ := Table.exists_lookup hmem
  have hskip : (!server.autostart || server.processActive ||
      server.installed ≠ .installed) = true := by
    by_contra hno
    simp only [Bool.or_eq_true, Bool.not_eq_true', decide_eq_true_eq, not_or, Bool.not_eq_false,
      Bool.not_eq_true, not_not] at hno
    exact h ⟨server, hl, hno.1.1, hno.1.2, hno.2⟩
  unfold startServer
  rw [get_bind_apply]
  simp only [hl, hskip, if_true]
  rfl

theorem Turn.crashed_iff {g' : GameServersList} (h : Turn other g g') (hne : id ≠ other) :
    Crashed g' id ↔ Crashed g id := by
  unfold Crashed
  rw [h.others id hne]

/-- Each of the servers is started once if it is down, and no other. -/
structure Started (ids : List Nat) (g : GameServersList) (log : List LoopEvent) : Prop where
  once : ∀ id ∈ ids, Crashed g id → starts id log = 1
  none : ∀ id, ¬ (id ∈ ids ∧ Crashed g id) → starts id log = 0
  executed : ∀ id x, .started id x ∈ log → x.scripts = [.start]

theorem starts_cons (k : Nat) (x : GameServerCmd.Executed) (log : List LoopEvent) :
    starts id (.started k x :: log) = starts id log + if k = id then 1 else 0 := by
  unfold starts
  rw [List.countP_cons]
  simp only [isStart, beq_iff_eq]

section Started

variable {k : Nat} {rest : List Nat} {g g1 : GameServersList} {log : List LoopEvent}
  {x : GameServerCmd.Executed}

/-- The first server is down: it is started, and that changes no other. -/
theorem Started.cons (hk : k ∉ rest) (hc : Crashed g k) (hturn : Turn k g g1)
    (hx : x.scripts = [.start]) (hs : Started rest g1 log) :
    Started (k :: rest) g (.started k x :: log) where
  once := fun id hid hcr => by
    rw [starts_cons]
    by_cases he : k = id
    · subst he
      rw [hs.none k fun h => hk h.1, if_pos rfl]
    · rw [if_neg he, hs.once id ((List.mem_cons.mp hid).resolve_left (Ne.symm he))
        ((hturn.crashed_iff (Ne.symm he)).mpr hcr)]
  none := fun id hno => by
    have he : k ≠ id := by
      rintro rfl
      exact hno ⟨List.mem_cons_self, hc⟩
    rw [starts_cons, if_neg he, hs.none id fun h => hno ⟨List.mem_cons_of_mem _ h.1,
      (hturn.crashed_iff (Ne.symm he)).mp h.2⟩]
  executed := fun id y hy => by
    rcases List.mem_cons.mp hy with he | hy
    · cases he
      exact hx
    · exact hs.executed id y hy

/-- The first server is not down. -/
theorem Started.skip (hc : ¬ Crashed g k) (hs : Started rest g log) :
    Started (k :: rest) g log where
  once := fun id hid hcr => by
    refine hs.once id ((List.mem_cons.mp hid).resolve_left ?_) hcr
    rintro rfl
    exact hc hcr
  none := fun id hno => hs.none id fun h => hno ⟨List.mem_cons_of_mem _ h.1, h.2⟩
  executed := hs.executed

end Started

theorem startServers_started (hwf : WellFormedInput i) : ∀ (ids : List Nat) (s : LoopState),
    ids.Nodup → (∀ k ∈ ids, k ∈ s.gslist.serversList) →
    ∃ t log, startServers tz i ids s = .ok ⟨⟩ t ∧ t.log = s.log ++ log ∧ Started ids s.gslist log
  | [], s, _, _ => ⟨s, [], rfl, (List.append_nil _).symm,
      { once := fun _ h => absurd h List.not_mem_nil
        none := fun _ _ => rfl
        executed := fun _ _ h => absurd h List.not_mem_nil }⟩
  | k :: rest, s, hnodup, hmem => by
    obtain ⟨hk, hrest⟩ := List.nodup_cons.mp hnodup
    by_cases hc : Crashed s.gslist k
    · obtain ⟨x, g1, h1, hturn, hx⟩ := startServer_crashed tz hwf hc
      obtain ⟨t, log, h2, hlog, hs⟩ := startServers_started hwf rest
        { gslist := g1, log := s.log ++ [.started k x] } hrest fun id hid => by
          rw [AList.mem_keys, hturn.keys, ← AList.mem_keys]
          exact hmem id (List.mem_cons_of_mem _ hid)
      refine ⟨t, .started k x :: log, ?_, by rw [hlog, List.append_assoc]; rfl,
        hs.cons hk hc hturn hx⟩
      unfold startServers
      rw [bind_of_ok h1, h2]
    · obtain ⟨t, log, h2, hlog, hs⟩ := startServers_started hwf rest s hrest fun id hid =>
        hmem id (List.mem_cons_of_mem _ hid)
      refine ⟨t, log, ?_, hlog, hs.skip hc⟩
      unfold startServers
      rw [bind_of_ok (startServer_skipped tz (hmem k List.mem_cons_self) hc), h2]

/-! ## A pass -/

/-- After the status commands of the pass server `id` is installed, its autostart is on, and its
status command has reported it inactive. -/
def FoundDown (ids : List Nat) (body : List StatsEntry) (g : GameServersList) (id : Nat) : Prop :=
  ∃ server, g.serversList.lookup id = some server ∧ server.installed = .installed ∧
    server.autostart = true ∧ reported ids body id = some false

theorem Checked.crashed_iff {body : List StatsEntry} {ids : List Nat} {g' : GameServersList}
    (h : Checked ids body g g') (hid : id ∈ ids) : Crashed g' id ↔ FoundDown ids body g' id := by
  obtain ⟨server, hl, hrep⟩ := h.polled id hid
  constructor
  · rintro ⟨server', hl', hauto, hactive, hinst⟩
    obtain rfl : server = server' := Option.some.inj (hl.symm.trans hl')
    exact ⟨server, hl, hinst, hauto, (hrep hinst).trans (congrArg some hactive)⟩
  · rintro ⟨server', hl', hinst, hauto, hdown⟩
    obtain rfl : server = server' := Option.some.inj (hl.symm.trans hl')
    exact ⟨server, hl, hauto, Option.some.inj ((hrep hinst).symm.trans hdown), hinst⟩

/-- Only a server of the registry is found down. -/
theorem Checked.foundDown_iff {body : List StatsEntry} {ids : List Nat} {g' : GameServersList}
    (h : Checked ids body g g') (hkeys : g'.serversList.keys = ids) :
    FoundDown ids body g' id ↔ id ∈ g'.serversList.keys ∧ Crashed g' id := by
  constructor
  · intro hdown
    have hid : id ∈ g'.serversList.keys := by
      obtain ⟨server, hl, -⟩ := hdown
      exact Table.mem_of_lookup hl
    exact ⟨hid, (h.crashed_iff (hkeys ▸ hid)).mpr hdown⟩
  · exact fun hdown => (h.crashed_iff (hkeys ▸ hdown.1)).mp hdown.2

/-- What is posted after the status commands. -/
def postLog (body : List StatsEntry) : List LoopEvent := if body = [] then [] else [.stats body]

theorem statsProcess_of_ok {body : List StatsEntry} {mid : GameServersList}
    (h : statsServers tz i g.serversList.keys { gslist := g, log := [] } =
      .ok body { gslist := mid, log := [] }) :
    statsProcess tz i { gslist := g, log := [] } =
      .ok ⟨⟩ { gslist := mid, log := postLog body } := by
  unfold statsProcess postLog
  rw [get_bind_apply, bind_of_ok h]
  split
  · rfl
  · rfl

/-- A post starts nothing. -/
theorem starts_postLog_append (id : Nat) (body : List StatsEntry) (log : List LoopEvent) :
    starts id (postLog body ++ log) = starts id log := by
  have hnone : starts id (postLog body) = 0 := by
    unfold postLog
    split <;> rfl
  unfold starts at hnone ⊢
  rw [List.countP_append, hnone, Nat.zero_add]

theorem started_notMem_postLog (id : Nat) (x : GameServerCmd.Executed) (body : List StatsEntry) :
    .started id x ∉ postLog body := by
  unfold postLog
  split
  · exact List.not_mem_nil
  · exact fun hx => nomatch List.mem_singleton.mp hx

/-- What a pass starts whose status commands have ended so. -/
theorem loop_of_checked {body : List StatsEntry} {mid : GameServersList} (hwf : WellFormedInput i)
    (hstats : statsServers tz i g.serversList.keys { gslist := g, log := [] } =
      .ok body { gslist := mid, log := [] }) (hc : Checked g.serversList.keys body g mid) :
    ∃ final, loop tz i { gslist := g, log := [] } = .ok ⟨⟩ final ∧
      (∀ id, (FoundDown g.serversList.keys body mid id → starts id final.log = 1) ∧
        (¬ FoundDown g.serversList.keys body mid id → starts id final.log = 0)) ∧
      ∀ id x, .started id x ∈ final.log → x.scripts = [.start] := by
  obtain ⟨final, log, hstart, hlog, hs⟩ := startServers_started tz hwf mid.serversList.keys
    { gslist := mid, log := postLog body } mid.serversList.nodupKeys fun k hk => hk
  have hiff : ∀ id, FoundDown g.serversList.keys body mid id ↔
      id ∈ mid.serversList.keys ∧ Crashed mid id := fun id => hc.foundDown_iff hc.keys
  have hcount : ∀ id, starts id final.log = starts id log := fun id => by
    rw [hlog, starts_postLog_append]
  refine ⟨final, ?_, fun id => ⟨fun h => ?_, fun h => ?_⟩, ?_⟩
  · unfold loop startDownServers
    rw [bind_of_ok (statsProcess_of_ok tz hstats), get_bind_apply]
    exact hstart
  · obtain ⟨hid, hcr⟩ := (hiff id).mp h
    rw [hcount]
    exact hs.once id hid hcr
  · rw [hcount]
    exact hs.none id fun hd => h ((hiff id).mpr hd)
  · intro id x hx
    rw [hlog] at hx
    rcases List.mem_append.mp hx with hx | hx
    · exact absurd hx (started_notMem_postLog id x body)
    · exact hs.executed id x hx

/-- **What a pass starts.** For every registry and every pass in which the records that are read
are well formed, whatever the scripts return: the pass reaches its end, and a server is started
exactly once if after the status commands it is found down, and never otherwise. -/
theorem loop_starts_iff (i : LoopInput) (g : GameServersList)
    (hwf : WellFormedInput i) : ∃ body mid final,
      statsServers tz i g.serversList.keys { gslist := g, log := [] } =
        .ok body { gslist := mid, log := [] } ∧
      statsProcess tz i { gslist := g, log := [] } =
        .ok ⟨⟩ { gslist := mid, log := if body = [] then [] else [.stats body] } ∧
      loop tz i { gslist := g, log := [] } = .ok ⟨⟩ final ∧
      (∀ id, (FoundDown g.serversList.keys body mid id → starts id final.log = 1) ∧
        (¬ FoundDown g.serversList.keys body mid id → starts id final.log = 0)) ∧
      ∀ id x, .started id x ∈ final.log → x.scripts = [.start] := by
  obtain ⟨body, mid, hstats, hc⟩ := statsServers_checked tz hwf g.serversList.keys
    { gslist := g, log := [] } g.serversList.nodupKeys fun k hk => hk
  obtain ⟨final, hloop, hstarts, hexecuted⟩ := loop_of_checked tz hwf hstats hc
  exact ⟨body, mid, final, hstats, statsProcess_of_ok tz hstats, hloop, hstarts, hexecuted⟩

/-! ## A pass over two servers -/

/-- The record that the status commands read switches autostart on. -/
def autostartRecord : Json :=
  .obj [("updated_at", .str "1970-01-01 00:01:00"), ("installed", .int 1),
    ("settings", .arr [.obj [("name", .str "autostart"), ("value", .str "1")]])]

theorem wellFormed_autostartRecord : WellFormed autostartRecord where
  status := by decide
  strings := by decide
  game := rfl
  gameMod := rfl
  vars := rfl
  settings := rfl
  setting := fun jsettings hget => by
    cases hget
    decide

/-- Server 1 is down and server 2 is up. -/
def passInput : LoopInput :=
  { status := fun id =>
      { replies := { now := 0, later := 0, list := none, server := some autostartRecord }
        outcome := fun _ => .ok (id == 2) }
    checked := fun _ => 0
    start := fun _ =>
      { replies := { now := 0, later := 0, list := none, server := none }
        outcome := fun _ => .ok true }
    timediff := none }

def passList : GameServersList :=
  { plainList [1, 2] with
    serversList :=
      (plainList [1, 2]).serversList.mapVals fun _ s => { s with installed := .installed } }

theorem wellFormed_passInput : WellFormedInput passInput where
  status := fun _ _ hj => by
    cases hj.1
    exact wellFormed_autostartRecord
  start := fun _ _ hj => nomatch hj.1

theorem loop_starts_iff_passInput : ∃ final,
    loop 0 passInput { gslist := passList, log := [] } = .ok ⟨⟩ final ∧
      starts 1 final.log = 1 ∧ starts 2 final.log = 0 := by
  obtain ⟨body, mid, final, hstats, -, hloop, hcount, -⟩ :=
    loop_starts_iff 0 passInput passList wellFormed_passInput
  refine ⟨final, hloop, (hcount 1).1 ?_, (hcount 2).2 ?_⟩
  · cases hstats
    exact ⟨_, rfl, rfl, rfl, rfl⟩
  · cases hstats
    rintro ⟨server, -, -, -, hrep⟩
    cases hrep

end GameServersList

end GameAP
