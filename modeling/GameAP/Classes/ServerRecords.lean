import GameAP.Classes.ServerStamps

/-!
# The record of a server and its copy

A `Server` is filled by `update_list` when the daemon first hears of it, and by `sync_from_api` on
every look after that. Of the fields that describe a server, `sync_from_api` writes nine; the ports,
the directory and the user (`Fixed`) stay what they were. `getServer_agrees_iff`: the copy agrees
with the record it was looked up with exactly if those agreed with it before.
-/

namespace GameAP

open Lib

def Json.hasMember (j : Json) (key : String) : Bool :=
  match j with
  | .obj kvs => (kvs.lookup key).isSome
  | _ => false

namespace GameServersList

/-- What `sync_from_api` does not write. -/
structure Fixed where
  connectPort : Nat
  queryPort : Nat
  rconPort : Nat
  dir : String
  user : String
  deriving DecidableEq, Repr

/-- What it writes. -/
structure Synced where
  name : String
  uuid : String
  uuidShort : String
  ip : String
  rconPassword : String
  startCommand : String
  stopCommand : String
  forceStopCommand : String
  restartCommand : String
  deriving DecidableEq, Repr

def fixed (s : Server) : Fixed :=
  { connectPort := s.connectPort, queryPort := s.queryPort, rconPort := s.rconPort, dir := s.dir,
    user := s.user }

def synced (s : Server) : Synced :=
  { name := s.name, uuid := s.uuid, uuidShort := s.uuidShort, ip := s.ip,
    rconPassword := s.rconPassword, startCommand := s.startCommand, stopCommand := s.stopCommand,
    forceStopCommand := s.forceStopCommand, restartCommand := s.restartCommand }

/-- The record has no such field, or it reads `v`. -/
def Tells {α : Type} (read : Json → String → Except Exn α) (j : Json) (key : String) (v : α) :
    Prop :=
  j.hasMember key = true → read j key = .ok v

structure FixedAgrees (j : Json) (d : Fixed) : Prop where
  connectPort : Tells Json.getUInt j "server_port" d.connectPort
  queryPort : Tells Json.getUInt j "query_port" d.queryPort
  rconPort : Tells Json.getUInt j "rcon_port" d.rconPort
  dir : Tells Json.getString j "dir" d.dir
  user : Tells Json.getString j "su_user" d.user

structure SyncedAgrees (j : Json) (d : Synced) : Prop where
  name : Tells Json.getString j "name" d.name
  uuid : Tells Json.getString j "uuid" d.uuid
  uuidShort : Tells Json.getString j "uuid_short" d.uuidShort
  ip : Tells Json.getString j "server_ip" d.ip
  rconPassword : Tells Json.getString j "rcon" d.rconPassword
  startCommand : Tells Json.getString j "start_command" d.startCommand
  stopCommand : Tells Json.getString j "stop_command" d.stopCommand
  forceStopCommand : Tells Json.getString j "force_stop_command" d.forceStopCommand
  restartCommand : Tells Json.getString j "restart_command" d.restartCommand

/-- The server agrees with the record in every field that describes it. -/
structure Agrees (j : Json) (s : Server) : Prop where
  synced : SyncedAgrees j (synced s)
  fixed : FixedAgrees j (fixed s)

variable {tz : Int} {r : ServerReplies} {id : Nat} {g g' : GameServersList} {j : Json}
  {s t : Server} {u : PUnit}

/-! ## What a record writes -/

theorem of_setString_bind_eq_ok {α : Type} {key : String} {set : Server → String → Server}
    {k : PUnit → SyncM α} {a : α} (h : (setString j key set >>= k) s = .ok a t) :
    ∃ v, j.getString key = .ok v ∧ k ⟨⟩ (set s v) = .ok a t := by
  unfold setString at h
  rw [bind_assoc] at h
  exact of_orThrow_bind_eq_ok h

/-- Reading a part of the record and storing it. -/
theorem of_store_bind_eq_ok {α β : Type} {x : Except Exn β} {set : Server → β → Server}
    {k : PUnit → SyncM α} {a : α}
    (h : (orThrow x >>= fun v => modify (fun s => set s v) >>= k) s = .ok a t) :
    ∃ v, k ⟨⟩ (set s v) = .ok a t := by
  obtain ⟨v, -, hk⟩ := of_orThrow_bind_eq_ok h
  exact ⟨v, hk⟩

theorem syncFields_ok (h : syncFields j s = .ok u t) :
    SyncedAgrees j (synced t) ∧ fixed t = fixed s := by
  unfold syncFields at h
  obtain ⟨name, hname, h⟩ := of_setString_bind_eq_ok h
  obtain ⟨uuid, huuid, h⟩ := of_setString_bind_eq_ok h
  obtain ⟨uuidShort, huuidShort, h⟩ := of_setString_bind_eq_ok h
  iterate 4 obtain ⟨_, -, h⟩ := of_setString_bind_eq_ok h
  iterate 2 obtain ⟨_, h⟩ := of_store_bind_eq_ok h
  obtain ⟨ip, hip, h⟩ := of_setString_bind_eq_ok h
  obtain ⟨rcon, hrcon, h⟩ := of_setString_bind_eq_ok h
  obtain ⟨start, hstart, h⟩ := of_setString_bind_eq_ok h
  obtain ⟨stop, hstop, h⟩ := of_setString_bind_eq_ok h
  obtain ⟨forceStop, hforceStop, h⟩ := of_setString_bind_eq_ok h
  obtain ⟨restart, hrestart, h⟩ := of_setString_bind_eq_ok h
  obtain ⟨_, h⟩ := of_store_bind_eq_ok h
  obtain ⟨jsettings, -, h⟩ := of_orThrow_bind_eq_ok h
  have hsynced := (syncSettings_keeps (f := synced) (fun _ _ => rfl) _).eq_of_ok h
  have hfixed := (syncSettings_keeps (f := fixed) (fun _ _ => rfl) _).eq_of_ok h
  refine ⟨?_, hfixed⟩
  rw [hsynced]
  exact
    { name := fun _ => hname
      uuid := fun _ => huuid
      uuidShort := fun _ => huuidShort
      ip := fun _ => hip
      rconPassword := fun _ => hrcon
      startCommand := fun _ => hstart
      stopCommand := fun _ => hstop
      forceStopCommand := fun _ => hforceStop
      restartCommand := fun _ => hrestart }

theorem syncStatus_fixed (stamp : Int) : Keeps fixed (syncStatus j stamp) := by
  unfold syncStatus
  refine Keeps.get.bind fun s => Keeps.ite ?_ (Keeps.pure _)
  refine (Keeps.orThrow _).bind fun enabled => Keeps.bind (Keeps.modify ?_) fun _ => ?_
  · exact fun _ => rfl
  refine (Keeps.orThrow _).bind fun installed => Keeps.bind (Keeps.modify ?_) fun _ => ?_
  · exact fun _ => rfl
  refine (Keeps.orThrow _).bind fun blocked => Keeps.modify ?_
  exact fun _ => rfl

/-- A record that does not throw. -/
theorem syncServer_ok (h : syncServer tz j s = .ok u t) :
    SyncedAgrees j (synced t) ∧ fixed t = fixed s := by
  unfold syncServer at h
  obtain ⟨str, -, h⟩ := of_orThrow_bind_eq_ok h
  obtain ⟨_, s', hstatus, h⟩ := of_bind_eq_ok h
  rw [modify_bind_apply] at h
  obtain ⟨hagrees, hfixed⟩ := syncFields_ok h
  have hkept : fixed s' = fixed s := (syncStatus_fixed _).eq_of_ok hstatus
  exact ⟨hagrees, hfixed.trans hkept⟩

/-! ## The registry -/

theorem not_hasMember_of_isEmpty (h : j.isEmpty = true) (key : String) :
    j.hasMember key = false := by
  cases j with
  | obj kvs =>
    obtain rfl := List.isEmpty_iff.mp h
    rfl
  | _ => rfl

theorem syncFromApi_ok (hs : g.serversList.lookup id = some s)
    (h : syncFromApi tz id (some j) g = .ok u g') :
    ∃ t, g'.serversList.lookup id = some t ∧ SyncedAgrees j (synced t) ∧ fixed t = fixed s := by
  unfold syncFromApi at h
  cases hj : j.isEmpty with
  | true =>
    simp only [hj, if_true] at h
    cases h
    have hnone : ∀ key, ¬ j.hasMember key = true := fun key =>
      Bool.eq_false_iff.mp (not_hasMember_of_isEmpty hj key)
    refine ⟨s, hs, ?_, rfl⟩
    constructor <;> exact fun hm => absurd hm (hnone _)
  | false =>
    simp only [hj, Bool.false_eq_true, if_false] at h
    unfold onServer at h
    rw [hs] at h
    simp only at h
    cases hsync : syncServer tz j s with
    | error e t =>
      rw [hsync] at h
      cases h
    | ok _ t =>
      rw [hsync] at h
      cases h
      refine ⟨t, ?_, syncServer_ok hsync⟩
      rw [Table.lookup_modify, hs]
      rfl

/-- The fields of an entry of the panel's list that only `update_list` reads. -/
def listedFixed (jserver : Json) : Except Exn Fixed := do
  return {
    connectPort := (← jserver.getUInt "server_port") % 2 ^ 16
    queryPort := (← jserver.getUInt "query_port") % 2 ^ 16
    rconPort := (← jserver.getUInt "rcon_port") % 2 ^ 16
    dir := ← jserver.getString "dir"
    user := ← jserver.getString "su_user" }

/-- The first entry of the list with this id. -/
def entryOf (id : Nat) (entries : List Json) : Option Json :=
  entries.find? fun j => (j.getUInt "id").toOption == some id

theorem newServer_fixed (h : newServer j = .ok s) : listedFixed j = .ok (fixed s) := by
  unfold newServer at h
  iterate 10 obtain ⟨_, -, h⟩ := ok_of_bind h
  obtain ⟨connectPort, hconnect, h⟩ := ok_of_bind h
  obtain ⟨queryPort, hquery, h⟩ := ok_of_bind h
  obtain ⟨rconPort, hrcon, h⟩ := ok_of_bind h
  obtain ⟨_, -, h⟩ := ok_of_bind h
  obtain ⟨dir, hdir, h⟩ := ok_of_bind h
  obtain ⟨user, huser, h⟩ := ok_of_bind h
  iterate 5 obtain ⟨_, -, h⟩ := ok_of_bind h
  cases h
  unfold listedFixed
  rw [hconnect, hquery, hrcon, hdir, huser]
  rfl

/-- What is known of server `id` after `entries` have been added. -/
def fixedWith (id : Nat) (entries : List Json) (g : GameServersList) : Option Fixed :=
  match g.serversList.lookup id with
  | some s => some (fixed s)
  | none => (entryOf id entries).bind fun j => (listedFixed j).toOption

theorem fixedWith_of_mem {entries : List Json} (h : id ∈ g.serversList) :
    fixedWith id entries g = (g.serversList.lookup id).map fixed := by
  obtain ⟨s, hs⟩ := Table.exists_lookup h
  unfold fixedWith
  rw [hs]
  rfl

theorem fixedWith_cons {k : Nat} {entries : List Json} (hk : j.getUInt "id" = .ok k)
    (h : k = id → id ∈ g.serversList) :
    fixedWith id (j :: entries) g = fixedWith id entries g := by
  by_cases hid : id ∈ g.serversList
  · rw [fixedWith_of_mem hid, fixedWith_of_mem hid]
  · have hne : ((j.getUInt "id").toOption == some id) = false := by
      rw [hk]
      exact beq_false_of_ne fun he => hid (h (Option.some.inj he))
    unfold fixedWith entryOf
    rw [List.find?_cons_of_neg (by simp [hne])]

/-- Of several entries for one server, the first one is taken. -/
theorem addServers_ok {entries : List Json} (h : addServers entries g = .ok u g') :
    (g'.serversList.lookup id).map fixed = fixedWith id entries g := by
  induction entries generalizing g with
  | nil =>
    cases h
    unfold fixedWith
    cases g'.serversList.lookup id <;> rfl
  | cons j rest ih =>
    unfold addServers at h
    obtain ⟨k, hk, h⟩ := of_orThrow_bind_eq_ok h
    rw [get_bind_apply] at h
    by_cases hmem : k ∈ g.serversList
    · rw [if_neg (not_not.mpr hmem)] at h
      rw [ih h, fixedWith_cons hk fun he => he ▸ hmem]
    · rw [if_pos hmem] at h
      obtain ⟨server, hserver, h⟩ := of_orThrow_bind_eq_ok h
      rw [modify_bind_apply] at h
      rw [ih h]
      by_cases hid : k = id
      · subst hid
        have hentry : entryOf k (j :: rest) = some j := by
          refine List.find?_cons_of_pos ?_
          rw [hk]
          exact beq_self_eq_true _
        unfold fixedWith
        rw [Table.lookup_emplace_of_notMem hmem, AList.lookup_eq_none.mpr hmem, hentry,
          Option.bind_some, newServer_fixed hserver]
        rfl
      · rw [fixedWith_cons hk fun he => absurd he hid]
        unfold fixedWith
        rw [Table.lookup_emplace_ne (Ne.symm hid)]

/-- What is known of server `id` when its record is read. -/
def fixedBefore (r : ServerReplies) (id : Nat) (g : GameServersList) : Option Fixed :=
  fixedWith id (r.list.elim [] Json.elems) g

/-- A server that is there after an update of the list. -/
theorem updateList_ok {ok : Bool} (h : updateList r g = .ok ok g') (hin : id ∈ g'.serversList) :
    fixedBefore r id g = (g'.serversList.lookup id).map fixed := by
  unfold updateList at h
  rw [get_bind_apply] at h
  split at h
  · cases h
    exact fixedWith_of_mem hin
  · unfold fixedBefore
    cases hlist : r.list with
    | none =>
      rw [hlist] at h
      cases h
      exact fixedWith_of_mem hin
    | some list =>
      rw [hlist] at h
      obtain ⟨u, g1, hadd, h⟩ := of_bind_eq_ok h
      cases h
      exact (addServers_ok hadd).symm

/-- Server `id` is synced as it stands in `g1`, with the fields it has in `g` or else in the list. -/
def SyncedFrom (tz : Int) (r : ServerReplies) (id : Nat) (g g1 g' : GameServersList) : Prop :=
  ∃ s u, g1.serversList.lookup id = some s ∧ fixedBefore r id g = some (fixed s) ∧
    syncFromApi tz id r.server g1 = .ok u g'

theorem syncedFrom_of_mem {g1 : GameServersList} (hmem : id ∈ g1.serversList)
    (hbefore : fixedBefore r id g = (g1.serversList.lookup id).map fixed)
    (h : (do
      syncFromApi tz id r.server
      return true) g1 = .ok true g') : SyncedFrom tz r id g g1 g' := by
  obtain ⟨s, hs⟩ := Table.exists_lookup hmem
  obtain ⟨u, g2, hok, h⟩ := of_bind_eq_ok h
  cases h
  refine ⟨s, u, hs, ?_, hok⟩
  rw [hbefore, hs]
  rfl

/-- The entry that is synced: one of the registry, or else of the list. -/
theorem getServer_ok (h : getServer tz r id g = .ok true g') : ∃ g1, SyncedFrom tz r id g g1 g' := by
  unfold getServer at h
  rw [get_bind_apply] at h
  by_cases hmem : id ∈ g.serversList
  · rw [if_neg (not_not.mpr hmem)] at h
    exact ⟨g, syncedFrom_of_mem hmem (fixedWith_of_mem hmem) h⟩
  · rw [if_pos hmem, modify_bind_apply] at h
    obtain ⟨ok, g1, hupdate, h⟩ := of_bind_eq_ok h
    cases ok with
    | false => cases h
    | true =>
      simp only [Bool.not_true, Bool.false_eq_true, if_false, get_bind_apply] at h
      by_cases hin : id ∈ g1.serversList
      · rw [if_neg (not_not.mpr hin)] at h
        have hbefore : fixedBefore r id { g with lastUpdated := 0 } =
            (g1.serversList.lookup id).map fixed := updateList_ok hupdate hin
        exact ⟨g1, syncedFrom_of_mem hin hbefore h⟩
      · rw [if_pos hin] at h
        cases h

/-- The copy is up to date with a record in what `sync_from_api` does not write, before the record
is read. -/
def UpToDate (r : ServerReplies) (id : Nat) (g : GameServersList) (j : Json) : Prop :=
  ∃ before, fixedBefore r id g = some before ∧ FixedAgrees j before

/-- **A copy and its record.** For every registry, every list and every record that is read: the
server that is returned agrees with the record exactly if its ports, directory and user did so
before, in the registry or else in the first entry of the list. -/
theorem getServer_agrees_iff (hj : r.server = some j) (h : getServer tz r id g = .ok true g') :
    ∃ s, g'.serversList.lookup id = some s ∧ (Agrees j s ↔ UpToDate r id g j) := by
  obtain ⟨g1, before, u, hlook, hbefore, hsync⟩ := getServer_ok h
  rw [hj] at hsync
  obtain ⟨s, hs, hsynced, hfixed⟩ := syncFromApi_ok hlook hsync
  refine ⟨s, hs, ?_⟩
  unfold UpToDate
  rw [hbefore]
  constructor
  · exact fun hagrees => ⟨fixed before, rfl, hfixed ▸ hagrees.fixed⟩
  · rintro ⟨_, hsome, hagrees⟩
    cases hsome
    exact ⟨hsynced, hfixed.symm ▸ hagrees⟩

/-! ## A server that is moved -/

/-- The record of a server in this directory. -/
def recordIn (dir : String) : Json :=
  .obj [("dir", .str dir), ("name", .str "game"), ("updated_at", .str "1970-01-01 00:01:00")]

def lookAt (dir : String) : ServerReplies :=
  { now := 100, later := 100, list := none, server := some (recordIn dir) }

def afterLook (dir : String) : GameServersList :=
  endState (getServer 0 (lookAt dir) 1) (plainList [1])

theorem getServer_lookAt (dir : String) :
    getServer 0 (lookAt dir) 1 (plainList [1]) = .ok true (afterLook dir) := rfl

theorem unmoved_server_agrees :
    ∃ s, (afterLook "").serversList.lookup 1 = some s ∧ Agrees (recordIn "") s := by
  obtain ⟨s, hs, hiff⟩ := getServer_agrees_iff rfl (getServer_lookAt "")
  refine ⟨s, hs, hiff.mpr ⟨fixed (plainServer 1), rfl, ?_⟩⟩
  constructor
  case dir => exact fun _ => rfl
  all_goals exact fun hm => absurd hm (by decide)

/-- The panel moves a server, and the daemon keeps its old directory. -/
theorem moved_server_differs :
    ¬ ∀ (tz : Int) (r : ServerReplies) (id : Nat) (g g' : GameServersList) (j : Json) (s : Server),
      r.server = some j → getServer tz r id g = .ok true g' →
      g'.serversList.lookup id = some s → Agrees j s := by
  intro h
  have hdir := (h _ _ _ _ _ _ _ rfl (getServer_lookAt "servers/moved") rfl).fixed.dir rfl
  exact absurd hdir (by decide)

end GameServersList

end GameAP
