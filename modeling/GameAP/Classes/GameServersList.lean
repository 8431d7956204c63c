import GameAP.Functions.GString
import GameAP.Lib.Keeps
import GameAP.Models.Server

/-!
# The registry of game servers

`GameServersList`: the servers by id, filled from the panel's list (`updateList`) and refreshed
one by one (`syncFromApi`). A reply of the panel is `none` when the request throws
`RestapiException`, which every caller here catches. The panel's record of a server is taken
over field by field, so an ill-typed field throws after the fields before it are stored.
`enabled`, `installed` and `blocked` are taken over only from a record newer than the server's
own stamp `updatedAt`; the local changes (`setInstallStatus`, `syncAll`) set the stamp to the
current time.
-/

namespace GameAP

open Lib

structure GameServersList where
  serversList : Table Nat Server
  lastUpdated : Int

namespace GameServersList

def cacheTtl : Int := 60

/-- The registry before its first update. -/
def empty : GameServersList := { serversList := ∅, lastUpdated := 0 }

/-! ## `sync_from_api` -/

abbrev SyncM := EStateM Exn Server

/-- The variables of the game mod with their defaults; the first of a name counts. -/
def modVars : List Json → Table String String → Except Exn (Table String String)
  | [], vars => .ok vars
  | jvar :: rest, vars => do
    let dflt ← jvar.get "default"
    if dflt.isNull then
      modVars rest (vars.emplace (← jvar.getString "var") "")
    else if dflt.isString then
      modVars rest (vars.emplace (← jvar.getString "var") (← dflt.asString))
    else if dflt.isInt then
      modVars rest (vars.emplace (← jvar.getString "var") (toString dflt.toInt))
    else modVars rest vars

/-- The server's own variables replace them. -/
def serverVars (jvars : Json) : List String → Table String String →
    Except Exn (Table String String)
  | [], vars => .ok vars
  | key :: rest, vars => do
    let jvar ← jvars.get key
    if jvar.isString then
      serverVars jvars rest (vars.insert key (← jvar.asString))
    else if jvar.isInt then
      serverVars jvars rest (vars.insert key (toString jvar.toInt))
    else serverVars jvars rest vars

def readVars (jserver : Json) : Except Exn (Table String String) := do
  let jvars ← (← jserver.get "game_mod").get "vars"
  let vars ← modVars jvars.elems ∅
  let jserverVars ← jserver.get "vars"
  if jserverVars.isEmpty then return vars
  serverVars jserverVars (← jserverVars.getMemberNames) vars

def readGame (jgame : Json) : Except Exn Game := do
  return {
    code := ← jgame.getString "code"
    startCode := ← jgame.getString "start_code"
    name := ← jgame.getString "name"
    engine := ← jgame.getString "engine"
    engineVersion := ← jgame.getString "engine_version"
    steamAppId := ← jgame.getUInt "steam_app_id"
    steamAppSetConfig := ← jgame.getString "steam_app_set_config"
    remoteRepository := ← jgame.getString "remote_repository"
    localRepository := ← jgame.getString "local_repository" }

def readGameMod (jmod : Json) : Except Exn GameMod := do
  return {
    id := ← jmod.getUInt "id"
    name := ← jmod.getString "name"
    remoteRepository := ← jmod.getString "remote_repository"
    localRepository := ← jmod.getString "local_repository"
    defaultStartCmdLinux := ← jmod.getString "default_start_cmd_linux"
    defaultStartCmdWindows := ← jmod.getString "default_start_cmd_windows" }

def syncSettings : List Json → SyncM PUnit
  | [] => pure ⟨⟩
  | jsetting :: rest => do
    let name ← orThrow (jsetting.getString "name")
    let value ← orThrow (jsetting.getString "value")
    modify fun s => s.setSetting name value
    syncSettings rest

/-- `server->field = jserver[key].asString()`. -/
def setString (j : Json) (key : String) (set : Server → String → Server) : SyncM PUnit := do
  let v ← orThrow (j.getString key)
  modify fun s => set s v

/-- `enabled`, `installed` and `blocked`, when the record is newer than the server's stamp. -/
def syncStatus (j : Json) (updatedAt : Int) : SyncM PUnit := do
  if (← get).updatedAt < updatedAt then
    let enabled ← orThrow (j.getBool "enabled")
    modify fun s => { s with enabled }
    let installed ← orThrow (j.getUInt "installed")
    modify fun s => { s with installed := .ofUInt installed }
    let blocked ← orThrow (j.getBool "blocked")
    modify fun s => { s with blocked }

/-- The fields that every record replaces. -/
def syncFields (j : Json) : SyncM PUnit := do
  setString j "name" fun s v => { s with name := v }
  setString j "uuid" fun s v => { s with uuid := v }
  setString j "uuid_short" fun s v => { s with uuidShort := v }
  setString j "start_command" fun s v => { s with startCommand := v }
  setString j "stop_command" fun s v => { s with stopCommand := v }
  setString j "force_stop_command" fun s v => { s with forceStopCommand := v }
  setString j "restart_command" fun s v => { s with restartCommand := v }
  let game ← orThrow (do readGame (← j.get "game"))
  modify fun s => { s with game }
  let gameMod ← orThrow (do readGameMod (← j.get "game_mod"))
  modify fun s => { s with gameMod }
  setString j "server_ip" fun s v => { s with ip := v }
  setString j "rcon" fun s v => { s with rconPassword := v }
  setString j "start_command" fun s v => { s with startCommand := v }
  setString j "stop_command" fun s v => { s with stopCommand := v }
  setString j "force_stop_command" fun s v => { s with forceStopCommand := v }
  setString j "restart_command" fun s v => { s with restartCommand := v }
  let vars ← orThrow (readVars j)
  modify fun s => { s with vars }
  let jsettings ← orThrow (j.get "settings")
  syncSettings jsettings.elems

/-- The body of `sync_from_api` on the server `jserver` is the record of. -/
def syncServer (tz : Int) (jserver : Json) : SyncM PUnit := do
  let str ← orThrow (jserver.getString "updated_at")
  let updatedAt := humanToTimestamp tz str
  syncStatus jserver updatedAt
  modify fun s => { s with updatedAt }
  syncFields jserver

/-! ## The registry -/

abbrev ListM := EStateM Exn GameServersList

/-- What the clock and the panel answer during one `get_server`. -/
structure ServerReplies where
  now : Int
  /-- the time after the list is read -/
  later : Int
  list : Option Json
  server : Option Json

/-- The `Server` that `update_list` makes of an entry of the list. -/
def newServer (jserver : Json) : Except Exn Server := do
  return {
    id := ← jserver.getUInt "id"
    enabled := ← jserver.getBool "enabled"
    installed := .ofUInt (← jserver.getUInt "installed")
    blocked := ← jserver.getBool "blocked"
    name := ← jserver.getString "name"
    uuid := ← jserver.getString "uuid"
    uuidShort := ← jserver.getString "uuid_short"
    game := {
      code := ← jserver.getString "game_id", startCode := "", name := "", engine := "",
      engineVersion := "", steamAppId := 0, steamAppSetConfig := "", remoteRepository := "",
      localRepository := "" }
    gameMod := {
      id := ← jserver.getUInt "game_mod_id", name := "", remoteRepository := "",
      localRepository := "", defaultStartCmdLinux := "", defaultStartCmdWindows := "" }
    ip := ← jserver.getString "server_ip"
    connectPort := (← jserver.getUInt "server_port") % 2 ^ 16
    queryPort := (← jserver.getUInt "query_port") % 2 ^ 16
    rconPort := (← jserver.getUInt "rcon_port") % 2 ^ 16
    rconPassword := ← jserver.getString "rcon"
    dir := ← jserver.getString "dir"
    user := ← jserver.getString "su_user"
    startCommand := ← jserver.getString "start_command"
    stopCommand := ← jserver.getString "stop_command"
    forceStopCommand := ← jserver.getString "force_stop_command"
    restartCommand := ← jserver.getString "restart_command"
    processActive := ← jserver.getBool "process_active"
    lastProcessCheck := 0
    vars := ∅
    settings := ∅
    updatedAt := 0 }

/-- Entries with an id that is not in the registry are added. -/
def addServers : List Json → ListM PUnit
  | [] => pure ⟨⟩
  | jserver :: rest => do
    let id ← orThrow (jserver.getUInt "id")
    if id ∉ (← get).serversList then
      let server ← orThrow (newServer jserver)
      modify fun g => { g with serversList := g.serversList.emplace id server }
    addServers rest

/-- `update_list`: whether it returns `SUCCESS_STATUS_INT`. -/
def updateList (r : ServerReplies) : ListM Bool := do
  if (← get).lastUpdated > r.now - cacheTtl then return true
  match r.list with
  | none => return false
  | some jvalue =>
    addServers jvalue.elems
    modify fun g => { g with lastUpdated := r.later }
    return true

/-- `f` runs on the registry's own object of server `id`, which keeps what `f` did even when
`f` throws. -/
def onServer {α : Type} (id : Nat) (f : EStateM Exn Server α) : ListM α := fun g =>
  match g.serversList.lookup id with
  | none => .error .nullPointer g
  | some server =>
    match f server with
    | .ok a server' =>
      .ok a { g with serversList := g.serversList.modify id fun _ => server' }
    | .error e server' =>
      .error e { g with serversList := g.serversList.modify id fun _ => server' }

def syncFromApi (tz : Int) (id : Nat) (reply : Option Json) : ListM PUnit :=
  match reply with
  | none => pure ⟨⟩
  | some jserver => if jserver.isEmpty then pure ⟨⟩ else onServer id (syncServer tz jserver)

/-- `get_server`: whether the pointer it returns, to the registry's entry, is not null. -/
def getServer (tz : Int) (r : ServerReplies) (id : Nat) : ListM Bool := do
  if id ∉ (← get).serversList then
    modify fun g => { g with lastUpdated := 0 }
    if !(← updateList r) then return false
    if id ∉ (← get).serversList then return false
  syncFromApi tz id r.server
  return true

/-- One server in the request body of `sync_all`. -/
structure SyncEntry where
  id : Nat
  /-- `last_process_check` and `process_active`, once the process has been checked -/
  process : Option (String × Bool)
  installed : InstallStatus
  deriving DecidableEq, Repr

def syncEntry (timediff : Option Int) (server : Server) : SyncEntry :=
  let check := server.lastProcessCheck - timediff.getD 0
  { id := server.id
    process := if check > 0 then some (formatTime check, server.processActive) else none
    installed := server.installed }

/-- The body of the PATCH that `sync_all` sends. -/
def syncBody (timediff : Option Int) (g : GameServersList) : List SyncEntry :=
  g.serversList.entries.map fun e => syncEntry timediff e.2

/-- `sync_all` stamps every server with the time at which it is put into the request; whether
the PATCH succeeds changes nothing. -/
def syncAll (now : Nat → Int) (g : GameServersList) : GameServersList :=
  { g with serversList := g.serversList.mapVals fun id s => { s with updatedAt := now id } }

/-- The clock during `set_install_status`: when it stamps the server, and when `sync_all`
stamps each server. -/
structure StampClock where
  now : Int
  sync : Nat → Int

def setInstallStatus (c : StampClock) (id : Nat) (status : InstallStatus)
    (g : GameServersList) : GameServersList :=
  if id ∉ g.serversList then g
  else
    syncAll c.sync { g with serversList := g.serversList.modify id fun s =>
      { s with installed := status, updatedAt := c.now } }

def deleteServer (id : Nat) (g : GameServersList) : GameServersList :=
  { g with serversList := g.serversList.erase id }

structure Stats where
  activeServersCount : Nat
  deriving DecidableEq, Repr

def stats (g : GameServersList) : Stats :=
  { activeServersCount := (g.serversList.entries.filter fun e => e.2.processActive).length % 2 ^ 32 }

/-! ## Examples of registries -/

/-- A server as `update_list` first registers it. -/
def plainServer (id : Nat) : Server :=
  { id, enabled := true, installed := .notInstalled, blocked := false, name := "", uuid := "",
    uuidShort := "",
    game := {
      code := "", startCode := "", name := "", engine := "", engineVersion := "",
      steamAppId := 0, steamAppSetConfig := "", remoteRepository := "", localRepository := "" },
    gameMod := {
      id := 0, name := "", remoteRepository := "", localRepository := "",
      defaultStartCmdLinux := "", defaultStartCmdWindows := "" },
    ip := "", connectPort := 0, queryPort := 0, rconPort := 0, rconPassword := "", dir := "",
    user := "", startCommand := "", stopCommand := "", forceStopCommand := "",
    restartCommand := "", processActive := false, lastProcessCheck := 0, vars := ∅,
    settings := ∅, updatedAt := 0 }

def plainList (ids : List Nat) : GameServersList :=
  { serversList := ids.foldl (fun t id => t.emplace id (plainServer id)) ∅, lastUpdated := 0 }

end GameServersList

end GameAP
