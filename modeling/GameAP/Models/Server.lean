import GameAP.Functions.Json
import GameAP.Lib.Table

/-!
# Servers

The daemon's record of a game server and its settings. `Server.autostart` is the flag the crash
restart asks: the session setting `autostart_current`, or the panel's `autostart` when that is
empty.
-/

namespace GameAP

open Lib

structure Game where
  code : String
  startCode : String
  name : String
  engine : String
  engineVersion : String
  steamAppId : Nat
  steamAppSetConfig : String
  remoteRepository : String
  localRepository : String
  deriving DecidableEq, Repr

structure GameMod where
  id : Nat
  name : String
  remoteRepository : String
  localRepository : String
  defaultStartCmdLinux : String
  defaultStartCmdWindows : String
  deriving DecidableEq, Repr

/-- `Server::install_status`; `other` is a value the panel sent that names no status. -/
inductive InstallStatus where
  | notInstalled
  | installed
  | installInProcess
  | other (n : Nat)
  deriving DecidableEq, Repr

/-- `static_cast<Server::install_status>`. -/
def InstallStatus.ofUInt : Nat → InstallStatus
  | 0 => notInstalled
  | 1 => installed
  | 2 => installInProcess
  | n => other n

structure Server where
  id : Nat
  enabled : Bool
  installed : InstallStatus
  blocked : Bool
  name : String
  uuid : String
  uuidShort : String
  game : Game
  gameMod : GameMod
  ip : String
  connectPort : Nat
  queryPort : Nat
  rconPort : Nat
  rconPassword : String
  dir : String
  user : String
  startCommand : String
  stopCommand : String
  forceStopCommand : String
  restartCommand : String
  processActive : Bool
  lastProcessCheck : Int
  vars : Table String String
  settings : Table String String
  updatedAt : Int

namespace Server

def getSetting (s : Server) (name : String) : String := (s.settings.lookup name).getD ""

def setSetting (s : Server) (name value : String) : Server :=
  if name ∈ s.settings then { s with settings := s.settings.modify name fun _ => value }
  else { s with settings := s.settings.emplace name value }

/-- A setting that is switched on. -/
def isOn (value : String) : Bool := value == "1" || value == "true"

def autostart (s : Server) : Bool :=
  let current := s.getSetting "autostart_current"
  let str := if current = "" then s.getSetting "autostart" else current
  if str = "" then false else isOn str

/-! ## Settings -/

theorem getSetting_setSetting (s : Server) (name value : String) :
    (s.setSetting name value).getSetting name = value := by
  unfold setSetting getSetting
  split
  · next h =>
    obtain ⟨v, hv⟩ := Table.exists_lookup h
    simp only [Table.lookup_modify, hv, Option.map_some, Option.getD_some]
  · next h => simp only [Table.lookup_emplace_of_notMem h, Option.getD_some]

theorem getSetting_setSetting_ne (s : Server) {name other : String} (value : String)
    (h : other ≠ name) : (s.setSetting name value).getSetting other = s.getSetting other := by
  unfold setSetting getSetting
  split
  · simp only [Table.lookup_modify_ne h]
  · simp only [Table.lookup_emplace_ne h]

/-- Without a session setting, autostart is what the panel's setting says. -/
theorem autostart_of_current_empty {s : Server} (h : s.getSetting "autostart_current" = "") :
    s.autostart = isOn (s.getSetting "autostart") := by
  simp only [autostart, h, if_true]
  split
  · next he => rw [he]; rfl
  · rfl

end Server

end GameAP
