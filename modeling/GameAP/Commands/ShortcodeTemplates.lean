import GameAP.Commands.StartCommand

/-!
# Commands as templates

A command and the scripts of the host are templates: texts with placeholders. `replace_shortcodes`
replaces one placeholder after the other, and `start` puts the start command into the script before
that. `startCommand_template`: where no value has an opening brace this fills all placeholders at
once, those of the start command too, and the server's own shortcodes come before its variables.
-/

namespace GameAP

open Lib Lib.Substitution

namespace GameServerCmd

/-- What the record of the server says, by the names of the shortcodes. -/
def serverValues (ds : DedicatedServer) (serverId : Nat) (server : Server) :
    List (String × String) :=
  [("dir", fixPathSlashes (LexicalPath.join ds.workPath server.dir)),
    ("uuid", server.uuid),
    ("uuid_short", server.uuidShort),
    ("host", server.ip),
    ("ip", server.ip),
    ("game", server.game.startCode),
    ("id", toString serverId),
    ("port", toString server.connectPort),
    ("query_port", toString server.queryPort),
    ("rcon_port", toString server.rconPort),
    ("rcon_password", server.rconPassword),
    ("user", server.user)]

/-- The values in the order in which they are put in. -/
def shortcodeValues (ds : DedicatedServer) (serverId : Nat) (server : Server) :
    List (String × String) :=
  serverValues ds serverId server ++ server.vars.entries.map fun var => (var.1, var.2)

abbrev IsTemplate (pieces : List (Piece Char String)) : Prop :=
  Template '\x7b' '\x7d' String.toList pieces

/-- A piece with the placeholders that have a value filled in. -/
def fill (values : List (String × String)) : Piece Char String → List Char :=
  Piece.expand '\x7b' '\x7d' String.toList (values.map fun v => (v.1, v.2.toList))

/-- The text that the template is written as. -/
def written (pieces : List (Piece Char String)) : List Char := pieces.flatMap (fill [])

/-- No value has an opening brace, and no name of a variable a brace. -/
structure PlainValues (ds : DedicatedServer) (serverId : Nat) (server : Server) : Prop where
  values : ∀ v ∈ shortcodeValues ds serverId server, '\x7b' ∉ v.2.toList
  names : ∀ name ∈ server.vars.keys, '\x7b' ∉ name.toList ∧ '\x7d' ∉ name.toList

variable {ds : DedicatedServer} {serverId : Nat} {server : Server} {command : String}
  {pieces script start : List (Piece Char String)}

theorem serverShortcodes_eq_map (ds : DedicatedServer) (serverId : Nat) (server : Server) :
    serverShortcodes ds serverId server =
      (serverValues ds serverId server).map fun v => (placeholder v.1, v.2) := rfl

/-- The names of the shortcodes have no braces. -/
theorem serverValues_names : ∀ name ∈ (serverValues ds serverId server).map Prod.fst,
    '\x7b' ∉ name.toList ∧ '\x7d' ∉ name.toList := by
  have hnames : (["dir", "uuid", "uuid_short", "host", "ip", "game", "id", "port", "query_port",
      "rcon_port", "rcon_password", "user"].all fun name =>
        decide ('\x7b' ∉ name.toList ∧ '\x7d' ∉ name.toList)) = true := by decide +kernel
  intro name hname
  exact of_decide_eq_true (List.all_eq_true.mp hnames name hname)

theorem replaceShortcodes_eq (ds : DedicatedServer) (serverId : Nat) (server : Server)
    (command : String) : replaceShortcodes ds serverId server command =
      replaceAll ((shortcodeValues ds serverId server).map fun v => (placeholder v.1, v.2))
        command := by
  unfold replaceShortcodes replaceAll shortcodeValues varShortcodes
  rw [serverShortcodes_eq_map, ← List.foldl_append, List.map_append, List.map_map]
  rfl

theorem PlainValues.foldl (h : PlainValues ds serverId server) :
    ∀ e ∈ (shortcodeValues ds serverId server).map fun v => (v.1, v.2.toList),
      ('\x7b' ∉ e.1.toList ∧ '\x7d' ∉ e.1.toList) ∧ '\x7b' ∉ e.2 := by
  intro e he
  obtain ⟨v, hv, rfl⟩ := List.mem_map.mp he
  refine ⟨?_, h.values v hv⟩
  obtain hserver | hvar := List.mem_append.mp hv
  · exact serverValues_names _ (List.mem_map_of_mem hserver)
  · obtain ⟨var, hmem, rfl⟩ := List.mem_map.mp hvar
    exact h.names _ (List.mem_map_of_mem hmem)

/-- **Filling a template.** -/
theorem replaceShortcodes_template (h : PlainValues ds serverId server) (hpieces : IsTemplate pieces)
    (hcommand : command.toList = written pieces) :
    (replaceShortcodes ds serverId server command).toList =
      pieces.flatMap (fill (shortcodeValues ds serverId server)) := by
  rw [replaceShortcodes_eq, toList_replaceAll, hcommand]
  unfold replaceList
  rw [List.foldl_map]
  have hfold := foldl_replace_expand hpieces (by decide) (fun _ _ => String.toList_injective) h.foldl
  rw [List.foldl_map] at hfold
  simp only [← spell_eq] at hfold
  exact hfold

/-- A piece of the start script, filled; the placeholder of the start command with that command. -/
def fillStart (values : List (String × String)) (start : List (Piece Char String)) :
    Piece Char String → List Char
  | .literal x => [x]
  | .mark name => if name = "command" then start.flatMap (fill values) else fill values (.mark name)

theorem flatMap_subst (values : List (String × String)) (script start : List (Piece Char String)) :
    (script.flatMap (Piece.subst "command" start)).flatMap (fill values) =
      script.flatMap (fillStart values start) := by
  rw [List.flatMap_assoc]
  congr 1
  funext p
  cases p with
  | literal x => rfl
  | mark name =>
    simp only [Piece.subst, fillStart]
    split
    · rfl
    · simp

/-- **The start command** is the script with all placeholders filled at once. -/
theorem startCommand_template {env : CmdEnv} (h : PlainValues env.ds env.serverId server)
    (hscript : IsTemplate script) (hstart : IsTemplate start)
    (hscriptText : env.ds.scriptStart.toList = written script)
    (hstartText : server.startCommand.toList = written start) :
    (CmdProcess.startCommand env server).toList =
      script.flatMap (fillStart (shortcodeValues env.ds env.serverId server) start) := by
  have hname : '\x7b' ∉ "command".toList ∧ '\x7d' ∉ "command".toList := by decide +kernel
  have hcommand : (strReplace "{command}" server.startCommand env.ds.scriptStart).toList =
      written (script.flatMap (Piece.subst "command" start)) := by
    rw [toList_strReplace, hscriptText, hstartText]
    exact replace_template hscript (by decide) (fun _ _ => String.toList_injective) hname start
  unfold CmdProcess.startCommand
  rw [replaceShortcodes_template h (hscript.subst hstart) hcommand, flatMap_subst]

/-- A script and a command for a map. -/
def shortScript : List (Piece Char String) :=
  "run -u ".toList.map .literal ++ [.mark "user"] ++ " -c ".toList.map .literal ++ [.mark "command"]

def mapCommand : List (Piece Char String) := "+map ".toList.map .literal ++ [.mark "map"]

def shortEnv : CmdEnv :=
  { defaultEnv with ds := { defaultEnv.ds with scriptStart := "run -u {user} -c {command}" } }

def shortServer : Server := { mapServer "cs" "de_dust2" with startCommand := "+map {map}" }

theorem startCommand_map :
    (CmdProcess.startCommand shortEnv shortServer).toList =
      shortScript.flatMap
        (fillStart (shortcodeValues shortEnv.ds shortEnv.serverId shortServer) mapCommand) := by
  have hvalues : (shortcodeValues shortEnv.ds shortEnv.serverId shortServer).all
      (fun v => decide ('\x7b' ∉ v.2.toList)) = true := by decide +kernel
  have hnames : shortServer.vars.keys.all
      (fun name => decide ('\x7b' ∉ name.toList ∧ '\x7d' ∉ name.toList)) = true := by decide +kernel
  have hplain : PlainValues shortEnv.ds shortEnv.serverId shortServer :=
    ⟨fun v hv => of_decide_eq_true (List.all_eq_true.mp hvalues v hv),
      fun name hname => of_decide_eq_true (List.all_eq_true.mp hnames name hname)⟩
  exact startCommand_template hplain (by decide +kernel) (by decide +kernel) (by decide +kernel)
    (by decide +kernel)

example : shortScript.flatMap (fillStart (shortcodeValues shortEnv.ds shortEnv.serverId shortServer)
    mapCommand) = "run -u gameap -c +map de_dust2".toList := by decide +kernel

end GameServerCmd

end GameAP
