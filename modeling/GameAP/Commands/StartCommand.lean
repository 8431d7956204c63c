import GameAP.Commands.GameServerIdentity
import GameAP.Lib.ShellWords

/-!
# The default start script

`start` puts the start command of the server between the double quotes of the default script, and
the values of the variables into both, as they are. The shell reads this as the words of the script
and one quoted word exactly if the start command, with the values put in, is escaped
(`start_quoted_iff`).
-/

namespace GameAP

open Lib Lib.Substitution Lib.ShellWords

namespace GameServerCmd

/-- `script_start` where the panel has none. -/
def defaultScriptStart : String := "gameap-starter -t start -d {dir} -u {user} -c \"{command}\""

/-- The directory of the server, as it is put into a command. -/
def workDir (ds : DedicatedServer) (server : Server) : String :=
  fixPathSlashes (LexicalPath.join ds.workPath server.dir)

/-- The words of the script in front of the start command. -/
def scriptWords (ds : DedicatedServer) (server : Server) : String :=
  "gameap-starter -t start -d " ++ workDir ds server ++ " -u " ++ server.user ++ " -c"

/-- The replacements, on lists of characters. -/
def replaceList (replacements : List (String × String)) (text : List Char) : List Char :=
  replacements.foldl (fun text r => replace r.1.toList r.2.toList text) text

/-- A key is a name between braces. -/
def Braced (key : String) : Prop := key.toList = '\x7b' :: key.toList.tail.dropLast ++ ['\x7d']

instance (key : String) : Decidable (Braced key) := inferInstanceAs (Decidable (_ = _))

variable {ds : DedicatedServer} {serverId : Nat} {server : Server} {part text : List Char}

theorem toList_replaceAll (replacements : List (String × String)) (command : String) :
    (replaceAll replacements command).toList = replaceList replacements command.toList := by
  unfold replaceAll replaceList
  induction replacements generalizing command with
  | nil => rfl
  | cons r replacements ih => rw [List.foldl_cons, List.foldl_cons, ih, toList_strReplace]

theorem replace_quote {key : String} (hkey : Braced key) (value text : List Char) :
    replace key.toList value (text ++ ['"']) = replace key.toList value text ++ ['"'] := by
  unfold Braced at hkey
  rw [hkey]
  exact replace_concat (by decide) text

/-- Replacements that do not begin in what stands before. -/
theorem replaceList_around {replacements : List (String × String)}
    (h : ∀ r ∈ replacements, Braced r.1 ∧ NotBegun r.1.toList part) (text : List Char) :
    replaceList replacements (part ++ (text ++ ['"'])) =
      part ++ (replaceList replacements text ++ ['"']) := by
  unfold replaceList
  induction replacements generalizing text with
  | nil => rfl
  | cons r replacements ih =>
    obtain ⟨hbraced, hbegun⟩ := h r List.mem_cons_self
    rw [List.foldl_cons, List.foldl_cons, replace_notBegun hbegun, replace_quote hbraced,
      ih fun r hr => h r (List.mem_cons_of_mem _ hr)]

theorem Braced.notBegun {key : String} (hkey : Braced key) (h : '\x7b' ∉ part) :
    NotBegun key.toList part := by
  unfold Braced at hkey
  rw [hkey]
  exact notBegun_of_notMem h

/-- A part that begins with another key. -/
theorem Braced.notBegun_key {key : String} (hkey : Braced key) (h : '\x7b' ∉ part)
    (hkey' : ¬ key.toList <+: '\x7b' :: part) (hpart : ¬ '\x7b' :: part <+: key.toList) :
    NotBegun key.toList ('\x7b' :: part) := by
  unfold Braced at hkey
  rw [hkey] at hkey' hpart ⊢
  exact notBegun_cons h hkey' hpart

theorem braced_placeholder (name : String) : Braced (placeholder name) := by
  unfold Braced
  have hspell : (placeholder name).toList = '\x7b' :: name.toList ++ ['\x7d'] := spell_eq name
  rw [hspell]
  simp

/-! ## The string that is handed to the shell -/

/-- The shortcodes between `{dir}` and `{user}`. -/
def innerKeys : List String :=
  ["{uuid}", "{uuid_short}", "{host}", "{ip}", "{game}", "{id}", "{port}", "{query_port}",
    "{rcon_port}", "{rcon_password}"]

theorem serverShortcodes_eq (ds : DedicatedServer) (serverId : Nat) (server : Server) :
    ∃ inner, inner.map Prod.fst = innerKeys ∧ serverShortcodes ds serverId server =
      ("{dir}", workDir ds server) :: (inner ++ [("{user}", server.user)]) :=
  ⟨(serverShortcodes ds serverId server).tail.dropLast, rfl, rfl⟩

/-- What stands in the script around the directory, the user and the command. -/
def beforeDir : List Char := "gameap-starter -t start -d ".toList

def beforeUser : List Char := " -u ".toList

def behindUser : List Char := " -c \"".toList

def userPart : List Char := "user\x7d -c \"".toList

theorem notBegun_userPart : ∀ key ∈ "{command}" :: "{dir}" :: innerKeys, Braced key ∧
    NotBegun key.toList ('\x7b' :: userPart) := by
  have hkeys : ∀ key ∈ "{command}" :: "{dir}" :: innerKeys, Braced key ∧
      ¬ key.toList <+: '\x7b' :: userPart ∧ ¬ '\x7b' :: userPart <+: key.toList := by
    decide +kernel
  intro key hkey
  obtain ⟨hbraced, hne, hne'⟩ := hkeys key hkey
  exact ⟨hbraced, hbraced.notBegun_key (by decide +kernel) hne hne'⟩

/-- The start command, in the script. -/
theorem replace_command (command : List Char) :
    replace "{command}".toList command defaultScriptStart.toList =
      beforeDir ++ ("{dir}".toList ++ (beforeUser ++ ('\x7b' :: userPart) ++
        (command ++ ['"']))) := by
  have hscript : defaultScriptStart.toList = beforeDir ++ ("{dir}".toList ++ beforeUser) ++
      ('\x7b' :: userPart) ++ ("{command}".toList ++ ['"']) := by decide +kernel
  obtain ⟨hbraced, huser⟩ := notBegun_userPart "{command}" (by decide)
  have hdir : NotBegun "{command}".toList ('\x7b' :: "dir\x7d -u ".toList) :=
    hbraced.notBegun_key (by decide +kernel) (by decide +kernel) (by decide +kernel)
  have hbegun : NotBegun "{command}".toList (beforeDir ++ ("{dir}".toList ++ beforeUser) ++
      ('\x7b' :: userPart)) :=
    ((hbraced.notBegun (by decide +kernel)).append hdir).append huser
  have hquote : replace "{command}".toList command ['"'] = ['"'] := replace_quote hbraced _ []
  rw [hscript, replace_notBegun hbegun, replace_search_append (by decide +kernel), hquote]
  simp only [List.append_assoc]

theorem replaceList_cons (r : String × String) (replacements : List (String × String))
    (text : List Char) : replaceList (r :: replacements) text =
      replaceList replacements (replace r.1.toList r.2.toList text) := rfl

theorem replaceList_concat (replacements : List (String × String)) (r : String × String)
    (text : List Char) : replaceList (replacements ++ [r]) text =
      replace r.1.toList r.2.toList (replaceList replacements text) := by
  unfold replaceList
  rw [List.foldl_append]
  rfl

/-- The start command with the values put in. -/
def startText (ds : DedicatedServer) (serverId : Nat) (server : Server) : String :=
  replaceShortcodes ds serverId server server.startCommand

/-- `{dir}` is in front of the user, and may be in the start command. -/
theorem replace_dir (dir command : List Char) :
    replace "{dir}".toList dir (beforeDir ++ ("{dir}".toList ++
        (beforeUser ++ ('\x7b' :: userPart) ++ (command ++ ['"'])))) =
      beforeDir ++ dir ++ beforeUser ++ ('\x7b' :: userPart) ++
        (replace "{dir}".toList dir command ++ ['"']) := by
  obtain ⟨hbraced, huserPart⟩ := notBegun_userPart "{dir}" (by decide)
  have hbefore : NotBegun "{dir}".toList (beforeUser ++ ('\x7b' :: userPart)) :=
    (hbraced.notBegun (by decide +kernel)).append huserPart
  rw [replace_notBegun (hbraced.notBegun (by decide +kernel)),
    replace_search_append (by decide), replace_notBegun hbefore, replace_quote hbraced]
  simp only [List.append_assoc]

/-- `{user}` stands behind a part with no brace. -/
theorem replace_user {front : List Char} (hfront : '\x7b' ∉ front) (user command : List Char) :
    replace "{user}".toList user (front ++ ('\x7b' :: userPart) ++ (command ++ ['"'])) =
      front ++ user ++ behindUser ++ (replace "{user}".toList user command ++ ['"']) := by
  have hkey : ('\x7b' :: userPart) = "{user}".toList ++ behindUser := by decide +kernel
  have hbraced : Braced "{user}" := by decide
  rw [hkey, List.append_assoc front, replace_notBegun (hbraced.notBegun hfront),
    List.append_assoc "{user}".toList, replace_search_append (by decide),
    replace_notBegun (hbraced.notBegun (by decide +kernel)), replace_quote hbraced]
  simp only [List.append_assoc]

/-- The shortcodes of the server, in the script with the start command in it. -/
theorem replaceList_script (hdir : '\x7b' ∉ (workDir ds server).toList) (command : List Char) :
    replaceList (serverShortcodes ds serverId server)
        (beforeDir ++ ("{dir}".toList ++ (beforeUser ++ ('\x7b' :: userPart) ++
          (command ++ ['"'])))) =
      beforeDir ++ (workDir ds server).toList ++ beforeUser ++ server.user.toList ++ behindUser ++
        (replaceList (serverShortcodes ds serverId server) command ++ ['"']) := by
  obtain ⟨inner, hinner, hcodes⟩ := serverShortcodes_eq ds serverId server
  rw [hcodes]
  simp only [replaceList_cons, replaceList_concat]
  generalize (workDir ds server).toList = dir at hdir
  have hfront : '\x7b' ∉ beforeDir ++ dir ++ beforeUser := by
    simp only [List.mem_append, not_or]
    exact ⟨⟨by decide +kernel, hdir⟩, by decide +kernel⟩
  -- the shortcodes that are not in the script
  have hinnerKeys : ∀ r ∈ inner, Braced r.1 ∧ NotBegun r.1.toList
      (beforeDir ++ dir ++ beforeUser ++ ('\x7b' :: userPart)) := by
    intro r hr
    have hmem : r.1 ∈ innerKeys := hinner ▸ List.mem_map_of_mem hr
    obtain ⟨hbraced, huserPart⟩ := notBegun_userPart r.1
      (List.mem_cons_of_mem _ (List.mem_cons_of_mem _ hmem))
    exact ⟨hbraced, (hbraced.notBegun hfront).append huserPart⟩
  rw [replace_dir, replaceList_around hinnerKeys, replace_user hfront]

/-- The three rounds of replacements. -/
theorem toList_startCommand (env : CmdEnv) (server : Server) :
    (CmdProcess.startCommand env server).toList = replaceList (varShortcodes server.vars)
      (replaceList (serverShortcodes env.ds env.serverId server)
        (replace "{command}".toList server.startCommand.toList env.ds.scriptStart.toList)) := by
  unfold CmdProcess.startCommand replaceShortcodes
  rw [toList_replaceAll, toList_replaceAll, toList_strReplace]

theorem toList_startText (ds : DedicatedServer) (serverId : Nat) (server : Server) :
    (startText ds serverId server).toList = replaceList (varShortcodes server.vars)
      (replaceList (serverShortcodes ds serverId server) server.startCommand.toList) := by
  unfold startText replaceShortcodes
  rw [toList_replaceAll, toList_replaceAll]

/-- What the shell gets. -/
theorem startCommand_default {env : CmdEnv} (hscript : env.ds.scriptStart = defaultScriptStart)
    (hdir : '\x7b' ∉ (workDir env.ds server).toList) (huser : '\x7b' ∉ server.user.toList) :
    (CmdProcess.startCommand env server).toList = (scriptWords env.ds server).toList ++
      ' ' :: '"' :: ((startText env.ds env.serverId server).toList ++ ['"']) := by
  have hwords : (scriptWords env.ds server).toList ++ [' ', '"'] = beforeDir ++
      (workDir env.ds server).toList ++ beforeUser ++ server.user.toList ++ behindUser := by
    have hbehind : behindUser = " -c".toList ++ [' ', '"'] := by decide +kernel
    unfold scriptWords beforeDir beforeUser
    rw [hbehind, String.toList_append, String.toList_append, String.toList_append,
      String.toList_append]
    exact List.append_assoc _ _ _
  have hvars : ∀ r ∈ varShortcodes server.vars, Braced r.1 ∧ NotBegun r.1.toList
      ((scriptWords env.ds server).toList ++ [' ', '"']) := by
    intro r hr
    obtain ⟨var, -, rfl⟩ := List.mem_map.mp hr
    refine ⟨braced_placeholder var.1, (braced_placeholder var.1).notBegun ?_⟩
    rw [hwords]
    simp only [List.mem_append, not_or]
    exact ⟨⟨⟨⟨by decide +kernel, hdir⟩, by decide +kernel⟩, huser⟩, by decide +kernel⟩
  rw [toList_startCommand, hscript, toList_startText, replace_command, replaceList_script hdir,
    ← hwords, replaceList_around hvars, List.append_assoc, List.cons_append, List.cons_append,
    List.nil_append]

/-! ## The words that the shell reads -/

/-- The shell reads the words of the script, without a value of a variable in them, and behind them
one quoted word. -/
def StartQuoted (env : CmdEnv) (server : Server) : Prop :=
  ∃ words arg, readCommand (scriptWords env.ds server).toList = some words ∧
    readCommand (CmdProcess.startCommand env server).toList = some (words ++ [[.quoted arg]])

/-- **The start command is one word** exactly if it is escaped when the values have been put in. -/
theorem start_quoted_iff {env : CmdEnv} {server : Server}
    (hscript : env.ds.scriptStart = defaultScriptStart)
    (hdir : '\x7b' ∉ (workDir env.ds server).toList) (huser : '\x7b' ∉ server.user.toList) :
    StartQuoted env server ↔ (readCommand (scriptWords env.ds server).toList).isSome = true ∧
      Escaped (startText env.ds env.serverId server).toList = true := by
  unfold StartQuoted
  rw [startCommand_default hscript hdir huser]
  constructor
  · rintro ⟨words, arg, hwords, hcommand⟩
    rw [hwords]
    exact ⟨rfl, (readCommand_quoted_iff hwords _).mp ⟨arg, hcommand⟩⟩
  · rintro ⟨hreadable, hescaped⟩
    obtain ⟨words, hwords⟩ := Option.isSome_iff_exists.mp hreadable
    obtain ⟨arg, hcommand⟩ := (readCommand_quoted_iff hwords _).mpr hescaped
    exact ⟨words, arg, hwords, hcommand⟩

/-- A host with the default script. -/
def defaultEnv : CmdEnv :=
  { CmdProcess.envWith (.ok 0) with
    ds := { DedicatedServer.idleHost with scriptStart := defaultScriptStart } }

/-- A server that is started on a map. -/
def mapServer (dir map : String) : Server :=
  { GameServersList.plainServer 1 with
    dir, user := "gameap", startCommand := "./run +map {map}",
    vars := Table.emplace ∅ "map" map }

theorem dust_quoted : StartQuoted defaultEnv (mapServer "cs" "de_dust2") :=
  (start_quoted_iff rfl (by decide +kernel) (by decide +kernel)).mpr
    ⟨by decide +kernel, by rw [toList_startText]; decide +kernel⟩

/-- With an ordinary map the shell reads one quoted word. A value with a quote ends it, and in the
directory a value is not quoted at all. -/
theorem start_not_quoted :
    (¬ ∀ (env : CmdEnv) (server : Server) (ordinary vars : Table String String),
      env.ds.scriptStart = defaultScriptStart →
      StartQuoted env { server with vars := ordinary } → StartQuoted env { server with vars }) ∧
      ¬ StartQuoted defaultEnv (mapServer "{map}" "a b") := by
  constructor
  · intro h
    have hdust : StartQuoted defaultEnv (mapServer "cs" "de_dust2") :=
      ⟨["gameap-starter", "-t", "start", "-d", "/srv/cs", "-u", "gameap", "-c"].map
          fun word => word.toList.map .bare,
        "./run +map de_dust2".toList, by decide +kernel, by
          rw [toList_startCommand]
          decide +kernel⟩
    obtain ⟨words, arg, -, hcommand⟩ := h defaultEnv (mapServer "cs" "de_dust2") _
      (Table.emplace ∅ "map" "x\"; id; \"") rfl hdust
    have hnone : readCommand (CmdProcess.startCommand defaultEnv
        (mapServer "cs" "x\"; id; \"")).toList = none := by
      rw [toList_startCommand]
      decide +kernel
    cases hnone.symm.trans hcommand
  · rintro ⟨words, arg, hwords, hcommand⟩
    have hscript : (readCommand (scriptWords defaultEnv.ds
        (mapServer "{map}" "a b")).toList).map List.length = some 8 := by decide +kernel
    have hten : (readCommand (CmdProcess.startCommand defaultEnv
        (mapServer "{map}" "a b")).toList).map List.length = some 10 := by
      rw [toList_startCommand]
      decide +kernel
    rw [hwords] at hscript
    rw [hcommand, Option.map_some, List.length_append, Option.some.inj hscript] at hten
    cases hten

end GameServerCmd

end GameAP
