import GameAP.Commands.GameServerInstaller
import GameAP.Lib.LexicalPath

/-!
# The installation of a game server

`install_server` detects the sources, installs the game and then the mod, and runs the script that
the files may have brought with them. What each phase does to the outside is kept in `trace`.
`installServer_spec`: each phase does what it has to do up to the first that fails, the commands have
the exit codes that the outside gives them (`Answered`), and the result is a success exactly if each
phase has succeeded, as its own effects tell.
-/

namespace GameAP

open Lib

namespace GameServerInstaller

/-! ## The functions -/

/-- The fields of the installer that the detection does not use. -/
structure Target where
  serverAbsolutePath : String
  steamAppSetConfig : String
  user : String
  deriving DecidableEq, Repr

/-- What the installation meets: answers of the file system and of `copy_dir`, the exit codes and
the outputs of the commands in the order in which they are executed, and two functions of paths. -/
structure Site where
  host : Host
  serverExists : Bool
  steamcmdExists : Bool
  scriptExists : Bool
  uid : Nat
  currentPath : String
  copyDir : Nat → Bool
  exitCode : Nat → Int
  lines : Nat → List String
  filename : String → String
  extension : String → String

inductive Effect where
  | createDirectories (path : String)
  | currentPath (path : String)
  | exec (command : String) (code : Int)
  | copyDir (source destination : String) (ok : Bool)
  | remove (path : String)
  | permissions (path : String)
  | privilegesRetrieve
  | privilegesDown (user : String)
  deriving DecidableEq, Repr

inductive Phase where
  | prepare
  | game
  | mod
  | script
  deriving DecidableEq, Repr

/-- The installer while it installs; `phase` and `trace` are not part of it. -/
structure Progress where
  error : List String
  output : List String
  phase : Phase
  trace : List (Phase × Effect)
  deriving DecidableEq, Repr

abbrev InstallM := StateM Progress

namespace Progress

def init (error : List String) : Progress := { error, output := [], phase := .prepare, trace := [] }

/-- How many commands have been executed. -/
def commands (s : Progress) : Nat := s.trace.countP fun e => e.2 matches .exec _ _

def copies (s : Progress) : Nat := s.trace.countP fun e => e.2 matches .copyDir _ _ _

/-- What has been done in a phase. -/
def effects (p : Phase) (s : Progress) : List Effect :=
  (s.trace.filter fun e => e.1 = p).map Prod.snd

end Progress

def perform (e : Effect) : InstallM Unit :=
  modify fun s => { s with trace := s.trace ++ [(s.phase, e)] }

def enter (phase : Phase) : InstallM Unit := modify fun s => { s with phase }

def addError (msg : String) : InstallM Unit := modify fun s => { s with error := s.error ++ [msg] }

def append (lines : List String) : InstallM Unit :=
  modify fun s => { s with output := s.output ++ lines }

variable (site : Site) (target : Target)

def exec (command : String) : InstallM Int := do
  let n := (← get).commands
  append [site.currentPath ++ "# " ++ command]
  perform (.exec command (site.exitCode n))
  append (site.lines n)
  append ["\nExited with " ++ toString (site.exitCode n) ++ "\n"]
  return site.exitCode n

def copyDir (source destination : String) : InstallM Bool := do
  let ok := site.copyDir (← get).copies
  perform (.copyDir source destination ok)
  return ok

/-- A path as a stream shows it, between quotation marks. -/
def quoted (path : String) : String :=
  let mark := '\x22'
  let escaped := path.toList.flatMap fun c => if c = mark ∨ c = '&' then ['&', c] else [c]
  String.ofList (mark :: escaped ++ [mark])

def unpackCommand (archive : String) : String :=
  let dir := target.serverAbsolutePath
  let ext := site.extension archive
  if ext = ".xz" then "tar -xpvJf " ++ archive ++ " -C " ++ dir
  else if ext = ".gz" then "tar -xvf " ++ archive ++ " -C " ++ dir
  else if ext = ".bz2" then "tar -xvf " ++ archive ++ " -C " ++ dir
  else if ext = ".tar" then "tar -xvf " ++ archive ++ " -C " ++ dir
  else if ext = ".zip" then "unzip -o " ++ archive ++ " -d " ++ dir
  else "7z x " ++ archive ++ " -aoa -o" ++ dir

def unpackArchive (archive : String) : InstallM Int := do
  if site.extension archive = ".rar" then
    addError "RAR archive not supported. Use 7z, zip, tar, xz, gz or bz2 archives"
    return -1
  else if (← exec site (unpackCommand site target archive)) ≠ 0 then return -1
  else return 0

/-- For a directory the result is what `copy_dir` does not return. -/
def installLocrep (path : String) (type : RepType) : InstallM Int :=
  match type with
  | .file => unpackArchive site target path
  | .dir => do return if ← copyDir site path target.serverAbsolutePath then 0 else 1
  | .invalid => do
    addError "Invalid local repository installation type"
    return -1

def downloadCommand (uri : String) : String :=
  "wget -N -c " ++ uri ++ " -P " ++ target.serverAbsolutePath ++ " "

def downloaded (uri : String) : String := target.serverAbsolutePath ++ "/" ++ site.filename uri

def installRemrep (uri : String) : InstallM Int := do
  if (← exec site (downloadCommand target uri)) ≠ 0 then return -1
  else
    let unpackResult ← unpackArchive site target (downloaded site target uri)
    perform (.remove (downloaded site target uri))
    return if unpackResult = 0 then 0 else -1

def steamcmdFullpath : String := site.host.steamcmdPath ++ "/" ++ "steamcmd.sh"

def steamCmdInstall (x : GameServerInstaller) : String :=
  let additionalParameters :=
    if target.steamAppSetConfig ≠ "" then
      "+app_set_config \"" ++ target.steamAppSetConfig ++ "\""
    else ""
  steamcmdFullpath site ++ " +login anonymous +force_install_dir " ++
    quoted target.serverAbsolutePath ++ " +app_update \"" ++ toString x.steamAppId ++ "\" " ++
    additionalParameters ++ " validate +quit"

/-- The loop with so many tries left. -/
def steamTries (command : String) : Nat → InstallM Bool
  | 0 => return false
  | n + 1 => do
    let result ← exec site command
    if result = 0 then return true
    else if result ≠ 1 ∧ result ≠ 7 ∧ result ≠ 8 then return false
    else steamTries command n

def installGameSteam (x : GameServerInstaller) : InstallM Int := do
  if !site.steamcmdExists then
    addError ("SteamCMD not found: " ++ steamcmdFullpath site)
    return -1
  else if ← steamTries site (steamCmdInstall site target x) 4 then return 0
  else
    addError "Game installation via SteamCMD failed"
    return -1

/-- The choice that `_install_game` makes. -/
def installGameSource (x : GameServerInstaller) : InstallM Int :=
  match x.gameSourceType with
  | .fromSteam => installGameSteam site target x
  | .fromLocrep => installLocrep site target x.getGameSource x.gameType
  | .fromRemrep => installRemrep site target x.getGameSource
  | .noSource => do
    addError "Invalid game installation source type"
    return -1

def installGame (x : GameServerInstaller) : InstallM Int := do
  let installResult ← installGameSource site target x
  return if installResult ≠ 0 then -1 else 0

def installMod (x : GameServerInstaller) : InstallM Int :=
  match x.modSourceType with
  | .fromLocrep => installLocrep site target x.getModSource x.modType
  | .fromRemrep => installRemrep site target x.getModSource
  | _ => return 0

def afterInstallScript : String :=
  LexicalPath.join target.serverAbsolutePath "gdaemon_after_install.sh"

def giveToUser : InstallM Unit :=
  if target.user ≠ "" ∧ site.uid = 0 then do
    let _ ← exec site ("chown -R " ++ target.user ++ " " ++ target.serverAbsolutePath)
    perform (.permissions target.serverAbsolutePath)
  else return ()

def runAfterInstall : InstallM Int :=
  if site.scriptExists then do
    perform .privilegesRetrieve
    let result ← exec site (afterInstallScript target)
    giveToUser site target
    perform (.privilegesDown target.user)
    if result ≠ 0 then return -1
    else
      perform (.remove (afterInstallScript target))
      return 0
  else return 0

def prepare : InstallM Unit := do
  if !site.serverExists then perform (.createDirectories target.serverAbsolutePath)
  perform (.currentPath target.serverAbsolutePath)

/-- `install_server` after the game. -/
def installFromMod (x : GameServerInstaller) : InstallM Int := do
  enter .mod
  if (← installMod site target x) ≠ 0 then return -1
  else
    enter .script
    runAfterInstall site target

/-- `install_server` after the detection. -/
def install (x : GameServerInstaller) : InstallM Int := do
  prepare site target
  enter .game
  if (← installGame site target x) ≠ 0 then return -1 else installFromMod site target x

def afterDetection (r : StatusInt × GameServerInstaller) : Int × Progress :=
  match r.1 with
  | .error => (-1, .init r.2.error)
  | .success => install site target r.2 (.init r.2.error)

/-- `install_server`, with at most `n` rounds of each loop of the detection. -/
def installServer (n : Nat) (x : GameServerInstaller) : Option (Int × Progress) :=
  (detectSources site.host n x).map (afterDetection site target)

/-! ## What a phase does when it succeeds -/

def ArchiveUnpacked (archive : String) (es : List Effect) : Prop :=
  site.extension archive ≠ ".rar" ∧ es = [.exec (unpackCommand site target archive) 0]

def LocrepInstalled (path : String) (type : RepType) (es : List Effect) : Prop :=
  match type with
  | .file => ArchiveUnpacked site target path es
  | .dir => es = [.copyDir path target.serverAbsolutePath true]
  | .invalid => False

def RemrepInstalled (uri : String) (es : List Effect) : Prop :=
  ∃ unpacked, ArchiveUnpacked site target (downloaded site target uri) unpacked ∧
    es = .exec (downloadCommand target uri) 0 :: unpacked ++
      [.remove (downloaded site target uri)]

/-- The last run of SteamCMD exits with 0. -/
def SteamInstalled (x : GameServerInstaller) (es : List Effect) : Prop :=
  es.getLast? = some (.exec (steamCmdInstall site target x) 0)

def GameSucceeded (x : GameServerInstaller) (es : List Effect) : Prop :=
  match x.gameSourceType with
  | .fromSteam => SteamInstalled site target x es
  | .fromLocrep => LocrepInstalled site target x.getGameSource x.gameType es
  | .fromRemrep => RemrepInstalled site target x.getGameSource es
  | .noSource => False

def ModSucceeded (x : GameServerInstaller) (es : List Effect) : Prop :=
  match x.modSourceType with
  | .fromLocrep => LocrepInstalled site target x.getModSource x.modType es
  | .fromRemrep => RemrepInstalled site target x.getModSource es
  | _ => es = []

def ScriptSucceeded (es : List Effect) : Prop :=
  ∃ rest, es = .privilegesRetrieve :: .exec (afterInstallScript target) 0 :: rest

/-! ## What a phase does -/

def ArchivePerformed (archive : String) (es : List Effect) : Prop :=
  if site.extension archive = ".rar" then es = []
  else ∃ code, es = [.exec (unpackCommand site target archive) code]

def LocrepPerformed (path : String) (type : RepType) (es : List Effect) : Prop :=
  match type with
  | .file => ArchivePerformed site target path es
  | .dir => ∃ ok, es = [.copyDir path target.serverAbsolutePath ok]
  | .invalid => es = []

/-- The archive is unpacked, and removed in any case, if it has been downloaded. -/
def RemrepPerformed (uri : String) (es : List Effect) : Prop :=
  (∃ code, code ≠ 0 ∧ es = [.exec (downloadCommand target uri) code]) ∨
    ∃ unpacked, ArchivePerformed site target (downloaded site target uri) unpacked ∧
      es = .exec (downloadCommand target uri) 0 :: unpacked ++
        [.remove (downloaded site target uri)]

/-- The exit codes after which it is worth to try again. -/
def Retried (code : Int) : Prop := code = 1 ∨ code = 7 ∨ code = 8

/-- At most `n` runs, each but the first after an exit code that it is worth to try again after, and
not fewer if the last is such a code too. -/
def SteamRuns (command : String) (n : Nat) (es : List Effect) : Prop :=
  ∃ codes : List Int, es = codes.map (Effect.exec command) ∧ codes.length ≤ n ∧
    (∀ c ∈ codes.dropLast, Retried c) ∧
    (codes.length = n ∨ ∃ c, codes.getLast? = some c ∧ ¬ Retried c)

def SteamPerformed (x : GameServerInstaller) (es : List Effect) : Prop :=
  if site.steamcmdExists then SteamRuns (steamCmdInstall site target x) 4 es else es = []

def GamePerformed (x : GameServerInstaller) (es : List Effect) : Prop :=
  match x.gameSourceType with
  | .fromSteam => SteamPerformed site target x es
  | .fromLocrep => LocrepPerformed site target x.getGameSource x.gameType es
  | .fromRemrep => RemrepPerformed site target x.getGameSource es
  | .noSource => es = []

def ModPerformed (x : GameServerInstaller) (es : List Effect) : Prop :=
  match x.modSourceType with
  | .fromLocrep => LocrepPerformed site target x.getModSource x.modType es
  | .fromRemrep => RemrepPerformed site target x.getModSource es
  | _ => es = []

def GivenToUser (es : List Effect) : Prop :=
  if target.user ≠ "" ∧ site.uid = 0 then
    ∃ code, es =
      [.exec ("chown -R " ++ target.user ++ " " ++ target.serverAbsolutePath) code,
        .permissions target.serverAbsolutePath]
  else es = []

/-- The script is removed if it has exited with 0. -/
def ScriptPerformed (es : List Effect) : Prop :=
  if site.scriptExists then
    ∃ code given, GivenToUser site target given ∧
      es = .privilegesRetrieve :: .exec (afterInstallScript target) code :: given ++
        .privilegesDown target.user ::
          if code = 0 then [.remove (afterInstallScript target)] else []
  else es = []

/-- What comes before the phases. -/
def prepareEffects : List Effect :=
  (if site.serverExists then [] else [.createDirectories target.serverAbsolutePath]) ++
    [.currentPath target.serverAbsolutePath]

/-! ## What the outside answers -/

/-- The answer is that to so many commands or copies. -/
def Answer (before : List (Phase × Effect)) : Effect → Prop
  | .exec _ code => code = site.exitCode (before.countP fun e => e.2 matches .exec _ _)
  | .copyDir _ _ ok => ok = site.copyDir (before.countP fun e => e.2 matches .copyDir _ _ _)
  | _ => True

/-- Every exit code and every result of `copy_dir` is the answer of the outside. -/
inductive Answered : List (Phase × Effect) → Prop where
  | nil : Answered []
  | snoc {trace : List (Phase × Effect)} {p : Phase} {e : Effect} :
      Answered trace → Answer site trace e → Answered (trace ++ [(p, e)])

/-- All that `m` adds is so answered. -/
def AsAnswered {α : Type} (m : InstallM α) : Prop :=
  ∀ s, Answered site s.trace → Answered site (m s).2.trace

section AsAnswered

variable {site target} {α β : Type} {m : InstallM α} {x : GameServerInstaller}

theorem AsAnswered.pure (a : α) : AsAnswered site (Pure.pure a) := fun _ hs => hs

theorem AsAnswered.bind {k : α → InstallM β} (hm : AsAnswered site m)
    (hk : ∀ a, AsAnswered site (k a)) : AsAnswered site (m >>= k) :=
  fun s hs => hk _ _ (hm s hs)

theorem AsAnswered.ite {c : Prop} [Decidable c] {n : InstallM α} (hm : AsAnswered site m)
    (hn : AsAnswered site n) : AsAnswered site (if c then m else n) := by
  split
  · exact hm
  · exact hn

theorem asAnswered_enter (phase : Phase) : AsAnswered site (enter phase) := fun _ hs => hs

theorem asAnswered_addError (msg : String) : AsAnswered site (addError msg) := fun _ hs => hs

/-- What is neither a command nor a copy. -/
theorem asAnswered_perform {e : Effect} (he : ∀ before, Answer site before e) :
    AsAnswered site (perform e) := fun _ hs => hs.snoc (he _)

theorem asAnswered_exec (command : String) : AsAnswered site (exec site command) :=
  fun _ hs => hs.snoc rfl

theorem asAnswered_copyDir (source destination : String) :
    AsAnswered site (copyDir site source destination) := fun _ hs => hs.snoc rfl

theorem asAnswered_unpackArchive (archive : String) :
    AsAnswered site (unpackArchive site target archive) :=
  .ite (.bind (asAnswered_addError _) fun _ => .pure _)
    (.bind (asAnswered_exec _) fun _ => .ite (.pure _) (.pure _))

theorem asAnswered_installLocrep (path : String) (type : RepType) :
    AsAnswered site (installLocrep site target path type) := by
  cases type with
  | file => exact asAnswered_unpackArchive path
  | dir => exact .bind (asAnswered_copyDir _ _) fun _ => .pure _
  | invalid => exact .bind (asAnswered_addError _) fun _ => .pure _

theorem asAnswered_installRemrep (uri : String) :
    AsAnswered site (installRemrep site target uri) := by
  refine .bind (asAnswered_exec _) fun _ => .ite (.pure _) ?_
  refine .bind (asAnswered_unpackArchive _) fun _ => ?_
  exact .bind (asAnswered_perform fun _ => trivial) fun _ => .pure _

theorem asAnswered_steamTries (command : String) (n : Nat) :
    AsAnswered site (steamTries site command n) := by
  induction n with
  | zero => exact .pure _
  | succ n ih => exact .bind (asAnswered_exec _) fun _ => .ite (.pure _) (.ite (.pure _) ih)

theorem asAnswered_installGame : AsAnswered site (installGame site target x) := by
  refine .bind ?_ fun _ => .pure _
  unfold installGameSource
  cases x.gameSourceType with
  | fromSteam =>
    refine .ite (.bind (asAnswered_addError _) fun _ => .pure _) ?_
    refine .bind (asAnswered_steamTries _ 4) fun _ => .ite (.pure _) ?_
    exact .bind (asAnswered_addError _) fun _ => .pure _
  | fromLocrep => exact asAnswered_installLocrep _ _
  | fromRemrep => exact asAnswered_installRemrep _
  | noSource => exact .bind (asAnswered_addError _) fun _ => .pure _

theorem asAnswered_installMod : AsAnswered site (installMod site target x) := by
  unfold installMod
  cases x.modSourceType with
  | fromLocrep => exact asAnswered_installLocrep _ _
  | fromRemrep => exact asAnswered_installRemrep _
  | noSource | fromSteam => exact .pure _

theorem asAnswered_runAfterInstall : AsAnswered site (runAfterInstall site target) := by
  refine .ite ?_ (.pure _)
  refine .bind (asAnswered_perform fun _ => trivial) fun _ => ?_
  refine .bind (asAnswered_exec _) fun _ => .bind ?_ fun _ => ?_
  · refine .ite (.bind (asAnswered_exec _) fun _ => ?_) (.pure _)
    exact asAnswered_perform fun _ => trivial
  · refine .bind (asAnswered_perform fun _ => trivial) fun _ => .ite (.pure _) ?_
    exact .bind (asAnswered_perform fun _ => trivial) fun _ => .pure _

theorem asAnswered_prepare : AsAnswered site (prepare site target) := by
  unfold prepare
  split
  · refine .bind (asAnswered_perform fun _ => trivial) fun _ => ?_
    exact asAnswered_perform fun _ => trivial
  · exact asAnswered_perform fun _ => trivial

theorem asAnswered_install : AsAnswered site (install site target x) := by
  refine .bind asAnswered_prepare fun _ => .bind (asAnswered_enter _) fun _ => ?_
  refine .bind asAnswered_installGame fun _ => .ite (.pure _) ?_
  refine .bind (asAnswered_enter _) fun _ => .bind asAnswered_installMod fun _ => ?_
  exact .ite (.pure _) (.bind (asAnswered_enter _) fun _ => asAnswered_runAfterInstall)

end AsAnswered

/-! ## What a computation does in its phase -/

def Performs {α : Type} (m : InstallM α) (P : α → List Effect → Prop) : Prop :=
  ∀ s, ∃ es, (m s).2.phase = s.phase ∧ (m s).2.trace = s.trace ++ es.map (Prod.mk s.phase) ∧
    P (m s).1 es

section Performs

variable {α β : Type} {m : InstallM α} {P Q : α → List Effect → Prop} {R : β → List Effect → Prop}

theorem Performs.pure {a : α} (h : P a []) : Performs (Pure.pure a) P :=
  fun _ => ⟨[], rfl, (List.append_nil _).symm, h⟩

theorem Performs.bind {k : α → InstallM β} (hm : Performs m P)
    (hk : ∀ a es, P a es → Performs (k a) fun b fs => R b (es ++ fs)) :
    Performs (m >>= k) R := by
  intro s
  obtain ⟨es, hphase, htrace, hP⟩ := hm s
  obtain ⟨fs, hphase', htrace', hR⟩ := hk _ _ hP (m s).2
  refine ⟨es ++ fs, hphase'.trans hphase, ?_, hR⟩
  show ((k (m s).1) (m s).2).2.trace = _
  rw [htrace', htrace, hphase, List.map_append, List.append_assoc]

theorem Performs.mono (hm : Performs m P) (h : ∀ a es, P a es → Q a es) : Performs m Q := by
  intro s
  obtain ⟨es, hphase, htrace, hP⟩ := hm s
  exact ⟨es, hphase, htrace, h _ _ hP⟩

theorem performs_perform (e : Effect) : Performs (perform e) fun _ es => es = [e] :=
  fun _ => ⟨[e], rfl, rfl, rfl⟩

theorem performs_addError (msg : String) : Performs (addError msg) fun _ es => es = [] :=
  fun _ => ⟨[], rfl, (List.append_nil _).symm, rfl⟩

theorem performs_append (lines : List String) : Performs (append lines) fun _ es => es = [] :=
  fun _ => ⟨[], rfl, (List.append_nil _).symm, rfl⟩

theorem performs_get : Performs get fun _ es => es = [] :=
  fun _ => ⟨[], rfl, (List.append_nil _).symm, rfl⟩

end Performs

variable {site target} {x : GameServerInstaller}

theorem exec_performs (command : String) :
    Performs (exec site command) fun code es => es = [.exec command code] := by
  refine performs_get.bind ?_
  rintro _ _ rfl
  refine (performs_append _).bind ?_
  rintro _ _ rfl
  refine (performs_perform _).bind ?_
  rintro _ _ rfl
  refine (performs_append _).bind ?_
  rintro _ _ rfl
  refine (performs_append _).bind ?_
  rintro _ _ rfl
  exact .pure rfl

theorem copyDir_performs (source destination : String) :
    Performs (copyDir site source destination) fun ok es =>
      es = [.copyDir source destination ok] := by
  refine performs_get.bind ?_
  rintro _ _ rfl
  refine (performs_perform _).bind ?_
  rintro _ _ rfl
  exact .pure rfl

theorem unpackArchive_performs (archive : String) :
    Performs (unpackArchive site target archive) fun result es =>
      (result = 0 ↔ ArchiveUnpacked site target archive es) ∧
        ArchivePerformed site target archive es := by
  unfold unpackArchive ArchiveUnpacked ArchivePerformed
  by_cases hrar : site.extension archive = ".rar"
  · simp only [if_pos hrar]
    refine (performs_addError _).bind ?_
    rintro _ _ rfl
    exact .pure ⟨by simp [hrar], rfl⟩
  · simp only [if_neg hrar]
    refine (exec_performs _).bind ?_
    rintro code _ rfl
    split
    · next hcode => exact .pure ⟨by simp [hrar, hcode], code, rfl⟩
    · next hcode => exact .pure ⟨by simpa [hrar] using hcode, code, rfl⟩

theorem installLocrep_performs (path : String) (type : RepType) :
    Performs (installLocrep site target path type) fun result es =>
      (result = 0 ↔ LocrepInstalled site target path type es) ∧
        LocrepPerformed site target path type es := by
  cases type with
  | file => exact unpackArchive_performs path
  | dir =>
    refine (copyDir_performs _ _).bind ?_
    rintro ok _ rfl
    exact .pure ⟨by cases ok <;> simp [LocrepInstalled], ok, rfl⟩
  | invalid =>
    refine (performs_addError _).bind ?_
    rintro _ _ rfl
    exact .pure ⟨by simp [LocrepInstalled], rfl⟩

theorem installRemrep_performs (uri : String) :
    Performs (installRemrep site target uri) fun result es =>
      (result = 0 ↔ RemrepInstalled site target uri es) ∧
        RemrepPerformed site target uri es := by
  refine (exec_performs _).bind ?_
  rintro code _ rfl
  split
  · next hcode => exact .pure ⟨by simp [RemrepInstalled, hcode], .inl ⟨code, hcode, rfl⟩⟩
  · next hcode =>
    obtain rfl := not_not.mp hcode
    refine (unpackArchive_performs _).bind fun result es ⟨hresult, hes⟩ => ?_
    refine (performs_perform _).bind ?_
    rintro _ _ rfl
    refine .pure ⟨?_, .inr ⟨es, hes, ?_⟩⟩
    · have hremrep : RemrepInstalled site target uri ([.exec (downloadCommand target uri) 0] ++
          (es ++ ([.remove (downloaded site target uri)] ++ []))) ↔
          ArchiveUnpacked site target (downloaded site target uri) es := by
        simp [RemrepInstalled]
      rw [hremrep, ← hresult]
      split <;> simp_all
    · rw [List.append_nil, List.singleton_append, List.cons_append]

/-- The last run is one after which it is not tried again. -/
theorem steamRuns_one {command : String} {n : Nat} {code : Int} (hcode : ¬ Retried code) :
    SteamRuns command (n + 1) [.exec command code] :=
  ⟨[code], rfl, Nat.succ_le_succ (Nat.zero_le n), fun _ hc => absurd hc List.not_mem_nil,
    .inr ⟨code, rfl, hcode⟩⟩

theorem SteamRuns.cons {command : String} {n : Nat} {code : Int} {es : List Effect}
    (hcode : Retried code) (h : SteamRuns command n es) :
    SteamRuns command (n + 1) (.exec command code :: es) := by
  obtain ⟨codes, rfl, hlen, hcodes, hlast⟩ := h
  refine ⟨code :: codes, rfl, Nat.succ_le_succ hlen, fun c hc => ?_, ?_⟩
  · cases codes with
    | nil => cases hc
    | cons d codes =>
      rcases List.mem_cons.mp hc with rfl | hc
      · exact hcode
      · exact hcodes c hc
  · rcases hlast with hlen | ⟨c, hc, hnot⟩
    · exact .inl (congrArg (· + 1) hlen)
    · exact .inr ⟨c, by rw [List.getLast?_cons, hc]; rfl, hnot⟩

theorem steamTries_performs (command : String) (n : Nat) :
    Performs (steamTries site command n) fun ok es =>
      SteamRuns command n es ∧ (ok = true ↔ es.getLast? = some (.exec command 0)) := by
  induction n with
  | zero =>
    exact .pure ⟨⟨[], rfl, Nat.le_refl 0, fun _ hc => absurd hc List.not_mem_nil, .inl rfl⟩, by simp⟩
  | succ n ih =>
    refine (exec_performs _).bind ?_
    rintro code _ rfl
    split
    · next hcode =>
      subst hcode
      exact .pure ⟨steamRuns_one (by unfold Retried; decide), by simp⟩
    · next hcode =>
      split
      · next hnot =>
        refine .pure ⟨steamRuns_one fun hretry => ?_, by simp [hcode]⟩
        rcases hretry with rfl | rfl | rfl <;> simp at hnot
      · next hretry =>
        refine ih.mono ?_
        rintro ok es ⟨hruns, hok⟩
        refine ⟨hruns.cons (by unfold Retried; omega), ?_⟩
        rw [hok, List.singleton_append, List.getLast?_cons]
        cases es.getLast? with
        | none => simp [hcode]
        | some e => simp

theorem installGameSteam_performs : Performs (installGameSteam site target x) fun result es =>
    (result = 0 ↔ SteamInstalled site target x es) ∧ SteamPerformed site target x es := by
  unfold installGameSteam SteamPerformed
  cases site.steamcmdExists with
  | false =>
    refine (performs_addError _).bind ?_
    rintro _ _ rfl
    exact .pure ⟨by simp [SteamInstalled], rfl⟩
  | true =>
    refine (steamTries_performs _ 4).bind fun ok es hes => ?_
    cases ok with
    | true => exact .pure (by simpa [SteamInstalled] using hes.symm)
    | false =>
      refine (performs_addError _).bind ?_
      rintro _ _ rfl
      exact .pure (by simpa [SteamInstalled] using hes.symm)

theorem installGameSource_performs : Performs (installGameSource site target x) fun result es =>
    (result = 0 ↔ GameSucceeded site target x es) ∧ GamePerformed site target x es := by
  unfold installGameSource GameSucceeded GamePerformed
  cases x.gameSourceType with
  | fromSteam => exact installGameSteam_performs
  | fromLocrep => exact installLocrep_performs _ _
  | fromRemrep => exact installRemrep_performs _
  | noSource =>
    refine (performs_addError _).bind ?_
    rintro _ _ rfl
    exact .pure ⟨by simp, rfl⟩

theorem installGame_performs : Performs (installGame site target x) fun result es =>
    (result = 0 ↔ GameSucceeded site target x es) ∧ GamePerformed site target x es := by
  refine installGameSource_performs.bind fun result es h => .pure ?_
  have hresult : (if result ≠ 0 then (-1 : Int) else 0) = 0 ↔ result = 0 := by
    split <;> simp_all
  rw [List.append_nil, hresult]
  exact h

theorem installMod_performs : Performs (installMod site target x) fun result es =>
    (result = 0 ↔ ModSucceeded site target x es) ∧ ModPerformed site target x es := by
  unfold installMod ModSucceeded ModPerformed
  cases x.modSourceType with
  | fromLocrep => exact installLocrep_performs _ _
  | fromRemrep => exact installRemrep_performs _
  | noSource | fromSteam => exact .pure (by simp)

theorem giveToUser_performs :
    Performs (giveToUser site target) fun _ es => GivenToUser site target es := by
  unfold giveToUser GivenToUser
  split
  · refine (exec_performs _).bind ?_
    rintro code _ rfl
    exact (performs_perform _).mono fun _ _ hes => ⟨code, by rw [hes]; rfl⟩
  · exact .pure rfl

theorem runAfterInstall_performs : Performs (runAfterInstall site target) fun result es =>
    (result = 0 ↔ site.scriptExists = false ∨ ScriptSucceeded target es) ∧
      ScriptPerformed site target es := by
  unfold runAfterInstall ScriptPerformed
  cases hscript : site.scriptExists with
  | false => exact .pure (by simp)
  | true =>
    refine (performs_perform _).bind ?_
    rintro _ _ rfl
    refine (exec_performs _).bind ?_
    rintro code _ rfl
    refine giveToUser_performs.bind fun _ given hgiven => ?_
    refine (performs_perform _).bind ?_
    rintro _ _ rfl
    split
    · next hcode =>
      refine .pure ⟨by simp [ScriptSucceeded, hcode], code, given, hgiven, ?_⟩
      rw [if_neg hcode]
      simp
    · next hcode =>
      obtain rfl := not_not.mp hcode
      refine (performs_perform _).bind ?_
      rintro _ _ rfl
      exact .pure ⟨by simp [ScriptSucceeded], 0, given, hgiven, by simp⟩

theorem prepare_performs :
    Performs (prepare site target) fun _ es => es = prepareEffects site target := by
  unfold prepare prepareEffects
  cases site.serverExists with
  | true => exact performs_perform _
  | false =>
    refine (performs_perform _).bind ?_
    rintro _ _ rfl
    exact (performs_perform _).mono fun _ _ hes => by rw [hes]; rfl

/-! ## The phases -/

/-- The phases of an installation, one after the other. -/
structure Phases (site : Site) (target : Target) (x : GameServerInstaller) (status : Int)
    (game mod script : List Effect) : Prop where
  success : status = 0 ↔ GameSucceeded site target x game ∧ ModSucceeded site target x mod ∧
    (site.scriptExists = false ∨ ScriptSucceeded target script)
  gamePerformed : GamePerformed site target x game
  gameFailed : ¬ GameSucceeded site target x game → mod = [] ∧ script = []
  modPerformed : GameSucceeded site target x game → ModPerformed site target x mod
  modFailed : ¬ ModSucceeded site target x mod → script = []
  scriptPerformed : GameSucceeded site target x game → ModSucceeded site target x mod →
    ScriptPerformed site target script
  noMod : x.modSourceType = .noSource → mod = []

/-- A trace in which the phases follow one another. -/
def inPhases (start game mod script : List Effect) : List (Phase × Effect) :=
  start.map (Prod.mk .prepare) ++ game.map (Prod.mk .game) ++ mod.map (Prod.mk .mod) ++
    script.map (Prod.mk .script)

/-- A step of which the result is tested. -/
theorem tested_apply (m k : InstallM Int) (s : Progress) :
    (do if (← m) ≠ 0 then return -1 else k : InstallM Int) s =
      if (m s).1 ≠ 0 then (-1, (m s).2) else k (m s).2 := by
  show (if (m s).1 ≠ 0 then Pure.pure (-1) else k : InstallM Int) (m s).2 = _
  split <;> rfl

theorem installFromMod_phases (s : Progress) : ∃ mod script,
    (installFromMod site target x s).2.trace =
      s.trace ++ mod.map (Prod.mk .mod) ++ script.map (Prod.mk .script) ∧
    ((installFromMod site target x s).1 = 0 ↔ ModSucceeded site target x mod ∧
      (site.scriptExists = false ∨ ScriptSucceeded target script)) ∧
    ModPerformed site target x mod ∧
    (¬ ModSucceeded site target x mod → script = []) ∧
    (ModSucceeded site target x mod → ScriptPerformed site target script) := by
  obtain ⟨mod, -, hmod, hresult, hperformed⟩ :=
    @installMod_performs site target x { s with phase := .mod }
  have hrun : installFromMod site target x s = _ := tested_apply (installMod site target x)
    (do enter .script; runAfterInstall site target) { s with phase := .mod }
  rw [hrun]
  generalize installMod site target x { s with phase := .mod } = r at hmod hresult ⊢
  refine ⟨mod, ?_⟩
  split
  · next hr =>
    have hno : ¬ ModSucceeded site target x mod := mt hresult.mpr hr
    refine ⟨[], ?_, iff_of_false (by decide : ¬ (-1 : Int) = 0) fun h => hno h.1, hperformed,
      fun _ => rfl, fun hyes => absurd hyes hno⟩
    rw [hmod, List.map_nil, List.append_nil]
  · next hr =>
    have hyes : ModSucceeded site target x mod := hresult.mp (not_not.mp hr)
    obtain ⟨script, -, hscript, hscriptresult, hscriptPerformed⟩ :=
      @runAfterInstall_performs site target { r.2 with phase := .script }
    refine ⟨script, ?_, ?_, hperformed, fun hno => absurd hyes hno, fun _ => hscriptPerformed⟩
    · rw [← hmod]
      exact hscript
    · rw [and_iff_right hyes]
      exact hscriptresult

/-- Without a source nothing is done for the mod. -/
theorem ModPerformed.noSource {es : List Effect} (h : ModPerformed site target x es)
    (hnone : x.modSourceType = .noSource) : es = [] := by
  unfold ModPerformed at h
  rwa [hnone] at h

theorem install_phases (error : List String) : ∃ game mod script,
    (install site target x (.init error)).2.trace =
      inPhases (prepareEffects site target) game mod script ∧
    Phases site target x (install site target x (.init error)).1 game mod script := by
  obtain ⟨start, -, hstart, rfl⟩ := @prepare_performs site target (.init error)
  have hrun : install site target x (.init error) = _ := tested_apply (installGame site target x)
    (installFromMod site target x) { (prepare site target (.init error)).2 with phase := .game }
  have htrace : ({ (prepare site target (.init error)).2 with phase := .game } : Progress).trace =
      (prepareEffects site target).map (Prod.mk .prepare) := hstart
  have hphase : ({ (prepare site target (.init error)).2 with phase := .game } : Progress).phase =
      .game := rfl
  rw [hrun]
  generalize { (prepare site target (.init error)).2 with phase := .game } = s at htrace hphase ⊢
  obtain ⟨game, -, hgame, hresult, hperformed⟩ := @installGame_performs site target x s
  rw [htrace, hphase] at hgame
  generalize installGame site target x s = r at hgame hresult ⊢
  refine ⟨game, ?_⟩
  split
  · next hr =>
    have hno : ¬ GameSucceeded site target x game := mt hresult.mpr hr
    refine ⟨[], [], ?_, ?_⟩
    · show r.2.trace = _
      rw [hgame]
      simp [inPhases]
    · exact ⟨iff_of_false (by decide : ¬ (-1 : Int) = 0) fun h => hno h.1, hperformed,
        fun _ => ⟨rfl, rfl⟩, fun hyes => absurd hyes hno, fun _ => rfl,
        fun hyes => absurd hyes hno, fun _ => rfl⟩
  · next hr =>
    have hyes : GameSucceeded site target x game := hresult.mp (not_not.mp hr)
    obtain ⟨mod, script, hrest, hstatus, hmod, hmodFailed, hscript⟩ :=
      @installFromMod_phases site target x r.2
    refine ⟨mod, script, ?_, ?_⟩
    · rw [hrest, hgame]
      rfl
    · exact ⟨hstatus.trans (and_iff_right hyes).symm, hperformed, fun hno => absurd hyes hno,
        fun _ => hmod, hmodFailed, fun _ => hscript, hmod.noSource⟩

theorem effects_inPhases {s : Progress} {start game mod script : List Effect}
    (h : s.trace = inPhases start game mod script) :
    s.effects .game = game ∧ s.effects .mod = mod ∧ s.effects .script = script := by
  have hfilter : ∀ (p q : Phase) (es : List Effect),
      ((es.map (Prod.mk q)).filter fun e => e.1 = p).map Prod.snd = if q = p then es else [] := by
    intro p q es
    rw [List.filter_map, List.map_map]
    by_cases hq : q = p <;> simp [hq, Function.comp_def]
  unfold Progress.effects
  rw [h]
  simp only [inPhases, List.filter_append, List.map_append, hfilter]
  simp

/-! ## The whole installation -/

/-- `_detect_sources` has one result. -/
theorem DetectReturns.unique {host : Host} {r r' : StatusInt × GameServerInstaller}
    (h : DetectReturns host x r) (h' : DetectReturns host x r') : r = r' := by
  obtain ⟨n, hn⟩ := id h
  cases hg : loop (gameBody host) n x with
  | none => simp [detectSources, hg] at hn
  | some g =>
    obtain ⟨s, y⟩ := g
    cases s with
    | error =>
      have hr := fun r => @detectReturns_error host x y r ⟨n, hg⟩
      rw [(hr r).mp h, (hr r').mp h']
    | success =>
      have hr := fun r => @detectReturns_success host x y r ⟨n, hg⟩
      exact ((hr r).mp h).unique ((hr r').mp h')

/-- The result of an installation of `x`, for which `y` is what the detection has found. -/
structure Installed (site : Site) (target : Target) (x y : GameServerInstaller) (status : Int)
    (s : Progress) : Prop where
  found : y.gameSourceType = gameSource site.host x ∧
    (gameSource site.host x ≠ .noSource → y.modSourceType = modSource site.host x)
  success : status = 0 ↔ gameSource site.host x ≠ .noSource ∧
    GameSucceeded site target y (s.effects .game) ∧
    (modSource site.host x = .noSource ∨ ModSucceeded site target y (s.effects .mod)) ∧
    (site.scriptExists = false ∨ ScriptSucceeded target (s.effects .script))
  answered : Answered site s.trace
  noGame : gameSource site.host x = .noSource → s.trace = []
  inOrder : gameSource site.host x ≠ .noSource →
    s.trace = inPhases (prepareEffects site target) (s.effects .game) (s.effects .mod)
      (s.effects .script)
  game : gameSource site.host x ≠ .noSource → GamePerformed site target y (s.effects .game)
  gameFailed : ¬ GameSucceeded site target y (s.effects .game) →
    s.effects .mod = [] ∧ s.effects .script = []
  mod : GameSucceeded site target y (s.effects .game) →
    ModPerformed site target y (s.effects .mod)
  modFailed : modSource site.host x ≠ .noSource →
    ¬ ModSucceeded site target y (s.effects .mod) → s.effects .script = []
  script : GameSucceeded site target y (s.effects .game) →
    (modSource site.host x = .noSource ∨ ModSucceeded site target y (s.effects .mod)) →
    ScriptPerformed site target (s.effects .script)
  steam : gameSource site.host x = .fromSteam →
    SteamPerformed site target y (s.effects .game) ∧
    (GameSucceeded site target y (s.effects .game) ↔
      (s.effects .game).getLast? = some (.exec (steamCmdInstall site target y) 0))

/-- An installation that has found a source of the game is done in phases. -/
theorem Phases.installed {y : GameServerInstaller} {status : Int} {s : Progress}
    {game mod script : List Effect} (h : Phases site target y status game mod script)
    (htrace : s.trace = inPhases (prepareEffects site target) game mod script)
    (hanswered : Answered site s.trace) (hgame : y.gameSourceType = gameSource site.host x)
    (hmod : y.modSourceType = modSource site.host x)
    (hsome : gameSource site.host x ≠ .noSource) : Installed site target x y status s := by
  obtain ⟨h1, h2, h3⟩ := effects_inPhases htrace
  have hmodiff : (modSource site.host x = .noSource ∨ ModSucceeded site target y mod) ↔
      ModSucceeded site target y mod := by
    refine or_iff_right_of_imp fun hno => ?_
    have hnone : y.modSourceType = .noSource := hmod.trans hno
    unfold ModSucceeded
    rw [hnone]
    exact h.noMod hnone
  refine ⟨⟨hgame, fun _ => hmod⟩, ?_, hanswered, fun hno => absurd hno hsome, fun _ => ?_, fun _ => ?_,
    ?_, ?_, ?_, ?_, ?_⟩
  · rw [h1, h2, h3, hmodiff, and_iff_right hsome]
    exact h.success
  · rw [h1, h2, h3]
    exact htrace
  · rw [h1]
    exact h.gamePerformed
  · rw [h1, h2, h3]
    exact h.gameFailed
  · rw [h1, h2]
    exact h.modPerformed
  · rw [h2, h3]
    exact fun _ => h.modFailed
  · rw [h1, h2, h3, hmodiff]
    exact h.scriptPerformed
  · rw [h1]
    intro hs
    have hsteam : y.gameSourceType = .fromSteam := hgame.trans hs
    have hperformed := h.gamePerformed
    unfold GamePerformed at hperformed
    rw [hsteam] at hperformed
    refine ⟨hperformed, ?_⟩
    unfold GameSucceeded
    rw [hsteam]
    rfl

theorem afterDetection_installed {r : StatusInt × GameServerInstaller}
    (hg : x.gameSourceType = .noSource) (hm : x.modSourceType = .noSource)
    (hig : x.ignoredGameSource = ∅) (h : DetectReturns site.host x r) :
    Installed site target x r.2 (afterDetection site target r).1
      (afterDetection site target r).2 := by
  obtain ⟨hgame, herror, hmod⟩ := h.spec hg hm hig
  obtain ⟨status, y⟩ := r
  cases status with
  | error =>
    have hno := herror.mp rfl
    have hfailed : ¬ GameSucceeded site target y [] := by
      unfold GameSucceeded
      rw [hgame.trans hno]
      exact id
    exact ⟨⟨hgame, fun hsome => absurd hno hsome⟩,
      iff_of_false (by decide : ¬ (-1 : Int) = 0) fun h => h.1 hno, .nil, fun _ => rfl,
      fun hsome => absurd hno hsome, fun hsome => absurd hno hsome, fun _ => ⟨rfl, rfl⟩,
      fun hyes => absurd hyes hfailed, fun _ _ => rfl, fun hyes => absurd hyes hfailed,
      fun hs => nomatch hno.symm.trans hs⟩
  | success =>
    have hsome : gameSource site.host x ≠ .noSource := fun hno => nomatch herror.mpr hno
    rw [if_neg hsome] at hmod
    obtain ⟨game, mod, script, htrace, hp⟩ := @install_phases site target y y.error
    have hanswered := @asAnswered_install site target y (.init y.error) .nil
    exact hp.installed htrace hanswered hgame hmod hsome

/-- **What an installation does.** For every configuration for which the detection returns, and
whatever the commands and the file system answer, `install_server` returns. Its result is a success
exactly if there is a source of the game, the game is installed, the mod is installed or has no
source, and the script is absent or exits with 0. The phases follow one another, nothing is done
after one that has failed, and SteamCMD runs at most four times, again only after the exit codes 1,
7 and 8, and with success exactly if its last run exits with 0. -/
theorem installServer_spec (site : Site) (target : Target)
    (gameLocalrep gameRemrep modLocalrep modRemrep : String) (steamAppId : Nat)
    {r : StatusInt × GameServerInstaller}
    (h : DetectReturns site.host (new gameLocalrep gameRemrep modLocalrep modRemrep steamAppId) r) :
    let x := new gameLocalrep gameRemrep modLocalrep modRemrep steamAppId
    (∃ n result, installServer site target n x = some result) ∧
    ∀ n status s, installServer site target n x = some (status, s) →
      Installed site target x r.2 status s := by
  intro x
  constructor
  · obtain ⟨n, hn⟩ := h
    exact ⟨n, _, congrArg (Option.map (afterDetection site target)) hn⟩
  · intro n status s hrun
    obtain ⟨r', hr', hresult⟩ := Option.map_eq_some_iff.mp hrun
    obtain rfl := h.unique ⟨n, hr'⟩
    have hinstalled := @afterDetection_installed site target x r rfl rfl rfl h
    rw [hresult] at hinstalled
    exact hinstalled

/-- A game in an archive that brings a script with it, and commands that all exit with 0. -/
def zipSite : Site :=
  { host := modHost, serverExists := true, steamcmdExists := false, scriptExists := true, uid := 0,
    currentPath := "/srv/server", copyDir := fun _ => true, exitCode := fun _ => 0,
    lines := fun _ => [], filename := fun _ => "game.zip", extension := fun _ => ".zip" }

def zipTarget : Target :=
  { serverAbsolutePath := "/srv/server", steamAppSetConfig := "", user := "" }

theorem installServer_spec_zip : ∃ s,
    installServer zipSite zipTarget 2 (new "/srv/game.zip" "" "" "" 0) = some (0, s) ∧
      ScriptSucceeded zipTarget (s.effects .script) := by
  have hdetect : DetectReturns modHost (new "/srv/game.zip" "" "" "" 0)
      (.success, { new "/srv/game.zip" "" "" "" 0 with
        gameSourceType := .fromLocrep, gameType := .file }) := ⟨2, by decide⟩
  have hstatus : ((installServer zipSite zipTarget 2 (new "/srv/game.zip" "" "" "" 0)).map
      Prod.fst) = some 0 := by decide
  obtain ⟨⟨status, s⟩, hrun, rfl⟩ := Option.map_eq_some_iff.mp hstatus
  have hspec := (installServer_spec zipSite zipTarget _ _ _ _ _ hdetect).2 2 _ s hrun
  exact ⟨s, hrun, (hspec.success.mp rfl).2.2.2.resolve_left (by decide)⟩

end GameServerInstaller

end GameAP
