import GameAP.Lib.Loop
import Mathlib.Data.Finset.Basic

/-!
# Where a game server is installed from

`detectSources` looks for a source of the game and then for one of the mod. Each search is a loop
that tries the local repository, finds out what it is (`detectLocalrepType`), and if it is of no
use tries again. The search for the game skips the repository that failed; the search for the mod
does not, so it goes on for ever with a local repository that is set and of no use:
`detects_iff`. What a directory is found to be depends on the game's local repository:
`localrepType_iff`.
-/

namespace GameAP

open Lib

/-- What `fs::status` tells of a path. -/
inductive FileKind where
  | missing
  | file
  | dir
  | other
  deriving DecidableEq, Repr

namespace GameServerInstaller

inductive SourceType where
  | noSource
  | fromLocrep
  | fromRemrep
  | fromSteam
  deriving DecidableEq, Repr

inductive RepType where
  | invalid
  | file
  | dir
  deriving DecidableEq, Repr

inductive StatusInt where
  | success
  | error
  deriving DecidableEq, Repr

/-- What the detection depends on besides the installer. -/
structure Host where
  steamcmdPath : String
  fs : String → FileKind

end GameServerInstaller

open GameServerInstaller in
structure GameServerInstaller where
  gameLocalrep : String
  gameRemrep : String
  modLocalrep : String
  modRemrep : String
  steamAppId : Nat
  gameSourceType : SourceType
  modSourceType : SourceType
  gameType : RepType
  modType : RepType
  error : List String
  ignoredGameSource : Finset SourceType
  ignoredModSource : Finset SourceType
  deriving DecidableEq

namespace GameServerInstaller

/-- The constructor, and the settings of a server's game and mod. -/
def new (gameLocalrep gameRemrep modLocalrep modRemrep : String) (steamAppId : Nat) :
    GameServerInstaller :=
  { gameLocalrep, gameRemrep, modLocalrep, modRemrep, steamAppId,
    gameSourceType := .noSource, modSourceType := .noSource, gameType := .invalid,
    modType := .invalid, error := [], ignoredGameSource := ∅, ignoredModSource := ∅ }

variable (host : Host)

/-- The test for a directory is made with the game's local repository, whatever `path` is. -/
def detectLocalrepType (path : String) (x : GameServerInstaller) : RepType :=
  if path = "" then .invalid
  else if host.fs path = .missing then .invalid
  else if host.fs path = .file then .file
  else if host.fs x.gameLocalrep = .dir then .dir
  else .invalid

def detectGameSource (x : GameServerInstaller) : GameServerInstaller :=
  if x.gameLocalrep ≠ "" ∧ .fromLocrep ∉ x.ignoredGameSource then
    { x with gameSourceType := .fromLocrep }
  else if x.gameRemrep ≠ "" ∧ .fromRemrep ∉ x.ignoredGameSource then
    { x with gameSourceType := .fromRemrep }
  else if x.steamAppId > 0 ∧ host.steamcmdPath ≠ "" ∧ .fromSteam ∉ x.ignoredGameSource then
    { x with gameSourceType := .fromSteam }
  else x

def detectModSource (x : GameServerInstaller) : GameServerInstaller :=
  if x.modLocalrep ≠ "" then { x with modSourceType := .fromLocrep }
  else if x.modRemrep ≠ "" then { x with modSourceType := .fromRemrep }
  else x

def getGameSource (x : GameServerInstaller) : String :=
  match x.gameSourceType with
  | .fromLocrep => x.gameLocalrep
  | .fromRemrep => x.gameRemrep
  | _ => ""

def getModSource (x : GameServerInstaller) : String :=
  match x.modSourceType with
  | .fromLocrep => x.modLocalrep
  | .fromRemrep => x.modRemrep
  | _ => ""

/-- The type of the local repository of the game; one of no use is remembered. -/
def checkGameLocalrep (x : GameServerInstaller) : GameServerInstaller :=
  if x.gameSourceType = .fromLocrep then
    let x := { x with gameType := detectLocalrepType host x.getGameSource x }
    if x.gameType = .invalid then
      { x with
        ignoredGameSource := insert x.gameSourceType x.ignoredGameSource
        gameSourceType := .noSource }
    else x
  else x

def checkModLocalrep (x : GameServerInstaller) : GameServerInstaller :=
  if x.modSourceType = .fromLocrep then
    let x := { x with modType := detectLocalrepType host x.getModSource x }
    if x.modType = .invalid then
      { x with
        ignoredModSource := insert x.modSourceType x.ignoredModSource
        modSourceType := .noSource }
    else x
  else x

/-- The body of the loop that looks for the game's source. -/
def gameBody (x : GameServerInstaller) : GameServerInstaller ⊕ StatusInt × GameServerInstaller :=
  let x := detectGameSource host x
  if x.gameSourceType = .noSource then
    .inr (.error, { x with error := x.error ++ ["No source to install game"] })
  else
    let x := checkGameLocalrep host x
    if x.gameSourceType ≠ .noSource then .inr (.success, x) else .inl x

/-- The body of the loop that looks for the mod's source. -/
def modBody (x : GameServerInstaller) : GameServerInstaller ⊕ StatusInt × GameServerInstaller :=
  let x := detectModSource x
  if x.modSourceType = .noSource then .inr (.success, x)
  else
    let x := checkModLocalrep host x
    if x.modSourceType ≠ .noSource then .inr (.success, x) else .inl x

/-- `_detect_sources` with at most `n` rounds of each loop. -/
def detectSources (n : Nat) (x : GameServerInstaller) :
    Option (StatusInt × GameServerInstaller) :=
  match loop (gameBody host) n x with
  | none => none
  | some (.error, x) => some (.error, x)
  | some (.success, x) => loop (modBody host) n x

/-! ## The sources that should be found -/

/-- The game's first usable source. -/
def gameSource (x : GameServerInstaller) : SourceType :=
  if detectLocalrepType host x.gameLocalrep x ≠ .invalid then .fromLocrep
  else if x.gameRemrep ≠ "" then .fromRemrep
  else if x.steamAppId > 0 ∧ host.steamcmdPath ≠ "" then .fromSteam
  else .noSource

/-- The mod's first usable source. -/
def modSource (x : GameServerInstaller) : SourceType :=
  if detectLocalrepType host x.modLocalrep x ≠ .invalid then .fromLocrep
  else if x.modRemrep ≠ "" then .fromRemrep
  else .noSource

/-- A result that names the first usable sources. -/
structure Detects (x : GameServerInstaller) (r : StatusInt × GameServerInstaller) : Prop where
  game : r.2.gameSourceType = gameSource host x
  error : r.1 = .error ↔ gameSource host x = .noSource
  mod : r.2.modSourceType = modSource host x

variable {host} {x y : GameServerInstaller} {r : StatusInt × GameServerInstaller}

theorem detectLocalrepType_empty : detectLocalrepType host "" x = .invalid := if_pos rfl

/-! ## The game -/

/-- What the search for the game leaves of the installer. -/
structure GameDone (host : Host) (x : GameServerInstaller) (s : StatusInt)
    (y : GameServerInstaller) : Prop where
  status : s = if gameSource host x = .noSource then .error else .success
  source : y.gameSourceType = gameSource host x
  modSourceType : y.modSourceType = x.modSourceType
  gameLocalrep : y.gameLocalrep = x.gameLocalrep
  modLocalrep : y.modLocalrep = x.modLocalrep
  modRemrep : y.modRemrep = x.modRemrep

/-- A round in which the local repository is out of the question. -/
theorem gameBody_others (hs : x.gameSourceType = .noSource)
    (hl : x.gameLocalrep = "" ∨ .fromLocrep ∈ x.ignoredGameSource)
    (hig : .fromRemrep ∉ x.ignoredGameSource ∧ .fromSteam ∉ x.ignoredGameSource)
    (hinv : detectLocalrepType host x.gameLocalrep x = .invalid) :
    ∃ s y, gameBody host x = .inr (s, y) ∧ GameDone host x s y := by
  have hlocal : ¬ (x.gameLocalrep ≠ "" ∧ .fromLocrep ∉ x.ignoredGameSource) := fun h =>
    hl.elim h.1 fun hm => h.2 hm
  unfold gameBody detectGameSource
  rw [if_neg hlocal]
  by_cases hr : x.gameRemrep = ""
  · by_cases hst : x.steamAppId > 0 ∧ host.steamcmdPath ≠ ""
    · have hg : gameSource host x = .fromSteam := by simp [gameSource, hinv, hr, hst]
      refine ⟨.success, { x with gameSourceType := .fromSteam }, ?_, ?_⟩
      · simp [hr, hst, hig, checkGameLocalrep]
      · constructor <;> simp [hg]
    · have hg : gameSource host x = .noSource := by simp [gameSource, hinv, hr, hst]
      have hst' : ¬ (x.steamAppId > 0 ∧ host.steamcmdPath ≠ "" ∧
          .fromSteam ∉ x.ignoredGameSource) := fun h => hst ⟨h.1, h.2.1⟩
      refine ⟨.error, { x with error := x.error ++ ["No source to install game"] }, ?_, ?_⟩
      · simp only [hr, hst', hs, ne_eq, not_true_eq_false, false_and, if_false, if_true]
      · constructor <;> simp [hg, hs]
  · have hg : gameSource host x = .fromRemrep := by simp [gameSource, hinv, hr]
    refine ⟨.success, { x with gameSourceType := .fromRemrep }, ?_, ?_⟩
    · simp [hr, hig, checkGameLocalrep]
    · constructor <;> simp [hg]

/-- The round with a local repository: it ends the search, or is remembered. -/
theorem gameBody_local (hs : x.gameSourceType = .noSource) (hl : x.gameLocalrep ≠ "")
    (hig : x.ignoredGameSource = ∅) :
    gameBody host x =
      if detectLocalrepType host x.gameLocalrep x = .invalid then
        .inl { x with gameType := .invalid, ignoredGameSource := {.fromLocrep} }
      else
        .inr (.success, { x with
          gameType := detectLocalrepType host x.gameLocalrep x
          gameSourceType := .fromLocrep }) := by
  have hdetect : detectGameSource host x = { x with gameSourceType := .fromLocrep } :=
    if_pos ⟨hl, by simp [hig]⟩
  have htype : detectLocalrepType host x.gameLocalrep { x with gameSourceType := .fromLocrep } =
      detectLocalrepType host x.gameLocalrep x := rfl
  simp only [gameBody, hdetect, checkGameLocalrep, getGameSource, htype]
  by_cases ht : detectLocalrepType host x.gameLocalrep x = .invalid
  · simp [ht, hs, hig]
  · simp [ht]

/-- **The search for the game ends**, after at most two rounds, with the first usable source. -/
theorem gameLoop (hs : x.gameSourceType = .noSource) (hig : x.ignoredGameSource = ∅) :
    ∃ s y, Returns (gameBody host) x (s, y) ∧ GameDone host x s y := by
  by_cases hl : x.gameLocalrep = ""
  · have hinv : detectLocalrepType host x.gameLocalrep x = .invalid := by
      rw [hl]
      exact detectLocalrepType_empty
    obtain ⟨s, y, hr, hd⟩ := gameBody_others hs (.inl hl) (by simp [hig]) hinv
    exact ⟨s, y, returns_inr hr, hd⟩
  · have hround := @gameBody_local host x hs hl hig
    by_cases ht : detectLocalrepType host x.gameLocalrep x = .invalid
    · -- the repository is remembered, and the second round goes on to the other sources
      rw [if_pos ht] at hround
      obtain ⟨s, y, hr, hd⟩ : ∃ s y, gameBody host { x with
            gameType := .invalid, ignoredGameSource := {.fromLocrep} } = .inr (s, y) ∧
          GameDone host _ s y :=
        gameBody_others hs (.inr (Finset.mem_singleton_self _)) (by simp) ht
      refine ⟨s, y, (returns_inl hround).mpr (returns_inr hr), ?_⟩
      exact ⟨hd.status, hd.source, hd.modSourceType, hd.gameLocalrep, hd.modLocalrep, hd.modRemrep⟩
    · rw [if_neg ht] at hround
      have hg : gameSource host x = .fromLocrep := if_pos ht
      refine ⟨.success, _, returns_inr hround, ?_⟩
      constructor <;> simp [hg]

/-! ## The mod -/

/-- A local repository of the mod that is of use, or none. -/
def ModLocalrepOk (host : Host) (x : GameServerInstaller) : Prop :=
  x.modLocalrep = "" ∨ detectLocalrepType host x.modLocalrep x ≠ .invalid

theorem modLoop (hs : x.modSourceType = .noSource) (hok : ModLocalrepOk host x) :
    ∃ y, Returns (modBody host) x (.success, y) ∧ y.gameSourceType = x.gameSourceType ∧
      y.modSourceType = modSource host x := by
  by_cases hl : x.modLocalrep = ""
  · have hinv : detectLocalrepType host x.modLocalrep x = .invalid := by
      rw [hl]
      exact detectLocalrepType_empty
    by_cases hr : x.modRemrep = ""
    · have hm : modSource host x = .noSource := by simp [modSource, hinv, hr]
      refine ⟨x, returns_inr ?_, rfl, hs.trans hm.symm⟩
      simp [modBody, detectModSource, hl, hr, hs]
    · have hm : modSource host x = .fromRemrep := by simp [modSource, hinv, hr]
      refine ⟨{ x with modSourceType := .fromRemrep }, returns_inr ?_, rfl, hm.symm⟩
      simp [modBody, detectModSource, checkModLocalrep, hl, hr]
  · have ht := hok.resolve_left hl
    have hm : modSource host x = .fromLocrep := if_pos ht
    have hdetect : detectModSource x = { x with modSourceType := .fromLocrep } := if_pos hl
    have htype : detectLocalrepType host x.modLocalrep { x with modSourceType := .fromLocrep } =
        detectLocalrepType host x.modLocalrep x := rfl
    refine ⟨{ x with
      modSourceType := .fromLocrep
      modType := detectLocalrepType host x.modLocalrep x }, returns_inr ?_, rfl, hm.symm⟩
    simp [modBody, hdetect, checkModLocalrep, getModSource, htype, ht]

/-- A mod's local repository of no use is tried again in every round. -/
theorem modBody_again (hok : ¬ ModLocalrepOk host x) :
    ∃ y, modBody host x = .inl y ∧ ¬ ModLocalrepOk host y := by
  obtain ⟨hl, ht⟩ := not_or.mp hok
  have hdetect : detectModSource x = { x with modSourceType := .fromLocrep } := if_pos hl
  have htype : detectLocalrepType host x.modLocalrep { x with modSourceType := .fromLocrep } =
      .invalid := not_not.mp ht
  refine ⟨{ x with
    modType := .invalid
    ignoredModSource := insert .fromLocrep x.ignoredModSource
    modSourceType := .noSource }, ?_, hok⟩
  simp [modBody, hdetect, checkModLocalrep, getModSource, htype]

theorem not_returns_mod (hok : ¬ ModLocalrepOk host x) : ¬ Returns (modBody host) x r :=
  not_returns (I := fun x => ¬ ModLocalrepOk host x) (fun _ => modBody_again) hok

/-! ## Both -/

/-- A result of `_detect_sources`, for some number of rounds. -/
def DetectReturns (host : Host) (x : GameServerInstaller) (r : StatusInt × GameServerInstaller) :
    Prop :=
  ∃ n, detectSources host n x = some r

/-- A number of rounds that is enough for the game as well. -/
theorem DetectReturns.rounds {g : StatusInt × GameServerInstaller} (h : DetectReturns host x r)
    (hg : Returns (gameBody host) x g) :
    ∃ n, detectSources host n x = some r ∧ loop (gameBody host) n x = some g := by
  obtain ⟨n, hn⟩ := h
  cases hk : loop (gameBody host) n x with
  | none => simp [detectSources, hk] at hn
  | some g' =>
    cases Returns.unique ⟨n, hk⟩ hg
    exact ⟨n, hn, hk⟩

theorem detectReturns_error (hg : Returns (gameBody host) x (.error, y)) :
    DetectReturns host x r ↔ r = (.error, y) := by
  constructor
  · intro h
    obtain ⟨n, hn, hk⟩ := h.rounds hg
    simpa [detectSources, hk] using hn.symm
  · rintro rfl
    obtain ⟨n, hn⟩ := hg
    exact ⟨n, by simp only [detectSources, hn]⟩

theorem detectReturns_success (hg : Returns (gameBody host) x (.success, y)) :
    DetectReturns host x r ↔ Returns (modBody host) y r := by
  constructor
  · intro h
    obtain ⟨n, hn, hk⟩ := h.rounds hg
    exact ⟨n, by simpa only [detectSources, hk] using hn⟩
  · rintro ⟨m, hm⟩
    obtain ⟨n, hn⟩ := hg
    have hn' := loop_mono hn (Nat.le_max_left n m)
    exact ⟨max n m, by simp only [detectSources, hn', loop_mono hm (Nat.le_max_right n m)]⟩

theorem GameDone.detectLocalrepType_eq {s : StatusInt} (hd : GameDone host x s y) (path : String) :
    detectLocalrepType host path y = detectLocalrepType host path x := by
  simp only [detectLocalrepType, hd.gameLocalrep]

theorem GameDone.modLocalrepOk_iff {s : StatusInt} (hd : GameDone host x s y) :
    ModLocalrepOk host y ↔ ModLocalrepOk host x := by
  simp only [ModLocalrepOk, hd.detectLocalrepType_eq, hd.modLocalrep]

theorem GameDone.modSource_eq {s : StatusInt} (hd : GameDone host x s y) :
    modSource host y = modSource host x := by
  simp only [modSource, hd.detectLocalrepType_eq, hd.modLocalrep, hd.modRemrep]

theorem detectReturns_noSource (hg : x.gameSourceType = .noSource)
    (hig : x.ignoredGameSource = ∅) (hn : gameSource host x = .noSource) :
    ∃ y, (∀ r, DetectReturns host x r ↔ r = (.error, y)) ∧ y.gameSourceType = .noSource ∧
      y.modSourceType = x.modSourceType := by
  obtain ⟨s, y, hr, hd⟩ := @gameLoop host x hg hig
  obtain rfl : s = .error := hd.status.trans (if_pos hn)
  exact ⟨y, fun r => detectReturns_error hr, hd.source.trans hn, hd.modSourceType⟩

theorem detectReturns_source (hg : x.gameSourceType = .noSource)
    (hig : x.ignoredGameSource = ∅) (hn : gameSource host x ≠ .noSource) :
    ∃ y, GameDone host x .success y ∧ ∀ r, DetectReturns host x r ↔ Returns (modBody host) y r := by
  obtain ⟨s, y, hr, hd⟩ := @gameLoop host x hg hig
  obtain rfl : s = .success := hd.status.trans (if_neg hn)
  exact ⟨y, hd, fun r => detectReturns_success hr⟩

/-- The detection ends unless there is a game to install and a mod whose local repository is set
and of no use. -/
theorem detectReturns_iff (hg : x.gameSourceType = .noSource) (hm : x.modSourceType = .noSource)
    (hig : x.ignoredGameSource = ∅) :
    (∃ r, DetectReturns host x r) ↔ gameSource host x = .noSource ∨ ModLocalrepOk host x := by
  by_cases hn : gameSource host x = .noSource
  · obtain ⟨y, hr, -⟩ := detectReturns_noSource hg hig hn
    exact iff_of_true ⟨_, (hr _).mpr rfl⟩ (.inl hn)
  · obtain ⟨y, hd, hr⟩ := detectReturns_source hg hig hn
    constructor
    · rintro ⟨r, h⟩
      by_contra hno
      exact not_returns_mod (mt hd.modLocalrepOk_iff.mp (not_or.mp hno).2) ((hr r).mp h)
    · intro hok
      obtain ⟨z, hz, -⟩ := modLoop (hd.modSourceType.trans hm)
        (hd.modLocalrepOk_iff.mpr (hok.resolve_left hn))
      exact ⟨_, (hr _).mpr hz⟩

/-- What a result tells. Without a source of the game there is nothing to install, and the mod's
sources are not looked at. -/
theorem DetectReturns.spec (hg : x.gameSourceType = .noSource) (hm : x.modSourceType = .noSource)
    (hig : x.ignoredGameSource = ∅) (h : DetectReturns host x r) :
    r.2.gameSourceType = gameSource host x ∧ (r.1 = .error ↔ gameSource host x = .noSource) ∧
      r.2.modSourceType =
        if gameSource host x = .noSource then .noSource else modSource host x := by
  by_cases hn : gameSource host x = .noSource
  · obtain ⟨y, hr, hgame, hmod⟩ := detectReturns_noSource hg hig hn
    obtain rfl := (hr r).mp h
    exact ⟨hgame.trans hn.symm, iff_of_true rfl hn, by rw [if_pos hn]; exact hmod.trans hm⟩
  · have hok := ((detectReturns_iff hg hm hig).mp ⟨r, h⟩).resolve_left hn
    obtain ⟨y, hd, hr⟩ := detectReturns_source hg hig hn
    obtain ⟨z, hz, hgame, hmod⟩ := modLoop (hd.modSourceType.trans hm)
      (hd.modLocalrepOk_iff.mpr hok)
    obtain rfl := ((hr r).mp h).unique hz
    refine ⟨hgame.trans hd.source, iff_of_false (by simp) hn, ?_⟩
    rw [if_neg hn]
    exact hmod.trans hd.modSource_eq

/-- **When the detection finds the first usable sources.** Two things keep it from that: without a
source of the game it returns before it looks for one of the mod; with one, it never returns when
the mod's local repository is set and of no use. -/
theorem detects_iff (host : Host) (gameLocalrep gameRemrep modLocalrep modRemrep : String)
    (steamAppId : Nat) :
    let x := new gameLocalrep gameRemrep modLocalrep modRemrep steamAppId
    (((∃ r, DetectReturns host x r) ∧ ∀ r, DetectReturns host x r → Detects host x r) ↔
      if gameSource host x = .noSource then modSource host x = .noSource
      else ModLocalrepOk host x) ∧
    ((∃ r, DetectReturns host x r) ↔ gameSource host x = .noSource ∨ ModLocalrepOk host x) ∧
    ∀ r, DetectReturns host x r →
      r.2.gameSourceType = gameSource host x ∧ (r.1 = .error ↔ gameSource host x = .noSource) ∧
      r.2.modSourceType =
        if gameSource host x = .noSource then .noSource else modSource host x := by
  intro x
  have hreturns := @detectReturns_iff host x rfl rfl rfl
  have hspec := fun r => @DetectReturns.spec host x r rfl rfl rfl
  refine ⟨?_, hreturns, hspec⟩
  by_cases hn : gameSource host x = .noSource
  · rw [if_pos hn]
    obtain ⟨r, hr⟩ := hreturns.mpr (.inl hn)
    constructor
    · rintro ⟨-, h⟩
      have hmod := (hspec r hr).2.2
      rw [if_pos hn, (h r hr).mod] at hmod
      exact hmod
    · intro hm
      refine ⟨⟨r, hr⟩, fun r hr => ?_⟩
      obtain ⟨hgame, herror, hmod⟩ := hspec r hr
      exact ⟨hgame, herror, by rw [hmod, if_pos hn, hm]⟩
  · rw [if_neg hn]
    constructor
    · rintro ⟨hr, -⟩
      exact (hreturns.mp hr).resolve_left hn
    · intro hok
      refine ⟨hreturns.mpr (.inr hok), fun r hr => ?_⟩
      obtain ⟨hgame, herror, hmod⟩ := hspec r hr
      exact ⟨hgame, herror, by rw [hmod, if_neg hn]⟩

/-- A host on which nothing exists, and a game to download with a mod whose local repository is
missing; the mod could be downloaded as well. -/
theorem detects_missing_mod :
    ¬ ((∃ r, DetectReturns ⟨"", fun _ => .missing⟩
        (new "" "http://files/game.zip" "/srv/mod" "http://files/mod.zip" 0) r) ∧
      ∀ r, DetectReturns ⟨"", fun _ => .missing⟩
        (new "" "http://files/game.zip" "/srv/mod" "http://files/mod.zip" 0) r →
      Detects ⟨"", fun _ => .missing⟩
        (new "" "http://files/game.zip" "/srv/mod" "http://files/mod.zip" 0) r) := by
  rintro ⟨hr, -⟩
  have h := (detectReturns_iff rfl rfl rfl).mp hr
  revert h
  simp [gameSource, ModLocalrepOk, detectLocalrepType, new]

/-! ## What a local repository is -/

/-- Nothing has the empty path. -/
def kindAt (host : Host) (path : String) : FileKind := if path = "" then .missing else host.fs path

/-- The type of a repository, by its path alone. -/
def repType (host : Host) (path : String) : RepType :=
  match kindAt host path with
  | .file => .file
  | .dir => .dir
  | _ => .invalid

/-- The search does not get as far as asking for a directory. -/
def Settled (host : Host) (path : String) : Prop :=
  kindAt host path = .missing ∨ kindAt host path = .file

/-- Where a directory is asked for, the game's local repository is one as `path` is. -/
def Alike (host : Host) (path : String) (x : GameServerInstaller) : Prop :=
  Settled host path ∨ (kindAt host path = .dir ↔ host.fs x.gameLocalrep = .dir)

/-- The type `_detect_sources` gives the mod's local repository when it first looks at it. -/
def FirstModType (host : Host) (x : GameServerInstaller) (t : RepType) : Prop :=
  ∃ y, Returns (gameBody host) x (.success, y) ∧
    (checkModLocalrep host (detectModSource y)).modType = t

theorem detectLocalrepType_eq (path : String) :
    detectLocalrepType host path x =
      match kindAt host path with
      | .missing => .invalid
      | .file => .file
      | _ => if host.fs x.gameLocalrep = .dir then .dir else .invalid := by
  unfold detectLocalrepType kindAt
  by_cases hp : path = ""
  · simp [hp]
  · cases hk : host.fs path <;> simp [hp]

theorem detectLocalrepType_eq_repType_iff {path : String} :
    detectLocalrepType host path x = repType host path ↔ Alike host path x := by
  rw [detectLocalrepType_eq]
  unfold repType Alike Settled
  cases kindAt host path <;> by_cases hg : host.fs x.gameLocalrep = .dir <;> simp [hg]

theorem detectLocalrepType_eq_iff {path : String} :
    detectLocalrepType host path x = detectLocalrepType host path y ↔
      Settled host path ∨ (host.fs x.gameLocalrep = .dir ↔ host.fs y.gameLocalrep = .dir) := by
  rw [detectLocalrepType_eq, detectLocalrepType_eq]
  unfold Settled
  cases kindAt host path <;> by_cases hx : host.fs x.gameLocalrep = .dir <;>
    by_cases hy : host.fs y.gameLocalrep = .dir <;> simp [hx, hy]

theorem checkModLocalrep_modType (hl : y.modLocalrep ≠ "") :
    (checkModLocalrep host (detectModSource y)).modType =
      detectLocalrepType host y.modLocalrep y := by
  have hdetect : detectModSource y = { y with modSourceType := .fromLocrep } := if_pos hl
  have htype : detectLocalrepType host y.modLocalrep { y with modSourceType := .fromLocrep } =
      detectLocalrepType host y.modLocalrep y := rfl
  unfold checkModLocalrep
  simp only [hdetect, getModSource, htype, if_true]
  split <;> rfl

theorem firstModType_iff {t : RepType} (hs : x.gameSourceType = .noSource)
    (hig : x.ignoredGameSource = ∅) (hl : x.modLocalrep ≠ "") :
    FirstModType host x t ↔
      gameSource host x ≠ .noSource ∧ t = detectLocalrepType host x.modLocalrep x := by
  obtain ⟨s, y, hr, hd⟩ := @gameLoop host x hs hig
  have hmod : y.modLocalrep ≠ "" := hd.modLocalrep ▸ hl
  have htype : (checkModLocalrep host (detectModSource y)).modType =
      detectLocalrepType host x.modLocalrep x := by
    rw [checkModLocalrep_modType hmod, hd.detectLocalrepType_eq, hd.modLocalrep]
  constructor
  · rintro ⟨z, hz, rfl⟩
    cases hz.unique hr
    refine ⟨fun hn => ?_, htype⟩
    have herror := hd.status
    rw [if_pos hn] at herror
    cases herror
  · rintro ⟨hn, rfl⟩
    obtain rfl : s = .success := hd.status.trans (if_neg hn)
    exact ⟨y, hr, htype⟩

/-- **When a path has one type.** For every file system, every path and every two installers: both
give the path the type it has by itself exactly if each one's game local repository is a directory
as the path is, unless the path is empty, missing or a regular file. So the first types that two
installers find for the local repository of one mod differ exactly if it is neither and the game
local repository of just one of them is a directory. -/
theorem localrepType_iff (host : Host) (path : String) (x y : GameServerInstaller) :
    (detectLocalrepType host path x = repType host path ∧
        detectLocalrepType host path y = repType host path ↔
      Alike host path x ∧ Alike host path y) ∧
    ∀ gameLocalrep gameLocalrep' gameRemrep gameRemrep' modLocalrep modRemrep modRemrep'
      steamAppId steamAppId' t t', modLocalrep ≠ "" →
      FirstModType host (new gameLocalrep gameRemrep modLocalrep modRemrep steamAppId) t →
      FirstModType host (new gameLocalrep' gameRemrep' modLocalrep modRemrep' steamAppId') t' →
      (t = t' ↔ Settled host modLocalrep ∨
        (host.fs gameLocalrep = .dir ↔ host.fs gameLocalrep' = .dir)) := by
  refine ⟨and_congr detectLocalrepType_eq_repType_iff detectLocalrepType_eq_repType_iff, ?_⟩
  intro gameLocalrep gameLocalrep' _ _ modLocalrep _ _ _ _ t t' hl ht ht'
  obtain ⟨-, rfl⟩ := (firstModType_iff rfl rfl hl).mp ht
  obtain ⟨-, rfl⟩ := (firstModType_iff rfl rfl hl).mp ht'
  exact detectLocalrepType_eq_iff

/-- A mod in a directory, and a game from there, from an archive or from a server. -/
def modHost : Host :=
  { steamcmdPath := ""
    fs := fun path =>
      if path = "/srv/mod" then .dir else if path = "/srv/game.zip" then .file else .missing }

def modInstaller (gameLocalrep : String) : GameServerInstaller :=
  new gameLocalrep "http://files/game.zip" "/srv/mod" "" 0

theorem firstModType_modInstaller (gameLocalrep : String) :
    FirstModType modHost (modInstaller gameLocalrep)
      (detectLocalrepType modHost "/srv/mod" (modInstaller gameLocalrep)) := by
  have hmod : "/srv/mod" ≠ "" := by decide
  have hgame : (modInstaller gameLocalrep).gameRemrep ≠ "" := by
    show "http://files/game.zip" ≠ ""
    decide
  refine (firstModType_iff rfl rfl hmod).mpr ⟨?_, rfl⟩
  unfold gameSource
  rw [if_pos hgame]
  split <;> decide

/-- The directory of the mod has no type for one of the installers. -/
theorem localrepType_iff_modInstaller :
    detectLocalrepType modHost "/srv/mod" (modInstaller "/srv/mod") ≠
      detectLocalrepType modHost "/srv/mod" (modInstaller "/srv/game.zip") := by
  have h := (localrepType_iff modHost "/srv/mod" (modInstaller "/srv/mod")
    (modInstaller "/srv/game.zip")).2 _ _ _ _ _ _ _ _ _ _ _ (by decide)
    (firstModType_modInstaller "/srv/mod") (firstModType_modInstaller "/srv/game.zip")
  rw [Ne, h]
  unfold Settled
  decide

theorem mod_directory_is_invalid : ¬ ∀ host path (x y : GameServerInstaller),
    detectLocalrepType host path x = repType host path ∧
      detectLocalrepType host path y = repType host path := by
  intro hall
  have h := (hall modHost "/srv/mod" (modInstaller "/srv/game.zip")
    (modInstaller "/srv/game.zip")).1
  revert h
  decide

end GameServerInstaller

end GameAP
