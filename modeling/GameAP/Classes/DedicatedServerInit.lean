import GameAP.Classes.DedicatedServer
import GameAP.Functions.RestCalls

/-!
# The start of the host's record

The constructor of `DedicatedServer` asks the panel up to three times for the paths and the scripts
of the host (`construct_cases`).
-/

namespace GameAP

open Lib

/-- What the panel knows of the host. -/
structure InitData where
  workPath : String
  steamcmdPath : String
  scriptInstall : String
  scriptReinstall : String
  scriptUpdate : String
  scriptStart : String
  scriptPause : String
  scriptUnpause : String
  scriptStop : String
  scriptKill : String
  scriptRestart : String
  scriptStatus : String
  scriptGetConsole : String
  scriptSendCommand : String
  scriptDelete : String
  deriving DecidableEq, Repr

namespace InitData

def read (jvalue : Json) : Except Exn InitData := do
  return {
    workPath := ← jvalue.getString "work_path"
    steamcmdPath := ← jvalue.getString "steamcmd_path"
    scriptInstall := ← jvalue.getString "script_install"
    scriptReinstall := ← jvalue.getString "script_reinstall"
    scriptUpdate := ← jvalue.getString "script_update"
    scriptStart := ← jvalue.getString "script_start"
    scriptPause := ← jvalue.getString "script_pause"
    scriptUnpause := ← jvalue.getString "script_unpause"
    scriptStop := ← jvalue.getString "script_stop"
    scriptKill := ← jvalue.getString "script_kill"
    scriptRestart := ← jvalue.getString "script_restart"
    scriptStatus := ← jvalue.getString "script_status"
    scriptGetConsole := ← jvalue.getString "script_get_console"
    scriptSendCommand := ← jvalue.getString "script_send_command"
    scriptDelete := ← jvalue.getString "script_delete" }

def starter (script args : String) : String :=
  if script.isEmpty then "gameap-starter" ++ args else script

/-- The scripts that the panel has not. -/
def withDefaults (d : InitData) : InitData :=
  { d with
    scriptStart :=
      starter d.scriptStart " -t start -d \x7bdir\x7d -u \x7buser\x7d -c \"\x7bcommand\x7d\""
    scriptRestart :=
      starter d.scriptRestart " -t restart -d \x7bdir\x7d -u \x7buser\x7d -c \"\x7bcommand\x7d\""
    scriptStop := starter d.scriptStop " -t stop -d \x7bdir\x7d -u \x7buser\x7d"
    scriptStatus := starter d.scriptStatus " -t status -d \x7bdir\x7d -u \x7buser\x7d" }

end InitData

namespace DedicatedServer

open Rest

/-- `init`, the request; only a `RestapiException` is caught. -/
def init (r : CallReply) : RestM (Option InitData) := fun s =>
  match (do
    let jvalue ← Rest.get r
    orThrow (InitData.read jvalue)) s with
  | .ok d t => .ok (some d.withDefaults) t
  | .error (.restapi _) t => .ok none t
  | .error e t => .error e t

/-- What the constructor leaves, and the seconds it has slept. -/
structure Constructed where
  data : Option InitData
  slept : List Nat

/-- The loop of the constructor; `reply` has the replies to the tries, by the tries that are left. -/
def construct (reply : Nat → CallReply) (tries secondsToTry : Nat) (slept : List Nat) :
    RestM Constructed :=
  match tries with
  | 0 => return { data := none, slept }
  | tries + 1 => do
    match ← init (reply (tries + 1)) with
    | some d => return { data := some d, slept }
    | none => construct reply tries (secondsToTry * 2) (slept ++ [secondsToTry])

/-! ## What the constructor gets -/

/-- The reply gives the data. -/
def Gives (r : CallReply) (d : InitData) : Prop :=
  r.code = 200 ∧ ∃ jvalue d0, r.json = some jvalue ∧ InitData.read jvalue = .ok d0 ∧
    d = d0.withDefaults

/-- The request fails, and the constructor goes on. -/
def Fails (r : CallReply) : Prop := ¬ (r.code = 200 ∧ r.json.isSome = true)

variable {r : CallReply} {reply : Nat → CallReply} {s t : Rest} {d : InitData} {c : Constructed}

theorem of_get_eq_ok {jvalue : Json} (h : Rest.get r s = .ok jvalue t) :
    r.code = 200 ∧ r.json = some jvalue := by
  unfold Rest.get at h
  by_cases hcode : r.code = 200
  · rw [if_neg (not_not.mpr hcode)] at h
    obtain ⟨_, s', -, h⟩ := of_bind_eq_ok h
    cases hj : r.json with
    | none =>
      rw [hj] at h
      cases h
    | some j =>
      rw [hj] at h
      cases h
      exact ⟨hcode, rfl⟩
  · rw [if_pos hcode] at h
    exact absurd h (Throws.bind (fun _ => .bind fun _ => .throw _) _ _ _)

/-- A request whose reply is JSON does not throw. -/
theorem get_of_json {jvalue : Json} (hcode : r.code = 200) (hjson : r.json = some jvalue) (s : Rest) :
    Rest.get r s = .ok jvalue { s with errorsCount := 0 } := by
  unfold Rest.get
  rw [if_neg (not_not.mpr hcode), hjson]
  rfl

theorem init_some (h : init r s = .ok (some d) t) : Gives r d := by
  unfold init at h
  split at h
  · next d0 s' hread =>
    cases h
    obtain ⟨jvalue, s1, hget, hread⟩ := of_bind_eq_ok hread
    obtain ⟨hcode, hjson⟩ := of_get_eq_ok hget
    refine ⟨hcode, jvalue, d0, hjson, ?_, rfl⟩
    cases hr : InitData.read jvalue with
    | ok d1 =>
      rw [hr] at hread
      cases hread
      rfl
    | error e =>
      rw [hr] at hread
      cases hread
  · cases h
  · cases h

/-- What is read of a reply throws no `RestapiException`. -/
theorem read_throwsOnly (jvalue : Json) : ThrowsOnly (· = .logicError) (InitData.read jvalue) := by
  have hget : ∀ key, ThrowsOnly (· = .logicError) (jvalue.get key) := by
    intro key e h
    cases jvalue <;> cases h <;> rfl
  have hasString : ∀ j : Json, ThrowsOnly (· = .logicError) j.asString := by
    intro j e h
    cases j <;> cases h <;> rfl
  have hstring : ∀ key, ThrowsOnly (· = .logicError) (jvalue.getString key) := fun key =>
    (hget key).bind hasString
  unfold InitData.read
  -- the fields, one after the other
  repeat' refine .bind (hstring _) fun _ => ?_
  exact .pure _

theorem init_none (h : init r s = .ok none t) : Fails r := by
  rintro ⟨hcode, hjson⟩
  obtain ⟨jvalue, hjvalue⟩ := Option.isSome_iff_exists.mp hjson
  unfold init at h
  rw [bind_of_ok (get_of_json hcode hjvalue s)] at h
  cases hread : InitData.read jvalue with
  | ok d =>
    rw [hread] at h
    cases h
  | error e =>
    obtain rfl := read_throwsOnly jvalue e hread
    rw [hread] at h
    cases h

/-- The seconds slept behind `n` tries that fail. -/
def pauses (secondsToTry n : Nat) : List Nat := (List.range n).map fun i => secondsToTry * 2 ^ i

theorem pauses_succ (secondsToTry n : Nat) :
    pauses secondsToTry (n + 1) = secondsToTry :: pauses (secondsToTry * 2) n := by
  unfold pauses
  rw [List.range_succ_eq_map, List.map_cons, List.map_map]
  simp [Function.comp_def, pow_succ']
  grind

/-- **The constructor.** It takes the data of the first try that gives them; a try that fails is
followed by a pause, twice as long as the one before. -/
theorem construct_cases {tries secondsToTry : Nat} {slept : List Nat}
    (h : construct reply tries secondsToTry slept s = .ok c t) :
    (c = { data := none, slept := slept ++ pauses secondsToTry tries } ∧
        ∀ i < tries, Fails (reply (tries - i))) ∨
      ∃ k < tries, ∃ d, c = { data := some d, slept := slept ++ pauses secondsToTry k } ∧
        Gives (reply (tries - k)) d ∧ ∀ i < k, Fails (reply (tries - i)) := by
  induction tries generalizing s secondsToTry slept with
  | zero =>
    cases h
    refine .inl ⟨?_, fun i hi => by omega⟩
    simp [pauses]
  | succ tries ih =>
    unfold construct at h
    obtain ⟨data, s', hinit, h⟩ := of_bind_eq_ok h
    cases data with
    | some d =>
      cases h
      refine .inr ⟨0, by omega, d, ?_, init_some hinit, fun i hi => by omega⟩
      simp [pauses]
    | none =>
      have hfirst := init_none hinit
      -- the first try, and those of the rest
      have hfails : ∀ k, (∀ i < k, Fails (reply (tries - i))) →
          ∀ i < k + 1, Fails (reply (tries + 1 - i)) := by
        intro k hrest i hi
        cases i with
        | zero => exact hfirst
        | succ i =>
          rw [Nat.add_sub_add_right]
          exact hrest i (by omega)
      obtain ⟨rfl, hrest⟩ | ⟨k, hk, d, rfl, hgives, hrest⟩ := ih h
      · refine .inl ⟨?_, hfails tries hrest⟩
        rw [pauses_succ, List.append_assoc, List.singleton_append]
      · refine .inr ⟨k + 1, by omega, d, ?_, ?_, hfails k hrest⟩
        · rw [pauses_succ, List.append_assoc, List.singleton_append]
        · rwa [Nat.add_sub_add_right]

end DedicatedServer

end GameAP
