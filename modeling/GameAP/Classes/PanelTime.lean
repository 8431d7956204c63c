import GameAP.Classes.DedicatedServer
import GameAP.Classes.GameServersLoop
import GameAP.Classes.ServersTasksDates

/-!
# The panel's time

Four operations convert a time to the panel's: `stats_process` and `sync_all` of the servers,
`update_db` and `sync_to_api`. The first two take an absent difference of the clocks for 0, the
others throw. `convertsTime_iff`: after which token replies all four work.
-/

namespace GameAP

open Lib

namespace GameServersList

def statsProcessAt (st : State) (tz : Int) (i : LoopInput) : LoopM PUnit := do
  let timeDiff ← orThrow st.timediffOrZero
  statsProcess tz { i with timediff := some timeDiff }

/-- The request of `sync_all`, and the registry behind it. -/
def syncAllAt (st : State) (now : Nat → Int) (g : GameServersList) :
    Except Exn (List SyncEntry × GameServersList) := do
  let timeDiff ← st.timediffOrZero
  return (syncBody (some timeDiff) g, syncAll now g)

end GameServersList

namespace ServersTasks

def syncToApiAt (st : State) (received : Bool) (task : ServerTask) (s : ServersTasks) :
    Except Exn ServersTasks := do
  let timeDiff ← st.timediffInt
  syncToApi (some timeDiff) received task s

end ServersTasks

namespace Rest

/-- The difference that an accepted reply tells. -/
def told (r : TokenReply) : Option Int :=
  if r.code ≠ 200 then none
  else
    match r.json with
    | none => none
    | some jvalue =>
      match jvalue.get "token", jvalue.get "timestamp" with
      | .ok token, .ok timestamp =>
        if token.isString && !timestamp.isNull then some (timediff timestamp r) else none
      | _, _ => none

/-- What the daemon knows of the panel after these replies. -/
def tokens (rs : List TokenReply) : Rest := rs.foldl (fun s r => endState (getToken r) s) init

theorem getToken_state (r : TokenReply) (s : Rest) : (endState (getToken r) s).state =
    match told r with
    | none => s.state
    | some diff => s.state.set State.panelTimediff (toString diff) := by
  unfold getToken told
  by_cases hcode : r.code = 200
  · rw [if_neg (not_not.mpr hcode), if_neg (not_not.mpr hcode), endState_modify_bind]
    cases r.json with
    | none => rfl
    | some jvalue =>
      dsimp only
      rw [endState_orThrow_bind]
      cases jvalue.get "token" with
      | error e => rfl
      | ok token =>
        cases token with
        | str text =>
          have hstr : (Json.str text).isString = true := rfl
          simp only [hstr, Bool.not_true, Bool.false_eq_true, if_false]
          rw [endState_orThrow_bind]
          dsimp only [Json.asString]
          rw [endState_modify_bind, endState_orThrow_bind]
          cases jvalue.get "timestamp" with
          | error e => rfl
          | ok timestamp =>
            dsimp only
            cases timestamp.isNull <;> rfl
        | _ => cases jvalue.get "timestamp" <;> rfl
  · rw [if_pos hcode, if_pos hcode]
    rfl

/-- The state after these replies: only the first difference that is told is kept. -/
theorem tokens_timediff (rs : List TokenReply) : (tokens rs).state.get State.panelTimediff =
    match rs.findSome? told with
    | none => ""
    | some diff => toString diff := by
  have hlookup : ∀ s : Rest, (rs.foldl (fun s r => endState (getToken r) s) s).state.lookup
      State.panelTimediff = (s.state.lookup State.panelTimediff).or
        ((rs.findSome? told).map toString) := by
    induction rs with
    | nil => exact fun s => by simp
    | cons r rs ih =>
      intro s
      rw [List.foldl_cons, ih, getToken_state]
      cases ht : told r with
      | none => simp [ht]
      | some diff =>
        simp only [List.findSome?_cons, ht, Option.map_some]
        by_cases hin : State.panelTimediff ∈ s.state
        · obtain ⟨text, htext⟩ := Table.exists_lookup hin
          have hsame : s.state.set State.panelTimediff (toString diff) = s.state := if_pos hin
          rw [hsame, htext]
          rfl
        · have hnew : (s.state.set State.panelTimediff (toString diff)).lookup
              State.panelTimediff = some (toString diff) := Table.lookup_emplace_of_notMem hin
          rw [hnew, AList.lookup_eq_none.mpr hin]
          rfl
  unfold State.get tokens
  rw [hlookup]
  cases rs.findSome? told <;> rfl

end Rest

/-- The four operations convert with one number, which is 0 if none is stored. -/
def ConvertsTime (st : State) : Prop :=
  ∃ diff : Int, (st.get State.panelTimediff = "" → diff = 0) ∧
    (∀ tz i, GameServersList.statsProcessAt st tz i =
      GameServersList.statsProcess tz { i with timediff := some diff }) ∧
    (∀ now g, GameServersList.syncAllAt st now g =
      .ok (GameServersList.syncBody (some diff) g, GameServersList.syncAll now g)) ∧
    (∀ (i : DedicatedServer.DbInput) w, w.rest.state = st →
      DedicatedServer.updateDb i w = DedicatedServer.updateDbWith (fun _ => .ok diff) i w) ∧
    ∀ received task s, ServersTasks.syncToApiAt st received task s =
      ServersTasks.syncToApi (some diff) received task s

theorem convertsTime_of_int {st : State} {diff : Int} (htext : st.get State.panelTimediff ≠ "")
    (hlong : stol (st.get State.panelTimediff) = .ok diff)
    (hint : st.timediffInt = .ok diff) : ConvertsTime st := by
  have hzero : st.timediffOrZero = .ok diff := by
    unfold State.timediffOrZero
    rw [if_neg (by simpa using htext), hlong]
  refine ⟨diff, fun h => absurd h htext, fun tz i => ?_, fun now g => ?_, fun i w hw => ?_,
    fun received task s => ?_⟩
  · unfold GameServersList.statsProcessAt
    rw [orThrow_ok_bind hzero]
  · unfold GameServersList.syncAllAt
    rw [hzero]
    rfl
  · subst hw
    unfold DedicatedServer.updateDb DedicatedServer.updateDbWith
    rw [get_bind_apply, get_bind_apply, hint]
  · unfold ServersTasks.syncToApiAt
    rw [hint]
    rfl

/-- `sync_to_api` needs a number that fits an `int`. -/
theorem timediffInt_of_convertsTime {st : State} (h : ConvertsTime st) :
    st.timediffInt.toBool = true := by
  obtain ⟨diff, -, -, -, -, hsync⟩ := h
  have htask := hsync true ServersTasks.datedTask (.init .empty)
  unfold ServersTasks.syncToApiAt at htask
  cases hint : st.timediffInt with
  | ok d => rfl
  | error e =>
    rw [hint] at htask
    cases htask

/-- **The panel's time.** After any replies to requests for a token, all four operations convert
times with one number, 0 if none is stored, exactly if an accepted reply has told a difference
and the first that has fits an `int`. -/
theorem convertsTime_iff (rs : List Rest.TokenReply) :
    ConvertsTime (Rest.tokens rs).state ↔
      ∃ diff, rs.findSome? Rest.told = some diff ∧ -2 ^ 31 ≤ diff ∧ diff < 2 ^ 31 := by
  have htext := Rest.tokens_timediff rs
  constructor
  · intro h
    have hint := timediffInt_of_convertsTime h
    unfold State.timediffInt stoi at hint
    rw [htext] at hint
    cases htold : rs.findSome? Rest.told with
    | none =>
      rw [htold] at hint
      cases hint
    | some diff =>
      rw [htold] at hint
      dsimp only at hint
      rw [stringToInt_toString] at hint
      refine ⟨diff, rfl, ?_⟩
      by_contra hrange
      rw [if_neg hrange] at hint
      cases hint
  · rintro ⟨diff, htold, hlo, hhi⟩
    rw [htold] at htext
    dsimp only at htext
    have hlong : stol ((Rest.tokens rs).state.get State.panelTimediff) = .ok diff := by
      unfold stol
      rw [htext, stringToInt_toString, if_pos (by omega)]
    refine convertsTime_of_int ?_ hlong ?_
    · rw [htext]
      exact toString_ne_empty diff
    · unfold State.timediffInt stoi
      rw [htext, stringToInt_toString, if_pos ⟨hlo, hhi⟩]

/-! ## A panel that does not tell its time -/

def tokenOnly : Rest.TokenReply :=
  { code := 200, json := some (.obj [("token", .str "t")]), panelNow := 0, now := 0 }

/-- The reply is accepted, and `sync_to_api` throws. -/
theorem token_without_time :
    ¬ ∀ r : Rest.TokenReply, thrown (Rest.getToken r) Rest.init = none →
      ConvertsTime (Rest.tokens [r]).state := by
  intro h
  have hint := timediffInt_of_convertsTime (h tokenOnly rfl)
  revert hint
  decide

end GameAP
