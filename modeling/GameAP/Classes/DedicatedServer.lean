import GameAP.Functions.RestApi
import GameAP.Lib.Run

/-!
# The statistics of the host

`DedicatedServer::stats_process` takes a sample and `update_db` sends all samples to the panel. What
is read of the host (load, memory, network, drives) is an input, and so are the replies of the API.
`Rest::post` takes a reply 422 for a request that is done with, so `update_db` drops the samples
then. `run_conserved`: in a run without such a reply every sample is either kept or has been sent
in exactly one request that the API has answered with 201.
-/

namespace GameAP

open Lib

structure NetStats where
  rxb : Nat
  txb : Nat
  rxp : Nat
  txp : Nat
  deriving DecidableEq, Repr

/-- A sample; the tables stand in key order. -/
structure DsStats where
  time : Int
  loa : Rat × Rat × Rat
  cpuLoad : List Rat
  ramUs : Nat
  ramCache : Nat
  ifstats : List (String × NetStats)
  drvUsSpace : List (String × Nat)
  drvFreeSpace : List (String × Nat)
  deriving DecidableEq

/-- A sample in the body of the request of `update_db`. -/
structure DsStatsEntry where
  dedicatedServerId : String
  loa : String
  ram : String
  cpu : String
  ifstat : String
  ping : Nat
  drvspace : String
  time : String
  deriving DecidableEq, Repr

structure DedicatedServer where
  dsId : Nat
  ramTotal : Nat
  drvSpace : Table String Nat
  stats : List DsStats
  lastStatsUpdate : Int
  lastDbUpdate : Int
  statsUpdatePeriod : Nat
  dbUpdatePeriod : Nat
  workPath : String
  scriptStart : String
  scriptStop : String
  scriptStatus : String
  scriptDelete : String

namespace DedicatedServer

/-- A request with statistics: the samples, the body and the code of the reply. -/
structure StatsPost where
  samples : List DsStats
  body : List DsStatsEntry
  code : Int
  deriving DecidableEq

/-- The daemon's part of the statistics. -/
structure World where
  ds : DedicatedServer
  rest : Rest
  /-- not part of the daemon: the samples it has taken -/
  taken : List DsStats
  /-- not part of the daemon: the requests it has sent -/
  posts : List StatsPost

abbrev DsM := EStateM Exn World

/-- What `stats_process` reads: the clock at its three calls and the host; `fs::space` may throw. -/
structure Measure where
  now : Int
  time : Int
  loa : Rat × Rat × Rat
  cpuLoad : List Rat
  ramTotal : Nat
  ramFree : Nat
  ramCache : Nat
  ifstats : List (String × NetStats)
  /-- the used and the free space of the drives -/
  space : Except String (List (String × Nat) × List (String × Nat))
  later : Int

def setRamTotal (ramTotal : Nat) (w : World) : World := { w with ds := { w.ds with ramTotal } }

def insertStats (sample : DsStats) (later : Int) (w : World) : World :=
  { w with
    ds := { w.ds with stats := w.ds.stats ++ [sample], lastStatsUpdate := later }
    taken := w.taken ++ [sample] }

def statsProcess (i : Measure) : DsM Int := do
  let ds := (← get).ds
  if i.now - ds.lastStatsUpdate < ds.statsUpdatePeriod then return -1
  else
    modify (setRamTotal i.ramTotal)
    match i.space with
    | .error what => throw (.filesystem what)
    | .ok (us, free) =>
      modify (insertStats
        { time := i.time
          loa := i.loa
          cpuLoad := i.cpuLoad
          ramUs := (i.ramTotal + 2 ^ 64 - i.ramFree) % 2 ^ 64
          ramCache := i.ramCache
          ifstats := i.ifstats
          drvUsSpace := us
          drvFreeSpace := free } i.later)
      return 0

/-! ## The body of a request -/

/-- To the nearest, and to the even one of two. -/
def roundHalfEven (q : Rat) : Int :=
  let floor := q.floor
  if q - floor < 1 / 2 then floor
  else if 1 / 2 < q - floor then floor + 1
  else if floor % 2 = 0 then floor
  else floor + 1

/-- `%.2f` -/
def fixed2 (q : Rat) : String :=
  let n := (roundHalfEven (|q| * 100)).toNat
  (if q < 0 then "-" else "") ++ toString (n / 100) ++ "." ++ String.ofList (twoDigits (n % 100))

def ifstatLine (name : String) (s : NetStats) : String :=
  name ++ " " ++ toString s.rxb ++ " " ++ toString s.txb ++ " " ++ toString s.rxp ++ " " ++
    toString s.txp ++ "\n"

def drvspaceLine (ds : DedicatedServer) (name : String) (us : Nat) : String :=
  name ++ " " ++ toString us ++ " " ++ toString ((ds.drvSpace.lookup name).getD 0) ++ "\n"

def statsEntry (ds : DedicatedServer) (timeDiff : Int) (item : DsStats) : DsStatsEntry :=
  { dedicatedServerId := toString ds.dsId
    loa := fixed2 item.loa.1 ++ " " ++ fixed2 item.loa.2.1 ++ " " ++ fixed2 item.loa.2.2
    ram := toString item.ramUs ++ " " ++ toString item.ramCache ++ " " ++ toString ds.ramTotal
    cpu := String.join (item.cpuLoad.map fun load => fixed2 load ++ " ")
    ifstat := String.join (item.ifstats.map fun e => ifstatLine e.1 e.2)
    ping := 0
    drvspace := String.join (item.drvUsSpace.map fun e => drvspaceLine ds e.1 e.2)
    time := formatTime (item.time - timeDiff) }

/-! ## `update_db` -/

/-- The reply to the request of `update_db`, and the clock before and after it. -/
structure DbInput where
  now : Int
  reply : Rest.PostReply
  later : Int

/-- The request is sent. -/
def sent (i : DbInput) (timeDiff : Int) (w : World) : World :=
  { w with posts := w.posts ++
      [{ samples := w.ds.stats, body := w.ds.stats.map (statsEntry w.ds timeDiff),
         code := i.reply.code }] }

/-- `Rest::post` has returned. -/
def cleared (later : Int) (w : World) : World :=
  { w with ds := { w.ds with stats := [], lastDbUpdate := later } }

def onRest {α : Type} (m : Rest.RestM α) : DsM α := fun w =>
  match m w.rest with
  | .ok a rest => .ok a { w with rest }
  | .error e rest => .error e { w with rest }

/-- The `try` block; only a `RestapiException` is caught. -/
def postStats (i : DbInput) : DsM PUnit := fun w =>
  match onRest (Rest.post i.reply) w with
  | .ok _ w => .ok ⟨⟩ (cleared i.later w)
  | .error (.restapi _) w => .ok ⟨⟩ w
  | .error e w => .error e w

/-- `update_db`, with the way it gets the difference of the clocks from the state. -/
def updateDbWith (timediff : State → Except Exn Int) (i : DbInput) : DsM Int := do
  let w ← get
  if i.now - w.ds.lastDbUpdate < w.ds.dbUpdatePeriod then return -1
  else if w.ds.stats.isEmpty then return -1
  else
    let timeDiff ← orThrow (timediff w.rest.state)
    modify (sent i timeDiff)
    postStats i
    return 0

def updateDb (i : DbInput) : DsM Int := updateDbWith State.timediffInt i

/-! ## Runs -/

inductive Input where
  | statsProcess (i : Measure)
  | updateDb (i : DbInput)
  /-- a token is fetched elsewhere in the daemon -/
  | token (r : Rest.TokenReply)

def step (w : World) : Input → World
  | .statsProcess i => endState (statsProcess i) w
  | .updateDb i => endState (updateDb i) w
  | .token r => endState (onRest (Rest.getToken r)) w

/-- The request of `update_db` is sent and refused, and `Rest::post` returns. -/
def Refuses (w : World) (i : DbInput) : Prop :=
  ¬ i.now - w.ds.lastDbUpdate < w.ds.dbUpdatePeriod ∧ w.ds.stats ≠ [] ∧
    w.rest.state.timediffInt.toBool = true ∧ i.reply.code = 422 ∧
    (Rest.logRefusal i.reply).toBool = true

def Admits (w : World) : Input → Prop
  | .updateDb i => ¬ Refuses w i
  | _ => True

/-- The samples of the requests the API has answered with 201. -/
def acknowledged (w : World) : List DsStats :=
  (w.posts.filter fun p => p.code = 201).flatMap StatsPost.samples

/-- Every sample that has been taken was acknowledged in one request, or else it is still there. -/
def Conserved (w : World) : Prop := w.taken = acknowledged w ++ w.ds.stats

variable {w : World}

theorem post_ok {r : Rest.PostReply} {s t : Rest} {a : PUnit} (h : Rest.post r s = .ok a t) :
    r.code = 201 ∨ r.code = 422 ∧ (Rest.logRefusal r).toBool = true := by
  unfold Rest.post at h
  split at h
  · next hc => exact .inl hc
  · split at h
    · next hc =>
      refine .inr ⟨hc, ?_⟩
      cases hlog : Rest.logRefusal r with
      | ok u => rfl
      | error e =>
        rw [hlog] at h
        cases h
    · split at h
      · cases htoken : Rest.getToken r.token s with
        | ok u s' =>
          rw [bind_of_ok htoken] at h
          cases h
        | error e s' =>
          rw [bind_of_error htoken] at h
          cases h
      · cases h

theorem post_error {r : Rest.PostReply} {s t : Rest} {e : Exn} (h : Rest.post r s = .error e t) :
    r.code ≠ 201 := by
  intro hc
  unfold Rest.post at h
  rw [if_pos hc] at h
  cases h

theorem acknowledged_sent (i : DbInput) (timeDiff : Int) : acknowledged (sent i timeDiff w) =
    acknowledged w ++ if i.reply.code = 201 then w.ds.stats else [] := by
  unfold acknowledged sent
  rw [List.filter_append, List.flatMap_append]
  by_cases hc : i.reply.code = 201
  · simp [hc]
  · simp [hc]

theorem statsProcess_conserved (i : Measure) (h : Conserved w) :
    Conserved (endState (statsProcess i) w) := by
  have hnext : ∀ sample later t, Conserved t → Conserved (insertStats sample later t) := by
    intro sample later t ht
    show t.taken ++ [sample] = acknowledged t ++ (t.ds.stats ++ [sample])
    rw [ht, List.append_assoc]
  unfold statsProcess
  rw [endState_get_bind]
  dsimp only
  by_cases hdue : i.now - w.ds.lastStatsUpdate < w.ds.statsUpdatePeriod
  · rw [if_pos hdue]
    exact h
  · rw [if_neg hdue, endState_modify_bind]
    cases i.space with
    | error what => exact h
    | ok space => exact hnext _ _ _ h

/-- The request is acknowledged, or the samples are kept. -/
theorem postStats_conserved {i : DbInput} {timeDiff : Int} (h : Conserved w)
    (hr : ¬ (i.reply.code = 422 ∧ (Rest.logRefusal i.reply).toBool = true)) :
    Conserved (endState (postStats i) (sent i timeDiff w)) := by
  have hack := acknowledged_sent (w := w) i timeDiff
  have hkept : ∀ rest, i.reply.code ≠ 201 → Conserved { sent i timeDiff w with rest } := by
    intro rest hc
    rw [if_neg hc, List.append_nil] at hack
    show w.taken = acknowledged (sent i timeDiff w) ++ w.ds.stats
    rw [hack]
    exact h
  unfold endState postStats onRest
  cases hp : Rest.post i.reply (sent i timeDiff w).rest with
  | ok u rest =>
    have hc : i.reply.code = 201 := (post_ok hp).resolve_right hr
    rw [if_pos hc] at hack
    show w.taken = acknowledged (sent i timeDiff w) ++ []
    rw [hack, List.append_nil]
    exact h
  | error e rest =>
    cases e with
    | restapi what => exact hkept rest (post_error hp)
    | _ => exact hkept rest (post_error hp)

theorem updateDb_conserved {i : DbInput} (h : Conserved w) (hok : ¬ Refuses w i) :
    Conserved (endState (updateDb i) w) := by
  unfold updateDb updateDbWith
  rw [endState_get_bind]
  split
  · exact h
  · next hdue =>
    split
    · exact h
    · next hstats =>
      rw [endState_orThrow_bind]
      cases hdiff : w.rest.state.timediffInt with
      | error e => exact h
      | ok timeDiff =>
        dsimp only
        rw [endState_modify_bind, endState_bind_pure]
        apply postStats_conserved h
        rintro ⟨hc, hlog⟩
        refine hok ⟨hdue, ?_, ?_, hc, hlog⟩
        · simpa using hstats
        · rw [hdiff]
          rfl

theorem step_conserved {i : Input} (h : Conserved w) (hok : Admits w i) :
    Conserved (step w i) := by
  cases i with
  | statsProcess i => exact statsProcess_conserved i h
  | updateDb i => exact updateDb_conserved h hok
  | token r =>
    simp only [step, endState, onRest]
    cases Rest.getToken r w.rest with
    | ok _ rest => exact h
    | error e rest => exact h

/-- **Samples are conserved.** In every run in which the API refuses no statistics, or reading its
refusal throws: every sample taken is in exactly one acknowledged request or still kept. -/
theorem run_conserved {ds : DedicatedServer} {rest : Rest} (hds : ds.stats = [])
    (h : Run (fun w i t => t = step w i) Admits { ds, rest, taken := [], posts := [] } w) :
    Conserved w := by
  apply h.invariant (I := Conserved)
  · exact hds.symm
  · rintro w i t hw hok rfl
    exact step_conserved hw hok

/-! ## One sample -/

def idleHost : DedicatedServer :=
  { dsId := 1, ramTotal := 0, drvSpace := ∅, stats := [], lastStatsUpdate := 0, lastDbUpdate := 0,
    statsUpdatePeriod := 0, dbUpdatePeriod := 0, workPath := "/srv", scriptStart := "",
    scriptStop := "", scriptStatus := "", scriptDelete := "" }

def idleMeasure : Measure :=
  { now := 0, time := 0, loa := (0, 0, 0), cpuLoad := [], ramTotal := 0, ramFree := 0,
    ramCache := 0, ifstats := [], space := .ok ([], []), later := 0 }

/-- The panel and the daemon have the same time. -/
def sameTime : Rest := { Rest.init with state := State.set State.panelTimediff "0" ∅ }

def replyOf (code : Int) : Rest.PostReply :=
  { code, json := none, token := { code := 200, json := none, panelNow := 0, now := 0 },
    debug := false }

/-- A sample is taken and sent, and this is the code of the reply. -/
def afterPost (code : Int) : World :=
  step (step { ds := idleHost, rest := sameTime, taken := [], posts := [] }
      (.statsProcess idleMeasure))
    (.updateDb { now := 0, reply := replyOf code, later := 0 })

theorem afterPost_run {ok : World → Input → Prop} {code : Int}
    (h1 : ok { ds := idleHost, rest := sameTime, taken := [], posts := [] }
      (.statsProcess idleMeasure))
    (h2 : ∀ w, ok w (.updateDb { now := 0, reply := replyOf code, later := 0 })) :
    Run (fun w i t => t = step w i) ok
      { ds := idleHost, rest := sameTime, taken := [], posts := [] } (afterPost code) :=
  .step (.step (.refl _) h1 rfl) (h2 _) rfl

/-- The request fails, then a second sample is taken and both are sent. -/
def afterRetry : World :=
  step (step (afterPost 500) (.statsProcess idleMeasure))
    (.updateDb { now := 0, reply := replyOf 201, later := 0 })

example : (afterPost 500).ds.stats.length = 1 ∧ (acknowledged afterRetry).length = 2 := by decide

theorem acknowledged_samples : Conserved afterRetry := by
  have hadmits : ∀ w, ∀ code ≠ 422,
      Admits w (.updateDb { now := 0, reply := replyOf code, later := 0 }) := by
    rintro w code hcode ⟨-, -, -, hrefused, -⟩
    exact hcode hrefused
  have hfailed := @afterPost_run Admits 500 trivial fun w => hadmits w 500 (by decide)
  exact run_conserved rfl
    (.step (i := .updateDb { now := 0, reply := replyOf 201, later := 0 })
      (hfailed.step (i := .statsProcess idleMeasure) trivial rfl) (hadmits _ 201 (by decide)) rfl)

/-- A refused sample is dropped. -/
theorem refused_sample_dropped :
    ¬ ∀ (ds : DedicatedServer) (rest : Rest) (w : World), ds.stats = [] →
      Run (fun w i t => t = step w i) Any { ds, rest, taken := [], posts := [] } w →
      Conserved w := by
  intro h
  have hlen := congrArg List.length
    (h _ _ (afterPost 422) rfl (afterPost_run trivial fun _ => trivial))
  exact absurd hlen (by decide)

end DedicatedServer

end GameAP
