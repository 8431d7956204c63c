import GameAP.Classes.DedicatedServer
import GameAP.Lib.Spacing

/-!
# How often statistics are taken and sent

`stats_process` and `update_db` return at once until their periods are over. With a clock that does
not go back, `run_paced` bounds how many samples and how many requests that got through there are in
any stretch of time. `run_once`: whatever the API answers, no sample is acknowledged twice or out of
order, and each request has the samples that were taken one after the other.
-/

namespace GameAP

open Lib

namespace DedicatedServer

variable {w : World}

/-- The clock and the memory that are in a sample. -/
structure Measure.Took (i : Measure) (sample : DsStats) : Prop where
  time : sample.time = i.time
  ramUs : sample.ramUs = (i.ramTotal + 2 ^ 64 - i.ramFree) % 2 ^ 64
  ramCache : sample.ramCache = i.ramCache

/-- Nothing happens, or the period is over; then a sample is taken, if the drives can be asked. -/
theorem statsProcess_cases (i : Measure) (w : World) :
    (i.now < w.ds.lastStatsUpdate + w.ds.statsUpdatePeriod ∧ endState (statsProcess i) w = w) ∨
    (w.ds.lastStatsUpdate + w.ds.statsUpdatePeriod ≤ i.now ∧
      (endState (statsProcess i) w = setRamTotal i.ramTotal w ∨
        ∃ sample, i.Took sample ∧
          endState (statsProcess i) w = insertStats sample i.later (setRamTotal i.ramTotal w))) := by
  unfold statsProcess
  rw [endState_get_bind]
  dsimp only
  by_cases hdue : i.now - w.ds.lastStatsUpdate < w.ds.statsUpdatePeriod
  · rw [if_pos hdue]
    exact .inl ⟨by omega, rfl⟩
  · rw [if_neg hdue, endState_modify_bind]
    refine .inr ⟨by omega, ?_⟩
    cases i.space with
    | error what => exact .inl rfl
    | ok space => exact .inr ⟨_, ⟨rfl, rfl, rfl⟩, rfl⟩

/-- Nothing happens, or the period is over and a request with the samples is sent; then they are
kept, if `Rest::post` throws. -/
theorem updateDb_cases (i : DbInput) (w : World) : endState (updateDb i) w = w ∨
    (w.ds.lastDbUpdate + w.ds.dbUpdatePeriod ≤ i.now ∧ w.ds.stats ≠ [] ∧
      ∃ timeDiff rest,
        (i.reply.code ≠ 201 ∧ endState (updateDb i) w = { sent i timeDiff w with rest }) ∨
          endState (updateDb i) w = cleared i.later { sent i timeDiff w with rest }) := by
  unfold updateDb updateDbWith
  rw [endState_get_bind]
  split
  · exact .inl rfl
  · next hdue =>
    split
    · exact .inl rfl
    · next hstats =>
      rw [endState_orThrow_bind]
      cases w.rest.state.timediffInt with
      | error e => exact .inl rfl
      | ok timeDiff =>
        dsimp only
        rw [endState_modify_bind, endState_bind_pure]
        refine .inr ⟨by omega, by simpa using hstats, timeDiff, ?_⟩
        unfold endState postStats onRest
        cases hp : Rest.post i.reply (sent i timeDiff w).rest with
        | ok u rest => exact ⟨rest, .inr rfl⟩
        | error e rest =>
          cases e with
          | restapi what => exact ⟨rest, .inl ⟨post_error hp, rfl⟩⟩
          | _ => exact ⟨rest, .inl ⟨post_error hp, rfl⟩⟩

theorem token_cases (r : Rest.TokenReply) (w : World) :
    ∃ rest, step w (.token r) = { w with rest } := by
  simp only [step, endState, onRest]
  cases Rest.getToken r w.rest with
  | ok _ rest => exact ⟨rest, rfl⟩
  | error e rest => exact ⟨rest, rfl⟩

/-! ## Periods -/

/-- The statistics, and the requests that have got through: `Rest::post` has returned. -/
structure Timed where
  world : World
  through : List DbInput

/-- A request is sent, and no sample is kept. -/
def getsThrough (w w' : World) : Bool :=
  decide (w.posts.length < w'.posts.length) && w'.ds.stats.isEmpty

def Timed.step (c : Timed) (i : Input) : Timed :=
  let w := DedicatedServer.step c.world i
  match i with
  | .updateDb i =>
    { world := w, through := c.through ++ if getsThrough c.world w then [i] else [] }
  | _ => { c with world := w }

/-- During one call the clock does not go back. -/
def Timely (_ : Timed) : Input → Prop
  | .statsProcess i => i.now ≤ i.time ∧ i.time ≤ i.later
  | .updateDb i => i.now ≤ i.later
  | .token _ => True

/-- The periods are those of `host`, and what happened was apart by them. -/
structure Paced (host : DedicatedServer) (c : Timed) : Prop where
  statsPeriod : c.world.ds.statsUpdatePeriod = host.statsUpdatePeriod
  dbPeriod : c.world.ds.dbUpdatePeriod = host.dbUpdatePeriod
  samples : Spaced DsStats.time host.statsUpdatePeriod c.world.taken
  samplesBefore : ∀ s ∈ c.world.taken, s.time ≤ c.world.ds.lastStatsUpdate
  requests : Spaced DbInput.now host.dbUpdatePeriod c.through
  requestsBefore : ∀ i ∈ c.through, i.now ≤ c.world.ds.lastDbUpdate

variable {host : DedicatedServer} {c d : Timed}

/-- The periods, and when something was last done. -/
def pace (ds : DedicatedServer) : (Nat × Nat) × Int × Int :=
  ((ds.statsUpdatePeriod, ds.dbUpdatePeriod), ds.lastStatsUpdate, ds.lastDbUpdate)

/-- No sample is taken, and no request gets through. -/
theorem Paced.of_eq (h : Paced host c) (hpace : pace w.ds = pace c.world.ds)
    (htaken : w.taken = c.world.taken) : Paced host { c with world := w } := by
  obtain ⟨hperiods, hlasts⟩ := Prod.mk.inj hpace
  obtain ⟨hstats, hdb⟩ := Prod.mk.inj hperiods
  obtain ⟨hlast, hlastDb⟩ := Prod.mk.inj hlasts
  refine ⟨hstats.trans h.statsPeriod, hdb.trans h.dbPeriod, ?_, ?_, h.requests, ?_⟩
  · show Spaced _ _ w.taken
    rw [htaken]
    exact h.samples
  · show ∀ s ∈ w.taken, s.time ≤ w.ds.lastStatsUpdate
    rw [htaken, hlast]
    exact h.samplesBefore
  · show ∀ i ∈ c.through, i.now ≤ w.ds.lastDbUpdate
    rw [hlastDb]
    exact h.requestsBefore

theorem Paced.of_sample (h : Paced host c) {sample : DsStats} {i : Measure}
    (hdue : c.world.ds.lastStatsUpdate + c.world.ds.statsUpdatePeriod ≤ i.now)
    (hsample : sample.time = i.time) (hi : i.now ≤ i.time ∧ i.time ≤ i.later) :
    Paced host { c with world := insertStats sample i.later (setRamTotal i.ramTotal c.world) } where
  statsPeriod := h.statsPeriod
  dbPeriod := h.dbPeriod
  samples := by
    refine h.samples.concat fun s hs => ?_
    have hbefore := h.samplesBefore s hs
    rw [h.statsPeriod] at hdue
    omega
  samplesBefore := by
    intro s hs
    show s.time ≤ i.later
    rcases List.mem_append.mp hs with hs | hs
    · have hbefore := h.samplesBefore s hs
      omega
    · rw [List.mem_singleton.mp hs]
      omega
  requests := h.requests
  requestsBefore := h.requestsBefore

theorem Paced.of_request (h : Paced host c) {i : DbInput} {timeDiff : Int} {rest : Rest}
    (hdue : c.world.ds.lastDbUpdate + c.world.ds.dbUpdatePeriod ≤ i.now) (hi : i.now ≤ i.later) :
    Paced host { world := cleared i.later { sent i timeDiff c.world with rest },
                 through := c.through ++ [i] } where
  statsPeriod := h.statsPeriod
  dbPeriod := h.dbPeriod
  samples := h.samples
  samplesBefore := h.samplesBefore
  requests := by
    refine h.requests.concat fun j hj => ?_
    have hbefore := h.requestsBefore j hj
    rw [h.dbPeriod] at hdue
    omega
  requestsBefore := by
    intro j hj
    show j.now ≤ i.later
    rcases List.mem_append.mp hj with hj | hj
    · have hbefore := h.requestsBefore j hj
      omega
    · rw [List.mem_singleton.mp hj]
      exact hi

theorem getsThrough_of_length {w' : World} (h : w'.posts.length ≤ w.posts.length) :
    getsThrough w w' = false := by
  unfold getsThrough
  rw [decide_eq_false (by omega), Bool.false_and]

theorem getsThrough_of_stats {w' : World} (h : w'.ds.stats ≠ []) : getsThrough w w' = false := by
  unfold getsThrough
  rw [List.isEmpty_eq_false_iff.mpr h, Bool.and_false]

theorem step_paced {i : Input} (h : Paced host c) (hok : Timely c i) : Paced host (c.step i) := by
  cases i with
  | statsProcess i =>
    show Paced host { c with world := endState (statsProcess i) c.world }
    rcases statsProcess_cases i c.world with ⟨-, heq⟩ | ⟨hdue, heq | ⟨sample, htook, heq⟩⟩
    · rw [heq]
      exact h
    · rw [heq]
      exact h.of_eq rfl rfl
    · rw [heq]
      exact h.of_sample hdue htook.time hok
  | token r =>
    obtain ⟨rest, heq⟩ := token_cases r c.world
    show Paced host { c with world := DedicatedServer.step c.world (.token r) }
    rw [heq]
    exact h.of_eq rfl rfl
  | updateDb i =>
    show Paced host { world := endState (updateDb i) c.world
                      through := c.through ++
                        if getsThrough c.world (endState (updateDb i) c.world) then [i] else [] }
    rcases updateDb_cases i c.world with heq | ⟨hdue, hstats, timeDiff, rest, ⟨-, heq⟩ | heq⟩
    · rw [heq, getsThrough_of_length (Nat.le_refl _), if_neg Bool.false_ne_true, List.append_nil]
      exact h
    · have hkept : getsThrough c.world { sent i timeDiff c.world with rest } = false :=
        getsThrough_of_stats hstats
      rw [heq, hkept, if_neg Bool.false_ne_true, List.append_nil]
      exact h.of_eq rfl rfl
    · have hsent : getsThrough c.world (cleared i.later { sent i timeDiff c.world with rest }) =
          true := by
        simp [getsThrough, sent, cleared]
      rw [heq, hsent, if_pos rfl]
      exact h.of_request hdue hok

/-- **How often.** In every run in which the clock does not go back during a call (it may between
calls), whatever the replies of the API and the host: of the samples taken, and of the requests that
have got through, any stretch of time from `a` to `b` has at most one more than periods. -/
theorem run_paced {rest : Rest} {a b : Int} (hab : a ≤ b)
    (h : Run (fun c i d => d = Timed.step c i) Timely
      { world := { ds := host, rest, taken := [], posts := [] }, through := [] } c) :
    ((c.world.taken.filter fun s => decide (a ≤ s.time ∧ s.time ≤ b)).length : Int) *
        host.statsUpdatePeriod ≤ b - a + host.statsUpdatePeriod ∧
      ((c.through.filter fun i => decide (a ≤ i.now ∧ i.now ≤ b)).length : Int) *
        host.dbUpdatePeriod ≤ b - a + host.dbUpdatePeriod := by
  have hpaced : Paced host c := by
    apply h.invariant (I := Paced host)
    · exact ⟨rfl, rfl, .nil, fun _ hs => absurd hs List.not_mem_nil, .nil,
        fun _ hi => absurd hi List.not_mem_nil⟩
    · rintro c i d hc hok rfl
      exact step_paced hc hok
  exact ⟨hpaced.samples.window (Int.natCast_nonneg _) hab,
    hpaced.requests.window (Int.natCast_nonneg _) hab⟩

/-! ## Two samples and a request between them -/

def tenHost : DedicatedServer := { idleHost with statsUpdatePeriod := 10, dbUpdatePeriod := 10 }

def sampleAt (now : Int) : Input :=
  .statsProcess { idleMeasure with now, time := now, later := now }

def requestAt (now : Int) : Input := .updateDb { now, reply := replyOf 201, later := now }

def tenStart : Timed :=
  { world := { ds := tenHost, rest := sameTime, taken := [], posts := [] }, through := [] }

def twoSamples : Timed := ((tenStart.step (sampleAt 10)).step (requestAt 11)).step (sampleAt 21)

example : twoSamples.world.taken.map DsStats.time = [10, 21] ∧
    twoSamples.through.map DbInput.now = [11] := by decide

theorem paced_twoSamples :
    ((twoSamples.world.taken.filter fun s => decide (10 ≤ s.time ∧ s.time ≤ 21)).length : Int) *
        tenHost.statsUpdatePeriod ≤ 21 - 10 + tenHost.statsUpdatePeriod ∧
      ((twoSamples.through.filter fun i => decide (10 ≤ i.now ∧ i.now ≤ 21)).length : Int) *
        tenHost.dbUpdatePeriod ≤ 21 - 10 + tenHost.dbUpdatePeriod := by
  have hsample : ∀ c now, Timely c (sampleAt now) := fun _ _ =>
    And.intro (Int.le_refl _) (Int.le_refl _)
  have hrequest : ∀ c now, Timely c (requestAt now) := fun _ now => Int.le_refl now
  exact run_paced (by decide)
    (.step (.step (.step (.refl _) (hsample _ 10) rfl) (hrequest _ 11) rfl) (hsample _ 21) rfl)

/-! ## Which samples are sent -/

structure Once (w : World) : Prop where
  order : (acknowledged w ++ w.ds.stats).Sublist w.taken
  kept : w.ds.stats <:+ w.taken
  requests : ∀ p ∈ w.posts, p.samples ≠ [] ∧ p.samples <:+: w.taken

theorem Once.of_sample (h : Once w) (sample : DsStats) (later : Int) (ramTotal : Nat) :
    Once (insertStats sample later (setRamTotal ramTotal w)) where
  order := by
    show (acknowledged w ++ (w.ds.stats ++ [sample])).Sublist (w.taken ++ [sample])
    rw [← List.append_assoc]
    exact h.order.append (List.Sublist.refl _)
  kept := by
    obtain ⟨before, hbefore⟩ := h.kept
    refine ⟨before, ?_⟩
    show before ++ (w.ds.stats ++ [sample]) = w.taken ++ [sample]
    rw [← List.append_assoc, hbefore]
  requests p hp := by
    obtain ⟨hne, hinfix⟩ := h.requests p hp
    exact ⟨hne, hinfix.trans (List.prefix_append _ _).isInfix⟩

/-- A request has the samples that are kept. -/
theorem Once.sent_requests (h : Once w) (i : DbInput) (timeDiff : Int) (hstats : w.ds.stats ≠ []) :
    ∀ p ∈ (sent i timeDiff w).posts, p.samples ≠ [] ∧ p.samples <:+: w.taken := by
  intro p hp
  rcases List.mem_append.mp hp with hp | hp
  · exact h.requests p hp
  · rw [List.mem_singleton.mp hp]
    exact ⟨hstats, h.kept.isInfix⟩

theorem step_once (h : Once w) (i : Input) : Once (step w i) := by
  cases i with
  | statsProcess i =>
    show Once (endState (statsProcess i) w)
    rcases statsProcess_cases i w with ⟨-, heq⟩ | ⟨-, heq | ⟨sample, -, heq⟩⟩
    · rw [heq]
      exact h
    · rw [heq]
      exact ⟨h.order, h.kept, h.requests⟩
    · rw [heq]
      exact h.of_sample _ _ _
  | token r =>
    obtain ⟨rest, heq⟩ := token_cases r w
    rw [heq]
    exact ⟨h.order, h.kept, h.requests⟩
  | updateDb i =>
    show Once (endState (updateDb i) w)
    rcases updateDb_cases i w with heq | ⟨-, hstats, timeDiff, rest, ⟨hcode, heq⟩ | heq⟩
    · rw [heq]
      exact h
    · have hack := acknowledged_sent (w := w) i timeDiff
      rw [if_neg hcode, List.append_nil] at hack
      rw [heq]
      refine ⟨?_, h.kept, h.sent_requests i timeDiff hstats⟩
      show (acknowledged (sent i timeDiff w) ++ w.ds.stats).Sublist w.taken
      rw [hack]
      exact h.order
    · rw [heq]
      refine ⟨?_, List.nil_suffix, h.sent_requests i timeDiff hstats⟩
      show (acknowledged (sent i timeDiff w) ++ []).Sublist w.taken
      rw [acknowledged_sent, List.append_nil]
      split
      · exact h.order
      · rw [List.append_nil]
        exact (List.sublist_append_left _ _).trans h.order

/-- **Once and in order.** In every run, whatever the API answers (refusals included): the samples
that have been acknowledged, with those that are kept, are samples that were taken, each at most
once and in their order, and each request had some samples that were taken one after the other. -/
theorem run_once {ds : DedicatedServer} {rest : Rest} (hds : ds.stats = [])
    (h : Run (fun w i t => t = step w i) Any { ds, rest, taken := [], posts := [] } w) :
    (acknowledged w ++ w.ds.stats).Sublist w.taken ∧
      ∀ p ∈ w.posts, p.samples ≠ [] ∧ p.samples <:+: w.taken := by
  have honce : Once w := by
    apply h.invariant (I := Once)
    · refine ⟨?_, ?_, fun p hp => absurd hp List.not_mem_nil⟩
      · show ([] ++ ds.stats).Sublist []
        rw [hds]
        exact List.Sublist.refl _
      · show ds.stats <:+ []
        exact hds.symm ▸ List.suffix_refl []
    · rintro w i t hw _ rfl
      exact step_once hw i
  exact ⟨honce.order, honce.requests⟩

theorem once_refused : (acknowledged (afterPost 422) ++ (afterPost 422).ds.stats).Sublist
      (afterPost 422).taken ∧
    ∀ p ∈ (afterPost 422).posts, p.samples ≠ [] ∧ p.samples <:+: (afterPost 422).taken :=
  run_once rfl (afterPost_run trivial fun _ => trivial)

end DedicatedServer

end GameAP
