import GameAP.Classes.DedicatedServerInit
import GameAP.Config
import GameAP.ControlLinux

/-!
# The worker

`run_daemon`, from the configuration to the end of its threads, and the status that the monitor gets
of it. `shutdown`: a signal to stop ends the worker if the record of the host has been initialised,
and never if it has not. `stops_for_good`: for what reason the monitor stops without a signal.
-/

namespace GameAP

open Lib

namespace RunDaemon

open Rest DedicatedServer MonitorDaemon

/-! ## The threads -/

/-- The threads of a worker: the one of `run_daemon`, that of the daemon server, that of
`check_tasks` and the one for the scheduled tasks that it starts. -/
inductive Name where
  | main
  | daemonServer
  | checkTasks
  | serverTasks
  deriving DecidableEq, Repr

/-- Where a thread is: in `wait_ds_init`, in a pass of its loop, or in the `join`s behind it. -/
inductive Phase where
  | notStarted
  | waitDsInit
  | test
  | body
  | sleep
  | join
  | ended
  deriving DecidableEq, Repr

structure Threads where
  statusActive : Bool
  initialized : Bool
  /-- not for an empty `ds_id` -/
  tasksEnabled : Bool
  phase : Name → Phase
  /-- an exception has left a thread -/
  aborted : Bool

namespace Threads

def goto (s : Threads) (n : Name) (p : Phase) : Threads :=
  { s with phase := Function.update s.phase n p }

/-- Behind `wait_ds_init`; `check_tasks` starts a thread. -/
def begin (s : Threads) (n : Name) : Threads :=
  if n = .checkTasks then (s.goto n .test).goto .serverTasks .test else s.goto n .test

/-- The threads that a thread waits for at its end. -/
def joins (s : Threads) : Name → List Name
  | .main => if s.tasksEnabled then [.checkTasks, .daemonServer] else [.daemonServer]
  | .checkTasks => [.serverTasks]
  | _ => []

/-- The next step of a thread, if it has one. -/
def advance (s : Threads) (n : Name) : Option Threads :=
  match s.phase n with
  | .notStarted | .ended => none
  | .waitDsInit => if s.initialized then some (s.begin n) else none
  | .test => some (s.goto n (if s.statusActive then .body else .join))
  | .body => some (s.goto n .sleep)
  | .sleep => some (s.goto n .test)
  | .join => if ∀ m ∈ s.joins n, s.phase m = .ended then some (s.goto n .ended) else none

inductive Action where
  | thread (n : Name)
  /-- the handler of `SIGINT`, `SIGQUIT` and `SIGTERM` -/
  | signal
  /-- nothing catches what a pass throws; that of the daemon server does not -/
  | throws (n : Name)

inductive Step : Threads → Action → Threads → Prop where
  | thread {s t : Threads} (n : Name) : s.aborted = false → s.advance n = some t →
      Step s (.thread n) t
  | signal {s : Threads} : Step s .signal { s with statusActive := false }
  | throws {s : Threads} (n : Name) : s.phase n = .body → n ≠ .daemonServer →
      Step s (.throws n) { s with aborted := true }

/-- `run_daemon` returns. -/
def Returned (s : Threads) : Prop := s.phase .main = .ended

/-- No thread throws. -/
def Works (_ : Threads) : Action → Prop
  | .thread _ => True
  | _ => False

/-- No thread goes on. -/
def AtRest (s : Threads) : Prop := ∀ n, s.advance n = none

/-- The threads of a worker when `run_daemon` comes to its loop, or to its last `join`. -/
def start (initialized tasksEnabled : Bool) : Threads :=
  { statusActive := true
    initialized
    tasksEnabled
    phase := fun
      | .main => if tasksEnabled then .test else .join
      | .daemonServer => .waitDsInit
      | .checkTasks => if tasksEnabled then .waitDsInit else .notStarted
      | .serverTasks => .notStarted
    aborted := false }

/-! ### What one step keeps -/

/-- Behind its loop. -/
def Left (s : Threads) (n : Name) : Prop := s.phase n = .join ∨ s.phase n = .ended

structure Sound (s : Threads) : Prop where
  server : s.phase .daemonServer ≠ .notStarted
  main : s.phase .main ≠ .notStarted ∧ s.phase .main ≠ .waitDsInit
  enabled : s.tasksEnabled = true → s.initialized = true ∧ s.phase .checkTasks ≠ .notStarted ∧
    (s.phase .serverTasks = .notStarted ↔ s.phase .checkTasks = .waitDsInit)
  disabled : s.tasksEnabled = false → s.Left .main ∧ s.phase .checkTasks = .notStarted ∧
    s.phase .serverTasks = .notStarted
  started : s.phase .serverTasks ≠ .waitDsInit
  /-- a loop ends when `status_active` is false -/
  left : ∀ n, s.Left n → (n = .main ∧ s.tasksEnabled = false) ∨ s.statusActive = false
  returned : s.Returned → s.phase .daemonServer = .ended
  waiting : s.initialized = false → s.phase .daemonServer = .waitDsInit

/-- What the next step of a thread is. -/
inductive Advance (s : Threads) (n : Name) : Threads → Prop where
  | begin : s.phase n = .waitDsInit → s.initialized = true → Advance s n (s.begin n)
  | enter : s.phase n = .test → s.statusActive = true → Advance s n (s.goto n .body)
  | leave : s.phase n = .test → s.statusActive = false → Advance s n (s.goto n .join)
  | pause : s.phase n = .body → Advance s n (s.goto n .sleep)
  | wake : s.phase n = .sleep → Advance s n (s.goto n .test)
  | finish : s.phase n = .join → (∀ m ∈ s.joins n, s.phase m = .ended) →
    Advance s n (s.goto n .ended)

variable {s t u : Threads} {n : Name} {action : Action} {p : Phase}

theorem advance_cases (h : s.advance n = some t) : Advance s n t := by
  unfold advance at h
  split at h
  · cases h
  · cases h
  · next hphase =>
    split at h
    · next hinit =>
      cases h
      exact .begin hphase hinit
    · cases h
  · next hphase =>
    cases h
    cases hactive : s.statusActive with
    | true => exact .enter hphase hactive
    | false => exact .leave hphase hactive
  · next hphase =>
    cases h
    exact .pause hphase
  · next hphase =>
    cases h
    exact .wake hphase
  · next hphase =>
    split at h
    · next hjoins =>
      cases h
      exact .finish hphase hjoins
    · cases h

@[simp] theorem phase_goto (m : Name) :
    (s.goto n p).phase m = if m = n then p else s.phase m := Function.update_apply _ _ _ _

@[simp] theorem statusActive_goto : (s.goto n p).statusActive = s.statusActive := rfl

@[simp] theorem initialized_goto : (s.goto n p).initialized = s.initialized := rfl

@[simp] theorem tasksEnabled_goto : (s.goto n p).tasksEnabled = s.tasksEnabled := rfl

theorem mem_joins_main : .daemonServer ∈ s.joins .main := by
  cases h : s.tasksEnabled <;> simp [joins, h]

/-- A thread that has started goes on. Once it has left its loop it stays behind it, and it leaves
it only when `status_active` is false. -/
theorem Sound.goto (h : s.Sound) (hfrom : s.phase n ∉ [.notStarted, .waitDsInit, .ended])
    (hto : p ∉ [.notStarted, .waitDsInit]) (hkeep : s.Left n → p = .join ∨ p = .ended)
    (hleave : p = .join ∨ p = .ended → s.Left n ∨ s.statusActive = false)
    (hdone : p = .ended → n = .main → s.phase .daemonServer = .ended) : (s.goto n p).Sound where
  server := by
    rw [phase_goto]
    have := h.server
    grind
  main := by
    rw [phase_goto]
    have := h.main
    grind
  enabled htasks := by
    obtain ⟨hinit, hcheck, hstart⟩ := h.enabled htasks
    refine ⟨hinit, ?_⟩
    simp only [phase_goto]
    grind
  disabled htasks := by
    obtain ⟨hmain, hcheck, hstart⟩ := h.disabled htasks
    unfold Left at hmain hkeep ⊢
    simp only [phase_goto]
    grind
  started := by
    rw [phase_goto]
    have := h.started
    grind
  left m hm := by
    unfold Left at hm
    rw [phase_goto] at hm
    split at hm
    · next hmn =>
      obtain hl | hl := hleave hm
      · exact hmn ▸ h.left n hl
      · exact .inr hl
    · exact h.left m hm
  returned hret := by
    have hold := h.returned
    unfold Returned at hret hold
    rw [phase_goto] at hret ⊢
    grind
  waiting hinit := by
    have hwait := h.waiting hinit
    rw [phase_goto]
    grind

theorem sound_start {initialized tasksEnabled : Bool} (h : tasksEnabled = true → initialized = true) :
    (start initialized tasksEnabled).Sound := by
  cases tasksEnabled with
  | false =>
    constructor
    case left =>
      intro n hn
      cases n <;> simp_all [start, Left]
    all_goals simp [start, Left, Returned]
  | true =>
    have hinit := h rfl
    subst hinit
    constructor
    case left =>
      intro n hn
      cases n <;> simp_all [start, Left]
    all_goals simp [start, Returned]

/-- Only two threads wait for the record of the host. -/
theorem Sound.name_of_waits (h : s.Sound) (hold : s.phase n = .waitDsInit) :
    n = .daemonServer ∨ n = .checkTasks := by
  cases n with
  | main => exact absurd hold h.main.2
  | daemonServer => exact .inl rfl
  | checkTasks => exact .inr rfl
  | serverTasks => exact absurd hold h.started

theorem Sound.begin (h : s.Sound) (hold : s.phase n = .waitDsInit) (hinit : s.initialized = true) :
    (s.begin n).Sound := by
  have hleft := h.left
  unfold Left at hleft
  obtain rfl | rfl := h.name_of_waits hold
  · show (s.goto .daemonServer .test).Sound
    constructor
    case left =>
      intro m hm
      unfold Left at hm
      rw [phase_goto] at hm
      split at hm
      · simp at hm
      · exact hleft m hm
    case enabled => simpa using h.enabled
    case disabled => simpa [Left] using h.disabled
    case waiting => exact fun hnot => absurd (hinit.symm.trans hnot) (by decide)
    case returned =>
      intro hret
      exact absurd (hold.symm.trans (h.returned (by simpa [Returned] using hret))) (by decide)
    all_goals simp [h.main, h.started]
  · show ((s.goto .checkTasks .test).goto .serverTasks .test).Sound
    constructor
    case left =>
      intro m hm
      unfold Left at hm
      rw [phase_goto, phase_goto] at hm
      split at hm
      · simp at hm
      · split at hm
        · simp at hm
        · exact hleft m hm
    case enabled => simpa using fun _ => hinit
    case disabled =>
      intro htasks
      exact absurd (hold.symm.trans (h.disabled htasks).2.1) (by decide)
    case waiting => exact fun hnot => absurd (hinit.symm.trans hnot) (by decide)
    case returned => simpa [Returned] using h.returned
    all_goals simp [h.main, h.server]

theorem Sound.advance (h : s.Sound) (hadvance : s.advance n = some t) : t.Sound := by
  cases advance_cases hadvance with
  | begin hold hinit => exact h.begin hold hinit
  | enter hold _ | pause hold | wake hold =>
    exact h.goto (by simp [hold]) (by simp) (by simp [hold, Left]) (by simp) (by simp)
  | leave hold hactive =>
    exact h.goto (by simp [hold]) (by simp) (by simp) (fun _ => .inr hactive) (by simp)
  | finish hold hjoins =>
    refine h.goto (by simp [hold]) (by simp) (by simp) (fun _ => .inl (.inl hold)) ?_
    rintro - rfl
    exact hjoins _ mem_joins_main

theorem Sound.step (h : s.Sound) (hstep : Step s action t) : t.Sound := by
  cases hstep with
  | thread n _ hadvance => exact h.advance hadvance
  | signal => exact { h with left := fun n hn => .inr rfl }
  | throws n _ _ => exact { h with }

/-! ### The end -/

/-- How far a thread is from its end when `status_active` is false; one that waits for the record of
the host may start another. -/
def weight : Phase → Nat
  | .ended => 0
  | .notStarted => 0
  | .join => 1
  | .test => 2
  | .sleep => 3
  | .body => 4
  | .waitDsInit => 5

def rank (s : Threads) : Nat :=
  weight (s.phase .main) + weight (s.phase .daemonServer) + weight (s.phase .checkTasks) +
    weight (s.phase .serverTasks)

theorem rank_le (s : Threads) : s.rank ≤ 20 := by
  have hweight : ∀ p, weight p ≤ 5 := by
    intro p
    cases p <;> decide
  have hmain := hweight (s.phase .main)
  have hserver := hweight (s.phase .daemonServer)
  have hcheck := hweight (s.phase .checkTasks)
  have htasks := hweight (s.phase .serverTasks)
  unfold rank
  omega

theorem rank_goto (h : weight p < weight (s.phase n)) : (s.goto n p).rank < s.rank := by
  unfold rank
  cases n <;> simp only [phase_goto] <;> simp <;> omega

theorem rank_begin (h : s.Sound) (hold : s.phase n = .waitDsInit) : (s.begin n).rank < s.rank := by
  obtain rfl | rfl := h.name_of_waits hold
  · exact rank_goto (by rw [hold]; decide)
  · have htasks : s.tasksEnabled = true := by
      cases htasks : s.tasksEnabled with
      | true => rfl
      | false => exact absurd (hold.symm.trans (h.disabled htasks).2.1) (by decide)
    have hstart := (h.enabled htasks).2.2.mpr hold
    show ((s.goto .checkTasks .test).goto .serverTasks .test).rank < s.rank
    simp [rank, hold, hstart, weight]

/-- Every step brings a thread nearer to its end. -/
theorem rank_advance (h : s.Sound) (hactive : s.statusActive = false)
    (hadvance : s.advance n = some t) : t.rank < s.rank := by
  cases advance_cases hadvance with
  | begin hold _ => exact rank_begin h hold
  | enter _ hyes => exact absurd (hactive.symm.trans hyes) (by decide)
  | leave hold _ | pause hold | wake hold | finish hold _ =>
    exact rank_goto (by rw [hold]; decide)

theorem statusActive_advance (hadvance : s.advance n = some t) :
    t.statusActive = s.statusActive ∧ t.initialized = s.initialized := by
  cases advance_cases hadvance with
  | begin _ _ =>
    unfold Threads.begin
    split <;> exact ⟨rfl, rfl⟩
  | _ => exact ⟨rfl, rfl⟩

/-- When no thread goes on, all that have started are at their end. -/
theorem returned_of_atRest (h : s.Sound) (hinit : s.initialized = true) (hrest : s.AtRest) :
    s.Returned := by
  have hended : ∀ n, s.phase n ≠ .notStarted → (∀ m ∈ s.joins n, s.phase m = .ended) →
      s.phase n = .ended := by
    intro n hstarted hjoins
    have hn := hrest n
    unfold advance at hn
    split at hn <;> simp_all
  have hserver := hended .daemonServer h.server (by simp [joins])
  apply hended .main h.main.1
  cases htasks : s.tasksEnabled with
  | false => simpa [joins, htasks] using hserver
  | true =>
    obtain ⟨-, hcheck, hstart⟩ := h.enabled htasks
    have hwait : s.phase .checkTasks ≠ .waitDsInit := by
      intro hwait
      have hn := hrest .checkTasks
      simp [advance, hwait, hinit] at hn
    have hlast := hended .serverTasks (fun hnot => hwait (hstart.mp hnot)) (by simp [joins])
    have hfirst := hended .checkTasks hcheck (by simpa [joins] using hlast)
    simpa [joins, htasks] using ⟨hfirst, hserver⟩

theorem run_sound {s0 : Threads} (h0 : s0.Sound) (h : Run Step Any s0 s) :
    s.Sound ∧ s.initialized = s0.initialized := by
  refine h.invariant (I := fun s => s.Sound ∧ s.initialized = s0.initialized) ⟨h0, rfl⟩ ?_
  rintro s action t ⟨hs, hinit⟩ - hstep
  refine ⟨hs.step hstep, ?_⟩
  cases hstep with
  | thread n _ hadvance => exact (statusActive_advance hadvance).2.trans hinit
  | signal => exact hinit
  | throws n _ _ => exact hinit

/-- From a signal to stop on the threads go on to their end; before it, or without the record of the
host, none ends. -/
theorem run_ends {s0 : Threads} (h0 : s0.Sound) (h : Run Step Any s0 s) :
    (s.Returned → s.statusActive = false) ∧
      (s0.initialized = false → ¬ s.Returned) ∧
      (s0.initialized = true → s.statusActive = false → ∀ k t, RunN Step Works k s t →
        k ≤ 20 ∧ (t.AtRest → t.Returned)) := by
  obtain ⟨hsound, hinit⟩ := run_sound h0 h
  refine ⟨fun hret => ?_, fun hnot hret => ?_, fun hyes hactive k t hown => ?_⟩
  · have hserver := hsound.left .daemonServer (.inr (hsound.returned hret))
    exact hserver.resolve_left (by simp)
  · have hwait := hsound.waiting (hinit.trans hnot)
    rw [hsound.returned hret] at hwait
    cases hwait
  · have hstep : ∀ s action t, (s.Sound ∧ s.initialized = true ∧ s.statusActive = false) →
        Works s action → Step s action t →
        (t.Sound ∧ t.initialized = true ∧ t.statusActive = false) ∧ rank t < rank s := by
      rintro s action t ⟨hs, hinit, hactive⟩ hok hstep
      cases hstep with
      | thread n _ hadvance =>
        obtain ⟨hsame, hsame'⟩ := statusActive_advance hadvance
        exact ⟨⟨hs.advance hadvance, hsame'.trans hinit, hsame.trans hactive⟩,
          rank_advance hs hactive hadvance⟩
      | signal => exact hok.elim
      | throws => exact hok.elim
    obtain ⟨⟨ht, htinit, -⟩, hle⟩ := hown.rank_le ⟨hsound, hinit.trans hyes, hactive⟩ hstep
    have := s.rank_le
    exact ⟨by omega, returned_of_atRest ht htinit⟩

end Threads

/-! ## The start -/

/-- What `run_daemon` finds. -/
structure Boot where
  translators : Translators
  file : CfgFile
  config : Config
  token : TokenReply
  /-- the replies to the tries, by the tries that are left -/
  reply : Nat → CallReply
  /-- creating the work path and going there -/
  workDir : Except Exn PUnit

inductive Started where
  | ended (e : Ended)
  | threads (s : Threads)

/-- `std::terminate`: `SIGABRT` -/
def abort : Ended := .signal 6 true

/-- Behind the constructor of the record of the host. -/
def afterConstruct (b : Boot) (config : Config) (data : Option InitData) : Started :=
  if config.dsId = 0 then .threads (.start data.isSome false)
  else
    match data with
    | none => .ended (.exit 2)
    | some d =>
      if d.workPath = "" then .ended (.exit 2)
      else
        match b.workDir with
        | .error _ => .ended abort
        | .ok _ => .threads (.start true true)

/-- `run_daemon`, up to its threads. -/
def runDaemon (b : Boot) : Started :=
  match Config.parse b.translators b.file b.config with
  | .failed _ => .ended abort
  | .returned status config =>
    if status = -1 then .ended (.exit (-1))
    else
      match getToken b.token Rest.init with
      | .error (.restapi _) _ => .ended (.exit (-1))
      | .error _ _ => .ended abort
      | .ok _ rest =>
        match construct b.reply 3 5 [] rest with
        | .error _ _ => .ended abort
        | .ok c _ => afterConstruct b config c.data

/-- The panel gives no record of the host in three tries, or one without a work path. -/
def NoWorkPath (b : Boot) : Prop :=
  (∀ i < 3, Fails (b.reply (3 - i))) ∨
    ∃ k < 3, ∃ d, Gives (b.reply (3 - k)) d ∧ (∀ i < k, Fails (b.reply (3 - i))) ∧ d.workPath = ""

/-- A worker that finds this is not started again. -/
structure ForGood (b : Boot) : Prop where
  config : ∃ status config, Config.parse b.translators b.file b.config = .returned status config ∧
    status ≠ -1 ∧ config.dsId ≠ 0
  token : ∃ rest, getToken b.token Rest.init = .ok ⟨⟩ rest
  noWorkPath : NoWorkPath b

variable {b : Boot} {e : Ended} {s0 s : Threads}

/-- What comes behind the constructor, and what it was started with. -/
theorem afterConstruct_of_runDaemon {r : Started} (h : runDaemon b = r) :
    r = .ended (.exit (-1)) ∨ r = .ended abort ∨
      ∃ status config rest c t, Config.parse b.translators b.file b.config = .returned status config ∧
        status ≠ -1 ∧ getToken b.token Rest.init = .ok ⟨⟩ rest ∧
        construct b.reply 3 5 [] rest = .ok c t ∧ afterConstruct b config c.data = r := by
  unfold runDaemon at h
  split at h
  · exact .inr (.inl h.symm)
  · next status config hparse =>
    split at h
    · exact .inl h.symm
    · next hstatus =>
      split at h
      · exact .inl h.symm
      · exact .inr (.inl h.symm)
      · next rest htoken =>
        split at h
        · exact .inr (.inl h.symm)
        · next c t hconstruct =>
          exact .inr (.inr ⟨status, config, rest, c, t, hparse, hstatus, htoken, hconstruct, h⟩)

theorem forGood_of_exit (h : runDaemon b = .ended (.exit 2)) : ForGood b := by
  obtain hr | hr | ⟨status, config, rest, c, t, hparse, hstatus, htoken, hconstruct, h⟩ :=
    afterConstruct_of_runDaemon h
  · simp at hr
  · simp [abort] at hr
  · unfold afterConstruct at h
    split at h
    · cases h
    · next hid =>
      refine ⟨⟨status, config, hparse, hstatus, hid⟩, ⟨rest, htoken⟩, ?_⟩
      obtain ⟨rfl, hfails⟩ | ⟨k, hk, d, rfl, hgives, hfails⟩ := construct_cases hconstruct
      · exact .inl hfails
      · refine .inr ⟨k, hk, d, hgives, hfails, ?_⟩
        by_contra hpath
        simp only [if_neg hpath] at h
        split at h <;> cases h

theorem sound_of_runDaemon (h : runDaemon b = .threads s0) : s0.Sound := by
  obtain hr | hr | ⟨status, config, rest, c, t, -, -, -, -, h⟩ := afterConstruct_of_runDaemon h
  · cases hr
  · cases hr
  · unfold afterConstruct at h
    split at h
    · cases h
      exact Threads.sound_start (by simp)
    · split at h
      · cases h
      · split at h
        · cases h
        · split at h
          · cases h
          · cases h
            exact Threads.sound_start fun _ => rfl

/-! ## The end -/

/-- **The end of a worker.** It returns only behind a signal to stop, and never if the record of the
host has not been initialised. If it has, then from the signal on the threads go on for at most 20
steps, unless one throws, and then `run_daemon` has returned. A pass of a loop is a step: it is
taken to end or to throw, so a command or a request that never comes back is not among the runs. -/
theorem shutdown (hb : runDaemon b = .threads s0) (h : Run Threads.Step Any s0 s) :
    (s.Returned → s.statusActive = false) ∧
      (s0.initialized = false → ¬ s.Returned) ∧
      (s0.initialized = true → s.statusActive = false → ∀ k t,
        RunN Threads.Step Threads.Works k s t → k ≤ 20 ∧ (t.AtRest → t.Returned)) :=
  Threads.run_ends (sound_of_runDaemon hb) h

/-- What a worker that starts with `b` may end with. -/
inductive Ends (b : Boot) : Ended → Prop where
  | start {e : Ended} : runDaemon b = .ended e → Ends b e
  | returned {s0 s : Threads} : runDaemon b = .threads s0 → Run Threads.Step Any s0 s →
      s.Returned → Ends b (.exit 0)
  | aborted {s0 s : Threads} : runDaemon b = .threads s0 → Run Threads.Step Any s0 s →
      s.aborted = true → Ends b abort
  /-- `signal_error`: `exit(CHILD_NEED_WORK)` -/
  | signalError : Ends b (.exit 1)
  | killed (number : Nat) (core : Bool) : Ends b (.signal number core)

/-- The workers find what `B` says. -/
def Workers (B : Boot → Prop) (_ : MonitorDaemon) (action : MonitorDaemon.Action) : Prop :=
  ∀ pid e, action = .exit pid e → ∃ b, B b ∧ Ends b e

theorem wexitstatus_signal (number : Nat) (core : Bool) :
    wexitstatus (Ended.signal number core).status = 0 := by
  show (number % 128 + if core then 128 else 0) / 256 % 256 = 0
  split <;> omega

/-- The start of a worker ends in one of three ways. -/
theorem ended_of_runDaemon (h : runDaemon b = .ended e) :
    e = .exit (-1) ∨ e = abort ∨ e = .exit 2 := by
  obtain hr | hr | ⟨status, config, rest, c, t, -, -, -, -, h⟩ := afterConstruct_of_runDaemon h
  · cases hr
    exact .inl rfl
  · cases hr
    exact .inr (.inl rfl)
  · unfold afterConstruct at h
    split at h
    · cases h
    · split at h
      · cases h
        exact .inr (.inr rfl)
      · split at h
        · cases h
          exact .inr (.inr rfl)
        · split at h
          · cases h
            exact .inr (.inl rfl)
          · cases h

theorem exit_of_status (h : wexitstatus e.status = childNeedTerminate) (hends : Ends b e) :
    runDaemon b = .ended (.exit 2) ∧ e = .exit 2 := by
  cases hends with
  | start hstart =>
    obtain rfl | rfl | rfl := ended_of_runDaemon hstart
    · exact absurd h (by decide)
    · exact absurd h (by decide)
    · exact ⟨hstart, rfl⟩
  | returned => exact absurd h (by decide)
  | aborted => exact absurd h (by decide)
  | signalError => exact absurd h (by decide)
  | killed number core =>
    rw [wexitstatus_signal] at h
    exact absurd h (by decide)

variable {B : Boot → Prop} {garbage : Int} {m : MonitorDaemon}

theorem told_or_forGood (h : Run MonitorDaemon.Step (Workers B) (MonitorDaemon.init garbage) m)
    (hstopped : m.phase = .stopped) :
    (∃ pid signal, ToStop garbage signal ∧ .kill pid signal ∈ m.log) ∨ ∃ b, B b ∧ ForGood b := by
  obtain ⟨l, pid, ended, r, hlog, hstatus | ⟨signal, hsignal, hlast⟩⟩ :=
    (stopped_iff (h.mono fun _ _ _ => trivial)).mp hstopped
  · have hwaited : .waited pid ended ∈ m.log := by
      rw [hlog]
      simp
    obtain ⟨b, hb, hends⟩ := waited_endedAs (E := fun e => ∃ b, B b ∧ Ends b e) h hwaited
    exact .inr ⟨b, hb, forGood_of_exit (exit_of_status hstatus hends).1⟩
  · refine .inl ⟨pid, signal, hsignal, ?_⟩
    rw [hlog]
    exact List.mem_append_left _ (List.mem_of_getLast? hlast)

/-- **Why the monitor stops.** It was told to, or a worker has found a good configuration and got a
token, and the panel gave it no work path. A worker that was not told to stop and ends in another
way is replaced. -/
theorem stops_for_good
    (h : Run MonitorDaemon.Step (Workers B) (MonitorDaemon.init garbage) m) :
    (m.phase = .stopped →
      (∃ pid signal, ToStop garbage signal ∧ .kill pid signal ∈ m.log) ∨
        ∃ b, B b ∧ ForGood b) ∧
      ∀ l pid ended r, m.log = l ++ .waited pid ended :: r → ¬ Told garbage l pid →
        ∀ b, Ends b ended → ForGood b ∧ ended = .exit 2 ∨ m.Replaced r := by
  refine ⟨told_or_forGood h, fun l pid ended r hlog htold b hends => ?_⟩
  by_cases hstatus : wexitstatus ended.status = childNeedTerminate
  · obtain ⟨hexit, hended⟩ := exit_of_status hstatus hends
    exact .inl ⟨forGood_of_exit hexit, hended⟩
  · have hnot : ¬ Last garbage l pid ended := fun hlast => hlast.elim hstatus htold
    exact .inr ((after_waited (h.mono fun _ _ _ => trivial) hlog).2 hnot)

/-! ## Two workers -/

def bootFile : CfgFile :=
  .tree (List.toAList [⟨"ds_id", "1"⟩, ⟨"ca_certificate_file", "ca"⟩,
    ⟨"certificate_chain_file", "chain"⟩, ⟨"private_key_file", "key"⟩, ⟨"dh_file", "dh"⟩,
    ⟨"stats_update_period", "1"⟩, ⟨"stats_db_update_period", "1"⟩])

/-- All numbers in the file are read as 1; the panel gives a token, and this record of the host. -/
def bootWith (r : Reply) : Boot :=
  { translators := { uint := fun _ => some 1, ushort := fun _ => some 1, bool := fun _ => none }
    file := bootFile
    config := Config.plainConfig
    token := { code := 200, json := some (.obj [("token", .str "t")]), panelNow := 0, now := 0 }
    reply := fun _ =>
      { toReply := r, token := { code := 0, json := none, panelNow := 0, now := 0 } }
    workDir := .ok ⟨⟩ }

theorem runDaemon_workPath :
    runDaemon (bootWith { code := 200, json := some (.obj [("work_path", .str "/srv")]) }) =
      .threads (.start true true) := by
  rfl

theorem runDaemon_noAnswer :
    runDaemon (bootWith { code := 0, json := none }) = .ended (.exit 2) := by
  rfl

/-- A worker is told to stop. -/
def stopping : Threads := { Threads.start true true with statusActive := false }

theorem shutdown_stopping : (stopping.Returned → false = false) ∧
    (true = false → ¬ stopping.Returned) ∧
      (true = true → false = false → ∀ k t, RunN Threads.Step Threads.Works k stopping t →
        k ≤ 20 ∧ (t.AtRest → t.Returned)) :=
  shutdown runDaemon_workPath (.step (.refl _) trivial .signal)

/-- The panel refuses the token. -/
def refused : Boot :=
  { bootWith { code := 0, json := none } with
    token := { code := 401, json := none, panelNow := 0, now := 0 } }

theorem runDaemon_refused : runDaemon refused = .ended (.exit (-1)) := by
  rfl

theorem stops_for_good_lastWorker :
    ((∃ pid signal, ToStop 0 signal ∧ .kill pid signal ∈ lastWorker.log) ∨
      ∃ b, b ∈ [refused, bootWith { code := 0, json := none }] ∧ ForGood b) ∧
      (ForGood refused ∧ Ended.exit (-1) = .exit 2 ∨
        lastWorker.Replaced [.forked 101, .waited 101 (.exit 2), .unlink]) := by
  have hrun : Run MonitorDaemon.Step (Workers (· ∈ [refused, bootWith { code := 0, json := none }]))
      (MonitorDaemon.init 0) lastWorker := lastWorker_run fun s action hexit pid e he => by
    obtain rfl | rfl := hexit pid e he
    · exact ⟨refused, List.mem_cons_self, .start runDaemon_refused⟩
    · exact ⟨_, by simp, .start runDaemon_noAnswer⟩
  obtain ⟨hwhy, hreplaced⟩ := stops_for_good hrun
  refine ⟨hwhy rfl, hreplaced [.forked 100] 100 _ _ rfl ?_ refused (.start runDaemon_refused)⟩
  rintro ⟨signal, -, hlast⟩
  cases hlast

end RunDaemon

end GameAP
