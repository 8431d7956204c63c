import GameAP.Lib.Replay
import Mathlib.Data.Finset.Card

/-!
# The monitor

`monitor_daemon` forks the worker, passes it the signals it gets itself, and forks it again when it
has ended. The monitor, its children and the signals that are pending for it take their steps in
any order. `Supervisor` says what the monitor is for; `supervises`: what it does in any run is what
a supervisor may do.
-/

namespace GameAP

open Lib

namespace MonitorDaemon

/-- The signals of `sigset`, and all other numbers. -/
inductive Signal where
  | hup
  | int
  | quit
  | usr1
  | term
  | chld
  | other (number : Int)
  deriving DecidableEq, Repr

/-- The signal with this number. -/
def Signal.ofNumber (number : Int) : Signal :=
  if number = 1 then .hup else if number = 2 then .int else if number = 3 then .quit
  else if number = 10 then .usr1 else if number = 15 then .term else if number = 17 then .chld
  else .other number

/-- In `sigset`. -/
def Signal.Awaited : Signal → Prop
  | .other _ => False
  | _ => True

/-- How a process has ended. -/
inductive Ended where
  | exit (code : Int)
  | signal (number : Nat) (core : Bool)
  deriving DecidableEq, Repr

/-- The status that `wait` stores. -/
def Ended.status : Ended → Nat
  | .exit code => (code % 256).toNat * 256
  | .signal number core => number % 128 + if core then 128 else 0

/-- `WEXITSTATUS` -/
def wexitstatus (status : Nat) : Nat := status / 256 % 256

/-- `CHILD_NEED_TERMINATE` -/
def childNeedTerminate : Nat := 2

structure Child where
  pid : Int
  ended : Option Ended
  deriving DecidableEq, Repr

/-- Where the monitor is: at the head of the loop, in `sigwaitinfo`, in the `wait` for a `SIGCHLD`
or in the one behind a signal to stop, in `sleep_for`, or back. -/
inductive Phase where
  | top
  | sigwaitinfo
  | waitChld
  | waitStop
  | sleep
  | stopped
  deriving DecidableEq, Repr

/-- What the monitor does to the processes of the system. -/
inductive Event where
  | forkFailed
  | forked (pid : Int)
  | kill (pid : Int) (signal : Signal)
  | waited (pid : Int) (ended : Ended)
  /-- `unlink(PID_FILE)` -/
  | unlink
  deriving DecidableEq, Repr

end MonitorDaemon

open MonitorDaemon in
structure MonitorDaemon where
  phase : Phase
  needStart : Bool
  pid : Int
  /-- what `siginfo` holds, which nothing has initialised -/
  siSigno : Signal
  children : List Child
  pending : Finset Signal
  log : List Event
  deriving DecidableEq

namespace MonitorDaemon

def init (garbage : Int) : MonitorDaemon :=
  { phase := .top, needStart := true, pid := -1, siSigno := .ofNumber garbage, children := []
    pending := ∅, log := [] }

/-! ## The loop -/

/-- `pid = fork()` in the parent; `-1` is a fork that failed. -/
def fork (s : MonitorDaemon) (pid : Int) : MonitorDaemon :=
  if pid = -1 then { s with pid, log := s.log ++ [.forkFailed] }
  else { s with pid, children := s.children ++ [⟨pid, none⟩], log := s.log ++ [.forked pid] }

/-- From the head of the loop to the signals, or to the end of the pass if there is no worker. -/
def start (s : MonitorDaemon) (pid : Int) : MonitorDaemon :=
  let s := if s.needStart then s.fork pid else s
  { s with needStart := true, phase := if s.pid = -1 then .sleep else .sigwaitinfo }

def kill (s : MonitorDaemon) (signal : Signal) : MonitorDaemon :=
  { s with log := s.log ++ [.kill s.pid signal] }

/-- Behind `sigwaitinfo`, whose result is not looked at. -/
def handle (s : MonitorDaemon) : MonitorDaemon :=
  match s.siSigno with
  | .chld => { s with phase := .waitChld }
  | .usr1 => { s.kill .usr1 with needStart := false, phase := .sleep }
  | .hup => { s.kill .hup with needStart := false, phase := .sleep }
  | signal => { s.kill signal with phase := .waitStop }

/-- `sigwaitinfo` takes a pending signal. -/
def take (s : MonitorDaemon) (signal : Signal) : MonitorDaemon :=
  { s with pending := s.pending.erase signal, siSigno := signal }

/-- Behind the loop. -/
def stop (s : MonitorDaemon) : MonitorDaemon :=
  { s with phase := .stopped, log := s.log ++ [.unlink] }

/-- Behind a `wait` that has left `status`. -/
def afterWait (s : MonitorDaemon) (status : Nat) : MonitorDaemon :=
  if s.phase = .waitStop then s.stop
  else if wexitstatus status = childNeedTerminate then s.stop
  else { s with phase := .sleep }

/-- `wait` gives the child up. -/
def wait (s : MonitorDaemon) (child : Child) (ended : Ended) : MonitorDaemon :=
  { s with children := s.children.erase child, log := s.log ++ [.waited child.pid ended] }

/-! ## Steps -/

inductive Action where
  /-- the monitor goes on at the head of the loop; `pid` is what `fork` returns if it forks -/
  | start (pid : Int)
  /-- `sigwaitinfo` takes a signal -/
  | take (signal : Signal)
  /-- `sigwaitinfo` fails and leaves `siginfo` as it is: the monitor was stopped and continued -/
  | interrupted
  /-- `wait` returns this child -/
  | wait (child : Child)
  /-- `wait` fails, and `status` is what it was before -/
  | waitFails (status : Nat)
  | wake
  /-- a signal is sent to the monitor -/
  | raise (signal : Signal)
  /-- the child `pid` ends -/
  | exit (pid : Int) (ended : Ended)
  /-- the child `pid` is stopped or continued -/
  | stopped (pid : Int)
  deriving DecidableEq

/-- What the monitor itself does. -/
def Action.Own : Action → Prop
  | .interrupted | .raise _ | .exit _ _ | .stopped _ => False
  | _ => True

def raise (s : MonitorDaemon) (signal : Signal) : MonitorDaemon :=
  { s with pending := insert signal s.pending }

/-- In one of the two calls of `wait`. -/
def Waits (s : MonitorDaemon) : Prop := s.phase = .waitChld ∨ s.phase = .waitStop

instance (s : MonitorDaemon) : Decidable s.Waits := inferInstanceAs (Decidable (_ ∨ _))

/-- A fork fails or gives a positive number that no child has. -/
def Forks (s : MonitorDaemon) (pid : Int) : Prop :=
  pid = -1 ∨ 0 < pid ∧ ∀ child ∈ s.children, child.pid ≠ pid

instance (s : MonitorDaemon) (pid : Int) : Decidable (s.Forks pid) :=
  inferInstanceAs (Decidable (_ ∨ _))

inductive Step : MonitorDaemon → Action → MonitorDaemon → Prop where
  | start {s : MonitorDaemon} {pid : Int} : s.phase = .top → s.Forks pid →
      Step s (.start pid) (s.start pid)
  | take {s : MonitorDaemon} (signal : Signal) : s.phase = .sigwaitinfo → signal ∈ s.pending →
      Step s (.take signal) (s.take signal).handle
  | interrupted {s : MonitorDaemon} : s.phase = .sigwaitinfo → Step s .interrupted s.handle
  | wait {s : MonitorDaemon} (child : Child) (ended : Ended) : s.Waits → child ∈ s.children →
      child.ended = some ended →
      Step s (.wait child) ((s.wait child ended).afterWait ended.status)
  | waitFails {s : MonitorDaemon} {status : Nat} : s.Waits → s.children = [] →
      Step s (.waitFails status) (s.afterWait status)
  | wake {s : MonitorDaemon} : s.phase = .sleep → Step s .wake { s with phase := .top }
  | raise {s : MonitorDaemon} (signal : Signal) : signal.Awaited →
      Step s (.raise signal) (s.raise signal)
  | exit {s : MonitorDaemon} (child : Child) (ended : Ended) : child ∈ s.children →
      child.ended = none →
      Step s (.exit child.pid ended)
        ({ s with children := s.children.map fun c =>
            if c = child then { c with ended := some ended } else c }.raise .chld)
  | stopped {s : MonitorDaemon} (child : Child) : child ∈ s.children → child.ended = none →
      Step s (.stopped child.pid) (s.raise .chld)

/-! ## What the monitor is for -/

/-- There is at most one worker. While it is up it is sent signals; one that is not to be passed on
is the last. A worker that ends is replaced, unless it was sent such a signal or asks for it by its
status. -/
inductive Supervisor where
  | idle
  | up (pid : Int)
  | stopping (pid : Int)
  | finished
  | gone
  deriving DecidableEq, Repr

def Supervisor.signalled (pid : Int) : Signal → Option Supervisor
  | .hup | .usr1 => some (.up pid)
  | .int | .quit | .term | .other _ => some (.stopping pid)
  | .chld => none

def Supervisor.next : Supervisor → Event → Option Supervisor
  | .idle, .forkFailed => some .idle
  | .idle, .forked pid => some (.up pid)
  | .up pid, .kill target signal => if target = pid then signalled pid signal else none
  | .up pid, .waited child ended =>
    if child = pid then
      some (if wexitstatus ended.status = childNeedTerminate then .finished else .idle)
    else none
  | .stopping pid, .waited child _ => if child = pid then some .finished else none
  | .finished, .unlink => some .gone
  | _, _ => none

/-- The number of the worker that has not been waited for. -/
def Supervisor.worker : Supervisor → Option Int
  | .up pid | .stopping pid => some pid
  | _ => none

abbrev Accepts (log : List Event) (a : Supervisor) : Prop :=
  replay Supervisor.next .idle log = some a

/-- The only child is the worker `pid`. -/
def Worker (s : MonitorDaemon) (pid : Int) : Prop :=
  s.pid = pid ∧ 0 < pid ∧ ∃ ended, s.children = [⟨pid, ended⟩]

/-- Between two passes of the loop. -/
def Between (s : MonitorDaemon) : Prop := s.phase = .top ∨ s.phase = .sleep

/-- The monitor does the work of `a`. -/
def Does (s : MonitorDaemon) : Supervisor → Prop
  | .idle => s.Between ∧ s.needStart = true ∧ s.children = []
  | .up pid => s.Worker pid ∧ (s.Between ∧ s.needStart = false ∨
      (s.phase = .sigwaitinfo ∨ s.phase = .waitChld) ∧ s.needStart = true)
  | .stopping pid => s.Worker pid ∧ s.phase = .waitStop
  | .finished => False
  | .gone => s.phase = .stopped ∧ s.children = []

variable {s t : MonitorDaemon} {a b : Supervisor} {action : Action} {pid : Int} {signal : Signal}

/-! ### One lemma for each step -/

/-- A step that adds `es` to the log leads from the work of `a` on. -/
def Goes (s t : MonitorDaemon) (a : Supervisor) : Prop :=
  ∃ es b, t.log = s.log ++ es ∧ replay Supervisor.next a es = some b ∧ t.Does b

/-- A step that the log does not show. -/
theorem goes_silent (hlog : t.log = s.log) (h : t.Does a) : Goes s t a :=
  ⟨[], a, by rw [hlog, List.append_nil], rfl, h⟩

theorem goes_start (h : s.Does a) (htop : s.phase = .top) (hf : s.Forks pid) :
    Goes s (s.start pid) a := by
  cases a with
  | idle =>
    obtain ⟨-, hneed, hchildren⟩ := h
    unfold start fork
    rw [if_pos hneed]
    by_cases hpid : pid = -1
    · subst hpid
      exact ⟨[.forkFailed], .idle, rfl, rfl, .inr rfl, rfl, hchildren⟩
    · rw [if_neg hpid]
      have hpos : 0 < pid := (hf.resolve_left hpid).1
      refine ⟨[.forked pid], .up pid, rfl, rfl, ⟨rfl, hpos, none, ?_⟩, .inr ⟨.inl ?_, rfl⟩⟩
      · simp [hchildren]
      · simp [hpid]
  | up worker =>
    obtain ⟨⟨hpid, hpos, hchildren⟩, hat⟩ := h
    obtain ⟨-, hneed⟩ | ⟨hphase, -⟩ := hat
    · refine goes_silent ?_ ⟨⟨?_, hpos, ?_⟩, .inr ⟨.inl ?_, rfl⟩⟩
      · simp [start, hneed]
      · simpa [start, hneed] using hpid
      · simpa [start, hneed] using hchildren
      · have hne : s.pid ≠ -1 := by omega
        simp [start, hneed, hne]
    · rw [htop] at hphase
      simp at hphase
  | stopping worker => exact absurd (htop.symm.trans h.2) (by decide)
  | finished => exact h.elim
  | gone => exact absurd (htop.symm.trans h.1) (by decide)

/-- In `sigwaitinfo` there is a worker. -/
theorem up_of_sigwaitinfo (h : s.Does a) (hphase : s.phase = .sigwaitinfo) :
    ∃ worker, a = .up worker ∧ s.Worker worker ∧ s.needStart = true := by
  cases a with
  | idle => obtain ⟨hat | hat, -⟩ := h <;> exact absurd (hphase.symm.trans hat) (by decide)
  | up worker =>
    obtain ⟨hworker, ⟨hat | hat, -⟩ | ⟨-, hneed⟩⟩ := h
    · exact absurd (hphase.symm.trans hat) (by decide)
    · exact absurd (hphase.symm.trans hat) (by decide)
    · exact ⟨worker, rfl, hworker, hneed⟩
  | stopping worker => exact absurd (hphase.symm.trans h.2) (by decide)
  | finished => exact h.elim
  | gone => exact absurd (hphase.symm.trans h.1) (by decide)

/-- In a `wait` there is a worker. -/
theorem worker_of_waits (h : s.Does a) (hwaits : s.Waits) :
    ∃ worker, s.Worker worker ∧
      (a = .up worker ∧ s.phase = .waitChld ∧ s.needStart = true ∨
        a = .stopping worker ∧ s.phase = .waitStop) := by
  cases a with
  | idle => grind [Does, Waits, Between]
  | up worker =>
    obtain ⟨hworker, hat⟩ := h
    refine ⟨worker, hworker, .inl ⟨rfl, ?_⟩⟩
    grind [Waits, Between]
  | stopping worker => exact ⟨worker, h.1, .inr ⟨rfl, h.2⟩⟩
  | finished => exact h.elim
  | gone => grind [Does, Waits]

theorem goes_handle (h : s.Does a) (hphase : s.phase = .sigwaitinfo) : Goes s s.handle a := by
  obtain ⟨worker, rfl, hworker, hneed⟩ := up_of_sigwaitinfo h hphase
  -- the signal to forward, and what the supervisor then does
  have hkill : ∀ {signal b}, Supervisor.signalled worker signal = some b →
      replay Supervisor.next (.up worker) [.kill s.pid signal] = some b := by
    intro signal b hb
    rw [replay_singleton]
    simpa [Supervisor.next, hworker.1] using hb
  unfold handle
  cases s.siSigno with
  | chld => exact goes_silent rfl ⟨hworker, .inr ⟨.inr rfl, hneed⟩⟩
  | hup | usr1 => exact ⟨_, .up worker, rfl, hkill rfl, hworker, .inl ⟨.inr rfl, rfl⟩⟩
  | int | quit | term | other => exact ⟨_, .stopping worker, rfl, hkill rfl, hworker, rfl⟩

theorem goes_wait {child : Child} {ended : Ended} (h : s.Does a) (hwaits : s.Waits)
    (hchild : child ∈ s.children) : Goes s ((s.wait child ended).afterWait ended.status) a := by
  obtain ⟨worker, ⟨-, -, e, hchildren⟩, hat⟩ := worker_of_waits h hwaits
  rw [hchildren, List.mem_singleton] at hchild
  subst hchild
  have hnone : s.children.erase ⟨worker, e⟩ = [] := by simp [hchildren]
  unfold afterWait
  obtain ⟨rfl, hphase, hneed⟩ | ⟨rfl, hphase⟩ := hat
  · rw [if_neg (by simp [wait, hphase])]
    split
    · next hstatus =>
      refine ⟨[.waited worker ended, .unlink], .gone, ?_, ?_, rfl, hnone⟩
      · simp [stop, wait]
      · simp [replay, Supervisor.next, hstatus]
    · next hstatus =>
      refine ⟨[.waited worker ended], .idle, rfl, ?_, .inr rfl, hneed, hnone⟩
      simp [replay, Supervisor.next, hstatus]
  · rw [if_pos (show (s.wait _ ended).phase = .waitStop from hphase)]
    refine ⟨[.waited worker ended, .unlink], .gone, ?_, ?_, rfl, hnone⟩
    · simp [stop, wait]
    · simp [replay, Supervisor.next]

/-- What the children and the pending signals are apart from, `Does` does not see. -/
theorem Does.congr (h : s.Does a) (hphase : t.phase = s.phase) (hneed : t.needStart = s.needStart)
    (hpid : t.pid = s.pid)
    (hchildren : t.children.map Child.pid = s.children.map Child.pid) : t.Does a := by
  have hnil : s.children = [] → t.children = [] := by
    intro hs
    simpa [hs] using hchildren
  have hworker : ∀ {pid}, s.Worker pid → t.Worker pid := by
    rintro pid ⟨hp, hpos, e, hs⟩
    rw [hs] at hchildren
    obtain ⟨c, hc, hcpid⟩ := List.map_eq_singleton_iff.mp hchildren
    refine ⟨hpid.trans hp, hpos, c.ended, ?_⟩
    rw [hc]
    exact congrArg (fun number => [(⟨number, c.ended⟩ : Child)]) hcpid
  cases a with
  | idle => grind [Does, Between]
  | up pid =>
    refine ⟨hworker h.1, ?_⟩
    have := h.2
    grind [Between]
  | stopping pid => exact ⟨hworker h.1, hphase.trans h.2⟩
  | finished => exact h
  | gone => exact ⟨hphase.trans h.1, hnil h.2⟩

/-- **One step.** Whatever the monitor does next, a supervisor may do. -/
theorem goes_step (h : s.Does a) (hstep : Step s action t) : Goes s t a := by
  cases hstep with
  | start htop hf => exact goes_start h htop hf
  | take signal hphase _ =>
    exact goes_handle (s := s.take signal) (h.congr rfl rfl rfl rfl) hphase
  | interrupted hphase => exact goes_handle h hphase
  | wait child ended hwaits hchild _ => exact goes_wait h hwaits hchild
  | waitFails hwaits hnone =>
    obtain ⟨worker, ⟨-, -, e, hchildren⟩, -⟩ := worker_of_waits h hwaits
    rw [hnone] at hchildren
    cases hchildren
  | wake hphase =>
    refine goes_silent rfl ?_
    cases a with
    | idle => exact ⟨.inl rfl, h.2⟩
    | up worker =>
      refine ⟨h.1, .inl ⟨.inl rfl, ?_⟩⟩
      have := h.2
      grind
    | stopping worker => exact absurd (hphase.symm.trans h.2) (by decide)
    | finished => exact h.elim
    | gone => exact absurd (hphase.symm.trans h.1) (by decide)
  | raise signal _ => exact goes_silent rfl (h.congr rfl rfl rfl rfl)
  | exit child ended hchild _ =>
    refine goes_silent rfl (h.congr rfl rfl rfl ?_)
    show (s.children.map _).map Child.pid = _
    rw [List.map_map]
    apply List.map_congr_left
    intro c _
    show Child.pid (if c = child then _ else c) = c.pid
    split <;> rfl
  | stopped child _ _ => exact goes_silent rfl (h.congr rfl rfl rfl rfl)

theorem does_init (garbage : Int) : (init garbage).Does .idle := ⟨.inl rfl, rfl, rfl⟩

theorem run_accepts {garbage : Int} (h : Run Step Any (init garbage) s) :
    ∃ a, Accepts s.log a ∧ s.Does a := by
  apply Run.replays MonitorDaemon.log Does h ⟨.idle, rfl, does_init garbage⟩
  intro s i t a hdoes _ hstep
  exact goes_step hdoes hstep

/-- **The monitor supervises.** In every run its log is that of a supervisor: it has at most one
child, signals only a child it has not waited for, and forks only when it has none. No `wait`
fails. -/
theorem supervises {garbage : Int} (h : Run Step Any (init garbage) s) :
    ∃ a, Accepts s.log a ∧ s.children.map Child.pid = a.worker.toList ∧
      (s.phase = .stopped ↔ a = .gone) ∧ (s.Waits → s.children ≠ []) := by
  obtain ⟨a, hlog, hdoes⟩ := run_accepts h
  refine ⟨a, hlog, ?_, ?_, ?_⟩
  · cases a with
    | idle => rw [hdoes.2.2]; rfl
    | up worker | stopping worker =>
      obtain ⟨⟨-, -, e, hchildren⟩, -⟩ := hdoes
      rw [hchildren]
      rfl
    | finished => exact hdoes.elim
    | gone => rw [hdoes.2]; rfl
  · cases a with
    | gone => exact iff_of_true hdoes.1 rfl
    | _ => grind [Does, Between]
  · intro hwaits
    obtain ⟨worker, ⟨-, -, e, hchildren⟩, -⟩ := worker_of_waits hdoes hwaits
    rw [hchildren]
    exact List.cons_ne_nil _ _

/-! ### Behind the end of a worker -/

/-- A signal that is not passed on to a worker that goes on. -/
def Stops (signal : Signal) : Prop :=
  signal ∈ [Signal.int, .quit, .term] ∨ ∃ number, signal = .other number

/-- A worker that ends so behind `l` was sent such a signal, or asks for it. -/
def Asked (l : List Event) (pid : Int) (ended : Ended) : Prop :=
  wexitstatus ended.status = childNeedTerminate ∨
    ∃ signal, Stops signal ∧ l.getLast? = some (.kill pid signal)

/-- What a supervisor may do. -/
inductive Supervisor.Next : Supervisor → Event → Supervisor → Prop where
  | forkFailed : Next .idle .forkFailed .idle
  | forked (pid : Int) : Next .idle (.forked pid) (.up pid)
  | passed (pid : Int) {signal : Signal} : signal ∈ [Signal.hup, .usr1] →
      Next (.up pid) (.kill pid signal) (.up pid)
  | told (pid : Int) {signal : Signal} : Stops signal →
      Next (.up pid) (.kill pid signal) (.stopping pid)
  | finished (pid : Int) {ended : Ended} : wexitstatus ended.status = childNeedTerminate →
      Next (.up pid) (.waited pid ended) .finished
  | ended (pid : Int) {ended : Ended} : wexitstatus ended.status ≠ childNeedTerminate →
      Next (.up pid) (.waited pid ended) .idle
  | stopped (pid : Int) (ended : Ended) : Next (.stopping pid) (.waited pid ended) .finished
  | unlink : Next .finished .unlink .gone

theorem next_cases {e : Event} (h : Supervisor.next a e = some b) : a.Next e b := by
  unfold Supervisor.next at h
  split at h
  · cases h
    exact .forkFailed
  · cases h
    exact .forked _
  · next pid target signal =>
    split at h
    · next htarget =>
      subst htarget
      cases signal with
      | chld => cases h
      | hup | usr1 =>
        cases h
        exact .passed _ (by decide)
      | int | quit | term =>
        cases h
        exact .told _ (.inl (by decide))
      | other number =>
        cases h
        exact .told _ (.inr ⟨number, rfl⟩)
    · cases h
  · next pid child ended =>
    split at h
    · next hchild =>
      subst hchild
      by_cases hstatus : wexitstatus ended.status = childNeedTerminate
      · rw [if_pos hstatus] at h
        cases h
        exact .finished _ hstatus
      · rw [if_neg hstatus] at h
        cases h
        exact .ended _ hstatus
    · cases h
  · split at h
    · next hchild =>
      subst hchild
      cases h
      exact .stopped _ _
    · cases h
  · cases h
    exact .unlink
  · cases h

theorem not_stops (h : signal ∈ [Signal.hup, .usr1]) : ¬ Stops signal := by
  unfold Stops
  rcases List.mem_pair.mp h with rfl | rfl <;> simp

theorem mem_of_stops (h : Stops signal) (hawaited : signal.Awaited) :
    signal ∈ [Signal.int, .quit, .term] := by
  obtain h | ⟨number, rfl⟩ := h
  · exact h
  · exact hawaited.elim

/-- A worker is told to stop by the last event. -/
theorem stopping_iff {l : List Event} (h : Accepts l a) (pid : Int) : a = .stopping pid ↔
    ∃ signal, Stops signal ∧ l.getLast? = some (.kill pid signal) := by
  induction l using List.reverseRecOn with
  | nil =>
    cases h
    simp
  | append_singleton l e _ =>
    obtain ⟨b, -, he⟩ := of_replay_append h
    rw [replay_singleton] at he
    rw [List.getLast?_concat]
    cases next_cases he with
    | told worker hsignal =>
      constructor
      · intro hstop
        cases hstop
        exact ⟨_, hsignal, rfl⟩
      · rintro ⟨_, -, hlast⟩
        cases hlast
        rfl
    | passed worker hsignal =>
      refine iff_of_false (by simp) ?_
      rintro ⟨signal, hstop, hlast⟩
      cases hlast
      exact not_stops hsignal hstop
    | _ => simp

/-- Where a worker's end is in the log, it was up, and it was told to stop or not. -/
theorem last_iff {l r : List Event} {ended : Ended} (h : Accepts (l ++ .waited pid ended :: r) a) :
    ∃ b, replay Supervisor.next b r = some a ∧
      (Asked l pid ended ∧ b = .finished ∨ ¬ Asked l pid ended ∧ b = .idle) := by
  obtain ⟨c, hl, hr⟩ := of_replay_append h
  obtain ⟨b, hb, hr⟩ := of_replay_cons hr
  refine ⟨b, hr, ?_⟩
  have hstop := stopping_iff hl pid
  unfold Asked
  rw [← hstop]
  cases next_cases hb with
  | finished _ hstatus => exact .inl ⟨.inl hstatus, rfl⟩
  | ended _ hstatus => exact .inr ⟨by simp [hstatus], rfl⟩
  | stopped => exact .inl ⟨.inr rfl, rfl⟩

theorem replay_gone {l : List Event} (h : replay Supervisor.next .gone l = some a) :
    l = [] ∧ a = .gone := by
  cases l with
  | nil =>
    cases h
    exact ⟨rfl, rfl⟩
  | cons e l =>
    obtain ⟨b, hb, -⟩ := of_replay_cons h
    cases next_cases hb

theorem replay_finished {l : List Event} (h : replay Supervisor.next .finished l = some a) :
    l = [] ∧ a = .finished ∨ l = [.unlink] ∧ a = .gone := by
  cases l with
  | nil =>
    cases h
    exact .inl ⟨rfl, rfl⟩
  | cons e l =>
    obtain ⟨b, hb, hl⟩ := of_replay_cons h
    cases next_cases hb with
    | unlink =>
      obtain ⟨rfl, rfl⟩ := replay_gone hl
      exact .inr ⟨rfl, rfl⟩

/-- Behind a worker that has gone forks are tried until one does not fail. -/
theorem replay_idle {l : List Event} (h : replay Supervisor.next .idle l = some a) :
    ∃ n, l = .replicate n .forkFailed ∧ a = .idle ∨
      ∃ pid r, l = .replicate n .forkFailed ++ .forked pid :: r := by
  induction l with
  | nil =>
    cases h
    exact ⟨0, .inl ⟨rfl, rfl⟩⟩
  | cons e l ih =>
    obtain ⟨b, hb, hl⟩ := of_replay_cons h
    cases next_cases hb with
    | forkFailed =>
      obtain ⟨n, ⟨rfl, ha⟩ | ⟨pid, r, rfl⟩⟩ := ih hl
      · exact ⟨n + 1, .inl ⟨rfl, ha⟩⟩
      · exact ⟨n + 1, .inr ⟨pid, r, rfl⟩⟩
    | forked pid => exact ⟨0, .inr ⟨pid, l, rfl⟩⟩

/-! ### Where the signals come from -/

/-- Only signals of `sigset` are pending, and only those of `P` were sent on. -/
structure Sends (P : Signal → Prop) (s : MonitorDaemon) : Prop where
  pending : ∀ signal ∈ s.pending, signal.Awaited
  log : ∀ pid signal, .kill pid signal ∈ s.log → P signal

variable {P : Signal → Prop} {garbage : Int}

/-- A step that sends nothing on. -/
theorem Sends.silent (h : s.Sends P) (hpending : t.pending = s.pending)
    (hlog : ∀ pid signal, .kill pid signal ∈ t.log → .kill pid signal ∈ s.log) : t.Sends P where
  pending := hpending ▸ h.pending
  log pid signal hmem := h.log pid signal (hlog pid signal hmem)

theorem Sends.handle (h : s.Sends P) (hsigno : P s.siSigno) : s.handle.Sends P := by
  have hkill : ∀ signal, P signal → (s.kill signal).Sends P := by
    refine fun signal hsignal => ⟨h.pending, fun pid other hmem => ?_⟩
    obtain hmem | hmem := List.mem_append.mp hmem
    · exact h.log pid other hmem
    · cases List.mem_singleton.mp hmem
      exact hsignal
  unfold MonitorDaemon.handle
  split
  · exact h.silent rfl fun _ _ => id
  · next husr1 => exact (hkill .usr1 (husr1 ▸ hsigno)).silent rfl fun _ _ => id
  · next hhup => exact (hkill .hup (hhup ▸ hsigno)).silent rfl fun _ _ => id
  · exact (hkill _ hsigno).silent rfl fun _ _ => id

theorem Sends.raise (h : s.Sends P) (hsignal : signal.Awaited) : (s.raise signal).Sends P where
  pending other hother := by
    obtain rfl | hother := Finset.mem_insert.mp hother
    · exact hsignal
    · exact h.pending other hother
  log := h.log

theorem Sends.afterWait {status : Nat} (h : s.Sends P) : (s.afterWait status).Sends P := by
  have hstop : s.stop.Sends P := h.silent rfl (by simp [MonitorDaemon.stop])
  unfold MonitorDaemon.afterWait
  split
  · exact hstop
  · split
    · exact hstop
    · exact h.silent rfl fun _ _ => id

/-- What `siginfo` holds is sent on only where `sigwaitinfo` fails. -/
theorem sends_step (h : s.Sends P) (hP : ∀ signal : Signal, signal.Awaited → P signal)
    (hold : action = .interrupted → P s.siSigno) (hstep : Step s action t) : t.Sends P := by
  cases hstep with
  | start _ _ =>
    unfold start fork
    split
    · split
      · exact h.silent rfl (by simp)
      · exact h.silent rfl (by simp)
    · exact h.silent rfl fun _ _ => id
  | take signal _ hpending =>
    have htake : (s.take signal).Sends P :=
      ⟨fun other hother => h.pending other (Finset.mem_of_mem_erase hother), h.log⟩
    exact htake.handle (hP signal (h.pending signal hpending))
  | interrupted _ => exact h.handle (hold rfl)
  | wait child ended _ _ _ =>
    have hwait : (s.wait child ended).Sends P := h.silent rfl (by simp [MonitorDaemon.wait])
    exact hwait.afterWait
  | waitFails _ _ => exact h.afterWait
  | wake _ => exact h.silent rfl fun _ _ => id
  | raise signal hsignal => exact h.raise hsignal
  | exit child ended _ _ => exact Sends.raise (h.silent rfl fun _ _ => id) trivial
  | stopped child _ _ => exact h.raise trivial

theorem sends_init : (init garbage).Sends P := by
  constructor
  · intro signal hsignal
    cases hsignal
  · intro pid signal hmem
    cases hmem

@[simp] theorem handle_siSigno : s.handle.siSigno = s.siSigno := by
  unfold handle
  split <;> rfl

@[simp] theorem afterWait_siSigno {status : Nat} : (s.afterWait status).siSigno = s.siSigno := by
  unfold afterWait stop
  split
  · rfl
  · split <;> rfl

/-- `siginfo` changes only where a signal is taken. -/
theorem siSigno_step (hstep : Step s action t) :
    t.siSigno = s.siSigno ∨ t.siSigno ∈ s.pending := by
  cases hstep with
  | start _ _ =>
    unfold start fork
    split
    · split <;> exact .inl rfl
    · exact .inl rfl
  | take signal _ hpending => exact .inr (handle_siSigno.symm ▸ hpending)
  | interrupted _ => exact .inl handle_siSigno
  | wait child ended _ _ _ => exact .inl (afterWait_siSigno (s := s.wait child ended))
  | waitFails _ _ => exact .inl afterWait_siSigno
  | wake _ => exact .inl rfl
  | raise _ _ => exact .inl rfl
  | exit _ _ _ _ => exact .inl rfl
  | stopped _ _ _ => exact .inl rfl

/-- A signal the monitor has taken, or what `siginfo` held before it took any. -/
def FromTaken (garbage : Int) (signal : Signal) : Prop :=
  signal = .ofNumber garbage ∨ signal.Awaited

theorem run_sends (h : Run Step Any (init garbage) s) : s.Sends (FromTaken garbage) := by
  have hrun : FromTaken garbage s.siSigno ∧ s.Sends (FromTaken garbage) := by
    refine h.invariant (I := fun s => FromTaken garbage s.siSigno ∧ s.Sends (FromTaken garbage))
      ⟨.inl rfl, sends_init⟩ ?_
    rintro s action t ⟨hsigno, hs⟩ - hstep
    refine ⟨?_, sends_step hs (fun _ => .inr) (fun _ => hsigno) hstep⟩
    obtain hsame | hpending := siSigno_step hstep
    · exact hsame ▸ hsigno
    · exact .inr (hs.pending _ hpending)
  exact hrun.2

/-- A signal to stop, or the number that `siginfo` held before the monitor took any signal. -/
def ToStop (garbage : Int) (signal : Signal) : Prop :=
  signal ∈ [Signal.int, .quit, .term] ∨ signal = .ofNumber garbage ∧ ¬ signal.Awaited

/-- The last thing done in `l` is to send the worker such a signal. -/
def Told (garbage : Int) (l : List Event) (pid : Int) : Prop :=
  ∃ signal, ToStop garbage signal ∧ l.getLast? = some (.kill pid signal)

/-- A worker that ends so behind `l` is the last. -/
def Last (garbage : Int) (l : List Event) (pid : Int) (ended : Ended) : Prop :=
  wexitstatus ended.status = childNeedTerminate ∨ Told garbage l pid

/-- Nothing but forks that fail until there is a worker again. -/
def Replaced (s : MonitorDaemon) (r : List Event) : Prop :=
  ∃ n, r = .replicate n .forkFailed ∧ s.needStart = true ∨
    ∃ next r', r = .replicate n .forkFailed ++ .forked next :: r'

theorem toStop_iff (h : FromTaken garbage signal) : ToStop garbage signal ↔ Stops signal := by
  refine or_congr_right ⟨?_, ?_⟩
  · rintro ⟨-, hnot⟩
    cases signal with
    | other number => exact ⟨number, rfl⟩
    | _ => exact absurd trivial hnot
  · rintro ⟨number, rfl⟩
    exact ⟨h.resolve_right id, id⟩

/-- In a run the supervisor's last workers are the monitor's. -/
theorem last_iff_asked {l r : List Event} {ended : Ended} (h : Run Step Any (init garbage) s)
    (hlog : s.log = l ++ r) : Last garbage l pid ended ↔ Asked l pid ended := by
  refine or_congr_right (exists_congr fun signal => and_congr_left fun hlast => ?_)
  refine toStop_iff ((run_sends h).log pid signal ?_)
  rw [hlog]
  exact List.mem_append_left _ (List.mem_of_getLast? hlast)

/-- **A worker that has ended is replaced, or it was the last.** If it was told to stop or asks for
it by its status, the monitor removes its file and stops. -/
theorem after_waited {l r : List Event} {ended : Ended} (h : Run Step Any (init garbage) s)
    (hlog : s.log = l ++ .waited pid ended :: r) :
    (Last garbage l pid ended → r = [.unlink] ∧ s.phase = .stopped) ∧
      (¬ Last garbage l pid ended → s.Replaced r) := by
  obtain ⟨a, haccepts, hdoes⟩ := run_accepts h
  rw [Accepts, hlog] at haccepts
  rw [last_iff_asked h hlog]
  obtain ⟨b, hr, ⟨hlast, rfl⟩ | ⟨hlast, rfl⟩⟩ := last_iff haccepts
  · refine ⟨fun _ => ?_, fun hnot => absurd hlast hnot⟩
    obtain ⟨-, rfl⟩ | ⟨rfl, rfl⟩ := replay_finished hr
    · exact hdoes.elim
    · exact ⟨rfl, hdoes.1⟩
  · refine ⟨fun hl => absurd hl hlast, fun _ => ?_⟩
    obtain ⟨n, ⟨rfl, rfl⟩ | hforked⟩ := replay_idle hr
    · exact ⟨n, .inl ⟨rfl, hdoes.2.1⟩⟩
    · exact ⟨n, .inr hforked⟩

theorem finished_of_unlink {l : List Event} (h : Accepts (l ++ [.unlink]) a) :
    ∃ m pid ended, l = m ++ [.waited pid ended] ∧ Asked m pid ended := by
  obtain ⟨b, hl, hb⟩ := of_replay_append h
  rw [replay_singleton] at hb
  cases next_cases hb with
  | unlink =>
    cases l using List.reverseRecOn with
    | nil => cases hl
    | append_singleton m e =>
      have haccepts : Accepts (m ++ [e]) .finished := hl
      obtain ⟨c, -, hc⟩ := of_replay_append hl
      rw [replay_singleton] at hc
      cases next_cases hc with
      | finished pid hstatus => exact ⟨m, pid, _, rfl, .inl hstatus⟩
      | stopped pid ended =>
        obtain ⟨b, hb, ⟨hlast, -⟩ | ⟨-, rfl⟩⟩ := last_iff haccepts
        · exact ⟨m, pid, ended, rfl, hlast⟩
        · cases hb

/-- **The monitor stops for two reasons**: its worker has ended with the status that asks for it,
or behind a signal to stop. -/
theorem stopped_iff (h : Run Step Any (init garbage) s) : s.phase = .stopped ↔
    ∃ l pid ended r, s.log = l ++ .waited pid ended :: r ∧ Last garbage l pid ended := by
  obtain ⟨a, haccepts, hdoes⟩ := run_accepts h
  constructor
  · intro hphase
    have ha : a = .gone := by
      cases a with
      | gone => rfl
      | _ => grind [Does, Between]
    subst ha
    cases hlog : s.log using List.reverseRecOn with
    | nil =>
      rw [Accepts, hlog] at haccepts
      cases haccepts
    | append_singleton l e =>
      rw [Accepts, hlog] at haccepts
      obtain ⟨c, -, hc⟩ := of_replay_append haccepts
      rw [replay_singleton] at hc
      cases next_cases hc with
      | unlink =>
        obtain ⟨m, pid, ended, rfl, hlast⟩ := finished_of_unlink haccepts
        have hm : m ++ [.waited pid ended] ++ [.unlink] = m ++ .waited pid ended :: [.unlink] := by
          rw [List.append_assoc]
          rfl
        exact ⟨m, pid, ended, [.unlink], hm, (last_iff_asked h (hlog.trans hm)).mpr hlast⟩
  · rintro ⟨l, pid, ended, r, hlog, hlast⟩
    exact ((after_waited h hlog).1 hlast).2

/-! ### What the workers end with -/

/-- The workers that have ended did so as `E` says. -/
def EndedAs (E : Ended → Prop) (s : MonitorDaemon) : Prop :=
  (∀ pid ended, .waited pid ended ∈ s.log → E ended) ∧
    ∀ child ∈ s.children, ∀ ended, child.ended = some ended → E ended

theorem endedAs_handle {E : Ended → Prop} (h : s.EndedAs E) : s.handle.EndedAs E := by
  obtain ⟨hlog, hchildren⟩ := h
  unfold handle
  split
  · exact ⟨hlog, hchildren⟩
  all_goals exact ⟨by simpa [kill] using hlog, hchildren⟩

theorem endedAs_afterWait {E : Ended → Prop} (h : s.EndedAs E) (status : Nat) :
    (s.afterWait status).EndedAs E := by
  obtain ⟨hlog, hchildren⟩ := h
  have hstop : s.stop.EndedAs E := ⟨by simpa [stop] using hlog, hchildren⟩
  unfold afterWait
  split
  · exact hstop
  · split
    · exact hstop
    · exact ⟨hlog, hchildren⟩

theorem endedAs_step {E : Ended → Prop} (h : s.EndedAs E)
    (hok : ∀ pid ended, action = .exit pid ended → E ended) (hstep : Step s action t) :
    t.EndedAs E := by
  have ⟨hlog, hchildren⟩ := h
  cases hstep with
  | start _ _ =>
    unfold start fork EndedAs
    constructor <;> grind
  | take signal _ _ => exact endedAs_handle (s := s.take signal) h
  | interrupted _ => exact endedAs_handle h
  | wait child ended _ hchild hended =>
    have he := hchildren child hchild ended hended
    refine endedAs_afterWait ⟨?_, fun c hc => hchildren c (List.mem_of_mem_erase hc)⟩ _
    simp only [MonitorDaemon.wait]
    grind
  | waitFails _ _ => exact endedAs_afterWait h _
  | wake _ => exact ⟨hlog, hchildren⟩
  | raise _ _ => exact ⟨hlog, hchildren⟩
  | exit child ended hchild _ =>
    have he := hok _ _ rfl
    refine ⟨hlog, fun c hc e hce => ?_⟩
    obtain ⟨c0, hc0, rfl⟩ := List.mem_map.mp hc
    split at hce
    · cases hce
      exact he
    · exact hchildren c0 hc0 e hce
  | stopped _ _ _ => exact ⟨hlog, hchildren⟩

theorem waited_endedAs {E : Ended → Prop} {ended : Ended}
    (h : Run Step (fun _ action => ∀ pid ended, action = .exit pid ended → E ended)
      (init garbage) s)
    (hlog : .waited pid ended ∈ s.log) : E ended := by
  have hrun : s.EndedAs E := by
    refine h.invariant ⟨?_, ?_⟩ fun _ _ _ hs hok hr => endedAs_step hs hok hr
    · intro pid ended hmem
      cases hmem
    · intro child hchild
      cases hchild
  exact hrun.1 _ _ hlog

/-! ## Coming to rest -/

/-- A `SIGCHLD` comes from the end of the worker only, and `sigwaitinfo` does not fail. -/
structure Undisturbed (_ : MonitorDaemon) (action : Action) : Prop where
  stopped : ∀ pid, action ≠ .stopped pid
  raise : action ≠ .raise .chld
  interrupted : action ≠ .interrupted

/-- The monitor goes on by itself, and its forks do not fail. -/
def Undelayed (_ : MonitorDaemon) (action : Action) : Prop := action.Own ∧ action ≠ .start (-1)

def AtRest (s : MonitorDaemon) : Prop := ∀ action t, Undelayed s action → ¬ Step s action t

def HasEnded (s : MonitorDaemon) : Prop := ∃ child ∈ s.children, child.ended ≠ none

/-- There is one `SIGCHLD` for each worker that has ended. -/
def Balanced (s : MonitorDaemon) : Prop :=
  match s.phase with
  | .waitChld => .chld ∉ s.pending ∧ s.HasEnded
  | .waitStop | .stopped => True
  | _ => .chld ∈ s.pending ↔ s.HasEnded

theorem Undelayed.undisturbed (h : Undelayed s action) : Undisturbed s action := by
  constructor
  · rintro pid rfl
    exact h.1
  · rintro rfl
    exact h.1
  · rintro rfl
    exact h.1

theorem not_hasEnded_nil (h : s.children = []) : ¬ s.HasEnded := by
  rintro ⟨child, hchild, -⟩
  rw [h] at hchild
  cases hchild

/-- Between two passes of the loop and in `sigwaitinfo`. -/
theorem balanced_iff (h : s.Between ∨ s.phase = .sigwaitinfo) :
    s.Balanced ↔ (.chld ∈ s.pending ↔ s.HasEnded) := by
  unfold Balanced
  obtain (hphase | hphase) | hphase := h <;> rw [hphase]

theorem balanced_start (hdoes : s.Does a) (h : s.Balanced) (htop : s.phase = .top) :
    (s.start pid).Balanced := by
  have hs := (balanced_iff (.inl (.inl htop))).mp h
  rw [balanced_iff (by unfold start Between; grind)]
  cases a with
  | idle =>
    obtain ⟨-, hneed, hchildren⟩ := hdoes
    have hnone : ¬ (s.start pid).HasEnded := by
      unfold HasEnded start fork
      rw [if_pos hneed]
      split <;> simp [hchildren]
    have hpending : (s.start pid).pending = s.pending := by
      unfold start fork
      rw [if_pos hneed]
      split <;> rfl
    rw [hpending, hs]
    exact iff_of_false (not_hasEnded_nil hchildren) hnone
  | up worker =>
    obtain ⟨-, hneed⟩ | ⟨hphase, -⟩ := hdoes.2
    · simpa [start, hneed, HasEnded] using hs
    · grind
  | stopping worker => exact absurd (htop.symm.trans hdoes.2) (by decide)
  | finished => exact hdoes.elim
  | gone => exact absurd (htop.symm.trans hdoes.1) (by decide)

theorem balanced_take (h : s.Balanced) (hphase : s.phase = .sigwaitinfo)
    (hpending : signal ∈ s.pending) : (s.take signal).handle.Balanced := by
  have hs := (balanced_iff (.inr hphase)).mp h
  cases signal with
  | chld => exact ⟨Finset.notMem_erase _ _, hs.mp hpending⟩
  | hup | usr1 =>
    refine (balanced_iff (.inl (.inr rfl))).mpr ?_
    show .chld ∈ s.pending.erase _ ↔ s.HasEnded
    rw [Finset.mem_erase, ← hs]
    exact and_iff_right (by decide)
  | int | quit | term | other => trivial

theorem balanced_wait {child : Child} {ended : Ended} (hdoes : s.Does a) (h : s.Balanced)
    (hwaits : s.Waits) (hchild : child ∈ s.children) :
    ((s.wait child ended).afterWait ended.status).Balanced := by
  obtain ⟨worker, ⟨-, -, e, hchildren⟩, hat⟩ := worker_of_waits hdoes hwaits
  rw [hchildren, List.mem_singleton] at hchild
  subst hchild
  have hnone : s.children.erase ⟨worker, e⟩ = [] := by simp [hchildren]
  unfold afterWait
  obtain ⟨-, hphase, -⟩ | ⟨-, hphase⟩ := hat
  · rw [if_neg (by simp [wait, hphase])]
    split
    · trivial
    · refine (balanced_iff (.inl (.inr rfl))).mpr (iff_of_false ?_ (not_hasEnded_nil hnone))
      rw [Balanced, hphase] at h
      exact h.1
  · rw [if_pos (show (s.wait _ ended).phase = .waitStop from hphase)]
    trivial

/-- A worker that ends leaves a `SIGCHLD`. -/
theorem balanced_exit {child : Child} {ended : Ended} (hdoes : s.Does a) (h : s.Balanced)
    (hchild : child ∈ s.children) (hrunning : child.ended = none) :
    ({ s with children := s.children.map fun c =>
        if c = child then { c with ended := some ended } else c }.raise .chld).Balanced := by
  have hended : HasEnded ({ s with children := s.children.map fun c =>
      if c = child then { c with ended := some ended } else c }.raise .chld) :=
    ⟨_, List.mem_map.mpr ⟨child, hchild, rfl⟩, by simp⟩
  have hraised : .chld ∈ (s.raise .chld).pending := Finset.mem_insert_self _ _
  cases hphase : s.phase with
  | waitChld =>
    rw [Balanced, hphase] at h
    obtain ⟨-, other, hother, hgone⟩ := h
    obtain ⟨worker, ⟨-, -, e, hchildren⟩, -⟩ := worker_of_waits hdoes (.inl hphase)
    rw [hchildren, List.mem_singleton] at hchild hother
    rw [hother, ← hchild] at hgone
    exact absurd hrunning hgone
  | waitStop | stopped => simp [Balanced, MonitorDaemon.raise]
  | top | sleep | sigwaitinfo =>
    unfold Balanced
    simp only [MonitorDaemon.raise]
    exact iff_of_true hraised hended

theorem balanced_raise (h : s.Balanced) (hsignal : signal ≠ .chld) : (s.raise signal).Balanced := by
  have hchld : .chld ∈ (s.raise signal).pending ↔ .chld ∈ s.pending :=
    Finset.mem_insert.trans (or_iff_right (Ne.symm hsignal))
  have hsame : (s.raise signal).HasEnded ↔ s.HasEnded := Iff.rfl
  have hphase : (s.raise signal).phase = s.phase := rfl
  unfold Balanced at h ⊢
  rw [hphase, hchld, hsame]
  exact h

theorem balanced_step (hdoes : s.Does a) (h : s.Balanced) (hok : Undisturbed s action)
    (hstep : Step s action t) : t.Balanced := by
  cases hstep with
  | start htop _ => exact balanced_start hdoes h htop
  | take signal hphase hpending => exact balanced_take h hphase hpending
  | wait child ended hwaits hchild _ => exact balanced_wait hdoes h hwaits hchild
  | waitFails hwaits hnone =>
    obtain ⟨worker, ⟨-, -, e, hchildren⟩, -⟩ := worker_of_waits hdoes hwaits
    rw [hnone] at hchildren
    cases hchildren
  | wake hphase =>
    exact (balanced_iff (.inl (.inl rfl))).mpr ((balanced_iff (.inl (.inr hphase))).mp h)
  | interrupted => exact absurd rfl hok.interrupted
  | raise signal _ =>
    refine balanced_raise h ?_
    rintro rfl
    exact hok.raise rfl
  | exit child ended hchild hrunning => exact balanced_exit hdoes h hchild hrunning
  | stopped child => exact absurd rfl (hok.stopped _)

/-- The monitor's work and its signals, in a run. -/
structure Sound (s : MonitorDaemon) : Prop where
  does : ∃ a, s.Does a
  balanced : s.Balanced
  sends : s.Sends Signal.Awaited

theorem sound_step (h : s.Sound) (hok : Undisturbed s action) (hstep : Step s action t) :
    t.Sound := by
  obtain ⟨⟨a, hdoes⟩, hbalanced, hsends⟩ := h
  obtain ⟨es, b, -, -, hb⟩ := goes_step hdoes hstep
  refine ⟨⟨b, hb⟩, balanced_step hdoes hbalanced hok hstep, ?_⟩
  exact sends_step hsends (fun _ => id) (fun hi => absurd hi hok.interrupted) hstep

theorem run_sound (h : Run Step Undisturbed (init garbage) s) : s.Sound := by
  refine h.invariant ⟨⟨.idle, does_init garbage⟩, ?_, sends_init⟩ fun _ _ _ hs hok hr =>
    sound_step hs hok hr
  refine (balanced_iff (.inl (.inl rfl))).mpr (iff_of_false ?_ (not_hasEnded_nil rfl))
  exact Finset.notMem_empty _

/-- How far the monitor is from its next `sigwaitinfo`. -/
def Phase.weight : Phase → Nat
  | .sigwaitinfo | .stopped => 0
  | .top | .waitStop => 1
  | .sleep => 2
  | .waitChld => 3

def rank (s : MonitorDaemon) : Nat := 5 * s.pending.card + s.phase.weight

theorem rank_le (s : MonitorDaemon) : s.rank ≤ 5 * s.pending.card + 3 := by
  unfold rank
  cases s.phase <;> simp [Phase.weight]

theorem start_undelayed (hdoes : s.Does a) (htop : s.phase = .top) (hpid : pid ≠ -1) :
    (s.start pid).phase = .sigwaitinfo ∧ (s.start pid).pending = s.pending := by
  unfold start fork
  rw [if_neg hpid]
  cases a with
  | idle =>
    rw [if_pos hdoes.2.1]
    exact ⟨if_neg hpid, rfl⟩
  | up worker =>
    obtain ⟨⟨hworker, hpos, -⟩, ⟨-, hneed⟩ | ⟨hphase, -⟩⟩ := hdoes
    · have hne : s.pid ≠ -1 := by omega
      simp [hneed, hne]
    · grind
  | stopping worker => exact absurd (htop.symm.trans hdoes.2) (by decide)
  | finished => exact hdoes.elim
  | gone => exact absurd (htop.symm.trans hdoes.1) (by decide)

theorem rank_take (hphase : s.phase = .sigwaitinfo) (hpending : signal ∈ s.pending) :
    (s.take signal).handle.rank < s.rank := by
  have hcard := Finset.card_erase_of_mem hpending
  have hpos := Finset.card_pos.mpr ⟨signal, hpending⟩
  cases signal <;> simp only [rank, handle, take, kill, Phase.weight, hphase, hcard] <;> omega

theorem rank_afterWait {status : Nat} (hwaits : s.Waits) : (s.afterWait status).rank < s.rank := by
  unfold afterWait
  obtain hphase | hphase := hwaits
  · rw [if_neg (by simp [hphase])]
    split <;> simp [rank, stop, hphase, Phase.weight]
  · rw [if_pos hphase]
    simp [rank, stop, hphase, Phase.weight]

theorem rank_step (h : s.Sound) (hok : Undelayed s action) (hstep : Step s action t) :
    t.rank < s.rank := by
  obtain ⟨a, hdoes⟩ := h.does
  cases hstep with
  | @start pid htop _ =>
    have hpid : pid ≠ -1 := fun hpid => hok.2 (congrArg Action.start hpid)
    obtain ⟨hphase, hpending⟩ := start_undelayed hdoes htop hpid
    simp [rank, hphase, hpending, htop, Phase.weight]
  | take signal hphase hpending => exact rank_take hphase hpending
  | interrupted => exact hok.1.elim
  | wait child ended hwaits _ _ => exact rank_afterWait (s := s.wait _ _) hwaits
  | waitFails hwaits _ => exact rank_afterWait hwaits
  | wake hphase => simp [rank, hphase, Phase.weight]
  | raise => exact hok.1.elim
  | exit => exact hok.1.elim
  | stopped => exact hok.1.elim

/-- At rest it does not wait for a child that has ended. -/
theorem AtRest.ended_none {ended : Option Ended} (hrest : s.AtRest) (hwaits : s.Waits)
    (hchildren : s.children = [⟨pid, ended⟩]) : ended = none := by
  cases ended with
  | none => rfl
  | some ended =>
    have hchild : (⟨pid, some ended⟩ : Child) ∈ s.children := by simp [hchildren]
    exact absurd (.wait _ _ hwaits hchild rfl) (hrest (.wait _) _ ⟨trivial, by simp⟩)

theorem AtRest.not_top (hrest : s.AtRest) (pid : Int) (hpos : 0 < pid)
    (hfresh : ∀ child ∈ s.children, child.pid ≠ pid) : s.phase ≠ .top := by
  intro htop
  refine hrest (.start pid) _ ⟨trivial, ?_⟩ (.start htop (.inr ⟨hpos, hfresh⟩))
  rintro ⟨⟩
  cases hpos

theorem AtRest.not_sleep (hrest : s.AtRest) : s.phase ≠ .sleep := fun hphase =>
  hrest .wake _ ⟨trivial, by simp⟩ (.wake hphase)

theorem AtRest.pending_eq (hrest : s.AtRest) (hphase : s.phase = .sigwaitinfo) :
    s.pending = ∅ := by
  refine Finset.eq_empty_of_forall_notMem fun signal hpending => ?_
  exact hrest (.take signal) _ ⟨trivial, by simp⟩ (.take _ hphase hpending)

/-- Where the monitor may rest. -/
theorem atRest_cases (h : s.Sound) (hrest : s.AtRest) :
    s.phase = .stopped ∧ s.children = [] ∨
      s.phase = .sigwaitinfo ∧ s.pending = ∅ ∧ (∃ pid, s.children = [⟨pid, none⟩]) ∨
      s.phase = .waitStop ∧ ∃ pid, s.children = [⟨pid, none⟩] := by
  obtain ⟨⟨a, hdoes⟩, hbalanced, -⟩ := h
  cases a with
  | idle =>
    obtain ⟨htop | hsleep, -, hchildren⟩ := hdoes
    · exact absurd htop (hrest.not_top 1 Int.one_pos (by simp [hchildren]))
    · exact absurd hsleep hrest.not_sleep
  | up worker =>
    obtain ⟨⟨-, hpos, e, hchildren⟩, ⟨htop | hsleep, -⟩ | ⟨hphase | hphase, -⟩⟩ := hdoes
    · refine absurd htop (hrest.not_top (worker + 1) (by omega) fun child hchild => ?_)
      rw [hchildren, List.mem_singleton] at hchild
      rw [hchild]
      exact (Int.lt_succ worker).ne
    · exact absurd hsleep hrest.not_sleep
    · have hempty := hrest.pending_eq hphase
      have hrunning := (balanced_iff (.inr hphase)).mp hbalanced
      refine .inr (.inl ⟨hphase, hempty, worker, ?_⟩)
      cases e with
      | none => exact hchildren
      | some ended =>
        rw [hempty] at hrunning
        exact absurd (hrunning.mpr ⟨_, hchildren ▸ List.mem_singleton_self _, by simp⟩) (by simp)
    · have he := hrest.ended_none (.inl hphase) hchildren
      rw [Balanced, hphase] at hbalanced
      obtain ⟨-, child, hchild, hended⟩ := hbalanced
      rw [hchildren, List.mem_singleton] at hchild
      rw [hchild] at hended
      exact absurd he hended
  | stopping worker =>
    obtain ⟨⟨-, -, e, hchildren⟩, hphase⟩ := hdoes
    obtain rfl := hrest.ended_none (.inr hphase) hchildren
    exact .inr (.inr ⟨hphase, worker, hchildren⟩)
  | finished => exact hdoes.elim
  | gone => exact .inl hdoes

/-- **The monitor comes to rest.** Left alone, with forks that do not fail, it goes on for a bounded
number of steps. Then it has a running worker and has passed on every signal, or it has stopped, or
it waits for the worker that was told to stop. -/
theorem comes_to_rest {n : Nat} (h : Run Step Undisturbed (init garbage) s)
    (hown : RunN Step Undelayed n s t) :
    n ≤ 5 * s.pending.card + 3 ∧ (t.AtRest → t.phase = .stopped ∧ t.children = [] ∨
      t.phase = .sigwaitinfo ∧ t.pending = ∅ ∧ (∃ pid, t.children = [⟨pid, none⟩]) ∨
      t.phase = .waitStop ∧ ∃ pid, t.children = [⟨pid, none⟩] ∧
        ∃ signal ∈ [Signal.int, .quit, .term], t.log.getLast? = some (.kill pid signal)) := by
  have hstep : ∀ s action t, Sound s → Undelayed s action → Step s action t →
      Sound t ∧ rank t < rank s := fun s action t hs hok hr =>
    ⟨sound_step hs hok.undisturbed hr, rank_step hs hok hr⟩
  obtain ⟨hsound, hle⟩ := hown.rank_le (run_sound h) hstep
  have := s.rank_le
  refine ⟨by omega, fun hrest => ?_⟩
  obtain hstopped | hwaits | ⟨hphase, pid, hchildren⟩ := atRest_cases hsound hrest
  · exact .inl hstopped
  · exact .inr (.inl hwaits)
  · have hrun : Run Step Any (init garbage) t :=
      (h.mono fun _ _ _ => trivial).trans (hown.run.mono fun _ _ _ => trivial)
    obtain ⟨a, haccepts, hdoes⟩ := run_accepts hrun
    obtain ⟨worker, ⟨-, -, e, hworker⟩, ⟨-, hchld, -⟩ | ⟨rfl, -⟩⟩ :=
      worker_of_waits hdoes (.inr hphase)
    · exact absurd (hphase.symm.trans hchld) (by decide)
    · obtain rfl : worker = pid := by
        rw [hworker] at hchildren
        injection hchildren with hchild
        exact congrArg Child.pid hchild
      obtain ⟨signal, hstops, hlast⟩ := (stopping_iff haccepts _).mp rfl
      have hawaited := hsound.sends.log _ _ (List.mem_of_getLast? hlast)
      exact .inr (.inr ⟨hphase, worker, hchildren, signal, mem_of_stops hstops hawaited, hlast⟩)

/-! ## Runs -/

/-- The worker runs. -/
def firstWorker : MonitorDaemon :=
  { phase := .sigwaitinfo, needStart := true, pid := 100, siSigno := .other 0
    children := [⟨100, none⟩], pending := ∅, log := [.forked 100] }

/-- A worker has ended with -1, and the next one has asked for the end. -/
def lastWorker : MonitorDaemon :=
  { phase := .stopped, needStart := true, pid := 101, siSigno := .chld, children := [], pending := ∅
    log := [.forked 100, .waited 100 (.exit (-1)), .forked 101, .waited 101 (.exit 2), .unlink] }

theorem firstWorker_step : Step (init 0) (.start 100) firstWorker := .start rfl (by decide)

theorem lastWorker_run {ok : MonitorDaemon → Action → Prop}
    (hok : ∀ s action, (∀ pid e, action = .exit pid e → e = .exit (-1) ∨ e = .exit 2) →
      ok s action) : Run Step ok (init 0) lastWorker := by
  have hup : Run Step ok (init 0) firstWorker :=
    .step (.refl _) (hok _ _ (by simp)) firstWorker_step
  have hexit := hup.step (hok _ _ (by simp))
    (.exit ⟨100, none⟩ (.exit (-1)) (List.mem_singleton_self _) rfl)
  have htake := hexit.step (hok _ _ (by simp)) (.take .chld rfl (by decide))
  have hwait := htake.step (hok _ _ (by simp))
    (.wait ⟨100, some (.exit (-1))⟩ (.exit (-1)) (.inl rfl) (by decide) rfl)
  have hwake := hwait.step (hok _ _ (by simp)) (.wake rfl)
  have hnext := hwake.step (i := Action.start 101) (hok _ _ (by simp)) (.start rfl (by decide))
  have hexit := hnext.step (hok _ _ (by simp))
    (.exit ⟨101, none⟩ (.exit 2) (List.mem_singleton_self _) rfl)
  have htake := hexit.step (hok _ _ (by simp)) (.take .chld rfl (by decide))
  exact htake.step (hok _ _ (by simp))
    (.wait ⟨101, some (.exit 2)⟩ (.exit 2) (.inl rfl) (by decide) rfl)

theorem lastWorker_any : Run Step Any (init 0) lastWorker := lastWorker_run fun _ _ _ => trivial

theorem supervises_lastWorker : ∃ a, Accepts lastWorker.log a ∧
    lastWorker.children.map Child.pid = a.worker.toList ∧
    (lastWorker.phase = .stopped ↔ a = .gone) ∧ (lastWorker.Waits → lastWorker.children ≠ []) :=
  supervises lastWorker_any

/-- `sigwaitinfo` fails before it has taken a signal, and the worker then ends. -/
def interruptedWorker : MonitorDaemon :=
  { phase := .stopped, needStart := true, pid := 100, siSigno := .other 0, children := []
    pending := {.chld}
    log := [.forked 100, .kill 100 (.other 0), .waited 100 (.exit 0), .unlink] }

theorem interruptedWorker_run : Run Step Any (init 0) interruptedWorker := by
  have hup : Run Step Any (init 0) firstWorker := .step (.refl _) trivial firstWorker_step
  have hsent := hup.step trivial (.interrupted rfl)
  have hexit := hsent.step trivial
    (.exit ⟨100, none⟩ (.exit 0) (List.mem_singleton_self _) rfl)
  exact hexit.step trivial
    (.wait ⟨100, some (.exit 0)⟩ (.exit 0) (.inr rfl) (by decide) rfl)

theorem after_waited_interruptedWorker :
    [Event.unlink] = [.unlink] ∧ interruptedWorker.phase = .stopped :=
  have hlog : interruptedWorker.log =
      [.forked 100, .kill 100 (.other 0)] ++ .waited 100 (.exit 0) :: [.unlink] := rfl
  (after_waited interruptedWorker_run hlog).1 (.inr ⟨.other 0, .inr ⟨rfl, id⟩, rfl⟩)

/-- A worker runs, and a `SIGHUP` is pending. -/
def hupPending : MonitorDaemon := firstWorker.raise .hup

/-- It has been passed on. -/
def hupPassed : MonitorDaemon :=
  { firstWorker with siSigno := .hup, log := [.forked 100, .kill 100 .hup] }

theorem hupPending_run : Run Step Undisturbed (init 0) hupPending := by
  have hup : Run Step Undisturbed (init 0) firstWorker :=
    .step (.refl _) ⟨by simp, by simp, by simp⟩ firstWorker_step
  exact hup.step ⟨by simp, by decide, by simp⟩ (.raise .hup trivial)

theorem hupPassed_run : RunN Step Undelayed 3 hupPending hupPassed := by
  have htake : RunN Step Undelayed 1 hupPending (hupPending.take .hup).handle :=
    .step (i := .take .hup) (.refl _) ⟨trivial, by simp⟩ (.take .hup rfl (by decide))
  have hwake := htake.step (i := Action.wake) ⟨trivial, by simp⟩ (.wake rfl)
  exact hwake.step (i := Action.start 101) ⟨trivial, by decide⟩ (.start rfl (by decide))

theorem atRest_hupPassed : hupPassed.AtRest := by
  rintro action t ⟨hown, -⟩ hstep
  cases hstep with
  | start htop _ => cases htop
  | take signal _ hpending => exact Finset.notMem_empty _ hpending
  | interrupted => exact hown
  | wait _ _ hwaits _ _ => obtain h | h := hwaits <;> cases h
  | waitFails hwaits _ => obtain h | h := hwaits <;> cases h
  | wake hphase => cases hphase
  | raise => exact hown
  | exit => exact hown
  | stopped => exact hown

theorem comes_to_rest_hupPassed : 3 ≤ 5 * hupPending.pending.card + 3 ∧
    (hupPassed.phase = .stopped ∧ hupPassed.children = [] ∨
      hupPassed.phase = .sigwaitinfo ∧ hupPassed.pending = ∅ ∧
        (∃ pid, hupPassed.children = [⟨pid, none⟩]) ∨
      hupPassed.phase = .waitStop ∧ ∃ pid, hupPassed.children = [⟨pid, none⟩] ∧
        ∃ signal ∈ [Signal.int, .quit, .term], hupPassed.log.getLast? = some (.kill pid signal)) :=
  have h := comes_to_rest hupPending_run hupPassed_run
  ⟨h.1, h.2 atRest_hupPassed⟩

/-- A worker that is stopped and continued leaves a `SIGCHLD` too: the monitor waits for its end and
takes no other signal. -/
theorem deaf_after_stopped :
    ∃ s, Run Step Any (init 0) s ∧ s.AtRest ∧ s.phase = .waitChld ∧ .term ∈ s.pending := by
  have hup : Run Step Any (init 0) firstWorker := .step (.refl _) trivial firstWorker_step
  have hstopped := hup.step trivial (.stopped ⟨100, none⟩ (List.mem_singleton_self _) rfl)
  have htake := hstopped.step trivial (.take .chld rfl (by decide))
  refine ⟨_, htake.step trivial (.raise .term trivial), ?_, rfl, by decide⟩
  rintro action t ⟨hown, -⟩ hstep
  cases hstep with
  | start htop _ => cases htop
  | take signal hphase _ => cases hphase
  | interrupted => exact hown
  | wait child ended _ hchild hended =>
    obtain rfl := List.mem_singleton.mp hchild
    cases hended
  | waitFails _ hnone => cases hnone
  | wake hphase => cases hphase
  | raise => exact hown
  | exit => exact hown
  | stopped => exact hown

end MonitorDaemon

end GameAP
