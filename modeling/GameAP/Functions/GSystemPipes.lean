import GameAP.Lib.Run
import Mathlib.Tactic.ByContra

/-!
# A command whose two outputs are collected

`exec(cmd, out)` with the child that runs the command, byte by byte. The child writes to two pipes
of bounded capacity; the parent reads a line of the first, and of the second only where the first
has ended, which it has not while the child is there. `deadlock_free_iff`: nobody gets stuck, in
any order of steps, exactly if all that the child writes to the second pipe fits into it.
-/

namespace GameAP

open Lib

namespace ExecOutput

inductive Stream where
  | out
  | err
  deriving DecidableEq, Repr

/-- How many bytes each pipe holds. -/
structure Capacity where
  out : Nat
  err : Nat

/-- Where the parent is: before `running()`, in a `getline` with what it has of the line, in
`wait()`, or back. -/
inductive Phase where
  | test
  | readOut (line : List UInt8)
  | readErr (line : List UInt8)
  | wait
  | returned
  deriving DecidableEq, Repr

structure State where
  /-- what the child has still to write -/
  todo : List (Stream × UInt8)
  outPipe : List UInt8
  errPipe : List UInt8
  exited : Bool
  phase : Phase
  /-- the string that is returned -/
  out : List UInt8

def newline : UInt8 := 10

/-- A child that writes these bytes. -/
def State.init (program : List (Stream × UInt8)) : State :=
  { todo := program, outPipe := [], errPipe := [], exited := false, phase := .test, out := [] }

inductive Action where
  | child
  | parent

/-- `write` waits until there is room in the pipe. -/
def childStep (cap : Capacity) (s : State) : Option State :=
  match s.todo with
  | (.out, b) :: rest =>
    if s.outPipe.length < cap.out then some { s with todo := rest, outPipe := s.outPipe ++ [b] }
    else none
  | (.err, b) :: rest =>
    if s.errPipe.length < cap.err then some { s with todo := rest, errPipe := s.errPipe ++ [b] }
    else none
  | [] => if s.exited then none else some { s with exited := true }

/-- The next byte of a `getline`. -/
inductive Got where
  | more (pipe line : List UInt8)
  | line (pipe line : List UInt8)
  /-- the end of the output, and nothing before it -/
  | failed
  | waits

def getline (pipe : List UInt8) (exited : Bool) (line : List UInt8) : Got :=
  match pipe with
  | b :: rest => if b = newline then .line rest line else .more rest (line ++ [b])
  | [] => if !exited then .waits else if line = [] then .failed else .line [] line

/-- `out.append(s); out.append("\n")`, and back to the head of the loop. -/
def State.append (s : State) (line : List UInt8) : State :=
  { s with out := s.out ++ line ++ [newline], phase := .test }

def parentStep (s : State) : Option State :=
  match s.phase with
  | .test => some { s with phase := if s.exited then .wait else .readOut [] }
  | .readOut line =>
    match getline s.outPipe s.exited line with
    | .more outPipe line => some { s with outPipe, phase := .readOut line }
    | .line outPipe line => some ({ s with outPipe }.append line)
    | .failed => some { s with phase := .readErr [] }
    | .waits => none
  | .readErr line =>
    match getline s.errPipe s.exited line with
    | .more errPipe line => some { s with errPipe, phase := .readErr line }
    | .line errPipe line => some ({ s with errPipe }.append line)
    | .failed => some { s with phase := .wait }
    | .waits => none
  | .wait => if s.exited then some { s with phase := .returned } else none
  | .returned => none

def step (cap : Capacity) (s : State) : Action → Option State
  | .child => childStep cap s
  | .parent => parentStep s

def Step (cap : Capacity) (s : State) (a : Action) (t : State) : Prop := step cap s a = some t

/-- `exec` has not returned, and neither side can go on. -/
def Deadlocked (cap : Capacity) (s : State) : Prop :=
  s.phase ≠ .returned ∧ ∀ a, step cap s a = none

/-- How many bytes of the program go to a stream. -/
def bytes (stream : Stream) (program : List (Stream × UInt8)) : Nat :=
  program.countP fun w => w.1 = stream

/-- All of the second output fits into its pipe. -/
def Fits (cap : Capacity) (program : List (Stream × UInt8)) : Prop :=
  bytes .err program ≤ cap.err ∧ (bytes .out program = 0 ∨ 0 < cap.out)

variable {cap : Capacity} {s t : State} {a : Action} {program rest : List (Stream × UInt8)}
  {b : UInt8} {pipe line : List UInt8} {stream : Stream}

theorem bytes_cons_self : bytes stream ((stream, b) :: rest) = bytes stream rest + 1 := by
  simp [bytes]

theorem bytes_cons_ne {other : Stream} (h : other ≠ stream) :
    bytes stream ((other, b) :: rest) = bytes stream rest := by
  simp [bytes, h]

/-! ## What a step can do -/

inductive ChildCase (cap : Capacity) (s : State) : State → Prop where
  | out (b : UInt8) (rest : List (Stream × UInt8)) : s.todo = (.out, b) :: rest →
    ChildCase cap s { s with todo := rest, outPipe := s.outPipe ++ [b] }
  | err (b : UInt8) (rest : List (Stream × UInt8)) : s.todo = (.err, b) :: rest →
    ChildCase cap s { s with todo := rest, errPipe := s.errPipe ++ [b] }
  | exit : s.todo = [] → s.exited = false → ChildCase cap s { s with exited := true }

theorem childStep_cases (h : childStep cap s = some t) : ChildCase cap s t := by
  unfold childStep at h
  split at h
  · next b rest htodo =>
    split at h
    · cases h
      exact .out b rest htodo
    · cases h
  · next b rest htodo =>
    split at h
    · cases h
      exact .err b rest htodo
    · cases h
  · next htodo =>
    split at h
    · cases h
    · next he =>
      cases h
      exact .exit htodo (Bool.eq_false_iff.mpr he)

/-- What the parent's step leaves of the state: it takes bytes from the pipes, and it is past the
first output only when the child has exited. -/
structure ParentSpec (s t : State) : Prop where
  todo : t.todo = s.todo
  exited : t.exited = s.exited
  errPipe : t.errPipe.length ≤ s.errPipe.length
  phase : t.exited = false → s.phase = .test ∨ (∃ line, s.phase = .readOut line) →
    t.phase = .test ∨ ∃ line, t.phase = .readOut line

theorem getline_failed (h : getline pipe s.exited line = .failed) : s.exited = true := by
  unfold getline at h
  split at h
  · split at h <;> cases h
  · cases he : s.exited with
    | true => rfl
    | false => simp [he] at h

theorem getline_length {pipe' line' : List UInt8}
    (h : getline pipe s.exited line = .more pipe' line' ∨
      getline pipe s.exited line = .line pipe' line') : pipe'.length ≤ pipe.length := by
  unfold getline at h
  split at h
  · split at h <;> rcases h with h | h <;> cases h <;> simp
  · split at h
    · rcases h with h | h <;> cases h
    · split at h <;> rcases h with h | h <;> cases h <;> simp

theorem parentStep_spec (h : parentStep s = some t) : ParentSpec s t := by
  unfold parentStep at h
  split at h
  · next hp =>
    cases h
    refine ⟨rfl, rfl, Nat.le_refl _, fun he _ => .inr ⟨[], ?_⟩⟩
    exact if_neg (Bool.eq_false_iff.mp he)
  · next line hp =>
    split at h
    · cases h
      exact ⟨rfl, rfl, Nat.le_refl _, fun _ _ => .inr ⟨_, rfl⟩⟩
    · cases h
      exact ⟨rfl, rfl, Nat.le_refl _, fun _ _ => .inl rfl⟩
    · next hg =>
      cases h
      exact ⟨rfl, rfl, Nat.le_refl _, fun he _ =>
        absurd ((getline_failed hg).symm.trans he) (by decide)⟩
    · cases h
  · next line hp =>
    split at h
    · next hg =>
      cases h
      refine ⟨rfl, rfl, getline_length (.inl hg), fun _ hphase => ?_⟩
      rw [hp] at hphase
      rcases hphase with h | ⟨_, h⟩ <;> cases h
    · next hg =>
      cases h
      exact ⟨rfl, rfl, getline_length (.inr hg), fun _ _ => .inl rfl⟩
    · next hg =>
      cases h
      exact ⟨rfl, rfl, Nat.le_refl _, fun he _ =>
        absurd ((getline_failed hg).symm.trans he) (by decide)⟩
    · cases h
  · next hp =>
    split at h
    · next he =>
      cases h
      exact ⟨rfl, rfl, Nat.le_refl _, fun hf _ => absurd (he.symm.trans hf) (by decide)⟩
    · cases h
  · cases h

/-! ## Without a deadlock -/

/-- Nothing is lost on the way to the second pipe, and the parent is past the first output only
when the child has exited. -/
structure Inv (program : List (Stream × UInt8)) (s : State) : Prop where
  err : s.errPipe.length + bytes .err s.todo ≤ bytes .err program
  out : bytes .out s.todo ≤ bytes .out program
  phase : s.exited = false → s.phase = .test ∨ ∃ line, s.phase = .readOut line

theorem inv_init : Inv program (.init program) where
  err := by simp [State.init]
  out := Nat.le_refl _
  phase := fun _ => .inl rfl

theorem Inv.step (hi : Inv program s) (h : Step cap s a t) : Inv program t := by
  cases a with
  | child =>
    have herr := hi.err
    have hout := hi.out
    cases childStep_cases h with
    | out b rest htodo =>
      rw [htodo, bytes_cons_ne (by decide)] at herr
      rw [htodo, bytes_cons_self] at hout
      exact ⟨herr, Nat.le_of_succ_le hout, hi.phase⟩
    | err b rest htodo =>
      rw [htodo, bytes_cons_self] at herr
      rw [htodo, bytes_cons_ne (by decide)] at hout
      exact ⟨by simp only [List.length_append, List.length_singleton]; omega, hout, hi.phase⟩
    | exit htodo he => exact ⟨herr, hout, fun h => nomatch h⟩
  | parent =>
    have hs := parentStep_spec h
    refine ⟨?_, hs.todo ▸ hi.out, fun he => hs.phase he (hi.phase (hs.exited ▸ he))⟩
    have herr := hi.err
    have hle := hs.errPipe
    rw [hs.todo]
    omega

theorem getline_waits (h : getline pipe s.exited line = .waits) :
    pipe = [] ∧ s.exited = false := by
  unfold getline at h
  split at h
  · split at h <;> cases h
  · cases he : s.exited with
    | true =>
      rw [he] at h
      simp only [Bool.not_true, Bool.false_eq_true, if_false] at h
      split at h <;> cases h
    | false => exact ⟨rfl, rfl⟩

/-- The parent waits for the child's output or for its exit. -/
theorem parentStep_eq_none (hr : s.phase ≠ .returned) (h : parentStep s = none) :
    s.exited = false ∧ s.phase ≠ .test ∧ ∀ line, s.phase = .readOut line → s.outPipe = [] := by
  unfold parentStep at h
  split at h
  · cases h
  · next line hp =>
    split at h
    any_goals cases h
    next hg =>
    obtain ⟨hpipe, he⟩ := getline_waits hg
    exact ⟨he, by rw [hp]; exact fun h => (nomatch h), fun _ _ => hpipe⟩
  · next line hp =>
    split at h
    any_goals cases h
    next hg =>
    exact ⟨(getline_waits hg).2, by rw [hp]; exact fun h => (nomatch h),
      fun _ h => absurd (hp.symm.trans h) (by simp)⟩
  · next hp =>
    split at h
    · cases h
    · next he =>
      exact ⟨Bool.eq_false_iff.mpr he, by rw [hp]; exact fun h => (nomatch h),
        fun _ h => absurd (hp.symm.trans h) (by simp)⟩
  · next hp => exact absurd hp hr

theorem Inv.not_deadlocked (hi : Inv program s) (hfits : Fits cap program) :
    ¬ Deadlocked cap s := by
  rintro ⟨hr, hnone⟩
  obtain ⟨he, htest, hpipe⟩ := parentStep_eq_none hr (hnone .parent)
  obtain ⟨line, hread⟩ := (hi.phase he).resolve_left htest
  have hempty := hpipe line hread
  have hchild : childStep cap s = none := hnone .child
  have herr := hi.err
  have hout := hi.out
  obtain ⟨hfitErr, hfitOut⟩ := hfits
  -- the child, which has not exited, can write its next byte or exit
  unfold childStep at hchild
  split at hchild
  · next b rest htodo =>
    rw [htodo, bytes_cons_self] at hout
    rw [if_pos (by rw [hempty]; exact hfitOut.resolve_left (by omega))] at hchild
    cases hchild
  · next b rest htodo =>
    rw [htodo, bytes_cons_self] at herr
    rw [if_pos (by omega)] at hchild
    cases hchild
  · rw [he] at hchild
    cases hchild

/-! ## With one -/

/-- The parent waits for the next byte of the first output. -/
structure Waiting (s : State) : Prop where
  outPipe : s.outPipe = []
  exited : s.exited = false
  phase : ∃ line, s.phase = .readOut line

theorem Waiting.parentStep (h : Waiting s) : parentStep s = none := by
  obtain ⟨line, hline⟩ := h.phase
  unfold ExecOutput.parentStep
  rw [hline]
  simp only [h.outPipe, h.exited, getline, Bool.not_false, if_true]

theorem Waiting.deadlocked (h : Waiting s) (hchild : childStep cap s = none) :
    Deadlocked cap s := by
  obtain ⟨line, hline⟩ := h.phase
  refine ⟨by rw [hline]; exact fun h => (nomatch h), fun a => ?_⟩
  cases a with
  | child => exact hchild
  | parent => exact h.parentStep

/-- A byte of the first output goes through: it is written and read, and the parent waits again. -/
theorem Waiting.through (h : Waiting s) (htodo : s.todo = (.out, b) :: rest) (hcap : 0 < cap.out) :
    ∃ t, Run (Step cap) Any s t ∧ Waiting t ∧ t.todo = rest ∧ t.errPipe = s.errPipe := by
  obtain ⟨line, hline⟩ := h.phase
  have hwrite : Step cap s .child { s with todo := rest, outPipe := [b] } := by
    show childStep cap s = _
    unfold childStep
    rw [htodo]
    simp [h.outPipe, hcap]
  by_cases hb : b = newline
  · have hread : Step cap { s with todo := rest, outPipe := [b] } .parent
        ({ s with todo := rest, outPipe := [] }.append line) := by
      show ExecOutput.parentStep _ = _
      unfold ExecOutput.parentStep
      simp [hline, getline, hb]
    have htest : Step cap ({ s with todo := rest, outPipe := [] }.append line) .parent
        { { s with todo := rest, outPipe := [] }.append line with phase := .readOut [] } := by
      show some _ = some _
      simp [State.append, h.exited]
    exact ⟨_, .step (.step (.step (.refl s) trivial hwrite) trivial hread) trivial htest,
      ⟨rfl, h.exited, [], rfl⟩, rfl, rfl⟩
  · have hread : Step cap { s with todo := rest, outPipe := [b] } .parent
        { s with todo := rest, outPipe := [], phase := .readOut (line ++ [b]) } := by
      show ExecOutput.parentStep _ = _
      unfold ExecOutput.parentStep
      simp [hline, getline, hb]
    exact ⟨_, .step (.step (.refl s) trivial hwrite) trivial hread,
      ⟨rfl, h.exited, _, rfl⟩, rfl, rfl⟩

/-- A byte of the second output stays in its pipe. -/
theorem Waiting.written (h : Waiting s) (htodo : s.todo = (.err, b) :: rest)
    (hroom : s.errPipe.length < cap.err) :
    ∃ t, Run (Step cap) Any s t ∧ Waiting t ∧ t.todo = rest ∧
      t.errPipe.length = s.errPipe.length + 1 := by
  have hwrite : Step cap s .child { s with todo := rest, errPipe := s.errPipe ++ [b] } := by
    show childStep cap s = _
    unfold childStep
    rw [htodo]
    simp only [if_pos hroom]
  exact ⟨_, .step (.refl s) trivial hwrite, ⟨h.outPipe, h.exited, h.phase⟩, rfl, by simp⟩

/-- From where the parent waits, either nobody gets stuck before the child is done, and then all
of it fits, or somebody does. -/
theorem Waiting.fits_or_deadlocked (program : List (Stream × UInt8)) (h : Waiting s)
    (htodo : s.todo = program) (herr : s.errPipe.length ≤ cap.err) :
    (s.errPipe.length + bytes .err program ≤ cap.err ∧
        (bytes .out program = 0 ∨ 0 < cap.out)) ∨
      ∃ t, Run (Step cap) Any s t ∧ Deadlocked cap t := by
  induction program generalizing s with
  | nil => exact .inl ⟨herr, .inl rfl⟩
  | cons w rest ih =>
    obtain ⟨stream, b⟩ := w
    cases stream with
    | out =>
      by_cases hcap : 0 < cap.out
      · obtain ⟨t, hrun, ht, htodo', herr'⟩ := h.through htodo hcap
        rcases ih ht htodo' (herr' ▸ herr) with ⟨hfits, -⟩ | ⟨u, hu, hdead⟩
        · rw [herr'] at hfits
          exact .inl ⟨by rwa [bytes_cons_ne (by decide)], .inr hcap⟩
        · exact .inr ⟨u, hrun.trans hu, hdead⟩
      · refine .inr ⟨s, .refl s, h.deadlocked ?_⟩
        unfold childStep
        rw [htodo]
        simp only [h.outPipe, List.length_nil, if_neg hcap]
    | err =>
      by_cases hroom : s.errPipe.length < cap.err
      · obtain ⟨t, hrun, ht, htodo', hlength⟩ := h.written htodo hroom
        rcases ih ht htodo' (by rw [hlength]; exact hroom) with ⟨hfits, hout⟩ | ⟨u, hu, hdead⟩
        · rw [hlength] at hfits
          refine .inl ⟨by rw [bytes_cons_self]; omega, ?_⟩
          rwa [bytes_cons_ne (by decide)]
        · exact .inr ⟨u, hrun.trans hu, hdead⟩
      · refine .inr ⟨s, .refl s, h.deadlocked ?_⟩
        unfold childStep
        rw [htodo]
        simp only [if_neg hroom]

/-- The child has been started, and the parent has found it running. -/
theorem run_waiting (cap : Capacity) (program : List (Stream × UInt8)) :
    Run (Step cap) Any (.init program) { State.init program with phase := .readOut [] } :=
  .step (i := .parent) (.refl _) trivial rfl

theorem deadlock_of_not_fits (h : ¬ Fits cap program) :
    ∃ s, Run (Step cap) Any (.init program) s ∧ Deadlocked cap s := by
  have hwaiting : Waiting { State.init program with phase := .readOut [] } := ⟨rfl, rfl, [], rfl⟩
  rcases hwaiting.fits_or_deadlocked program rfl (Nat.zero_le cap.err) with
    ⟨herr, hout⟩ | ⟨s, hs, hdead⟩
  · refine absurd ⟨?_, hout⟩ h
    simpa [State.init] using herr
  · exact ⟨s, (run_waiting cap program).trans hs, hdead⟩

/-- **When nobody gets stuck.** For every child that writes a finite sequence of bytes to its two
outputs and exits, and for all capacities of the pipes: in every reachable state one side can go on
until `exec` has returned, exactly if all of the second output fits into its pipe, and the first
pipe holds a byte if there is a first output. -/
theorem deadlock_free_iff (cap : Capacity) (program : List (Stream × UInt8)) :
    (∀ s, Run (Step cap) Any (.init program) s → ¬ Deadlocked cap s) ↔ Fits cap program := by
  constructor
  · intro hfree
    by_contra hfits
    obtain ⟨s, hs, hdead⟩ := deadlock_of_not_fits hfits
    exact hfree s hs hdead
  · intro hfits s hs
    have hi : Inv program s := hs.invariant inv_init fun _ _ _ hi _ hstep => hi.step hstep
    exact hi.not_deadlocked hfits

/-- The pipes of Linux. -/
def linuxPipes : Capacity := { out := 65536, err := 65536 }

/-- One line of error output that is longer. -/
def longError : List (Stream × UInt8) := List.replicate 65536 (.err, 120) ++ [(.err, newline)]

theorem not_fits_longError : ¬ Fits linuxPipes longError := by
  rintro ⟨herr, -⟩
  have hbytes : bytes .err longError = 65537 := by
    unfold bytes longError
    rw [List.countP_append, List.countP_replicate]
    rfl
  rw [hbytes] at herr
  exact absurd herr (by decide)

theorem long_error_deadlocks : ¬ ∀ cap program s, Run (Step cap) Any (.init program) s →
    ¬ Deadlocked cap s := by
  intro hall
  obtain ⟨s, hs, hdead⟩ := deadlock_of_not_fits not_fits_longError
  exact hall _ _ s hs hdead

end ExecOutput

end GameAP
