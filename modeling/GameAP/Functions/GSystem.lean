import GameAP.Lib.Run

/-!
# A command whose lines are called back

`exec(cmd, callback)` with the child that runs the command: the child writes lines to the pipe and
exits, the parent tests `running` and then reads a line. The loop ends when the child does, not
when its output does. `handed_iff`: every line is handed to the callback exactly if, when the child
exits, none is left in the pipe, or one for which the parent has already gone to read.
-/

namespace GameAP

open Lib

namespace ExecCallback

/-- Where the parent is: before `running()`, in `getline`, in `wait()`, or back. -/
inductive Phase where
  | test
  | read
  | wait
  | returned
  deriving DecidableEq, Repr

structure State where
  /-- what the child has written -/
  written : List String
  /-- what of it is still in the pipe -/
  pipe : List String
  exited : Bool
  phase : Phase
  /-- what the callback has been given -/
  handed : List String
  deriving DecidableEq, Repr

/-- The child has been started. -/
def State.init : State :=
  { written := [], pipe := [], exited := false, phase := .test, handed := [] }

inductive Action where
  | write (line : String)
  | exit
  | parent
  deriving DecidableEq, Repr

/-- The parent's next step: `getline` waits for a line or for the end of the output, `wait` for
the exit. -/
def parentStep (s : State) : Option State :=
  match s.phase with
  | .test => some { s with phase := if s.exited then .wait else .read }
  | .read =>
    match s.pipe with
    | line :: rest => some { s with pipe := rest, handed := s.handed ++ [line], phase := .test }
    | [] => if s.exited then some { s with phase := .wait } else none
  | .wait => if s.exited then some { s with phase := .returned } else none
  | .returned => none

def step (s : State) : Action → Option State
  | .write line =>
    if s.exited then none
    else some { s with written := s.written ++ [line], pipe := s.pipe ++ [line] }
  | .exit => if s.exited then none else some { s with exited := true }
  | .parent => parentStep s

def Step (s : State) (a : Action) (t : State) : Prop := step s a = some t

/-- What a step can do. -/
inductive StepCase (s : State) : Action → State → Prop where
  | write (line : String) : s.exited = false →
    StepCase s (.write line) { s with written := s.written ++ [line], pipe := s.pipe ++ [line] }
  | exit : s.exited = false → StepCase s .exit { s with exited := true }
  | running : s.phase = .test → s.exited = false → StepCase s .parent { s with phase := .read }
  | stopped : s.phase = .test → s.exited = true → StepCase s .parent { s with phase := .wait }
  | line (line : String) (rest : List String) : s.phase = .read → s.pipe = line :: rest →
    StepCase s .parent { s with pipe := rest, handed := s.handed ++ [line], phase := .test }
  | eof : s.phase = .read → s.pipe = [] → s.exited = true →
    StepCase s .parent { s with phase := .wait }
  | waited : s.phase = .wait → s.exited = true → StepCase s .parent { s with phase := .returned }

variable {s t u : State} {a : Action}

theorem step_cases (h : Step s a t) : StepCase s a t := by
  unfold Step step at h
  cases a with
  | write line =>
    dsimp only at h
    split at h
    · cases h
    · next he =>
      cases h
      exact .write line (Bool.eq_false_iff.mpr he)
  | exit =>
    dsimp only at h
    split at h
    · cases h
    · next he =>
      cases h
      exact .exit (Bool.eq_false_iff.mpr he)
  | parent =>
    dsimp only [parentStep] at h
    split at h
    · next hp =>
      cases h
      by_cases he : s.exited = true
      · rw [if_pos he]
        exact .stopped hp he
      · rw [if_neg he]
        exact .running hp (Bool.eq_false_iff.mpr he)
    · next hp =>
      split at h
      · next line rest hpipe =>
        cases h
        exact .line line rest hp hpipe
      · next hpipe =>
        split at h
        · next he =>
          cases h
          exact .eof hp hpipe he
        · cases h
    · next hp =>
      split at h
      · next he =>
        cases h
        exact .waited hp he
      · cases h
    · cases h

/-! ## What is lost -/

/-- Every line is handed over or in the pipe, and the parent waits only for a child that has
exited. -/
structure Inv (s : State) : Prop where
  lines : s.written = s.handed ++ s.pipe
  waits : s.exited = false → s.phase = .test ∨ s.phase = .read

theorem inv_init : Inv .init where
  lines := rfl
  waits := fun _ => .inl rfl

theorem Inv.step (hi : Inv s) (h : Step s a t) : Inv t := by
  cases step_cases h with
  | write line he =>
    exact ⟨by simp [hi.lines], hi.waits⟩
  | exit he => exact ⟨hi.lines, fun h => nomatch h⟩
  | running hp he => exact ⟨hi.lines, fun _ => .inr rfl⟩
  | stopped hp he => exact ⟨hi.lines, fun h => absurd (he.symm.trans h) (by decide)⟩
  | line line rest hp hpipe => exact ⟨by simp [hi.lines, hpipe], fun _ => .inl rfl⟩
  | eof hp hpipe he => exact ⟨hi.lines, fun h => absurd (he.symm.trans h) (by decide)⟩
  | waited hp he => exact ⟨hi.lines, fun h => absurd (he.symm.trans h) (by decide)⟩

/-- What the parent will not read once the child has exited: all that is in the pipe, but for the
line that it has already gone to read. -/
def lost (s : State) : List String :=
  match s.phase with
  | .read => s.pipe.drop 1
  | _ => s.pipe

/-- After the exit no step changes what is lost. -/
theorem lost_step (he : s.exited = true) (h : Step s a t) : t.exited = true ∧ lost t = lost s := by
  have hrunning : ∀ {b : Prop}, s.exited = false → b := fun h =>
    absurd (he.symm.trans h) (by decide)
  cases step_cases h with
  | write line hr => exact hrunning hr
  | exit hr => exact hrunning hr
  | running hp hr => exact hrunning hr
  | stopped hp _ => exact ⟨he, by simp [lost, hp]⟩
  | line line rest hp hpipe => exact ⟨he, by simp [lost, hp, hpipe]⟩
  | eof hp hpipe _ => exact ⟨he, by simp [lost, hp, hpipe]⟩
  | waited hp _ => exact ⟨he, by simp [lost, hp]⟩

theorem lost_run (he : s.exited = true) (h : Run Step Any s t) :
    t.exited = true ∧ lost t = lost s := by
  refine h.invariant (I := fun v => v.exited = true ∧ lost v = lost s) ⟨he, rfl⟩ ?_
  rintro v b w ⟨hv, hl⟩ - hstep
  obtain ⟨hw, hlw⟩ := lost_step hv hstep
  exact ⟨hw, hlw.trans hl⟩

/-- No line is left in the pipe, or one that the parent has already gone to read. -/
def Drained (s : State) : Prop := s.pipe = [] ∨ s.phase = .read ∧ s.pipe.length = 1

theorem lost_eq_nil_iff : lost s = [] ↔ Drained s := by
  unfold lost Drained
  cases hp : s.phase <;> cases hpipe : s.pipe with
  | nil => simp
  | cons line rest => cases rest <;> simp

theorem inv_run (h : Run Step Any .init s) : Inv s :=
  h.invariant inv_init fun _ _ _ hi _ hstep => hi.step hstep

/-- At the end what is not handed over is what is lost. -/
theorem Inv.nothing_lost_iff (hi : Inv s) (hr : s.phase = .returned) :
    s.handed = s.written ↔ lost s = [] := by
  have hl : lost s = s.pipe := by simp [lost, hr]
  rw [hl, hi.lines, List.self_eq_append_right]

/-- Before the parent is back the child has exited. -/
theorem exited_of_returned (hi : Inv s) (hr : s.phase = .returned) : s.exited = true := by
  cases he : s.exited with
  | true => rfl
  | false =>
    rcases hi.waits he with h | h
    · rw [hr] at h
      cases h
    · rw [hr] at h
      cases h

/-- **When every line is handed over.** In every run: the lines that the callback was given when
`exec` returns are those that the child has written, in order, exactly if at the exit of the child
the pipe was drained. So they are in every run whose exit step finds it so. -/
theorem handed_iff {u : State} (hr : u.phase = .returned) :
    (∀ s t, Run Step Any .init s → Step s .exit t → Run Step Any t u →
      (u.handed = u.written ↔ Drained s)) ∧
    (Run Step (fun s a => a = .exit → Drained s) .init u → u.handed = u.written) := by
  refine ⟨fun s t hs hexit hu => ?_, fun hu => ?_⟩
  · have ht : Run Step Any .init t := hs.step trivial hexit
    have hlost : t.exited = true ∧ lost t = lost s := by
      cases step_cases hexit with
      | exit _ => exact ⟨rfl, rfl⟩
    obtain ⟨-, hlu⟩ := lost_run hlost.1 hu
    rw [(inv_run (ht.trans hu)).nothing_lost_iff hr, hlu, hlost.2, lost_eq_nil_iff]
  · have hall : Inv u ∧ (u.exited = true → lost u = []) := by
      refine hu.invariant (I := fun v => Inv v ∧ (v.exited = true → lost v = []))
        ⟨inv_init, fun h => nomatch h⟩ ?_
      rintro v b w ⟨hi, hl⟩ hok hstep
      refine ⟨hi.step hstep, fun hw => ?_⟩
      by_cases hv : v.exited = true
      · rw [(lost_step hv hstep).2]
        exact hl hv
      · -- only the exit of the child ends it
        cases step_cases hstep with
        | exit _ => exact lost_eq_nil_iff.mpr (hok rfl)
        | write _ _ | running _ _ | line _ _ _ _ => exact absurd hw hv
        | stopped _ he | eof _ _ he | waited _ he => exact absurd he hv
    exact (hall.1.nothing_lost_iff hr).mpr (hall.2 (exited_of_returned hall.1 hr))

/-! ## A command that is done at once -/

/-- The child writes one line. -/
def wrote (s : State) : State := { s with written := ["done"], pipe := ["done"] }

/-- It exits before the parent has tested it, and the parent does not read. -/
def unreadEnd : State := { wrote .init with exited := true, phase := .returned }

theorem run_unread : Run Step Any .init unreadEnd :=
  .step (i := .parent) (.step (i := .parent) (.step (i := .exit) (.step (i := .write "done")
    (.refl _) trivial rfl) trivial rfl) trivial rfl) trivial rfl

/-- The parent reads the line before the child exits. -/
def drainedEnd : State :=
  { wrote .init with pipe := [], exited := true, phase := .returned, handed := ["done"] }

theorem run_drained : Run Step (fun s a => a = .exit → Drained s) .init drainedEnd :=
  .step (i := .parent) (.step (i := .parent) (.step (i := .exit) (.step (i := .parent)
    (.step (i := .parent) (.step (i := .write "done") (.refl _) (fun h => nomatch h) rfl)
      (fun h => nomatch h) rfl) (fun h => nomatch h) rfl) (fun _ => .inl rfl) rfl)
    (fun h => nomatch h) rfl) (fun h => nomatch h) rfl

theorem handed_iff_drained : drainedEnd.handed = drainedEnd.written :=
  (handed_iff rfl).2 run_drained

theorem unread_line_is_lost : ¬ ∀ u, Run Step Any .init u → u.phase = .returned →
    u.handed = u.written := by
  intro hall
  exact absurd (hall _ run_unread rfl) (by decide)

end ExecCallback

end GameAP
