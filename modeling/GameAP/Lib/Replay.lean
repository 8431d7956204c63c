import GameAP.Lib.Run

/-!
# Logs that an automaton accepts

A partial automaton `next` says in which order events may happen; `replay` follows it through a
log. A system refines the automaton if each of its steps adds events that the automaton can follow
from a state related to the system's own (`Run.replays`).
-/

namespace Lib

variable {α ε σ ι : Type*} {next : α → ε → Option α} {a b c : α} {l m : List ε} {e : ε}

/-- The state that the automaton is in behind a log, if it accepts it. -/
def replay (next : α → ε → Option α) (a : α) : List ε → Option α
  | [] => some a
  | e :: l => (next a e).bind fun b => replay next b l

theorem replay_append : replay next a (l ++ m) = (replay next a l).bind fun b => replay next b m := by
  induction l generalizing a with
  | nil => rfl
  | cons e l ih =>
    show (next a e).bind _ = ((next a e).bind _).bind _
    cases next a e with
    | none => rfl
    | some b => exact ih

theorem replay_trans (h1 : replay next a l = some b) (h2 : replay next b m = some c) :
    replay next a (l ++ m) = some c := by
  rw [replay_append, h1]
  exact h2

theorem replay_singleton : replay next a [e] = next a e := by
  show (next a e).bind some = next a e
  cases next a e <;> rfl

/-- A log that is accepted is accepted up to any place in it. -/
theorem of_replay_append (h : replay next a (l ++ m) = some c) :
    ∃ b, replay next a l = some b ∧ replay next b m = some c := by
  rw [replay_append] at h
  exact Option.bind_eq_some_iff.mp h

theorem of_replay_cons (h : replay next a (e :: l) = some c) :
    ∃ b, next a e = some b ∧ replay next b l = some c := Option.bind_eq_some_iff.mp h

/-- **Refinement.** What each step adds to the log the automaton can follow. -/
theorem Run.replays {R : σ → ι → σ → Prop} {ok : σ → ι → Prop} {s t : σ} {start : α}
    (log : σ → List ε) (Rel : σ → α → Prop) (h : Run R ok s t)
    (h0 : ∃ a, replay next start (log s) = some a ∧ Rel s a)
    (hstep : ∀ s i t a, Rel s a → ok s i → R s i t →
      ∃ es b, log t = log s ++ es ∧ replay next a es = some b ∧ Rel t b) :
    ∃ a, replay next start (log t) = some a ∧ Rel t a := by
  apply h.invariant (I := fun s => ∃ a, replay next start (log s) = some a ∧ Rel s a) h0
  rintro s i t ⟨a, hlog, hrel⟩ hok hr
  obtain ⟨es, b, hes, hb, hrel'⟩ := hstep s i t a hrel hok hr
  exact ⟨b, hes ▸ replay_trans hlog hb, hrel'⟩

end Lib
