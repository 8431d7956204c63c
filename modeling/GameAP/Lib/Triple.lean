import GameAP.Lib.Keeps

/-!
# Triples

`Triple P m Q E`: from a state with `P` the computation `m` returns a value and a state with `Q`, or
it throws in a state with `E`. The rules follow the way computations are built.
-/

namespace Lib

variable {ε σ α β : Type} {P P' : σ → Prop} {Q Q' : α → σ → Prop} {E : σ → Prop}

def Triple (P : σ → Prop) (m : EStateM ε σ α) (Q : α → σ → Prop) (E : σ → Prop) : Prop :=
  ∀ s, P s →
    match m s with
    | .ok a t => Q a t
    | .error _ t => E t

theorem Triple.pure {a : α} (h : ∀ s, P s → Q a s) : Triple P (pure a : EStateM ε σ α) Q E :=
  fun s hs => h s hs

theorem Triple.modify {g : σ → σ} {Q : PUnit → σ → Prop} (h : ∀ s, P s → Q ⟨⟩ (g s)) :
    Triple P (modify g : EStateM ε σ PUnit) Q E :=
  fun s hs => h s hs

/-- The rule of composition. -/
theorem Triple.bind {m : EStateM ε σ α} {k : α → EStateM ε σ β} {R : β → σ → Prop}
    (hm : Triple P m Q E) (hk : ∀ a, Triple (Q a) (k a) R E) : Triple P (m >>= k) R E := by
  intro s hs
  have h := hm s hs
  cases hr : m s with
  | ok a t =>
    rw [hr] at h
    rw [bind_of_ok hr]
    exact hk a t h
  | error e t =>
    rw [hr] at h
    rw [bind_of_error hr]
    exact h

/-- The rules of consequence. -/
theorem Triple.pre {m : EStateM ε σ α} (hm : Triple P m Q E) (h : ∀ s, P' s → P s) :
    Triple P' m Q E :=
  fun s hs => hm s (h s hs)

theorem Triple.post {m : EStateM ε σ α} (hm : Triple P m Q E) (h : ∀ a s, Q a s → Q' a s) :
    Triple P m Q' E := by
  intro s hs
  have hr := hm s hs
  cases hm' : m s with
  | ok a t =>
    rw [hm'] at hr
    exact h a t hr
  | error e t =>
    rw [hm'] at hr
    exact hr

/-- What holds after a return and after an exception holds at the end. -/
theorem Triple.endState {m : EStateM ε σ α} {s : σ} (hm : Triple P m (fun _ => E) E) (hs : P s) :
    E (Lib.endState m s) := by
  have h := hm s hs
  unfold Lib.endState
  cases hr : m s with
  | ok a t =>
    rw [hr] at h
    exact h
  | error e t =>
    rw [hr] at h
    exact h

end Lib
