import Mathlib.Logic.Basic

/-!
# Loops

`loop step n s` runs the body `step` from `s` at most `n` times; the body goes on with a new state
or leaves the loop with a result. `Returns` is a result for some number of runs: it is unique, it
is found by running the body (`returns_inl`, `returns_inr`), there is one if each run that goes on
makes a measure smaller (`returns_of_lt`), and there is none if an invariant keeps the loop going
(`not_returns`).
-/

namespace Lib

variable {σ β : Type*} {step : σ → σ ⊕ β} {s t : σ} {b c : β} {m n : Nat}

def loop (step : σ → σ ⊕ β) : Nat → σ → Option β
  | 0, _ => none
  | n + 1, s =>
    match step s with
    | .inl t => loop step n t
    | .inr b => some b

def Returns (step : σ → σ ⊕ β) (s : σ) (b : β) : Prop := ∃ n, loop step n s = some b

theorem loop_inl (h : step s = .inl t) : loop step (n + 1) s = loop step n t := by
  rw [loop, h]

theorem loop_inr (h : step s = .inr b) : loop step (n + 1) s = some b := by
  rw [loop, h]

theorem loop_mono (h : loop step n s = some b) (hle : n ≤ m) : loop step m s = some b := by
  induction n generalizing m s with
  | zero => cases h
  | succ n ih =>
    obtain ⟨m, rfl⟩ : ∃ k, m = k + 1 := ⟨m - 1, by omega⟩
    cases hs : step s with
    | inl t =>
      rw [loop_inl hs] at h ⊢
      exact ih h (by omega)
    | inr c =>
      rw [loop_inr hs] at h ⊢
      exact h

theorem Returns.unique (h1 : Returns step s b) (h2 : Returns step s c) : b = c := by
  obtain ⟨n, hn⟩ := h1
  obtain ⟨m, hm⟩ := h2
  have h := loop_mono hn (Nat.le_max_left n m)
  rw [loop_mono hm (Nat.le_max_right n m)] at h
  exact (Option.some.inj h).symm

theorem returns_inl (h : step s = .inl t) : Returns step s b ↔ Returns step t b := by
  constructor
  · rintro ⟨_ | n, hn⟩
    · cases hn
    · exact ⟨n, (loop_inl h).symm.trans hn⟩
  · rintro ⟨n, hn⟩
    exact ⟨n + 1, (loop_inl h).trans hn⟩

theorem returns_inr (h : step s = .inr b) : Returns step s b := ⟨1, loop_inr h⟩

/-- A loop returns if every run of its body that goes on keeps an invariant and makes a measure
smaller. -/
theorem returns_of_lt {I : σ → Prop} (size : σ → Nat)
    (hstep : ∀ s, I s → (∃ b, step s = .inr b) ∨ ∃ t, step s = .inl t ∧ I t ∧ size t < size s)
    (hs : I s) : ∃ b, Returns step s b := by
  induction hn : size s using Nat.strongRecOn generalizing s with
  | _ n ih =>
    rcases hstep s hs with ⟨b, hb⟩ | ⟨t, ht, hi, hlt⟩
    · exact ⟨b, returns_inr hb⟩
    · obtain ⟨b, hb⟩ := ih (size t) (hn ▸ hlt) hi rfl
      exact ⟨b, (returns_inl ht).mpr hb⟩

/-- A loop whose body always goes on does not return. -/
theorem not_returns {I : σ → Prop} (hstep : ∀ s, I s → ∃ t, step s = .inl t ∧ I t) (hs : I s) :
    ¬ Returns step s b := by
  rintro ⟨n, hn⟩
  induction n generalizing s with
  | zero => cases hn
  | succ n ih =>
    obtain ⟨t, ht, hi⟩ := hstep s hs
    exact ih hi ((loop_inl ht).symm.trans hn)

end Lib
