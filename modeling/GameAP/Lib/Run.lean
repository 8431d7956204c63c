import Mathlib.Logic.Basic

/-!
# Runs of a transition relation

`Run R ok s t`: the relation `R` leads from `s` to `t` in steps whose inputs all satisfy `ok` in
the state they are taken from. `ok` is the hypothesis a run makes about its inputs; `Any` makes
none. An invariant is proved once per step (`Run.invariant`). `RunN` counts the steps; a rank that
every step lowers bounds their number (`RunN.rank_le`).
-/

namespace Lib

variable {σ ι : Type*} {R : σ → ι → σ → Prop} {ok ok' : σ → ι → Prop} {s t u : σ}

inductive Run (R : σ → ι → σ → Prop) (ok : σ → ι → Prop) : σ → σ → Prop where
  | refl (s : σ) : Run R ok s s
  | step {s t u : σ} {i : ι} : Run R ok s t → ok t i → R t i u → Run R ok s u

/-- No hypothesis about the inputs. -/
def Any (_ : σ) (_ : ι) : Prop := True

theorem Run.trans (h1 : Run R ok s t) (h2 : Run R ok t u) : Run R ok s u := by
  induction h2 with
  | refl => exact h1
  | step _ hok hr ih => exact .step ih hok hr

theorem Run.mono (h : Run R ok s t) (hok : ∀ s i, ok s i → ok' s i) : Run R ok' s t := by
  induction h with
  | refl => exact .refl _
  | step _ ho hr ih => exact .step ih (hok _ _ ho) hr

/-- What holds at the start and is kept by every step holds at the end. -/
theorem Run.invariant {I : σ → Prop} (h : Run R ok s t) (h0 : I s)
    (hstep : ∀ s i t, I s → ok s i → R s i t → I t) : I t := by
  induction h with
  | refl => exact h0
  | step _ hok hr ih => exact hstep _ _ _ ih hok hr

inductive RunN (R : σ → ι → σ → Prop) (ok : σ → ι → Prop) : Nat → σ → σ → Prop where
  | refl (s : σ) : RunN R ok 0 s s
  | step {n : Nat} {s t u : σ} {i : ι} : RunN R ok n s t → ok t i → R t i u → RunN R ok (n + 1) s u

theorem RunN.run {n : Nat} (h : RunN R ok n s t) : Run R ok s t := by
  induction h with
  | refl => exact .refl _
  | step _ hok hr ih => exact .step ih hok hr

/-- Where every step lowers a rank, there are at most as many steps as the rank is high. -/
theorem RunN.rank_le {I : σ → Prop} {rank : σ → Nat} {n : Nat} (h : RunN R ok n s t) (h0 : I s)
    (hstep : ∀ s i t, I s → ok s i → R s i t → I t ∧ rank t < rank s) :
    I t ∧ n + rank t ≤ rank s := by
  induction h with
  | refl => exact ⟨h0, by omega⟩
  | step _ hok hr ih =>
    obtain ⟨hI, hle⟩ := ih h0
    obtain ⟨hI', hlt⟩ := hstep _ _ _ hI hok hr
    exact ⟨hI', by omega⟩

end Lib
