import Mathlib.Algebra.Order.Ring.Int
import Mathlib.Data.List.Defs

/-!
# Events apart in time

`Spaced time d l`: each event of `l` comes at least `d` behind all that are before it. So many of
them fit into a window (`Spaced.window`).
-/

namespace Lib

variable {α : Type*} {time : α → Int} {d : Int} {l : List α} {x : α} {a b : Int}

def Spaced (time : α → Int) (d : Int) (l : List α) : Prop :=
  l.Pairwise fun x y => time x + d ≤ time y

theorem Spaced.nil : Spaced time d [] := List.Pairwise.nil

theorem Spaced.concat (h : Spaced time d l) (hx : ∀ y ∈ l, time y + d ≤ time x) :
    Spaced time d (l ++ [x]) := by
  refine List.pairwise_append.mpr ⟨h, List.pairwise_singleton _ _, fun y hy z hz => ?_⟩
  rw [List.mem_singleton.mp hz]
  exact hx y hy

theorem Spaced.filter (h : Spaced time d l) (p : α → Bool) : Spaced time d (l.filter p) :=
  List.Pairwise.filter p h

/-- By induction: what comes behind the first event has a shorter window. -/
theorem Spaced.length_mul_le (h : Spaced time d l) (hl : ∀ x ∈ l, a ≤ time x ∧ time x ≤ b)
    (hne : l ≠ []) : (l.length : Int) * d ≤ b - a + d := by
  induction l generalizing a with
  | nil => exact absurd rfl hne
  | cons x l ih =>
    obtain ⟨hfirst, hrest⟩ := List.pairwise_cons.mp h
    obtain ⟨hax, hxb⟩ := hl x List.mem_cons_self
    rw [List.length_cons, Nat.cast_add, Nat.cast_one, Int.add_mul, Int.one_mul]
    by_cases hnil : l = []
    · subst hnil
      rw [List.length_nil, Nat.cast_zero, Int.zero_mul]
      omega
    · have hwindow : ∀ y ∈ l, time x + d ≤ time y ∧ time y ≤ b := fun y hy =>
        ⟨hfirst y hy, (hl y (List.mem_cons_of_mem _ hy)).2⟩
      have hle := ih hrest hwindow hnil
      omega

/-- How many events fit into a window. -/
theorem Spaced.window (h : Spaced time d l) (hd : 0 ≤ d) (hab : a ≤ b) :
    ((l.filter fun x => decide (a ≤ time x ∧ time x ≤ b)).length : Int) * d ≤ b - a + d := by
  by_cases hnil : (l.filter fun x => decide (a ≤ time x ∧ time x ≤ b)) = []
  · rw [hnil, List.length_nil, Nat.cast_zero, Int.zero_mul]
    omega
  · exact (h.filter _).length_mul_le (fun x hx => of_decide_eq_true (List.mem_filter.mp hx).2) hnil

end Lib
