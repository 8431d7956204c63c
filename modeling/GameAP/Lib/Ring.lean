import Mathlib.Data.List.Rotate
import Mathlib.Data.Nat.ModEq
import Mathlib.Logic.Function.Basic

/-!
# Rings

A ring of `n` cells in a memory: `Holds n mem start xs` says that the cells from `start` on, past
the last one and on from the first, hold `xs`; `HoldsLast n mem start xs`, that they do so for the
last `n` elements of `xs`, which writing behind them adds to (`HoldsLast.push`). `indices` are the
cells in the order in which they are read; where there are more than `n` elements, reading from
`start` on begins in the middle of the last `n` (`HoldsLast.rotate_read`).
-/

namespace Lib.Ring

variable {α : Type*} {n : Nat} {mem : Nat → α} {start : Nat} {xs : List α}

/-- The cell behind `i`. -/
def next (n i : Nat) : Nat := if i + 1 ≥ n then 0 else i + 1

theorem next_eq {i : Nat} (h : i < n) : next n i = (i + 1) % n := by
  unfold next
  split
  · next hle =>
    have he : i + 1 = n := by omega
    rw [he, Nat.mod_self]
  · next hlt => rw [Nat.mod_eq_of_lt (by omega)]

/-- The cells of `len` elements from `start` on. -/
def indices (n start len : Nat) : List Nat := (List.range len).map fun k => (start + k) % n

theorem indices_lt (hn : 0 < n) {len i : Nat} (h : i ∈ indices n start len) : i < n := by
  obtain ⟨k, -, rfl⟩ := List.mem_map.mp h
  exact Nat.mod_lt _ hn

theorem indices_succ (n start len : Nat) :
    indices n start (len + 1) = start % n :: indices n (start % n + 1) len := by
  unfold indices
  rw [List.range_succ_eq_map, List.map_cons, List.map_map]
  congr 1
  refine List.map_congr_left fun k _ => ?_
  simp only [Function.comp_apply, Nat.succ_eq_add_one]
  rw [Nat.add_assoc, Nat.mod_add_mod]
  congr 1
  omega

/-- Less than `n` cells apart, two cells are different. -/
theorem offset_ne {j k : Nat} (hj : j < k) (hk : k < j + n) :
    (start + j) % n ≠ (start + k) % n := by
  intro he
  have hmod : j ≡ k [MOD n] := Nat.ModEq.add_left_cancel' start he
  have hle : n ≤ k - j := Nat.le_of_dvd (by omega) ((Nat.modEq_iff_dvd' hj.le).mp hmod)
  omega

def Holds (n : Nat) (mem : Nat → α) (start : Nat) (xs : List α) : Prop :=
  ∀ k (h : k < xs.length), mem ((start + k) % n) = xs[k]

def HoldsLast (n : Nat) (mem : Nat → α) (start : Nat) (xs : List α) : Prop :=
  ∀ k (h : k < xs.length), xs.length ≤ k + n → mem ((start + k) % n) = xs[k]

theorem holdsLast_nil : HoldsLast n mem start [] := fun _ h => absurd h (Nat.not_lt_zero _)

/-- What is written behind the elements is the last of them; of the others at most the first of the
last `n` is overwritten. -/
theorem HoldsLast.push (h : HoldsLast n mem start xs) (x : α) :
    HoldsLast n (Function.update mem ((start + xs.length) % n) x) start (xs ++ [x]) := by
  intro k hk hlast
  rw [List.length_append, List.length_singleton] at hk hlast
  rcases Nat.lt_succ_iff_lt_or_eq.mp hk with hlt | rfl
  · rw [Function.update_of_ne (offset_ne hlt (by omega)), List.getElem_append_left hlt]
    exact h k hlt (by omega)
  · rw [Function.update_self, List.getElem_append_right (Nat.le_refl _)]
    simp

/-- As long as they fit, all elements are held. -/
theorem HoldsLast.holds (h : HoldsLast n mem start xs) (hfit : xs.length ≤ n) :
    Holds n mem start xs := fun k hk => h k hk (by omega)

theorem Holds.holdsLast (h : Holds n mem start xs) : HoldsLast n mem start xs :=
  fun k hk _ => h k hk

/-- Reading the cells in order yields the elements. -/
theorem Holds.read (h : Holds n mem start xs) : (indices n start xs.length).map mem = xs := by
  refine List.ext_getElem ?_ fun k hk hk' => ?_
  · simp [indices]
  · simp only [indices, List.getElem_map, List.getElem_range]
    exact h k hk'

/-- Where all cells are in use, those from `start` on hold the last elements, the end of them
first. -/
theorem HoldsLast.rotate_read (h : HoldsLast n mem start xs) (hn : n ≤ xs.length) :
    ((indices n start n).map mem).rotate xs.length = xs.drop (xs.length - n) := by
  have hlen : ((indices n start n).map mem).length = n := by simp [indices]
  refine List.ext_getElem (by rw [List.length_rotate, hlen, List.length_drop]; omega)
    fun k hk hk' => ?_
  rw [List.length_drop] at hk'
  have hcell : (start + (k + xs.length) % n) % n = (start + (xs.length - n + k)) % n := by
    have hsum : start + (k + xs.length) = start + (xs.length - n + k) + n := by omega
    rw [Nat.add_mod_mod, hsum, Nat.add_mod_right]
  rw [List.getElem_rotate, List.getElem_drop, ← h (xs.length - n + k) (by omega) (by omega),
    ← hcell]
  simp [indices]

end Lib.Ring
