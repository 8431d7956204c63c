import Mathlib.Order.Nat
import Mathlib.Tactic.Common

/-!
# Binary heaps in an array

`push` and `pop` are the standard library's `push_heap` and `pop_heap` over a comparison `lt`: a
new element rises from the last position (`siftUp`); a removed top is replaced by the last
element, which sinks to a leaf along the larger children (`sink`) and rises from there. Both
keep the elements whatever the array holds (`push_perm`, `pop_perm`), and both keep the heap
order when `lt` is a strict weak order (`IsHeap.push`, `IsHeap.pop`). In a heap nothing is above
the top (`IsHeap.top`).
-/

namespace Lib.Heap

variable {α : Type*} {lt : α → α → Bool} {a : Array α}

/-- A comparison that `std::priority_queue` accepts. -/
structure StrictWeak (lt : α → α → Bool) : Prop where
  asymm : ∀ {x y}, lt x y = true → lt y x = false
  negTrans : ∀ {x y z}, lt x y = false → lt y z = false → lt x z = false

theorem StrictWeak.trans (h : StrictWeak lt) {x y z : α} (h1 : lt x y = true)
    (h2 : lt z y = false) : lt x z = true := by
  cases h3 : lt x z with
  | true => rfl
  | false => rw [h.negTrans h3 h2] at h1; cases h1

def parent (i : Nat) : Nat := (i - 1) / 2

/-- The element at `i` is below the element at `j`; false when there is no such element. -/
def less (lt : α → α → Bool) (a : Array α) (i j : Nat) : Bool :=
  match a[i]?, a[j]? with
  | some x, some y => lt x y
  | _, _ => false

/-- The element at `i` rises to its place; the first argument bounds the steps. -/
def siftUp (lt : α → α → Bool) : Nat → Array α → Nat → Array α
  | 0, a, _ => a
  | n + 1, a, i =>
    if i ≠ 0 ∧ less lt a (parent i) i then
      siftUp lt n (a.swapIfInBounds (parent i) i) (parent i)
    else a

def push (lt : α → α → Bool) (a : Array α) (x : α) : Array α :=
  siftUp lt a.size (a.push x) a.size

/-- The child of `i` that takes its place: the right one unless it is below the left one. -/
def child (lt : α → α → Bool) (a : Array α) (i : Nat) : Option Nat :=
  if 2 * i + 2 < a.size then
    some (if less lt a (2 * i + 2) (2 * i + 1) then 2 * i + 1 else 2 * i + 2)
  else if 2 * i + 1 < a.size then some (2 * i + 1)
  else none

/-- The element at `i` sinks to a leaf; the leaf's position is returned with the array. -/
def sink (lt : α → α → Bool) : Nat → Array α → Nat → Array α × Nat
  | 0, a, i => (a, i)
  | n + 1, a, i =>
    match child lt a i with
    | none => (a, i)
    | some c => sink lt n (a.swapIfInBounds i c) c

def pop (lt : α → α → Bool) (a : Array α) : Array α :=
  let b := (a.swapIfInBounds 0 (a.size - 1)).pop
  let r := sink lt b.size b 0
  siftUp lt r.2 r.1 r.2

/-! ## The elements -/

theorem swap_perm (a : Array α) (i j : Nat) : (a.swapIfInBounds i j).toList.Perm a.toList := by
  unfold Array.swapIfInBounds
  split
  · split
    · exact Array.perm_iff_toList_perm.mp (Array.swap_perm _ _)
    · exact .refl _
  · exact .refl _

theorem siftUp_perm (n : Nat) (a : Array α) (i : Nat) :
    (siftUp lt n a i).toList.Perm a.toList := by
  induction n generalizing a i with
  | zero => exact .refl _
  | succ n ih =>
    unfold siftUp
    split
    · exact (ih _ _).trans (swap_perm ..)
    · exact .refl _

theorem sink_perm (n : Nat) (a : Array α) (i : Nat) :
    (sink lt n a i).1.toList.Perm a.toList := by
  induction n generalizing a i with
  | zero => exact .refl _
  | succ n ih =>
    unfold sink
    cases child lt a i with
    | none => exact .refl _
    | some c => exact (ih _ _).trans (swap_perm ..)

theorem push_perm (a : Array α) (x : α) : (push lt a x).toList.Perm (x :: a.toList) := by
  apply (siftUp_perm ..).trans
  rw [Array.toList_push]
  exact List.perm_append_singleton x a.toList

theorem pop_perm {a : Array α} {t : α} (h : a[0]? = some t) :
    a.toList.Perm (t :: (pop lt a).toList) := by
  obtain ⟨h0, rfl⟩ := Array.getElem?_eq_some_iff.mp h
  have hsz : (a.swapIfInBounds 0 (a.size - 1)).size ≠ 0 := by
    rw [Array.size_swapIfInBounds]; omega
  obtain ⟨b, x, hb⟩ := Array.eq_push_of_size_ne_zero hsz
  have hx : x = a[0] := by
    have hs : b.size = a.size - 1 := by
      have := congrArg Array.size hb
      rw [Array.size_swapIfInBounds, Array.size_push] at this
      omega
    have h1 : (a.swapIfInBounds 0 (a.size - 1))[a.size - 1]? = some a[0] := by
      rw [Array.getElem?_eq_getElem (by simp; omega),
        Array.getElem_swapIfInBounds_right h0 (by simp; omega)]
    rw [hb, ← hs, Array.getElem?_push_size] at h1
    exact Option.some.inj h1
  have hp : (pop lt a).toList.Perm b.toList := by
    unfold pop
    rw [hb, Array.pop_push]
    exact (siftUp_perm ..).trans (sink_perm ..)
  have hs := swap_perm a 0 (a.size - 1)
  rw [hb, hx, Array.toList_push] at hs
  exact hs.symm.trans ((List.perm_append_singleton _ _).trans (hp.symm.cons _))

theorem mem_push {a : Array α} {x y : α} : y ∈ push lt a x ↔ y = x ∨ y ∈ a := by
  rw [← Array.mem_toList_iff, (push_perm a x).mem_iff, List.mem_cons, Array.mem_toList_iff]

theorem mem_of_mem_pop {a : Array α} {t y : α} (h : a[0]? = some t) (hy : y ∈ pop lt a) :
    y ∈ a := by
  have hp : a.toList.Perm (t :: (pop lt a).toList) := pop_perm h
  rw [← Array.mem_toList_iff, hp.mem_iff]
  exact List.mem_cons_of_mem _ (Array.mem_toList_iff.mpr hy)

/-! ## The comparison of positions -/

theorem less_eq_true {i j : Nat} :
    less lt a i j = true ↔ ∃ x y, a[i]? = some x ∧ a[j]? = some y ∧ lt x y = true := by
  unfold less
  cases a[i]? <;> cases a[j]? <;> simp

theorem less_asymm (hw : StrictWeak lt) {i j : Nat} (h : less lt a i j = true) :
    less lt a j i = false := by
  obtain ⟨x, y, hx, hy, hxy⟩ := less_eq_true.mp h
  simp only [less, hx, hy]
  exact hw.asymm hxy

theorem less_negTrans (hw : StrictWeak lt) {i j k : Nat} (hj : j < a.size)
    (h1 : less lt a i j = false) (h2 : less lt a j k = false) : less lt a i k = false := by
  unfold less at *
  rw [Array.getElem?_eq_getElem hj] at h1 h2
  cases hi : a[i]? with
  | none => rfl
  | some x =>
    cases hk : a[k]? with
    | none => rfl
    | some z =>
      rw [hi] at h1; rw [hk] at h2
      exact hw.negTrans h1 h2

theorem less_trans (hw : StrictWeak lt) {i j k : Nat} (hk : k < a.size)
    (h1 : less lt a i j = true) (h2 : less lt a k j = false) : less lt a i k = true := by
  cases h3 : less lt a i k with
  | true => rfl
  | false => rw [less_negTrans hw hk h3 h2] at h1; cases h1

/-- The position whose element `swapIfInBounds p i` puts at `k`. -/
def swapPos (p i k : Nat) : Nat := if k = p then i else if k = i then p else k

theorem getElem?_swap {p i : Nat} (hp : p < a.size) (hi : i < a.size) (k : Nat) :
    (a.swapIfInBounds p i)[k]? = a[swapPos p i k]? := by
  unfold swapPos
  by_cases hk : k < a.size
  · rw [Array.getElem?_eq_getElem (by simpa using hk), Array.getElem_swapIfInBounds]
    by_cases h1 : k = p
    · simp [h1, hi]
    · by_cases h2 : k = i
      · subst h2; simp [h1, hp]
      · simp [h1, h2, hk]
  · have h1 : k ≠ p := by omega
    have h2 : k ≠ i := by omega
    simp only [h1, h2, if_false]
    rw [Array.getElem?_eq_none (by simp; omega), Array.getElem?_eq_none (by omega)]

theorem less_swap {p i : Nat} (hp : p < a.size) (hi : i < a.size) (k l : Nat) :
    less lt (a.swapIfInBounds p i) k l = less lt a (swapPos p i k) (swapPos p i l) := by
  unfold less
  rw [getElem?_swap hp hi, getElem?_swap hp hi]

theorem less_of_size_le {i j : Nat} (h : a.size ≤ j) : less lt a i j = false := by
  unfold less
  rw [Array.getElem?_eq_none h]
  cases a[i]? <;> rfl

/-! ## The heap order -/

/-- No element is above its parent. -/
def IsHeap (lt : α → α → Bool) (a : Array α) : Prop :=
  ∀ i, 0 < i → less lt a (parent i) i = false

/-- A heap but for the element at `i`, which may be above its parent. -/
structure RisingAt (lt : α → α → Bool) (a : Array α) (i : Nat) : Prop where
  others : ∀ j, 0 < j → j ≠ i → less lt a (parent j) j = false
  above : ∀ j, 0 < j → parent j = i → 0 < i → less lt a (parent i) j = false

/-- A heap but for the element at `i`, which may be below its children as well. -/
structure SinkingAt (lt : α → α → Bool) (a : Array α) (i : Nat) : Prop where
  others : ∀ j, 0 < j → j ≠ i → parent j ≠ i → less lt a (parent j) j = false
  above : ∀ j, 0 < j → parent j = i → 0 < i → less lt a (parent i) j = false

theorem RisingAt.step (hw : StrictWeak lt) {i : Nat} (hi : i < a.size) (h0 : i ≠ 0)
    (hl : less lt a (parent i) i = true) (h : RisingAt lt a i) :
    RisingAt lt (a.swapIfInBounds (parent i) i) (parent i) := by
  have hpi : parent i < i := by unfold parent; omega
  have hp : parent i < a.size := by omega
  constructor
  · intro j hj hjp
    rw [less_swap hp hi]
    by_cases hji : j = i
    · subst hji
      simp only [swapPos, if_neg hjp, if_true]
      exact less_asymm hw hl
    · rw [show swapPos (parent i) i j = j by simp [swapPos, hjp, hji]]
      by_cases h1 : parent j = i
      · rw [h1, show swapPos (parent i) i i = parent i by simp [swapPos, hpi.ne']]
        exact h.above j hj h1 (by omega)
      · by_cases h2 : parent j = parent i
        · rw [h2, show swapPos (parent i) i (parent i) = i by simp [swapPos]]
          cases hc : less lt a i j with
          | false => rfl
          | true =>
            have hjs : j < a.size := by
              by_contra hge
              rw [less_of_size_le (by omega)] at hc; cases hc
            have := less_trans hw hjs hl (less_asymm hw hc)
            rw [← h2, h.others j hj hji] at this; cases this
        · rw [show swapPos (parent i) i (parent j) = parent j by simp [swapPos, h1, h2]]
          exact h.others j hj hji
  · intro j hj hjp hp0
    have hpp : parent (parent i) < parent i := by unfold parent at *; omega
    have hup := h.others (parent i) hp0 hpi.ne
    rw [less_swap hp hi, show swapPos (parent i) i (parent (parent i)) = parent (parent i) by
      simp [swapPos, hpp.ne, (hpp.trans hpi).ne]]
    by_cases hji : j = i
    · subst hji
      rwa [show swapPos (parent j) j j = parent j by simp [swapPos, hpi.ne']]
    · have : j ≠ parent i := by rw [← hjp]; unfold parent; omega
      rw [show swapPos (parent i) i j = j by simp [swapPos, this, hji]]
      exact less_negTrans hw hp hup (hjp ▸ h.others j hj hji)

theorem siftUp_isHeap (hw : StrictWeak lt) :
    ∀ {n : Nat} {a : Array α} {i : Nat}, i ≤ n → i < a.size → RisingAt lt a i →
      IsHeap lt (siftUp lt n a i) := by
  intro n
  induction n with
  | zero =>
    intro a i hn _ h j hj
    exact h.others j hj (by omega)
  | succ n ih =>
    intro a i hn hi h
    unfold siftUp
    split
    · next hc =>
      have hpi : parent i < i := by unfold parent; omega
      exact ih (by omega) (by simp; omega) (h.step hw hi hc.1 hc.2)
    · next hc =>
      intro j hj
      by_cases hji : j = i
      · subst hji
        simp only [ne_eq, not_and, Bool.not_eq_true] at hc
        exact hc (by omega)
      · exact h.others j hj hji

theorem child_spec (hw : StrictWeak lt) {i c : Nat} (h : child lt a i = some c) :
    c < a.size ∧ 0 < c ∧ parent c = i ∧
      ∀ j, 0 < j → parent j = i → less lt a c j = false := by
  have hself : ∀ k, less lt a k k = false := by
    intro k
    cases hc : less lt a k k with
    | false => rfl
    | true => exact hc.symm.trans (less_asymm hw hc)
  have hpar : ∀ j, 0 < j → parent j = i → j = 2 * i + 1 ∨ j = 2 * i + 2 := by
    intro j hj hp; unfold parent at hp; omega
  unfold child at h
  split at h
  · next h2 =>
    cases hl : less lt a (2 * i + 2) (2 * i + 1) with
    | true =>
      rw [hl, if_pos rfl] at h
      cases h
      refine ⟨by omega, by omega, by unfold parent; omega, fun j hj hp => ?_⟩
      rcases hpar j hj hp with rfl | rfl
      · exact hself _
      · exact less_asymm hw hl
    | false =>
      rw [hl, if_neg (by decide)] at h
      cases h
      refine ⟨by omega, by omega, by unfold parent; omega, fun j hj hp => ?_⟩
      rcases hpar j hj hp with rfl | rfl
      · exact hl
      · exact hself _
  · split at h
    · next h2 h1 =>
      cases h
      refine ⟨h1, by omega, by unfold parent; omega, fun j hj hp => ?_⟩
      rcases hpar j hj hp with rfl | rfl
      · exact hself _
      · exact less_of_size_le (by omega)
    · cases h

theorem child_none {i j : Nat} (h : child lt a i = none) (hj : 0 < j) (hp : parent j = i) :
    a.size ≤ j := by
  unfold child at h
  unfold parent at hp
  split at h
  · cases h
  · split at h
    · cases h
    · omega

theorem SinkingAt.step (hw : StrictWeak lt) {i c : Nat} (hc : child lt a i = some c)
    (h : SinkingAt lt a i) : SinkingAt lt (a.swapIfInBounds i c) c := by
  obtain ⟨hcs, hc0, hpc, hmax⟩ := child_spec hw hc
  have hic : i < c := by rw [← hpc]; unfold parent; omega
  have hi : i < a.size := by omega
  constructor
  · intro j hj hjc hpj
    rw [less_swap hi hcs]
    by_cases hji : j = i
    · subst hji
      have hpj' : parent j < j := by unfold parent; omega
      rw [show swapPos j c j = c by simp [swapPos],
        show swapPos j c (parent j) = parent j by simp [swapPos, hpj, hpj'.ne]]
      exact h.above c hc0 hpc hj
    · rw [show swapPos i c j = j by simp [swapPos, hji, hjc]]
      by_cases h1 : parent j = i
      · rw [h1, show swapPos i c i = c by simp [swapPos]]
        exact hmax j hj h1
      · rw [show swapPos i c (parent j) = parent j by simp [swapPos, h1, hpj]]
        exact h.others j hj hji h1
  · intro j hj hpj _
    have hjc : c < j := by rw [← hpj]; unfold parent; omega
    rw [less_swap hi hcs, hpc, show swapPos i c i = c by simp [swapPos],
      show swapPos i c j = j by simp [swapPos, hjc.ne', (hic.trans hjc).ne'], ← hpj]
    exact h.others j hj (by omega) (by omega)

theorem sink_risingAt (hw : StrictWeak lt) :
    ∀ {n : Nat} {a : Array α} {i : Nat}, a.size ≤ n + i → i < a.size → SinkingAt lt a i →
      (sink lt n a i).2 < (sink lt n a i).1.size ∧
        RisingAt lt (sink lt n a i).1 (sink lt n a i).2 := by
  intro n
  induction n with
  | zero => intro a i hn hi; omega
  | succ n ih =>
    intro a i hn hi h
    unfold sink
    cases hc : child lt a i with
    | none =>
      refine ⟨hi, fun j hj hji => ?_, h.above⟩
      by_cases hp : parent j = i
      · exact less_of_size_le (child_none hc hj hp)
      · exact h.others j hj hji hp
    | some c =>
      obtain ⟨hcs, _, hpc, _⟩ := child_spec hw hc
      have hic : i < c := by rw [← hpc]; unfold parent; omega
      exact ih (by simp; omega) (by simpa using hcs) (h.step hw hc)

theorem IsHeap.push (hw : StrictWeak lt) (h : IsHeap lt a) (x : α) :
    IsHeap lt (Heap.push lt a x) := by
  refine siftUp_isHeap hw (Nat.le_refl _) (by simp) ⟨fun j hj hne => ?_, fun j hj hp _ => ?_⟩
  · by_cases hs : j < a.size
    · have hp : parent j < a.size := by unfold parent; omega
      have := h j hj
      unfold less at this ⊢
      rwa [Array.getElem?_push_lt hs, Array.getElem?_push_lt hp,
        ← Array.getElem?_eq_getElem hs, ← Array.getElem?_eq_getElem hp]
    · exact less_of_size_le (by simp; omega)
  · exact less_of_size_le (by unfold parent at hp; simp; omega)

theorem less_pop_swap {k l : Nat} (hk : 0 < k) (hl : 0 < l)
    (h : less lt ((a.swapIfInBounds 0 (a.size - 1)).pop) k l = true) : less lt a k l = true := by
  obtain ⟨x, y, hx, hy, hxy⟩ := less_eq_true.mp h
  have hget : ∀ {m z}, 0 < m → ((a.swapIfInBounds 0 (a.size - 1)).pop)[m]? = some z →
      a[m]? = some z := by
    intro m z hm hz
    have hms : m < a.size - 1 := by
      obtain ⟨h', _⟩ := Array.getElem?_eq_some_iff.mp hz
      simpa using h'
    rw [Array.getElem?_pop, if_pos (by simpa using hms)] at hz
    rwa [getElem?_swap (by omega) (by omega),
      show swapPos 0 (a.size - 1) m = m by simp only [swapPos]; split <;> (try split) <;> omega] at hz
  exact less_eq_true.mpr ⟨x, y, hget hk hx, hget hl hy, hxy⟩

theorem IsHeap.pop (hw : StrictWeak lt) (h : IsHeap lt a) : IsHeap lt (Heap.pop lt a) := by
  unfold Heap.pop
  simp only
  by_cases hs : (a.swapIfInBounds 0 (a.size - 1)).pop.size = 0
  · intro i hi
    exact less_of_size_le (by
      rw [← Array.length_toList, (siftUp_perm ..).length_eq, (sink_perm ..).length_eq,
        Array.length_toList, hs]; omega)
  · have hsink : SinkingAt lt (a.swapIfInBounds 0 (a.size - 1)).pop 0 := by
      refine ⟨fun j hj _ hp => ?_, fun _ _ _ h0 => absurd h0 (by omega)⟩
      cases hl : less lt (a.swapIfInBounds 0 (a.size - 1)).pop (parent j) j with
      | false => rfl
      | true => exact (less_pop_swap (by omega) hj hl).symm.trans (h j hj)
    obtain ⟨hlt, hr⟩ := sink_risingAt hw (Nat.le_refl _) (by omega) hsink
    exact siftUp_isHeap hw (Nat.le_refl _) hlt hr

/-- **Nothing in a heap is above its top.** -/
theorem IsHeap.top (hw : StrictWeak lt) (h : IsHeap lt a) {t x : α} (ht : a[0]? = some t)
    (hx : x ∈ a) : lt t x = false := by
  obtain ⟨i, hi, rfl⟩ := Array.mem_iff_getElem.mp hx
  have h0 : 0 < a.size := by omega
  have key : ∀ i, i < a.size → less lt a 0 i = false := by
    intro i
    induction i using Nat.strongRecOn with
    | _ i ih =>
      intro hi
      by_cases hi0 : i = 0
      · subst hi0
        cases hc : less lt a 0 0 with
        | false => rfl
        | true => exact hc.symm.trans (less_asymm hw hc)
      · have hp : parent i < i := by unfold parent; omega
        exact less_negTrans hw (by omega) (ih _ hp (by omega)) (h i (by omega))
  have := key i hi
  simpa only [less, ht, Array.getElem?_eq_getElem hi] using this

/-! ## Replacing the top in place -/

/-- A pop does not look at the element it removes. -/
theorem pop_setIfInBounds (a : Array α) (x : α) : pop lt (a.setIfInBounds 0 x) = pop lt a := by
  have hsame : ((a.setIfInBounds 0 x).swapIfInBounds 0 ((a.setIfInBounds 0 x).size - 1)).pop =
      (a.swapIfInBounds 0 (a.size - 1)).pop := by
    refine Array.ext_getElem? fun k => ?_
    simp only [Array.getElem?_pop, Array.size_swapIfInBounds, Array.size_setIfInBounds]
    split
    · next hk =>
      have hswap : ∀ b : Array α, b.size = a.size →
          (b.swapIfInBounds 0 (a.size - 1))[k]? = b[swapPos 0 (a.size - 1) k]? :=
        fun b hb => getElem?_swap (by omega) (by omega) k
      rw [hswap _ Array.size_setIfInBounds, hswap a rfl]
      refine Array.getElem?_setIfInBounds_ne ?_
      unfold swapPos
      split
      · omega
      · rw [if_neg (by omega)]; omega
    · rfl
  unfold pop
  simp only [hsame]

theorem toList_setIfInBounds {a : Array α} {t : α} (ht : a[0]? = some t) (x : α) :
    (a.setIfInBounds 0 x).toList.Perm (x :: (pop lt a).toList) := by
  have h0 : 0 < a.size := (Array.getElem?_eq_some_iff.mp ht).1
  have hx : (a.setIfInBounds 0 x)[0]? = some x := by simp [h0]
  rw [← pop_setIfInBounds a x]
  exact pop_perm hx

/-- The top may be replaced by what is not below any of the others. -/
theorem IsHeap.setIfInBounds (h : IsHeap lt a) {t x : α} (ht : a[0]? = some t)
    (hx : ∀ y ∈ Heap.pop lt a, lt x y = false) : IsHeap lt (a.setIfInBounds 0 x) := by
  intro i hi
  cases hl : less lt (a.setIfInBounds 0 x) (parent i) i with
  | false => rfl
  | true =>
    obtain ⟨y, z, hy, hz, hyz⟩ := less_eq_true.mp hl
    rw [Array.getElem?_setIfInBounds_ne (by omega)] at hz
    by_cases hp : parent i = 0
    · obtain ⟨h0, -⟩ := Array.getElem?_eq_some_iff.mp ht
      obtain rfl : x = y := by simpa [hp, h0] using hy
      have hmem : z ∈ Heap.pop lt a := by
        have hp' : (t :: a.toList.tail).Perm (t :: (Heap.pop lt a).toList) := by
          refine List.Perm.trans (List.Perm.of_eq ?_) (pop_perm ht)
          rw [← Array.getElem?_toList] at ht
          cases hlist : a.toList with
          | nil => rw [hlist] at ht; cases ht
          | cons b l => rw [hlist] at ht; cases ht; rfl
        rw [← Array.mem_toList_iff, ← hp'.cons_inv.mem_iff]
        rw [← Array.getElem?_toList] at hz
        cases hlist : a.toList with
        | nil => rw [hlist] at hz; cases hz
        | cons b l =>
          rw [hlist] at hz
          obtain ⟨k, rfl⟩ : ∃ k, i = k + 1 := ⟨i - 1, by omega⟩
          exact List.mem_of_getElem? hz
      exact hyz.symm.trans (hx z hmem)
    · rw [Array.getElem?_setIfInBounds_ne (by omega)] at hy
      have hold := h i hi
      simp only [less, hy, hz] at hold
      exact hyz.symm.trans hold

end Lib.Heap
