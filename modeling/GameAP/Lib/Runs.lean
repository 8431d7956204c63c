import GameAP.Lib.Substitution
import Mathlib.Data.List.Infix

/-!
# Runs of a symbol

`squeeze` puts one symbol in the place of every maximal run of symbols with a property. Replacing
two equal symbols by one of them, once and from the left, leaves half of each run (`halve`): this
squeezes the runs exactly if none of them has three symbols (`halve_eq_squeeze`,
`pair_infix_halve`).
-/

namespace Lib

namespace Runs

variable {α : Type*}

/-- `squeeze` within a run, or outside. -/
def squeezeFrom (p : α → Bool) (x : α) : Bool → List α → List α
  | _, [] => []
  | inRun, c :: cs =>
    if p c then
      if inRun then squeezeFrom p x true cs else x :: squeezeFrom p x true cs
    else c :: squeezeFrom p x false cs

def squeeze (p : α → Bool) (x : α) (xs : List α) : List α := squeezeFrom p x false xs

/-- Two equal symbols become one, and what is read next stands behind them. -/
def halve [DecidableEq α] (x : α) : List α → List α
  | [] => []
  | [c] => [c]
  | c :: d :: cs => if c = x ∧ d = x then x :: halve x cs else c :: halve x (d :: cs)

variable {p : α → Bool} {x c : α} {xs rest run : List α} {inRun : Bool}

/-! ## Squeezing -/

theorem squeeze_cons_neg (h : p c = false) : squeeze p x (c :: xs) = c :: squeeze p x xs := by
  unfold squeeze
  simp only [squeezeFrom, h, Bool.false_eq_true, if_false]

theorem squeezeFrom_run (h : ∀ c ∈ run, p c = true) :
    squeezeFrom p x true (run ++ rest) = squeezeFrom p x true rest := by
  induction run with
  | nil => rfl
  | cons c run ih =>
    obtain ⟨hc, hrun⟩ := List.forall_mem_cons.mp h
    rw [List.cons_append, squeezeFrom, if_pos hc, if_pos rfl, ih hrun]

/-- Behind a run. -/
theorem squeezeFrom_rest (h : ∀ c, rest.head? = some c → p c = false) :
    squeezeFrom p x inRun rest = squeeze p x rest := by
  cases rest with
  | nil => rfl
  | cons c rest =>
    have hc := h c rfl
    unfold squeeze
    simp only [squeezeFrom, hc, Bool.false_eq_true, if_false]

/-- A maximal run becomes one symbol. -/
theorem squeeze_run (hne : run ≠ []) (hrun : ∀ c ∈ run, p c = true)
    (hrest : ∀ c, rest.head? = some c → p c = false) :
    squeeze p x (run ++ rest) = x :: squeeze p x rest := by
  cases run with
  | nil => exact absurd rfl hne
  | cons c run =>
    obtain ⟨hc, hrun⟩ := List.forall_mem_cons.mp hrun
    rw [squeeze, List.cons_append, squeezeFrom, if_pos hc, if_neg Bool.false_ne_true,
      squeezeFrom_run hrun, squeezeFrom_rest hrest]

theorem squeezeFrom_map [DecidableEq α] (hx : p x = true) (inRun : Bool) (xs : List α) :
    squeezeFrom (fun c => decide (c = x)) x inRun (xs.map fun c => if p c then x else c) =
      squeezeFrom p x inRun xs := by
  induction xs generalizing inRun with
  | nil => rfl
  | cons c xs ih =>
    cases hc : p c with
    | true => simp only [List.map_cons, squeezeFrom, hc, if_true, decide_true, ih]
    | false =>
      have hne : c ≠ x := by
        rintro rfl
        exact Bool.false_ne_true (hc.symm.trans hx)
      simp only [List.map_cons, squeezeFrom, hc, Bool.false_eq_true, if_false, decide_eq_true_eq,
        if_neg hne, ih]

/-- Symbols with the property, made equal first. -/
theorem squeeze_map [DecidableEq α] (hx : p x = true) (xs : List α) :
    squeeze (fun c => decide (c = x)) x (xs.map fun c => if p c then x else c) =
      squeeze p x xs :=
  squeezeFrom_map hx false xs

/-! ## Neighbours -/

theorem pair_infix_cons : [x, x] <:+: c :: xs ↔ (c = x ∧ xs.head? = some x) ∨ [x, x] <:+: xs := by
  rw [List.infix_cons_iff, List.cons_prefix_cons, List.singleton_prefix_iff_head?_eq_some, eq_comm]

theorem triple_infix_cons :
    [x, x, x] <:+: c :: xs ↔ (c = x ∧ [x, x] <+: xs) ∨ [x, x, x] <:+: xs := by
  rw [List.infix_cons_iff, List.cons_prefix_cons, eq_comm]

/-- Behind what has been put in for a run, there is no symbol of it. -/
theorem head_squeezeFrom (hx : p x = true) : (squeezeFrom p x true xs).head? ≠ some x := by
  induction xs with
  | nil => exact (Option.some_ne_none x).symm
  | cons c xs ih =>
    cases hc : p c with
    | true => simpa only [squeezeFrom, hc, if_true] using ih
    | false =>
      simp only [squeezeFrom, hc, Bool.false_eq_true, if_false, List.head?_cons, ne_eq,
        Option.some.injEq]
      rintro rfl
      exact Bool.false_ne_true (hc.symm.trans hx)

theorem not_pair_infix_squeezeFrom (hx : p x = true) (inRun : Bool) (xs : List α) :
    ¬ [x, x] <:+: squeezeFrom p x inRun xs := by
  induction xs generalizing inRun with
  | nil => exact fun h => absurd (List.infix_nil.mp h) (List.cons_ne_nil _ _)
  | cons c xs ih =>
    unfold squeezeFrom
    cases hc : p c with
    | true =>
      cases inRun with
      | true => exact ih true
      | false =>
        intro h
        rcases pair_infix_cons.mp h with ⟨-, hhead⟩ | h
        · exact head_squeezeFrom hx hhead
        · exact ih true h
    | false =>
      intro h
      rcases pair_infix_cons.mp h with ⟨rfl, -⟩ | h
      · exact Bool.false_ne_true (hc.symm.trans hx)
      · exact ih false h

theorem not_pair_infix_squeeze (hx : p x = true) (xs : List α) : ¬ [x, x] <:+: squeeze p x xs :=
  not_pair_infix_squeezeFrom hx false xs

/-! ## Halving -/

section Halving

variable [DecidableEq α]

/-- Replacing two symbols by one. -/
theorem replace_pair (x : α) (xs : List α) :
    Substitution.replace [x, x] [x] xs = halve x xs := by
  induction xs using halve.induct x with
  | case1 => rfl
  | case2 c =>
    have hnot : ¬ [x, x].isPrefixOf [c] = true := by simp
    rw [Substitution.replace_cons, if_neg hnot]
    rfl
  | case3 c d cs h ih =>
    obtain ⟨rfl, rfl⟩ := h
    rw [halve, if_pos ⟨rfl, rfl⟩, ← ih]
    exact Substitution.replace_search_append (List.cons_ne_nil _ _) cs
  | case4 c d cs h ih =>
    have hnot : ¬ [x, x].isPrefixOf (c :: d :: cs) = true := by
      rw [List.isPrefixOf_iff_prefix]
      intro hpair
      obtain ⟨rfl, hd⟩ := List.cons_prefix_cons.mp hpair
      exact h ⟨rfl, (List.singleton_prefix_cons_iff.mp hd).symm⟩
    rw [Substitution.replace_cons, if_neg hnot, halve, if_neg h, ih]

theorem head_halve (x : α) (xs : List α) : (halve x xs).head? = xs.head? := by
  fun_cases halve x xs with
  | case1 => rfl
  | case2 c => rfl
  | case3 c d cs h => rw [List.head?_cons, List.head?_cons, h.1]
  | case4 c d cs h => rfl

theorem halve_sublist (x : α) (xs : List α) : List.Sublist (halve x xs) xs := by
  induction xs using halve.induct x with
  | case1 => exact List.Sublist.refl _
  | case2 c => exact List.Sublist.refl _
  | case3 c d cs h ih =>
    rw [halve, if_pos h, h.2]
    exact (ih.cons_cons x).cons c
  | case4 c d cs h ih =>
    rw [halve, if_neg h]
    exact ih.cons_cons c

/-- Of three symbols two are left. -/
theorem pair_infix_halve (h : [x, x, x] <:+: xs) : [x, x] <:+: halve x xs := by
  induction xs using halve.induct x with
  | case1 => exact absurd (List.infix_nil.mp h) (List.cons_ne_nil _ _)
  | case2 c =>
    have hlen := h.length_le
    simp at hlen
  | case3 c d cs hboth ih =>
    obtain ⟨rfl, rfl⟩ := hboth
    rw [halve, if_pos ⟨rfl, rfl⟩, pair_infix_cons, head_halve]
    rcases triple_infix_cons.mp h with ⟨-, hpair⟩ | h
    · exact .inl ⟨rfl, List.singleton_prefix_iff_head?_eq_some.mp
        (List.cons_prefix_cons.mp hpair).2⟩
    · rcases triple_infix_cons.mp h with ⟨-, ⟨rest, rfl⟩⟩ | h
      · exact .inl ⟨rfl, rfl⟩
      · exact .inr (ih h)
  | case4 c d cs hboth ih =>
    rw [halve, if_neg hboth, pair_infix_cons]
    rcases triple_infix_cons.mp h with ⟨rfl, hpair⟩ | h
    · exact absurd ⟨rfl, (List.cons_prefix_cons.mp hpair).1.symm⟩ hboth
    · exact .inr (ih h)

theorem halve_eq_self (h : ¬ [x, x] <:+: xs) : halve x xs = xs := by
  induction xs using halve.induct x with
  | case1 => rfl
  | case2 c => rfl
  | case3 c d cs hboth ih =>
    obtain ⟨rfl, rfl⟩ := hboth
    exact absurd (List.prefix_append [_, _] cs).isInfix h
  | case4 c d cs hboth ih =>
    rw [halve, if_neg hboth, ih fun htail => h (pair_infix_cons.mpr (.inr htail))]

/-- **One pass is enough** where no run has three symbols. -/
theorem halve_eq_squeeze (h : ¬ [x, x, x] <:+: xs) :
    halve x xs = squeeze (fun c => decide (c = x)) x xs := by
  induction xs using halve.induct x with
  | case1 => rfl
  | case2 c =>
    by_cases hc : c = x
    · subst hc
      simp [halve, squeeze, squeezeFrom]
    · simp [halve, squeeze, squeezeFrom, hc]
  | case3 c d cs hboth ih =>
    obtain ⟨rfl, rfl⟩ := hboth
    have hrest : ∀ e, cs.head? = some e → decide (e = d) = false := by
      rintro e he
      rw [decide_eq_false_iff_not]
      rintro rfl
      have hpair : [e, e] <+: e :: cs :=
        List.cons_prefix_cons.mpr ⟨rfl, List.singleton_prefix_iff_head?_eq_some.mpr he⟩
      exact h (triple_infix_cons.mpr (.inl ⟨rfl, hpair⟩))
    have htail : ¬ [d, d, d] <:+: cs := fun htail =>
      h (triple_infix_cons.mpr (.inr (triple_infix_cons.mpr (.inr htail))))
    rw [halve, if_pos ⟨rfl, rfl⟩, ih htail]
    exact (squeeze_run (List.cons_ne_nil d [d]) (by simp) hrest).symm
  | case4 c d cs hboth ih =>
    have htail : ¬ [x, x, x] <:+: d :: cs := fun htail => h (triple_infix_cons.mpr (.inr htail))
    rw [halve, if_neg hboth, ih htail]
    by_cases hc : c = x
    · subst hc
      have hd : ∀ e, (d :: cs).head? = some e → decide (e = c) = false := by
        rintro e he
        cases he
        exact decide_eq_false fun hd => hboth ⟨rfl, hd⟩
      exact (squeeze_run (List.cons_ne_nil c []) (by simp) hd).symm
    · refine (squeeze_cons_neg ?_).symm
      exact decide_eq_false hc

end Halving

end Runs

end Lib
