import Mathlib.Data.Fintype.Card
import Mathlib.Data.Set.Finite.List
import Mathlib.Logic.Relation
import Mathlib.Order.WellFounded

/-!
# Waiting without a cycle

Among finitely many elements that wait for one another without a cycle, one waits for none
(`exists_ready`). An element that may go first is found by passing over those in front of it
(`exists_first`).
-/

namespace Lib

variable {α : Type*} {r : α → α → Prop} {xs : List α}

/-- No element waits for itself, through whatever others. -/
def Acyclic (r : α → α → Prop) : Prop := ∀ a, ¬ Relation.TransGen r a a

theorem Acyclic.wellFounded [Finite α] (h : Acyclic r) :
    WellFounded (Function.swap (Relation.TransGen r)) := by
  have htrans : IsTrans α (Function.swap (Relation.TransGen r)) := ⟨fun _ _ _ hab hbc => hbc.trans hab⟩
  have hirrefl : Std.Irrefl (Function.swap (Relation.TransGen r)) := ⟨h⟩
  exact Finite.wellFounded_of_trans_of_irrefl _

theorem exists_ready (h : Acyclic r) (hne : xs ≠ []) : ∃ a ∈ xs, ∀ b ∈ xs, ¬ r a b := by
  have hsub : Acyclic fun a b : {x // x ∈ xs} => r a b := fun a hcyc =>
    h a (hcyc.lift Subtype.val fun _ _ hab => hab)
  have hfin : Finite {x // x ∈ xs} := xs.finite_toSet.to_subtype
  obtain ⟨x, hx⟩ := List.exists_mem_of_ne_nil xs hne
  obtain ⟨a, -, hmin⟩ := hsub.wellFounded.has_min Set.univ ⟨⟨x, hx⟩, trivial⟩
  exact ⟨a, a.2, fun b hb hab => hmin ⟨b, hb⟩ trivial (.single hab)⟩

theorem exists_first {p : α → Prop} (h : ∃ a ∈ xs, p a) :
    ∃ pre a post, xs = pre ++ a :: post ∧ p a ∧ ∀ b ∈ pre, ¬ p b := by
  classical
  obtain ⟨a, ha⟩ : ∃ a, xs.find? (fun x => decide (p x)) = some a := by
    obtain ⟨a, hm, hp⟩ := h
    exact Option.isSome_iff_exists.mp (List.find?_isSome.mpr ⟨a, hm, decide_eq_true hp⟩)
  obtain ⟨hp, pre, post, rfl, hpre⟩ := List.find?_eq_some_iff_append.mp ha
  exact ⟨pre, a, post, rfl, of_decide_eq_true hp, fun b hb => by simpa using hpre b hb⟩

end Lib
