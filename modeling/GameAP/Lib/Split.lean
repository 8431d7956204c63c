import GameAP.Lib.Substitution
import Mathlib.Data.Nat.Find

/-!
# Splitting a text at a search text

`Split search xs pieces`: the pieces of `xs` between the occurrences of `search` that are found from
the left without overlap. There is exactly one such list for a search text that is not empty
(`exists_split`, `Split.unique`), and replacing puts the replacement between the pieces
(`Split.replace_eq`).
-/

namespace Lib

variable {α : Type*} {search xs a b a' b' : List α} {ps qs : List (List α)}

/-- `search` stands behind `a`, and nowhere before. -/
def Leftmost (search a b : List α) : Prop :=
  ∀ a' b', a ++ search ++ b = a' ++ search ++ b' → a.length ≤ a'.length

inductive Split (search : List α) : List α → List (List α) → Prop
  | last {xs : List α} : (∀ a b, xs ≠ a ++ search ++ b) → Split search xs [xs]
  | occurrence {a b : List α} {ps : List (List α)} : Leftmost search a b → Split search b ps →
      Split search (a ++ search ++ b) (a :: ps)

theorem Split.ne_nil (h : Split search xs ps) : ps ≠ [] := by
  cases h <;> exact List.cons_ne_nil _ _

theorem Leftmost.unique (h : Leftmost search a b) (h' : Leftmost search a' b')
    (he : a ++ search ++ b = a' ++ search ++ b') : a = a' ∧ b = b' := by
  have hlen : a.length = a'.length :=
    Nat.le_antisymm (h a' b' he) (h' a b he.symm)
  rw [List.append_assoc, List.append_assoc] at he
  obtain ⟨ha, hrest⟩ := List.append_inj he hlen
  exact ⟨ha, List.append_cancel_left hrest⟩

theorem exists_leftmost (h : ∃ a b, xs = a ++ search ++ b) :
    ∃ a b, xs = a ++ search ++ b ∧ Leftmost search a b := by
  classical
  have hlen : ∃ n a b, xs = a ++ search ++ b ∧ a.length = n := by
    obtain ⟨a, b, hab⟩ := h
    exact ⟨a.length, a, b, hab, rfl⟩
  obtain ⟨a, b, hab, ha⟩ := Nat.find_spec hlen
  refine ⟨a, b, hab, fun a' b' he => ?_⟩
  rw [ha]
  exact Nat.find_min' hlen ⟨a', b', hab.trans he, rfl⟩

theorem exists_split (hne : search ≠ []) (xs : List α) : ∃ ps, Split search xs ps := by
  induction hn : xs.length using Nat.strongRecOn generalizing xs with
  | _ n ih =>
    by_cases hocc : ∃ a b, xs = a ++ search ++ b
    · obtain ⟨a, b, rfl, hleft⟩ := exists_leftmost hocc
      have hpos := List.length_pos_iff.mpr hne
      have hlt : b.length < n := by
        rw [← hn, List.length_append, List.length_append]
        omega
      obtain ⟨ps, hps⟩ := ih b.length hlt b rfl
      exact ⟨a :: ps, .occurrence hleft hps⟩
    · push Not at hocc
      exact ⟨[xs], .last hocc⟩

theorem Split.unique (h : Split search xs ps) (h' : Split search xs qs) : ps = qs := by
  induction h generalizing qs with
  | last hnone =>
    cases h' with
    | last _ => rfl
    | occurrence _ _ => exact absurd rfl (hnone _ _)
  | @occurrence a b ps hleft hrest ih =>
    generalize hxs : a ++ search ++ b = xs at h'
    cases h' with
    | last hnone => exact absurd hxs.symm (hnone _ _)
    | occurrence hleft' hrest' =>
      obtain ⟨rfl, rfl⟩ := hleft.unique hleft' hxs
      rw [ih hrest']

/-! ## Replacing -/

/-- Replacing the occurrences that `Split` finds. -/
theorem Split.replace_eq [DecidableEq α] {replacement : List α} (hne : search ≠ [])
    (h : Split search xs ps) :
    Substitution.replace search replacement xs = replacement.intercalate ps := by
  induction h with
  | @last xs hnone =>
    have hpart : ∀ k < xs.length, ¬ search <+: (xs ++ []).drop k := by
      rintro k - ⟨b, hb⟩
      refine hnone (xs.take k) b ?_
      rw [List.append_assoc, hb, List.append_nil, List.take_append_drop]
    have hreplace : Substitution.replace search replacement (xs ++ []) = xs ++ [] :=
      Substitution.replace_append hpart
    rw [List.append_nil] at hreplace
    rw [hreplace, List.intercalate_singleton]
  | @occurrence a b ps hleft hrest ih =>
    have hpart : ∀ k < a.length, ¬ search <+: (a ++ (search ++ b)).drop k := by
      rintro k hk ⟨b', hb'⟩
      have hle := hleft ((a ++ (search ++ b)).take k) b' (by
        rw [List.append_assoc, List.append_assoc, hb', List.take_append_drop])
      rw [List.length_take] at hle
      omega
    rw [List.append_assoc, Substitution.replace_append hpart,
      Substitution.replace_search_append hne, ih,
      List.intercalate_cons_of_ne_nil hrest.ne_nil, List.append_assoc]

end Lib
