import GameAP.Functions.GString
import GameAP.Lib.Loop
import GameAP.Lib.Split
import Mathlib.Logic.Relation

/-!
# The loop of `str_replace`

`str_replace` edits the string that it searches, and goes on behind what it has put in. It returns
for every search string that is not empty, with the replacement between the pieces of the subject
(`str_replace_split`). `returns_strReplace`: this is what the commands use.
-/

namespace GameAP

open Lib

namespace StrReplace

variable {α : Type} [DecidableEq α]

/-- `std::string::find`, with `none` for `npos`. -/
def find (search str : List α) (pos : Nat) : Option Nat :=
  (List.range (str.length + 1)).find? fun p =>
    decide (pos ≤ p) && search.isPrefixOf (str.drop p)

/-- `str.replace(pos, length, replace)`. -/
def splice (str : List α) (pos length : Nat) (replace : List α) : List α :=
  str.take pos ++ replace ++ str.drop (pos + length)

/-- `str` and `pos`. -/
structure Scan (α : Type) where
  str : List α
  pos : Nat
  deriving DecidableEq, Repr

/-- The condition of the loop, and its body. -/
def body (search replace : List α) (s : Scan α) : Scan α ⊕ List α :=
  match find search s.str s.pos with
  | none => .inr s.str
  | some pos =>
    .inl { str := splice s.str pos search.length replace, pos := pos + replace.length }

def start (subject : List α) : Scan α := { str := subject, pos := 0 }

/-- The loop goes on from one state to the other. -/
def Continues (search replace : List α) (s t : Scan α) : Prop := body search replace s = .inl t

variable {search replace done rest a b : List α} {s t : Scan α} {ps : List (List α)}

/-! ## One search -/

theorem find_none (h : ∀ a b, rest ≠ a ++ search ++ b) :
    find search (done ++ rest) done.length = none := by
  unfold find
  rw [List.find?_range_eq_none]
  intro p _
  rw [Bool.not_eq_true', Bool.and_eq_false_iff, decide_eq_false_iff_not]
  by_cases hp : done.length ≤ p
  · refine .inr (Bool.eq_false_iff.mpr fun hprefix => ?_)
    obtain ⟨b, hb⟩ := List.isPrefixOf_iff_prefix.mp hprefix
    refine h (rest.take (p - done.length)) b ?_
    rw [List.drop_append, List.drop_eq_nil_of_le hp, List.nil_append] at hb
    rw [List.append_assoc, hb, List.take_append_drop]
  · exact .inl hp

theorem find_leftmost (h : Leftmost search a b) :
    find search (done ++ (a ++ search ++ b)) done.length = some (done.length + a.length) := by
  unfold find
  rw [List.find?_range_eq_some]
  refine ⟨?_, ?_, fun p hp => ?_⟩
  · rw [List.drop_append, List.drop_eq_nil_of_le (Nat.le_add_right _ _), List.nil_append,
      Nat.add_sub_cancel_left, List.append_assoc, List.drop_left]
    simp
  · rw [List.mem_range]
    simp only [List.length_append]
    omega
  · rw [Bool.not_eq_true', Bool.and_eq_false_iff, decide_eq_false_iff_not]
    by_cases hd : done.length ≤ p
    · refine .inr (Bool.eq_false_iff.mpr fun hprefix => ?_)
      obtain ⟨b', hb'⟩ := List.isPrefixOf_iff_prefix.mp hprefix
      rw [List.drop_append, List.drop_eq_nil_of_le hd, List.nil_append] at hb'
      have hle := h ((a ++ search ++ b).take (p - done.length)) b' (by
        rw [List.append_assoc _ search b', hb', List.take_append_drop])
      rw [List.length_take] at hle
      omega
    · exact .inl hd

/-- The state in which all in front of `rest` has been replaced. -/
def reached (done rest : List α) : Scan α := { str := done ++ rest, pos := done.length }

theorem body_last (h : ∀ a b, rest ≠ a ++ search ++ b) :
    body search replace (reached done rest) = .inr (done ++ rest) := by
  unfold body reached
  rw [find_none h]

theorem body_occurrence (h : Leftmost search a b) :
    body search replace (reached done (a ++ search ++ b)) =
      .inl (reached (done ++ a ++ replace) b) := by
  have hsplice : splice (done ++ (a ++ search ++ b)) (done.length + a.length) search.length
      replace = done ++ a ++ replace ++ b := by
    have htake : (done ++ (a ++ search ++ b)).take (done.length + a.length) = done ++ a := by
      rw [List.append_assoc a, ← List.append_assoc, ← List.length_append, List.take_left]
    have hdrop : (done ++ (a ++ search ++ b)).drop (done.length + a.length + search.length) =
        b := by
      rw [← List.append_assoc, ← List.append_assoc, ← List.length_append, ← List.length_append,
        List.drop_left]
    unfold splice
    rw [htake, hdrop]
  unfold body reached
  rw [find_leftmost h]
  simp only [hsplice, List.length_append]

/-! ## The whole loop -/

theorem returns_split (h : Split search rest ps) : ∀ done,
    Returns (body search replace) (reached done rest) (done ++ replace.intercalate ps) := by
  induction h with
  | last hnone =>
    intro done
    rw [List.intercalate_singleton]
    exact returns_inr (body_last hnone)
  | @occurrence a b ps hleft hrest ih =>
    intro done
    have htext : done ++ replace.intercalate (a :: ps) =
        done ++ a ++ replace ++ replace.intercalate ps := by
      rw [List.intercalate_cons_of_ne_nil hrest.ne_nil]
      simp only [List.append_assoc]
    rw [returns_inl (body_occurrence hleft), htext]
    exact ih (done ++ a ++ replace)

/-- What is left to be searched is an end of what was left before. -/
theorem Continues.suffix (h : Continues search replace (reached done rest) t) :
    ∃ done' rest', t = reached done' rest' ∧ rest' <:+ rest := by
  by_cases hocc : ∃ a b, rest = a ++ search ++ b
  · obtain ⟨a, b, rfl, hleft⟩ := exists_leftmost hocc
    have ht : reached (done ++ a ++ replace) b = t :=
      Sum.inl.inj ((body_occurrence hleft).symm.trans h)
    exact ⟨_, b, ht.symm, List.suffix_append _ _⟩
  · push Not at hocc
    exact nomatch (body_last hocc).symm.trans h

theorem reaches_suffix {subject : List α}
    (h : Relation.ReflTransGen (Continues search replace) (start subject) s) :
    ∃ done rest, s = reached done rest ∧ rest <:+ subject := by
  induction h with
  | refl => exact ⟨[], subject, rfl, List.suffix_rfl⟩
  | tail _ hstep ih =>
    obtain ⟨done, rest, rfl, hrest⟩ := ih
    obtain ⟨done', rest', rfl, hsuffix⟩ := hstep.suffix
    exact ⟨done', rest', rfl, hsuffix.trans hrest⟩

/-- **`str_replace`.** It returns the pieces between the leftmost occurrences, joined by the
replacement, and what it searches from `pos` on is always an end of the subject. -/
theorem str_replace_split (search replace subject : List α) (hne : search ≠ []) :
    ∃ pieces, (∀ ps, Split search subject ps ↔ ps = pieces) ∧
      Returns (body search replace) (start subject) (replace.intercalate pieces) ∧
      ∀ s, Relation.ReflTransGen (Continues search replace) (start subject) s →
        s.str.drop s.pos <:+ subject := by
  obtain ⟨pieces, hpieces⟩ := exists_split hne subject
  refine ⟨pieces, fun ps => ⟨fun h => h.unique hpieces, fun h => h ▸ hpieces⟩,
    returns_split hpieces [], ?_⟩
  intro s hs
  obtain ⟨done, rest, rfl, hrest⟩ := reaches_suffix hs
  show (done ++ rest).drop done.length <:+ subject
  rwa [List.drop_left]

/-- The replacement holds what is searched. -/
theorem str_replace_split_aa : ∃ pieces, (∀ ps, Split ['a'] ['a', 'b'] ps ↔ ps = pieces) ∧
    Returns (body ['a'] ['a', 'a']) (start ['a', 'b']) (['a', 'a'].intercalate pieces) ∧
    ∀ s, Relation.ReflTransGen (Continues ['a'] ['a', 'a']) (start ['a', 'b']) s →
      s.str.drop s.pos <:+ ['a', 'b'] :=
  str_replace_split ['a'] ['a', 'a'] ['a', 'b'] (List.cons_ne_nil _ _)

/-- The loop computes what the commands are modelled with. -/
theorem returns_strReplace (search replace subject : String) (hne : search.toList ≠ []) :
    Returns (body search.toList replace.toList) (start subject.toList)
      (strReplace search replace subject).toList := by
  obtain ⟨pieces, hpieces⟩ := exists_split hne subject.toList
  rw [toList_strReplace, hpieces.replace_eq hne]
  exact returns_split hpieces []

end StrReplace

end GameAP
