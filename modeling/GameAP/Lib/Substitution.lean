import Mathlib.Data.List.Basic
import Mathlib.Data.List.Nodup

/-!
# Replacing in a text

`replace` puts a replacement where a search text occurs, from the left, and goes on behind what it
has inserted. A text with marks (`Piece`) is shown with some of the marks replaced by their values
(`text`). Where in every such text a mark that is left stands only at its own places (`Apart`),
replacing the marks one after the other gives the same text in every order (`foldl_replace`);
`apart_of_bracketed` is a condition on brackets that is sufficient. Where all marks are in brackets
and no value has an opening one, replacing them one after the other is replacing them at once
(`foldl_replace_expand`).
-/

namespace Lib

namespace Substitution

variable {α κ : Type*} [DecidableEq α]

/-- `replace` behind the next `skip` places. -/
def replaceFrom (search replacement : List α) : Nat → List α → List α
  | _, [] => []
  | skip + 1, _ :: xs => replaceFrom search replacement skip xs
  | 0, x :: xs =>
    if search.isPrefixOf (x :: xs) then
      replacement ++ replaceFrom search replacement (search.length - 1) xs
    else x :: replaceFrom search replacement 0 xs

def replace (search replacement : List α) (xs : List α) : List α :=
  replaceFrom search replacement 0 xs

variable {search replacement : List α}

theorem replaceFrom_eq (skip : Nat) (xs : List α) :
    replaceFrom search replacement skip xs = replace search replacement (xs.drop skip) := by
  induction xs generalizing skip with
  | nil => cases skip <;> rfl
  | cons x xs ih =>
    cases skip with
    | zero => rfl
    | succ skip => exact ih skip

theorem replace_cons (x : α) (xs : List α) : replace search replacement (x :: xs) =
    if search.isPrefixOf (x :: xs) then
      replacement ++ replace search replacement (xs.drop (search.length - 1))
    else x :: replace search replacement xs := by
  rw [← replaceFrom_eq]
  rfl

/-- An occurrence at the front. -/
theorem replace_search_append (h : search ≠ []) (xs : List α) :
    replace search replacement (search ++ xs) =
      replacement ++ replace search replacement xs := by
  cases search with
  | nil => exact absurd rfl h
  | cons x search =>
    have hprefix : (x :: search).isPrefixOf (x :: search ++ xs) = true :=
      List.isPrefixOf_iff_prefix.mpr (List.prefix_append _ _)
    rw [List.cons_append] at hprefix ⊢
    rw [replace_cons, if_pos hprefix, List.length_cons, Nat.add_sub_cancel,
      List.drop_left]

/-- A part in which no occurrence begins. -/
theorem replace_append {part xs : List α}
    (h : ∀ k < part.length, ¬ search <+: (part ++ xs).drop k) :
    replace search replacement (part ++ xs) = part ++ replace search replacement xs := by
  induction part with
  | nil => rfl
  | cons x part ih =>
    have hhead : ¬ search.isPrefixOf (x :: (part ++ xs)) = true := fun hp =>
      h 0 (Nat.zero_lt_succ _) (List.isPrefixOf_iff_prefix.mp hp)
    rw [List.cons_append, replace_cons, if_neg hhead,
      ih fun k hk => h (k + 1) (Nat.succ_lt_succ hk), List.cons_append]

/-! ## What stands around -/

/-- No occurrence begins in the part, whatever follows it. -/
def NotBegun (search part : List α) : Prop :=
  ∀ rest, ∀ k < part.length, ¬ search <+: (part ++ rest).drop k

theorem replace_notBegun {part : List α} (h : NotBegun search part) (xs : List α) :
    replace search replacement (part ++ xs) = part ++ replace search replacement xs :=
  replace_append (h xs)

omit [DecidableEq α] in
theorem NotBegun.append {a b : List α} (ha : NotBegun search a) (hb : NotBegun search b) :
    NotBegun search (a ++ b) := by
  intro rest k hk
  rw [List.append_assoc]
  by_cases hka : k < a.length
  · exact ha (b ++ rest) k hka
  · rw [List.length_append] at hk
    rw [List.drop_append, List.drop_eq_nil_of_le (Nat.le_of_not_lt hka), List.nil_append]
    exact hb rest (k - a.length) (by omega)

omit [DecidableEq α] in
/-- A part without the first symbol of the search text. -/
theorem notBegun_of_notMem {x : α} {part : List α} (h : x ∉ part) :
    NotBegun (x :: search) part := by
  rintro rest k hk ⟨behind, hbehind⟩
  rw [List.drop_append_of_le_length (Nat.le_of_lt hk), List.drop_eq_getElem_cons hk] at hbehind
  exact h ((List.cons.inj hbehind).1 ▸ List.getElem_mem hk)

omit [DecidableEq α] in
/-- A part that has this symbol only at its front, and another text there. -/
theorem notBegun_cons {x y : α} {part : List α} (h : x ∉ part)
    (hsearch : ¬ x :: search <+: y :: part) (hpart : ¬ y :: part <+: x :: search) :
    NotBegun (x :: search) (y :: part) := by
  intro rest k hk
  cases k with
  | zero =>
    intro hprefix
    rcases List.prefix_or_prefix_of_prefix hprefix (List.prefix_append (y :: part) rest) with
      hle | hle
    · exact hsearch hle
    · exact hpart hle
  | succ k =>
    rw [List.length_cons] at hk
    exact notBegun_of_notMem h rest k (by omega)

/-- A symbol behind the text with which no search text ends. -/
theorem replace_concat {y z : α} (hz : z ≠ y) (xs : List α) :
    replace (search ++ [z]) replacement (xs ++ [y]) =
      replace (search ++ [z]) replacement xs ++ [y] := by
  have hprefix : ∀ xs, (search ++ [z]).isPrefixOf (xs ++ [y]) =
      (search ++ [z]).isPrefixOf xs := by
    intro xs
    rw [Bool.eq_iff_iff, List.isPrefixOf_iff_prefix, List.isPrefixOf_iff_prefix,
      List.prefix_concat_iff]
    refine or_iff_right fun he => ?_
    exact hz (List.cons.inj (List.append_inj' he rfl).2).1
  induction hn : xs.length using Nat.strongRecOn generalizing xs with
  | _ n ih =>
    cases xs with
    | nil =>
      have hnone := hprefix []
      rw [List.nil_append] at hnone ⊢
      rw [replace_cons, hnone]
      cases search <;> rfl
    | cons x xs =>
      rw [List.length_cons] at hn
      have hhead := hprefix (x :: xs)
      rw [List.cons_append] at hhead ⊢
      rw [replace_cons, replace_cons, hhead]
      by_cases hp : (search ++ [z]).isPrefixOf (x :: xs) = true
      · have hle := (List.isPrefixOf_iff_prefix.mp hp).length_le
        rw [List.length_cons] at hle
        rw [if_pos hp, if_pos hp, List.drop_append_of_le_length (by omega),
          ih _ (by rw [List.length_drop]; omega) _ rfl, List.append_assoc]
      · rw [if_neg hp, if_neg hp, ih xs.length (by omega) xs rfl, List.cons_append]

/-! ## Marks -/

/-- A part of a text with marks. -/
inductive Piece (α κ : Type*) where
  | literal (x : α)
  | mark (n : κ)

variable [DecidableEq κ] (spell value : κ → List α)

/-- A piece when the marks of `done` have been replaced. -/
def Piece.text (done : List κ) : Piece α κ → List α
  | literal x => [x]
  | mark n => if n ∈ done then value n else spell n

def text (done : List κ) (pieces : List (Piece α κ)) : List α :=
  pieces.flatMap (Piece.text spell value done)

/-- The pieces have the mark `n` behind the text `before`. -/
def AtMark (done : List κ) (n : κ) (pieces : List (Piece α κ)) (before : List α) : Prop :=
  ∃ σ ρ, pieces = σ ++ .mark n :: ρ ∧ text spell value done σ = before

/-- The mark `n`, still to be replaced, occurs only where the pieces have it. -/
def OnlyAtMarks (done : List κ) (n : κ) (pieces : List (Piece α κ)) : Prop :=
  ∀ before behind, text spell value done pieces = before ++ spell n ++ behind →
    AtMark spell value done n pieces before

/-- Whichever of the marks have been replaced, those that are left occur only where the pieces have
them. -/
def Apart (names : List κ) (pieces : List (Piece α κ)) : Prop :=
  ∀ done ⊆ names, ∀ n ∈ names, n ∉ done → OnlyAtMarks spell value done n pieces

variable {spell value} {done : List κ} {n : κ} {p : Piece α κ} {pieces : List (Piece α κ)}

omit [DecidableEq α] in
theorem text_nil : text spell value done ([] : List (Piece α κ)) = [] := rfl

omit [DecidableEq α] in
theorem text_cons : text spell value done (p :: pieces) =
    p.text spell value done ++ text spell value done pieces := List.flatMap_cons

omit [DecidableEq α] in
theorem text_congr {done' : List κ} (h : ∀ n, n ∈ done ↔ n ∈ done') :
    text spell value done pieces = text spell value done' pieces := by
  have hpiece : Piece.text spell value done = Piece.text spell value done' := by
    funext p
    cases p with
    | literal x => rfl
    | mark n => simp only [Piece.text, h]
  unfold text
  rw [hpiece]

omit [DecidableEq α] in
theorem AtMark.cons {before : List α} (h : AtMark spell value done n pieces before) :
    AtMark spell value done n (p :: pieces) (p.text spell value done ++ before) := by
  obtain ⟨σ, ρ, rfl, rfl⟩ := h
  exact ⟨p :: σ, ρ, rfl, text_cons⟩

omit [DecidableEq α] in
theorem Piece.text_cons_of_ne (h : p ≠ .mark n) :
    p.text spell value (n :: done) = p.text spell value done := by
  cases p with
  | literal x => rfl
  | mark m =>
    have hne : m ≠ n := fun he => h (he ▸ rfl)
    simp only [Piece.text, List.mem_cons, hne, false_or]

omit [DecidableEq α] in
/-- An occurrence behind the first piece is at a mark behind it. -/
theorem OnlyAtMarks.tail (hspell : spell n ≠ []) (hn : n ∉ done)
    (h : OnlyAtMarks spell value done n (p :: pieces)) : OnlyAtMarks spell value done n pieces := by
  intro before behind he
  obtain ⟨σ, ρ, hσ, hbefore⟩ := h (p.text spell value done ++ before) behind
    (by rw [text_cons, he]; simp only [List.append_assoc])
  cases σ with
  | nil =>
    obtain ⟨rfl, -⟩ := List.cons_eq_cons.mp hσ
    rw [text_nil] at hbefore
    have hempty : spell n ++ before = [] := by
      simpa only [Piece.text, if_neg hn] using hbefore.symm
    exact absurd (List.append_eq_nil_iff.mp hempty).1 hspell
  | cons q σ =>
    obtain ⟨rfl, rfl⟩ := List.cons_eq_cons.mp hσ
    rw [text_cons] at hbefore
    exact ⟨σ, ρ, rfl, List.append_cancel_left hbefore⟩

omit [DecidableEq α] in
/-- No occurrence begins in a first piece that is not this mark. -/
theorem OnlyAtMarks.not_prefix (hp : p ≠ .mark n)
    (h : OnlyAtMarks spell value done n (p :: pieces)) {k : Nat}
    (hk : k < (p.text spell value done).length) :
    ¬ spell n <+: (p.text spell value done ++ text spell value done pieces).drop k := by
  rintro ⟨behind, hbehind⟩
  rw [← text_cons] at hbehind
  obtain ⟨σ, ρ, hσ, hbefore⟩ := h ((text spell value done (p :: pieces)).take k) behind
    (by rw [List.append_assoc, hbehind, List.take_append_drop])
  cases σ with
  | nil => exact hp (List.cons_eq_cons.mp hσ).1
  | cons q σ =>
    obtain ⟨rfl, -⟩ := List.cons_eq_cons.mp hσ
    have hlen := congrArg List.length hbefore
    rw [text_cons, List.length_append, List.length_take] at hlen
    omega

/-- **Replacing one mark.** -/
theorem replace_text (hspell : spell n ≠ []) (hn : n ∉ done)
    (h : OnlyAtMarks spell value done n pieces) :
    replace (spell n) (value n) (text spell value done pieces) =
      text spell value (n :: done) pieces := by
  induction pieces with
  | nil => rfl
  | cons p pieces ih =>
    have htail := ih (h.tail hspell hn)
    rw [text_cons, text_cons]
    by_cases hp : p = .mark n
    · subst hp
      simp only [Piece.text, if_neg hn, List.mem_cons_self, if_true]
      rw [replace_search_append hspell, htail]
    · rw [replace_append fun k hk => h.not_prefix hp hk, htail, Piece.text_cons_of_ne hp]

/-- **Replacing all marks**, in any order: each becomes its value and nothing else changes. -/
theorem foldl_replace {names order : List κ} (hspell : ∀ n, spell n ≠ [])
    (h : Apart spell value names pieces) (horder : order ⊆ names) (hnodup : order.Nodup)
    (hdone : done ⊆ names) (hdisjoint : order.Disjoint done) :
    order.foldl (fun xs n => replace (spell n) (value n) xs) (text spell value done pieces) =
      text spell value (order ++ done) pieces := by
  induction order generalizing done with
  | nil => rfl
  | cons n order ih =>
    obtain ⟨hmem, horder⟩ := List.cons_subset.mp horder
    obtain ⟨hnotMem, hnodup⟩ := List.nodup_cons.mp hnodup
    obtain ⟨hn, hdisjoint⟩ := List.disjoint_cons_left.mp hdisjoint
    rw [List.foldl_cons, replace_text (hspell n) hn (h done hdone n hmem hn),
      ih horder hnodup (List.cons_subset.mpr ⟨hmem, hdone⟩)
        (List.disjoint_cons_right.mpr ⟨hnotMem, hdisjoint⟩)]
    exact text_congr fun _ => List.perm_middle.mem_iff

/-! ## Brackets -/

/-- A name between two brackets. -/
def bracketed (opening closing : α) (name : κ → List α) (n : κ) : List α :=
  opening :: name n ++ [closing]

/-- Every opening bracket is that of a mark, and a mark ends at its first closing bracket. -/
structure Bracketed (opening closing : α) (name value : κ → List α) (names : List κ)
    (pieces : List (Piece α κ)) : Prop where
  closing_ne : closing ≠ opening
  injective : Function.Injective name
  opening_notMem_name : ∀ n ∈ names, opening ∉ name n
  closing_notMem_name : ∀ n ∈ names, closing ∉ name n
  opening_notMem_value : ∀ n ∈ names, opening ∉ value n
  mark_mem : ∀ n, .mark n ∈ pieces → n ∈ names
  literal_ne : ∀ x, .literal x ∈ pieces → x ≠ opening

omit [DecidableEq α] in
/-- What is in front of an element includes a part without it. -/
theorem exists_of_append_eq {a : α} {part xs before behind : List α} (ha : a ∉ part)
    (h : part ++ xs = before ++ a :: behind) :
    ∃ between, before = part ++ between ∧ xs = between ++ a :: behind := by
  rcases List.append_eq_append_iff.mp h with ⟨between, rfl, rfl⟩ | ⟨rest, rfl, hrest⟩
  · exact ⟨between, rfl, rfl⟩
  · cases rest with
    | nil => exact ⟨[], by simp only [List.append_nil], hrest.symm⟩
    | cons b rest =>
      obtain ⟨rfl, -⟩ := List.cons_eq_cons.mp hrest
      exact absurd (List.mem_append_right _ List.mem_cons_self) ha

section Bracketed

variable {opening closing : α} {name : κ → List α} {names : List κ}

omit [DecidableEq α] [DecidableEq κ] in
theorem Bracketed.tail (h : Bracketed opening closing name value names (p :: pieces)) :
    Bracketed opening closing name value names pieces :=
  { h with
    mark_mem := fun n hn => h.mark_mem n (List.mem_cons_of_mem _ hn)
    literal_ne := fun x hx => h.literal_ne x (List.mem_cons_of_mem _ hx) }

omit [DecidableEq α] [DecidableEq κ] in
/-- Two marks at one place are the same. -/
theorem Bracketed.eq_of_append_eq (h : Bracketed opening closing name value names pieces) {m : κ}
    (hm : m ∈ names) (hn : n ∈ names) {xs behind : List α}
    (he : name m ++ closing :: xs = name n ++ closing :: behind) : m = n := by
  obtain ⟨between, hbetween, hxs⟩ := exists_of_append_eq (h.closing_notMem_name m hm) he
  cases between with
  | nil =>
    rw [List.append_nil] at hbetween
    exact h.injective hbetween.symm
  | cons b between =>
    obtain ⟨rfl, -⟩ := List.cons_eq_cons.mp hxs
    have hmem : closing ∈ name n :=
      hbetween ▸ List.mem_append_right _ List.mem_cons_self
    exact absurd hmem (h.closing_notMem_name n hn)

omit [DecidableEq α] in
/-- An occurrence is behind a part without an opening bracket. -/
theorem OnlyAtMarks.behind {part before behind : List α}
    (h : OnlyAtMarks (bracketed opening closing name) value done n pieces) (hpart : opening ∉ part)
    (he : part ++ text (bracketed opening closing name) value done pieces =
      before ++ bracketed opening closing name n ++ behind) :
    ∃ between, before = part ++ between ∧
      AtMark (bracketed opening closing name) value done n pieces between := by
  rw [List.append_assoc] at he
  obtain ⟨between, hbetween, hrest⟩ := exists_of_append_eq hpart he
  refine ⟨between, hbetween, h between behind ?_⟩
  rw [hrest, List.append_assoc]
  rfl

omit [DecidableEq α] in
theorem Bracketed.onlyAtMarks (h : Bracketed opening closing name value names pieces)
    (hn : n ∈ names) :
    OnlyAtMarks (bracketed opening closing name) value done n pieces := by
  induction pieces with
  | nil =>
    intro before behind he
    have hlen := congrArg List.length he
    simp only [text_nil, bracketed, List.length_nil, List.length_append, List.length_cons] at hlen
    omega
  | cons p pieces ih =>
    intro before behind he
    have hnext := ih h.tail
    -- a piece without an opening bracket
    have hskip : opening ∉ p.text (bracketed opening closing name) value done →
        AtMark (bracketed opening closing name) value done n (p :: pieces) before := fun hpart => by
      obtain ⟨between, rfl, hat⟩ := hnext.behind hpart he
      exact hat.cons
    cases p with
    | literal x =>
      exact hskip fun hx => h.literal_ne x List.mem_cons_self (List.mem_singleton.mp hx).symm
    | mark m =>
      have hm := h.mark_mem m List.mem_cons_self
      by_cases hmd : m ∈ done
      · refine hskip ?_
        rw [Piece.text, if_pos hmd]
        exact h.opening_notMem_value m hm
      · rw [text_cons, Piece.text, if_neg hmd] at he
        cases before with
        | nil =>
          have hnames : name m ++ [closing] ++ text (bracketed opening closing name) value done
              pieces = name n ++ [closing] ++ behind := (List.cons_eq_cons.mp he).2
          rw [List.append_assoc, List.append_assoc] at hnames
          obtain rfl := h.eq_of_append_eq hm hn hnames
          exact ⟨[], pieces, rfl, rfl⟩
        | cons b before =>
          obtain ⟨rfl, hrest⟩ := List.cons_eq_cons.mp he
          have hpart : opening ∉ name m ++ [closing] := by
            simp only [List.mem_append, List.mem_singleton, not_or]
            exact ⟨h.opening_notMem_name m hm, h.closing_ne.symm⟩
          obtain ⟨between, rfl, hat⟩ := hnext.behind hpart hrest
          have hcons := hat.cons (p := .mark m)
          rwa [Piece.text, if_neg hmd] at hcons

omit [DecidableEq α] in
/-- Marks in brackets are apart. -/
theorem apart_of_bracketed (h : Bracketed opening closing name value names pieces) :
    Apart (bracketed opening closing name) value names pieces :=
  fun _ _ _ hn _ => h.onlyAtMarks hn

end Bracketed

/-! ## Templates -/

section Template

variable (opening closing : α) (name : κ → List α)

/-- A piece with the marks that have a value replaced by the first one. -/
def Piece.expand (values : List (κ × List α)) : Piece α κ → List α
  | literal x => [x]
  | mark n => (values.lookup n).getD (bracketed opening closing name n)

/-- Every opening bracket is that of a mark, and a mark ends at its first closing bracket. -/
structure Template (pieces : List (Piece α κ)) : Prop where
  mark : ∀ n, .mark n ∈ pieces → opening ∉ name n ∧ closing ∉ name n
  literal : ∀ x, .literal x ∈ pieces → x ≠ opening

/-- The condition on one piece. -/
def Piece.plain : Piece α κ → Bool
  | literal x => decide (x ≠ opening)
  | mark n => decide (opening ∉ name n ∧ closing ∉ name n)

/-- A template in the place of a mark. -/
def Piece.subst (n : κ) (part : List (Piece α κ)) : Piece α κ → List (Piece α κ)
  | literal x => [.literal x]
  | mark m => if m = n then part else [.mark m]

variable {opening closing name} {values : List (κ × List α)} {part : List (Piece α κ)}

omit [DecidableEq κ] in
theorem template_iff : Template opening closing name pieces ↔
    pieces.all (Piece.plain opening closing name) = true := by
  rw [List.all_eq_true]
  constructor
  · intro h p hp
    cases p with
    | literal x => exact decide_eq_true (h.literal x hp)
    | mark n => exact decide_eq_true (h.mark n hp)
  · intro h
    exact ⟨fun n hn => of_decide_eq_true (h _ hn), fun x hx => of_decide_eq_true (h _ hx)⟩

instance : Decidable (Template opening closing name pieces) := decidable_of_iff _ template_iff.symm

omit [DecidableEq α] in
theorem expand_literals (xs : List α) :
    (xs.map .literal).flatMap (Piece.expand opening closing name values) = xs := by
  induction xs with
  | nil => rfl
  | cons x xs ih => simpa [Piece.expand] using ih

omit [DecidableEq α] in
theorem text_nil_done (value : κ → List α) (pieces : List (Piece α κ)) :
    text (bracketed opening closing name) value [] pieces =
      pieces.flatMap (Piece.expand opening closing name []) := by
  unfold text
  congr 1

omit [DecidableEq α] in
theorem Template.subst (h : Template opening closing name pieces)
    (hpart : Template opening closing name part) :
    Template opening closing name (pieces.flatMap (Piece.subst n part)) := by
  have hmem : ∀ p, p ∈ pieces.flatMap (Piece.subst n part) → p ∈ pieces ∨ p ∈ part := by
    intro p hp
    obtain ⟨q, hq, hpq⟩ := List.mem_flatMap.mp hp
    cases q with
    | literal x => exact .inl (List.mem_singleton.mp hpq ▸ hq)
    | mark m =>
      by_cases hm : m = n
      · exact .inr (by simpa [Piece.subst, hm] using hpq)
      · have hp : p = .mark m := by simpa [Piece.subst, hm] using hpq
        exact .inl (hp ▸ hq)
  constructor
  · intro m hm
    exact (hmem _ hm).elim (h.mark m) (hpart.mark m)
  · intro x hx
    exact (hmem _ hx).elim (h.literal x) (hpart.literal x)

omit [DecidableEq α] [DecidableEq κ] in
theorem template_literals {xs : List α} (h : opening ∉ xs) :
    Template opening closing name (xs.map .literal) := by
  constructor
  · intro n hn
    obtain ⟨x, -, hx⟩ := List.mem_map.mp hn
    cases hx
  · rintro x hx rfl
    obtain ⟨y, hy, hyx⟩ := List.mem_map.mp hx
    cases hyx
    exact h hy

omit [DecidableEq α] in
theorem Template.onlyAtMarks (h : Template opening closing name pieces) (hne : closing ≠ opening)
    (hname : Function.Injective name) (hn : opening ∉ name n ∧ closing ∉ name n) :
    OnlyAtMarks (bracketed opening closing name) value [] n pieces := by
  have hmarks : ∀ m, m ∈ n :: pieces.filterMap (fun | .mark m => some m | .literal _ => none) →
      opening ∉ name m ∧ closing ∉ name m := by
    intro m hm
    obtain rfl | hm := List.mem_cons.mp hm
    · exact hn
    · obtain ⟨p, hp, hpm⟩ := List.mem_filterMap.mp hm
      cases p with
      | literal x => cases hpm
      | mark m' =>
        cases hpm
        exact h.mark m hp
  have hbracketed : Bracketed opening closing name (fun _ => [])
      (n :: pieces.filterMap (fun | .mark m => some m | .literal _ => none)) pieces :=
    { closing_ne := hne
      injective := hname
      opening_notMem_name := fun m hm => (hmarks m hm).1
      closing_notMem_name := fun m hm => (hmarks m hm).2
      opening_notMem_value := fun _ _ => List.not_mem_nil
      mark_mem := fun m hm => List.mem_cons_of_mem _ (List.mem_filterMap.mpr ⟨_, hm, rfl⟩)
      literal_ne := h.literal }
  have honly : OnlyAtMarks (bracketed opening closing name) (fun _ => []) [] n pieces :=
    hbracketed.onlyAtMarks List.mem_cons_self
  -- as long as no mark has been replaced the values do not matter
  intro before behind he
  rw [text_nil_done, ← text_nil_done fun _ => []] at he
  obtain ⟨σ, ρ, hσ, hbefore⟩ := honly before behind he
  rw [text_nil_done, ← text_nil_done value] at hbefore
  exact ⟨σ, ρ, hσ, hbefore⟩

/-- **A template in the place of a mark** is put in by replacing the mark. -/
theorem replace_template (h : Template opening closing name pieces) (hne : closing ≠ opening)
    (hname : Function.Injective name) (hn : opening ∉ name n ∧ closing ∉ name n)
    (part : List (Piece α κ)) :
    replace (bracketed opening closing name n)
        (part.flatMap (Piece.expand opening closing name []))
        (pieces.flatMap (Piece.expand opening closing name [])) =
      (pieces.flatMap (Piece.subst n part)).flatMap (Piece.expand opening closing name []) := by
  have hspell : bracketed opening closing name n ≠ [] := List.cons_ne_nil _ _
  have honly : OnlyAtMarks (bracketed opening closing name)
      (fun _ => part.flatMap (Piece.expand opening closing name [])) [] n pieces :=
    h.onlyAtMarks hne hname hn
  have hreplace := replace_text hspell List.not_mem_nil honly
  rw [text_nil_done] at hreplace
  rw [hreplace, List.flatMap_assoc]
  unfold text
  congr 1
  funext p
  cases p with
  | literal x => rfl
  | mark m =>
    simp only [Piece.text, Piece.subst, List.mem_singleton]
    split
    · rfl
    · simp [Piece.expand]

/-- **Replacing at once.** Replacing the marks one after the other gives each the first value it
has, and leaves the marks without a value. -/
theorem foldl_replace_expand (h : Template opening closing name pieces) (hne : closing ≠ opening)
    (hname : Function.Injective name)
    (hvalues : ∀ e ∈ values, (opening ∉ name e.1 ∧ closing ∉ name e.1) ∧ opening ∉ e.2) :
    values.foldl (fun xs e => replace (bracketed opening closing name e.1) e.2 xs)
        (pieces.flatMap (Piece.expand opening closing name [])) =
      pieces.flatMap (Piece.expand opening closing name values) := by
  induction values generalizing pieces with
  | nil => rfl
  | cons e values ih =>
    obtain ⟨n, v⟩ := e
    obtain ⟨hn, hvalue⟩ := hvalues (n, v) List.mem_cons_self
    have hone := replace_template h hne hname hn (v.map .literal)
    rw [expand_literals] at hone
    rw [List.foldl_cons, hone, ih (h.subst (template_literals hvalue)) fun e he =>
      hvalues e (List.mem_cons_of_mem _ he), List.flatMap_assoc]
    congr 1
    funext p
    cases p with
    | literal x => rfl
    | mark m =>
      by_cases hm : m = n
      · subst hm
        simp [Piece.subst, Piece.expand, expand_literals]
      · simp [Piece.subst, Piece.expand, hm, List.lookup_cons, beq_eq_false_iff_ne.mpr hm]

end Template

end Substitution

end Lib
