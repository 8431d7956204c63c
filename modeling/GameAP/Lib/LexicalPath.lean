import Mathlib.Data.List.Basic
import Mathlib.Data.List.Infix

/-!
# Paths, read without the file system

The segments of a path are steps, up or down to a name. `Place` is where a walk has come to from
the directory it began in: so many directories above it, and from there down these names.
`walk_eq`: what a walk does from any place, its steps alone say. `join` puts two paths together,
and `properlyWithin_join` says when the result lies below the first of them.
-/

namespace Lib

variable {α : Type*}

inductive PathStep (α : Type*) where
  | up
  | down (name : α)
  deriving DecidableEq, Repr

structure Place (α : Type*) where
  ups : Nat
  names : List α
  deriving DecidableEq, Repr

namespace Place

def start : Place α := { ups := 0, names := [] }

/-- Above the root directory there is nothing. -/
def step (root : Bool) (p : Place α) : PathStep α → Place α
  | .down name => { p with names := p.names ++ [name] }
  | .up =>
    if p.names.isEmpty then
      if root then p else { p with ups := p.ups + 1 }
    else { p with names := p.names.dropLast }

def walk (root : Bool) (p : Place α) (steps : List (PathStep α)) : Place α :=
  steps.foldl (step root) p

/-- What the steps say by themselves. -/
def net (steps : List (PathStep α)) : Place α := walk false start steps

/-- The second place is under the first one. -/
def ProperlyBelow (p q : Place α) : Prop :=
  q.ups = p.ups ∧ ∃ rest, rest ≠ [] ∧ q.names = p.names ++ rest

/-- From `p`, the steps come down again over all they have gone up, and then further. -/
def ReturnsBelow (root : Bool) (p way : Place α) : Prop :=
  (root = true ∨ way.ups ≤ p.names.length) ∧
    ∃ rest, rest ≠ [] ∧ way.names = p.names.drop (p.names.length - way.ups) ++ rest

variable {root : Bool} {p : Place α} {steps : List (PathStep α)}

theorem walk_append (more : List (PathStep α)) :
    walk root p (steps ++ more) = walk root (walk root p steps) more :=
  List.foldl_append

/-- A walk from any place: up as far as its steps alone go, and down to the same names. -/
theorem walk_eq (root : Bool) (p : Place α) (steps : List (PathStep α)) : walk root p steps =
    { ups := if root then p.ups else p.ups + ((net steps).ups - p.names.length)
      names := p.names.take (p.names.length - (net steps).ups) ++ (net steps).names } := by
  induction steps using List.reverseRecOn with
  | nil => simp [walk, net, start]
  | append_singleton steps s ih =>
    have hnet : net (steps ++ [s]) = step false (net steps) s := walk_append [s]
    have hwalk : walk root p (steps ++ [s]) = step root (walk root p steps) s := walk_append [s]
    rw [hwalk, ih, hnet]
    obtain ⟨ups, names⟩ := net steps
    cases s with
    | down name => simp [step]
    | up =>
      rcases List.eq_nil_or_concat names with rfl | ⟨front, last, rfl⟩
      · -- the steps so far have no name of their own, so one of the place is left
        rcases Nat.lt_or_ge ups p.names.length with hlt | hge
        · have hne : (p.names.take (p.names.length - ups)).isEmpty = false := by
            rw [List.isEmpty_eq_false_iff_exists_mem]
            refine ⟨p.names[0], List.mem_take_iff_getElem.mpr ⟨0, by omega, rfl⟩⟩
          have hlast : (p.names.take (p.names.length - ups)).dropLast =
              p.names.take (p.names.length - (ups + 1)) := by
            rw [List.dropLast_eq_take, List.take_take, List.length_take]
            congr 1
            omega
          have hsub : ups - p.names.length = 0 ∧ ups + 1 - p.names.length = 0 := by omega
          simp [step, hne, hlast, hsub]
        · have hnone : p.names.length - ups = 0 ∧ p.names.length - (ups + 1) = 0 := by omega
          have hsub : ups + 1 - p.names.length = ups - p.names.length + 1 := by omega
          cases root <;> simp [step, hnone, hsub, Nat.add_assoc]
      · simp [step]

theorem properlyBelow_walk :
    ProperlyBelow p (walk root p steps) ↔ ReturnsBelow root p (net steps) := by
  rw [walk_eq]
  unfold ProperlyBelow ReturnsBelow
  obtain ⟨ups, names⟩ := net steps
  have hups : (if root then p.ups else p.ups + (ups - p.names.length)) = p.ups ↔
      root = true ∨ ups ≤ p.names.length := by
    cases root with
    | true => simp
    | false =>
      simp only [Bool.false_eq_true, if_false, false_or]
      omega
  have hnames : ∀ rest, p.names.take (p.names.length - ups) ++ names = p.names ++ rest ↔
      names = p.names.drop (p.names.length - ups) ++ rest := by
    intro rest
    conv_lhs => rhs; rw [← List.take_append_drop (p.names.length - ups) p.names]
    rw [List.append_assoc, List.append_cancel_left_eq]
  exact and_congr hups (exists_congr fun rest => and_congr_right fun _ => hnames rest)

/-- Steps that never lead above their start lead below it if any name is left. -/
theorem returnsBelow_iff {way : Place α} (h : way.ups = 0) :
    ReturnsBelow root p way ↔ way.names ≠ [] := by
  unfold ReturnsBelow
  rw [h, Nat.sub_zero, List.drop_length]
  constructor
  · rintro ⟨-, rest, hrest, hnames⟩
    exact hnames ▸ hrest
  · exact fun hnames => ⟨.inr (Nat.zero_le _), way.names, hnames, rfl⟩

end Place

/-! ## The texts of paths -/

namespace LexicalPath

open Place

def isAbsolute (path : String) : Bool := path.toList.head? == some '/'

/-- An empty segment is no step, nor is a dot. -/
def stepOf (segment : List Char) : Option (PathStep String) :=
  if segment = [] ∨ segment = ['.'] then none
  else if segment = ['.', '.'] then some .up
  else some (.down (String.ofList segment))

def stepsOf (path : List Char) : List (PathStep String) := (path.splitOn '/').filterMap stepOf

def steps (path : String) : List (PathStep String) := stepsOf path.toList

def normal (path : String) : Place String := walk (isAbsolute path) start (steps path)

/-- After normalisation, `path` is a proper descendant of `base`. -/
def ProperlyWithin (base path : String) : Prop :=
  isAbsolute path = isAbsolute base ∧ ProperlyBelow (normal base) (normal path)

/-- A separator goes between the two if there is none. -/
def join (base path : String) : String :=
  if path = "" then base
  else if base = "" ∨ base.toList.getLast? = some '/' ∨ isAbsolute path = true then base ++ path
  else base ++ "/" ++ path

variable {base path : String}

theorem stepsOf_append (xs ys : List Char) :
    stepsOf (xs ++ '/' :: ys) = stepsOf xs ++ stepsOf ys := by
  unfold stepsOf
  rw [List.splitOn_append_cons_self, List.filterMap_append]

theorem stepsOf_nil : stepsOf [] = [] := rfl

/-- A separator more does nothing. -/
theorem stepsOf_slash (xs : List Char) : stepsOf ('/' :: xs) = stepsOf xs :=
  stepsOf_append [] xs

theorem steps_join (base path : String) : steps (join base path) = steps base ++ steps path := by
  unfold steps join
  split
  · next hp =>
    subst hp
    exact (List.append_nil _).symm
  · split
    · next hsep =>
      rw [String.toList_append]
      rcases hsep with rfl | hlast | habs
      · rfl
      · obtain ⟨front, hfront⟩ := List.getLast?_eq_some_iff.mp hlast
        rw [hfront, List.append_assoc, List.singleton_append, stepsOf_append, stepsOf_append,
          stepsOf_nil, List.append_nil]
      · obtain ⟨rest, hrest⟩ := List.head?_eq_some_iff.mp (beq_iff_eq.mp habs)
        rw [hrest, stepsOf_append, stepsOf_slash]
    · rw [String.toList_append, String.toList_append, List.append_assoc]
      exact stepsOf_append _ _

theorem isAbsolute_join (hb : base ≠ "") : isAbsolute (join base path) = isAbsolute base := by
  have happ : ∀ more, isAbsolute (base ++ more) = isAbsolute base := by
    intro more
    unfold isAbsolute
    rw [String.toList_append, List.head?_append_of_ne_nil]
    simpa using hb
  unfold join
  split
  · rfl
  · split
    · exact happ path
    · rw [String.append_assoc]
      exact happ _

/-- **What lies below.** The joined path is a proper descendant of its first part exactly if the
second part returns below it, and is not itself absolute where there is no first part. -/
theorem properlyWithin_join (base path : String) : ProperlyWithin base (join base path) ↔
    (base = "" → isAbsolute path = false) ∧
      ReturnsBelow (isAbsolute base) (normal base) (net (steps path)) := by
  unfold ProperlyWithin
  by_cases hb : base = ""
  · subst hb
    have hjoin : join "" path = path := by
      unfold join
      split
      · next hp => exact hp.symm
      · simp
    rw [hjoin, ← properlyBelow_walk]
    constructor
    · rintro ⟨habs, hbelow⟩
      refine ⟨fun _ => habs, ?_⟩
      unfold normal at hbelow
      rw [habs] at hbelow
      exact hbelow
    · rintro ⟨habs, hbelow⟩
      refine ⟨habs rfl, ?_⟩
      unfold normal
      rw [habs rfl]
      exact hbelow
  · have hnormal : normal (join base path) =
        walk (isAbsolute base) (normal base) (steps path) := by
      unfold normal
      rw [isAbsolute_join hb, steps_join, walk_append]
    rw [isAbsolute_join hb, hnormal, properlyBelow_walk]
    exact ⟨fun h => ⟨fun h0 => absurd h0 hb, h.2⟩, fun h => ⟨rfl, h.2⟩⟩

example : normal "/srv//gameap/./a/../b" = { ups := 0, names := ["srv", "gameap", "b"] } := by
  decide

end LexicalPath

end Lib
