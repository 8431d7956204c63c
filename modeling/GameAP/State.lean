import GameAP.Classes.PanelTime

/-!
# The state of the daemon

`State::set` inserts, so the first value of a key stays until the key is removed.
`get_lastSet_iff`: `get` returns the value that was set last exactly if that is also the one that
was set first since the last removal. The difference of the clocks is such a value: a later token
does not replace it (`tokens_perform`).
-/

namespace GameAP

open Lib

namespace State

def remove (key : String) (st : State) : State := st.erase key

inductive Op where
  | set (key value : String)
  | remove (key : String)
  deriving DecidableEq, Repr

def perform (st : State) : Op → State
  | .set key value => st.set key value
  | .remove key => st.remove key

def performAll (ops : List Op) : State := ops.foldl perform ∅

/-- What an operation does to the values that a key has been set to since its last removal. -/
def since (key : String) (values : List String) : Op → List String
  | .set k value => if k = key then values ++ [value] else values
  | .remove k => if k = key then [] else values

/-- The values that the key has been set to and not been removed from. -/
def settings (key : String) (ops : List Op) : List String := ops.foldl (since key) []

/-- The value of the last set that no removal follows. -/
def lastSet (key : String) (ops : List Op) : Option String := (settings key ops).getLast?

variable {key : String} {ops : List Op}

theorem performAll_snoc {op : Op} : performAll (ops ++ [op]) = perform (performAll ops) op :=
  List.foldl_append

theorem settings_snoc {op : Op} : settings key (ops ++ [op]) = since key (settings key ops) op :=
  List.foldl_append

/-- The first of these values is the one that is kept. -/
theorem lookup_performAll (key : String) (ops : List Op) :
    (performAll ops).lookup key = (settings key ops).head? := by
  induction ops using List.reverseRecOn with
  | nil => rfl
  | append_singleton ops op ih =>
    rw [performAll_snoc, settings_snoc]
    generalize performAll ops = st at ih
    generalize settings key ops = values at ih
    cases op with
    | set k value =>
      show (Table.emplace st k value).lookup key =
        (if k = key then values ++ [value] else values).head?
      by_cases hk : k = key
      · subst hk
        rw [if_pos rfl]
        cases values with
        | nil => exact Table.lookup_emplace_of_notMem (AList.lookup_eq_none.mp ih)
        | cons v values =>
          have hmem : k ∈ st := Table.mem_of_lookup ih
          have hsame : Table.emplace st k value = st := if_pos hmem
          rw [hsame, ih]
          rfl
      · rw [if_neg hk, Table.lookup_emplace_ne (Ne.symm hk), ih]
    | remove k =>
      show (st.erase k).lookup key = (if k = key then [] else values).head?
      by_cases hk : k = key
      · subst hk
        rw [if_pos rfl]
        exact AList.lookup_erase k st
      · rw [if_neg hk, AList.lookup_erase_ne (Ne.symm hk), ih]

theorem get_performAll (key : String) (ops : List Op) :
    (performAll ops).get key = (settings key ops).head?.getD "" := by
  unfold State.get
  rw [lookup_performAll]

/-- No value counts as the empty one, but there is a first value if there is a last one. -/
theorem head_getD_iff (values : List String) :
    values.head?.getD "" = values.getLast?.getD "" ↔ values.head? = values.getLast? := by
  cases values with
  | nil => exact iff_of_true rfl rfl
  | cons v values =>
    obtain ⟨w, hw⟩ : ∃ w, (v :: values).getLast? = some w :=
      Option.isSome_iff_exists.mp (by simp)
    rw [hw, List.head?_cons, Option.getD_some, Option.getD_some, Option.some.injEq]

/-- **What `get` returns.** For every sequence of operations it is the value of the last set
exactly if the first set since the last removal had the same value. -/
theorem get_lastSet_iff (key : String) (ops : List Op) :
    (performAll ops).get key = (lastSet key ops).getD "" ↔
      (settings key ops).head? = (settings key ops).getLast? := by
  rw [get_performAll]
  exact head_getD_iff _

/-- A second set of a key is lost. -/
theorem get_not_last : ¬ ∀ (key : String) (ops : List Op),
    (performAll ops).get key = (lastSet key ops).getD "" := fun h =>
  absurd (h "a" [.set "a" "1", .set "a" "2"]) (by decide)

end State

namespace Rest

/-- Each accepted reply that tells a difference sets it. -/
theorem tokens_perform (rs : List TokenReply) : (tokens rs).state =
    State.performAll ((rs.filterMap told).map fun diff =>
      .set State.panelTimediff (toString diff)) := by
  unfold tokens State.performAll
  have h : ∀ s : Rest, (rs.foldl (fun s r => endState (getToken r) s) s).state =
      ((rs.filterMap told).map fun diff =>
        State.Op.set State.panelTimediff (toString diff)).foldl State.perform s.state := by
    induction rs with
    | nil => exact fun s => rfl
    | cons r rs ih =>
      intro s
      rw [List.foldl_cons, ih, getToken_state, List.filterMap_cons]
      cases told r <;> rfl
  exact h init

theorem settings_tokens (diffs : List Int) :
    State.settings State.panelTimediff
      (diffs.map fun diff => .set State.panelTimediff (toString diff)) = diffs.map toString := by
  induction diffs using List.reverseRecOn with
  | nil => rfl
  | append_singleton diffs diff ih =>
    rw [List.map_append, List.map_singleton, State.settings_snoc, ih, List.map_append,
      List.map_singleton, State.since, if_pos rfl]

/-- The stored difference is that of the last refresh if it is also that of the first. -/
theorem timediff_last_iff (rs : List TokenReply) :
    (tokens rs).state.get State.panelTimediff =
        ((rs.filterMap told).map toString).getLast?.getD "" ↔
      ((rs.filterMap told).map toString).head? = ((rs.filterMap told).map toString).getLast? := by
  rw [tokens_perform, ← settings_tokens, State.get_performAll]
  exact State.head_getD_iff _

end Rest

end GameAP
