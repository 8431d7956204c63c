import Mathlib.Data.List.AList

/-!
# Tables

A `Table κ β` is a finite map with a visible order of its entries, as a hash table is to its
iterators. `emplace` keeps the value of a key that is present, as the `insert` of a C++ map
does; `modify` changes the value of one key in place and `mapVals` those of all keys.
-/

namespace Lib

variable {κ β : Type*} [DecidableEq κ]

abbrev Table (κ : Type*) (β : Type*) := AList (fun _ : κ => β)

namespace Table

def emplace (m : Table κ β) (a : κ) (b : β) : Table κ β := if a ∈ m then m else m.insert a b

def mapVals (f : κ → β → β) (m : Table κ β) : Table κ β where
  entries := m.entries.map fun e => ⟨e.1, f e.1 e.2⟩
  nodupKeys := by
    have h : (m.entries.map fun e => (⟨e.1, f e.1 e.2⟩ : Sigma fun _ : κ => β)).keys =
        m.entries.keys := by
      simp [List.keys, Function.comp_def]
    rw [List.NodupKeys, h]
    exact m.nodupKeys

def modify (m : Table κ β) (a : κ) (f : β → β) : Table κ β :=
  m.mapVals fun k b => if k = a then f b else b

variable {m : Table κ β} {a a' : κ} {b : β}

theorem exists_lookup (h : a ∈ m) : ∃ b, m.lookup a = some b :=
  Option.isSome_iff_exists.mp (AList.lookup_isSome.mpr h)

theorem mem_of_lookup (h : m.lookup a = some b) : a ∈ m :=
  AList.lookup_isSome.mp (Option.isSome_of_eq_some h)

@[simp] theorem mem_emplace : a' ∈ m.emplace a b ↔ a' = a ∨ a' ∈ m := by
  unfold emplace
  split
  · next h => exact ⟨.inr, fun h' => h'.elim (fun e => e ▸ h) id⟩
  · exact AList.mem_insert m

theorem emplace_of_notMem (h : a ∉ m) : m.emplace a b = m.insert a b := if_neg h

theorem lookup_emplace_of_notMem (h : a ∉ m) : (m.emplace a b).lookup a = some b := by
  rw [emplace_of_notMem h]; exact AList.lookup_insert m

theorem lookup_emplace_ne (h : a' ≠ a) : (m.emplace a b).lookup a' = m.lookup a' := by
  unfold emplace
  split
  · rfl
  · exact AList.lookup_insert_ne h

omit [DecidableEq κ] in
theorem keys_mapVals (f : κ → β → β) : (m.mapVals f).keys = m.keys := by
  simp [AList.keys, mapVals, List.keys, Function.comp_def]

omit [DecidableEq κ] in
@[simp] theorem mem_mapVals (f : κ → β → β) : a ∈ m.mapVals f ↔ a ∈ m := by
  rw [AList.mem_keys, keys_mapVals, AList.mem_keys]

theorem lookup_mapVals (f : κ → β → β) : (m.mapVals f).lookup a = (m.lookup a).map (f a) := by
  obtain ⟨l, hl⟩ := m
  simp only [AList.lookup, mapVals]
  clear hl
  induction l with
  | nil => rfl
  | cons e l ih =>
    obtain ⟨k, v⟩ := e
    by_cases h : a = k
    · subst h; simp
    · rw [List.map_cons, List.dlookup_cons_ne l ⟨k, v⟩ h, ← ih]
      exact List.dlookup_cons_ne _ (⟨k, f k v⟩ : Sigma fun _ : κ => β) h

@[simp] theorem mem_modify {f : β → β} : a' ∈ m.modify a f ↔ a' ∈ m := mem_mapVals _

@[simp] theorem keys_modify {f : β → β} : (m.modify a f).keys = m.keys := keys_mapVals _

theorem lookup_modify (f : β → β) : (m.modify a f).lookup a = (m.lookup a).map f := by
  rw [modify, lookup_mapVals]; simp

theorem lookup_modify_ne {f : β → β} (h : a' ≠ a) :
    (m.modify a f).lookup a' = m.lookup a' := by
  rw [modify, lookup_mapVals]; simp [h]

end Table

end Lib
