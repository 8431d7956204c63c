import GameAP.Classes.GameServersPass

/-!
# What the panel's list changes in the registry

`updateList` only ever adds. The registry afterwards holds what it held before, each server with
the object it had, and the ids of the list (`updateList_ids`). A server that the panel has deleted
is therefore still reported and started.
-/

namespace GameAP

open Lib

namespace GameServersList

/-- The ids of a list of servers. -/
def listedIds (jlist : Json) : List Nat :=
  jlist.elems.filterMap fun j => (j.getUInt "id").toOption

/-- The request for the list is made, and this is what it returns. -/
structure Fetched (r : ServerReplies) (jlist : Json) (g : GameServersList) : Prop where
  outdated : g.lastUpdated ≤ r.now - cacheTtl
  list : r.list = some jlist

/-- What a list with these ids may make of a registry. -/
structure Updated (ids : List Nat) (g g' : GameServersList) : Prop where
  known : ∀ id server, g.serversList.lookup id = some server →
    g'.serversList.lookup id = some server
  only : ∀ id ∈ g'.serversList, id ∈ g.serversList ∨ id ∈ ids

variable {tz : Int} {r : ServerReplies} {g g' : GameServersList} {ids : List Nat} {jlist : Json}
  {u : PUnit}

theorem Updated.refl : Updated ids g g where
  known := fun _ _ h => h
  only := fun _ h => .inl h

theorem Updated.mem {id : Nat} (h : Updated ids g g') (hid : id ∈ g.serversList) :
    id ∈ g'.serversList := by
  obtain ⟨server, hl⟩ := Table.exists_lookup hid
  exact Table.mem_of_lookup (h.known id server hl)

theorem Updated.emplace {id : Nat} {server : Server} (h : Updated ids g g')
    (hnew : id ∉ g'.serversList) (hid : id ∈ ids) :
    Updated ids g { g' with serversList := g'.serversList.emplace id server } where
  known := fun k known hl => by
    have hk : k ≠ id := by
      rintro rfl
      exact hnew (Table.mem_of_lookup (h.known k known hl))
    rw [Table.lookup_emplace_ne hk]
    exact h.known k known hl
  only := fun k hk => by
    rcases Table.mem_emplace.mp hk with rfl | hk
    · exact .inr hid
    · exact h.only k hk

theorem mem_listedIds {j : Json} {id : Nat} (hj : j ∈ jlist.elems)
    (hid : j.getUInt "id" = .ok id) : id ∈ listedIds jlist :=
  List.mem_filterMap.mpr ⟨j, hj, by rw [hid]; rfl⟩

/-- However the walk over the list ends. -/
theorem addServers_updated : ∀ entries : List Json, entries ⊆ jlist.elems →
    Preserves (Updated (listedIds jlist) g) (addServers entries)
  | [], _ => Preserves.pure _
  | j :: rest, hsub => by
    have hrest := addServers_updated rest fun k hk => hsub (List.mem_cons_of_mem _ hk)
    have hj : j ∈ jlist.elems := hsub List.mem_cons_self
    refine Preserves.orThrow_bind fun id hid => Preserves.get_bind fun g' hg' => ?_
    by_cases hnew : id ∉ g'.serversList
    · dsimp only
      rw [if_pos hnew, endState_orThrow_bind]
      cases newServer j with
      | error e => exact hg'
      | ok server => exact hrest _ (hg'.emplace hnew (mem_listedIds hj hid))
    · dsimp only
      rw [if_neg hnew]
      exact hrest _ hg'

/-- A walk that reaches the end of the list has seen each of its ids. -/
theorem addServers_listed {entries : List Json} (h : addServers entries g = .ok u g') :
    ∀ j ∈ entries, ∃ id ∈ g'.serversList, j.getUInt "id" = .ok id := by
  induction entries generalizing g with
  | nil => exact fun j hj => absurd hj List.not_mem_nil
  | cons j rest ih =>
    unfold addServers at h
    obtain ⟨id, hid, h⟩ := of_orThrow_bind_eq_ok h
    rw [get_bind_apply] at h
    have hpoint : ∃ g1, id ∈ g1.serversList ∧ addServers rest g1 = .ok u g' := by
      by_cases hnew : id ∉ g.serversList
      · rw [if_pos hnew] at h
        obtain ⟨server, -, h⟩ := of_orThrow_bind_eq_ok h
        exact ⟨_, Table.mem_emplace.mpr (.inl rfl), h⟩
      · rw [if_neg hnew] at h
        exact ⟨g, not_not.mp hnew, h⟩
    obtain ⟨g1, hin, hwalk⟩ := hpoint
    have hup : Updated (rest.filterMap fun k => (k.getUInt "id").toOption) g1 g' := by
      have hend := @addServers_updated g1 (.arr rest) rest (fun _ hk => hk) g1 .refl
      rwa [endState_of_ok hwalk] at hend
    intro k hk
    rcases List.mem_cons.mp hk with rfl | hk
    · exact ⟨id, hup.mem hin, hid⟩
    · exact ih hwalk k hk

theorem updateList_fetched (h : Fetched r jlist g) : updateList r g =
    (do
      addServers jlist.elems
      modify fun g => { g with lastUpdated := r.later }
      return true : ListM Bool) g := by
  unfold updateList
  rw [get_bind_apply, if_neg (Int.not_lt.mpr h.outdated), h.list]

theorem updateList_updated (h : Fetched r jlist g) :
    Updated (listedIds jlist) g (endState (updateList r) g) := by
  have hadd := addServers_updated (g := g) jlist.elems (fun _ hj => hj) g .refl
  unfold endState
  rw [updateList_fetched h]
  cases hwalk : addServers jlist.elems g with
  | error e g1 =>
    rw [endState_of_error hwalk] at hadd
    rw [bind_of_error hwalk]
    exact hadd
  | ok u g1 =>
    rw [endState_of_ok hwalk] at hadd
    rw [bind_of_ok hwalk]
    exact ⟨hadd.known, hadd.only⟩

theorem updateList_listed {ok : Bool} {id : Nat} (h : Fetched r jlist g)
    (hok : updateList r g = .ok ok g') (hid : id ∈ listedIds jlist) : id ∈ g'.serversList := by
  rw [updateList_fetched h] at hok
  obtain ⟨u, g1, hwalk, hok⟩ := of_bind_eq_ok hok
  cases hok
  obtain ⟨j, hj, hread⟩ := List.mem_filterMap.mp hid
  obtain ⟨k, hk, hkread⟩ := addServers_listed hwalk j hj
  rw [hkread] at hread
  cases hread
  exact hk

theorem mem_syncBody {timediff : Option Int} {id : Nat} {server : Server}
    (h : g.serversList.lookup id = some server) :
    syncEntry timediff server ∈ syncBody timediff g :=
  List.mem_map.mpr ⟨⟨id, server⟩, AList.mem_lookup_iff.mp h, rfl⟩

/-- A server is known, and is as it was when it was last looked at. -/
theorem Starting.updated {id : Nat} (hup : Updated ids g g') (h : Starting id g) :
    Starting id g' := by
  obtain ⟨server, hl, hauto, hinst⟩ := h
  exact ⟨server, hup.known id server hl, hauto, hinst⟩

/-- A known server that a pass finds down is started, whatever the list leaves out. -/
theorem loop_starts_known {i : LoopInput} {body : List StatsEntry} {mid : GameServersList} {id : Nat}
    (hwf : WellFormedInput i)
    (hstats : statsServers tz i g.serversList.keys { gslist := g, log := [] } =
      .ok body { gslist := mid, log := [] }) (hdown : FoundDown g.serversList.keys body mid id) :
    ∃ final, loop tz i { gslist := g, log := [] } = .ok ⟨⟩ final ∧ starts id final.log = 1 := by
  obtain ⟨body', mid', hstats', hc⟩ := statsServers_checked tz hwf g.serversList.keys
    { gslist := g, log := [] } g.serversList.nodupKeys fun k hk => hk
  rw [hstats] at hstats'
  cases hstats'
  obtain ⟨final, hloop, hstarts, -⟩ := loop_of_checked tz hwf hstats hc
  exact ⟨final, hloop, (hstarts id).1 hdown⟩

/-- **What a list adds.** For every registry and every list that is fetched: the servers that were
known keep their objects, also when an entry of the list makes the walk throw; after a walk to the
end the ids are those of before and those of the list. Whatever the list leaves out is still
reported and, when a pass finds it down, started. -/
theorem updateList_ids (h : Fetched r jlist g) :
    Updated (listedIds jlist) g (endState (updateList r) g) ∧
      (∀ ok g', updateList r g = .ok ok g' →
        ok = true ∧ ∀ id, id ∈ g'.serversList ↔ id ∈ g.serversList ∨ id ∈ listedIds jlist) ∧
      (∀ timediff id server, g.serversList.lookup id = some server →
        syncEntry timediff server ∈ syncBody timediff (endState (updateList r) g)) ∧
      (∀ id i, Starting id g → AllDown i → ∃ x, LoopEvent.started id x ∈
        (endState (loop tz i) { gslist := endState (updateList r) g, log := [] }).log) ∧
      ∀ g', g' = endState (updateList r) g → ∀ i, WellFormedInput i → ∀ body mid,
        statsServers tz i g'.serversList.keys { gslist := g', log := [] } =
          .ok body { gslist := mid, log := [] } →
        ∀ id ∈ g.serversList, FoundDown g'.serversList.keys body mid id →
          ∃ final, loop tz i { gslist := g', log := [] } = .ok ⟨⟩ final ∧
            starts id final.log = 1 := by
  have hup := updateList_updated h
  refine ⟨hup, fun ok g' hok => ⟨?_, fun id => ⟨fun hid => ?_, ?_⟩⟩, ?_, ?_, ?_⟩
  · rw [updateList_fetched h] at hok
    obtain ⟨u, g1, -, hok⟩ := of_bind_eq_ok hok
    cases hok
    rfl
  · rw [endState_of_ok hok] at hup
    exact hup.only id hid
  · rintro (hid | hid)
    · rw [endState_of_ok hok] at hup
      exact hup.mem hid
    · exact updateList_listed h hok hid
  · exact fun timediff id server hl => mem_syncBody (hup.known id server hl)
  · exact fun id i hstart hdown => loop_starts tz hdown (hstart.updated hup)
  · rintro g' rfl i hwf body mid hstats id _ hdown
    exact loop_starts_known hwf hstats hdown

/-! ## A server that the panel has deleted -/

/-- The panel has servers with these ids. -/
def listOf (ids : List Nat) : ServerReplies :=
  { now := 100, later := 100, list := some (.arr (ids.map fun id => .obj [("id", .int id)])),
    server := none }

theorem fetched_listOf (known ids : List Nat) :
    Fetched (listOf ids) (.arr (ids.map fun id => .obj [("id", .int id)])) (plainList known) where
  outdated := by
    show (0 : Int) ≤ 100 - 60
    decide
  list := rfl

def afterList : GameServersList := endState (updateList (listOf [2])) (plainList [1])

theorem updateList_listOf : updateList (listOf [2]) (plainList [1]) = .ok true afterList := rfl

theorem updateList_ids_listOf : 1 ∈ afterList.serversList ∧ 2 ∈ afterList.serversList ∧
    3 ∉ afterList.serversList := by
  obtain ⟨-, hids, -⟩ := @updateList_ids 0 _ _ _ (fetched_listOf [1] [2])
  have hmem := (hids true afterList updateList_listOf).2
  rw [hmem 1, hmem 2, hmem 3]
  show (1 ∈ (plainList [1]).serversList ∨ 1 ∈ [2]) ∧ (2 ∈ (plainList [1]).serversList ∨ 2 ∈ [2]) ∧
    ¬ (3 ∈ (plainList [1]).serversList ∨ 3 ∈ [2])
  decide

/-- The ids after an update are not those of the list. -/
theorem deleted_server_stays : ¬ ∀ r jlist g, Fetched r jlist g →
    ∀ g', updateList r g = .ok true g' → ∀ id, id ∈ g'.serversList ↔ id ∈ listedIds jlist := by
  intro hall
  have h := hall (listOf [2]) _ (plainList [1]) (fetched_listOf [1] [2]) _ updateList_listOf 1
  have hknown : 1 ∈ afterList.serversList := by decide
  exact absurd (h.mp hknown) (by decide)

end GameServersList

end GameAP
