import GameAP.Classes.ServerStamps

/-!
# What a look at a server reads

`getServer` brings the record of one server up to date. If that server is not in the registry, it
first adds the new ones of the panel's list. `getServer_statusIn` says where the status of any
server comes from, and `getServer_marked` when `installed` stays what it is.
-/

namespace GameAP

open Lib

namespace GameServersList

variable {tz : Int} {r : ServerReplies} {reply : Option Json} {id other : Nat}
  {g g' : GameServersList} {v : InstallStatus}

/-- The status that an entry of the panel's list gives a new server. -/
def Listed (r : ServerReplies) (id : Nat) (st : Status) : Prop :=
  ∃ js j server, r.list = some js ∧ j ∈ js.elems ∧ j.getUInt "id" = .ok id ∧
    newServer j = .ok server ∧ st = status server

/-- Servers of the panel's list have been added. -/
structure Extended (r : ServerReplies) (g g' : GameServersList) : Prop where
  kept : ∀ id, id ∈ g.serversList → statusIn g' id = statusIn g id
  added : ∀ id st, id ∉ g.serversList → statusIn g' id = some st → Listed r id st

theorem statusIn_eq_none : statusIn g id = none ↔ id ∉ g.serversList := by
  unfold statusIn
  rw [Option.map_eq_none_iff]
  exact AList.lookup_eq_none

theorem Extended.refl (r : ServerReplies) (g : GameServersList) : Extended r g g where
  kept := fun _ _ => rfl
  added := fun id st hid hst => by
    rw [statusIn_eq_none.mpr hid] at hst
    cases hst

theorem Extended.emplace {server : Server} (h : Extended r g g')
    (hs : Listed r id (status server)) :
    Extended r g { g' with serversList := g'.serversList.emplace id server } := by
  have hlook : ∀ k, statusIn { g' with serversList := g'.serversList.emplace id server } k =
      if k = id ∧ id ∉ g'.serversList then some (status server) else statusIn g' k := by
    intro k
    unfold statusIn
    by_cases hm : id ∈ g'.serversList
    · have hsame : g'.serversList.emplace id server = g'.serversList := if_pos hm
      rw [hsame, if_neg fun hc => hc.2 hm]
    · by_cases hk : k = id
      · subst hk
        rw [Table.lookup_emplace_of_notMem hm, if_pos ⟨rfl, hm⟩]
        rfl
      · rw [Table.lookup_emplace_ne hk, if_neg fun hc => hk hc.1]
  refine ⟨fun k hk => ?_, fun k st hk hst => ?_⟩
  · rw [hlook, if_neg, h.kept k hk]
    rintro ⟨rfl, hout⟩
    have hsome := h.kept k hk
    rw [statusIn_eq_none.mpr hout] at hsome
    exact statusIn_eq_none.mp hsome.symm hk
  · rw [hlook] at hst
    split at hst
    · next hc =>
      cases hst
      exact hc.1 ▸ hs
    · exact h.added k st hk hst

theorem addServers_extended {js : Json} (hjs : r.list = some js) :
    ∀ l : List Json, l ⊆ js.elems → Preserves (Extended r g) (addServers l)
  | [], _ => Preserves.pure _
  | jserver :: rest, hl => by
    have hrest := addServers_extended hjs rest fun j hj => hl (List.mem_cons_of_mem _ hj)
    refine Preserves.orThrow_bind fun k hk => Preserves.get.bind fun g0 => ?_
    dsimp only
    refine Preserves.ite (Preserves.orThrow_bind fun server hserver => ?_) hrest
    refine (Preserves.modify fun g' hg => ?_).bind fun _ => hrest
    exact hg.emplace ⟨js, jserver, server, hjs, hl List.mem_cons_self, hk, hserver, rfl⟩

theorem updateList_extended : Preserves (Extended r g) (updateList r) := by
  unfold updateList
  refine Preserves.get.bind fun g0 => ?_
  refine Preserves.ite (Preserves.pure _) ?_
  cases hjs : r.list with
  | none => exact Preserves.pure _
  | some js =>
    refine (addServers_extended hjs _ fun _ hj => hj).bind fun _ => ?_
    refine (Preserves.modify ?_).bind fun _ => Preserves.pure _
    exact fun g' hg => ⟨hg.kept, hg.added⟩

/-- What a reply to the request for its record makes of a server. -/
def afterReply (tz : Int) (reply : Option Json) (server : Server) : Server :=
  match reply with
  | none => server
  | some j => if j.isEmpty then server else endState (syncServer tz j) server

/-- A record that is read. -/
def Brings (reply : Option Json) (j : Json) : Prop := reply = some j ∧ j.isEmpty = false

theorem lookup_syncFromApi : (endState (syncFromApi tz id reply) g).serversList.lookup id =
    (g.serversList.lookup id).map (afterReply tz reply) := by
  unfold syncFromApi
  cases reply with
  | none => exact Option.map_id'.symm
  | some j =>
    unfold afterReply
    dsimp only
    cases j.isEmpty with
    | true => exact Option.map_id'.symm
    | false => exact statusIn_onServer id _ g

theorem getServer_of_mem (h : id ∈ g.serversList) :
    endState (getServer tz r id) g = endState (syncFromApi tz id r.server) g := by
  unfold getServer
  rw [endState_get_bind, if_neg (not_not.mpr h), endState_bind_pure]

/-- The record of server `other` has been read, after new servers may have been added. -/
def Looked (tz : Int) (r : ServerReplies) (other : Nat) (g g' : GameServersList) : Prop :=
  ∃ g1, (other ∈ g.serversList → g1 = g) ∧ Extended r g g1 ∧
    ∀ id, statusIn g' id = statusIn g1 id ∨
      other = id ∧ statusIn g' id = (statusIn g1 id).map (·.syncReply tz r.server)

theorem looked_sync {g1 : GameServersList} (hmem : other ∈ g.serversList → g1 = g)
    (hext : Extended r g g1) :
    Looked tz r other g (endState (syncFromApi tz other r.server) g1) := by
  refine ⟨g1, hmem, hext, fun id => ?_⟩
  by_cases h : other = id
  · subst h
    exact .inr ⟨rfl, statusIn_syncFromApi tz other r.server g1⟩
  · refine .inl ?_
    unfold statusIn
    rw [syncFromApi_ne (Ne.symm h)]

theorem getServer_looked : Looked tz r other g (endState (getServer tz r other) g) := by
  unfold getServer
  rw [endState_get_bind]
  by_cases hmem : other ∈ g.serversList
  · rw [if_neg (not_not.mpr hmem), endState_bind_pure]
    exact looked_sync (fun _ => rfl) (.refl r g)
  · rw [if_pos hmem]
    simp only [endState_modify_bind]
    have hext := updateList_extended (r := r) (g := g) { g with lastUpdated := 0 }
      ⟨(Extended.refl r g).kept, (Extended.refl r g).added⟩
    rw [endState_bind]
    cases hu : updateList r { g with lastUpdated := 0 } with
    | error e g1 =>
      rw [endState_of_error hu] at hext
      exact ⟨g1, fun h => absurd h hmem, hext, fun id => .inl rfl⟩
    | ok ok g1 =>
      rw [endState_of_ok hu] at hext
      simp only
      cases ok with
      | false => exact ⟨g1, fun h => absurd h hmem, hext, fun id => .inl rfl⟩
      | true =>
        simp only [Bool.not_true, Bool.false_eq_true, if_false]
        rw [endState_get_bind]
        by_cases hin : other ∈ g1.serversList
        · rw [if_neg (not_not.mpr hin), endState_bind_pure]
          exact looked_sync (fun h => absurd h hmem) hext
        · rw [if_pos hin]
          exact ⟨g1, fun h => absurd h hmem, hext, fun id => .inl rfl⟩

theorem getServer_ne (hmem : id ∈ g.serversList) (hne : other ≠ id) :
    statusIn (endState (getServer tz r other) g) id = statusIn g id := by
  obtain ⟨g1, -, hext, hlook⟩ := @getServer_looked tz r other g
  rw [← hext.kept id hmem]
  exact (hlook id).resolve_right fun h => hne h.1

/-! ## What leaves `installed` as it is -/

/-- If server `id` is in the registry, its `installed` is `v`. -/
def Marked (v : InstallStatus) (id : Nat) (g : GameServersList) : Prop :=
  ∀ st, statusIn g id = some st → st.installed = v

/-- What a look at server `other` reads of server `id` says `v`: the record, if it is newer than
the stamp, and an entry of the list, if the server is new. -/
structure ReadsAs (v : InstallStatus) (tz : Int) (r : ServerReplies) (other id : Nat)
    (g : GameServersList) : Prop where
  record : other = id → ∀ j, r.server = some j → j.isEmpty = false →
    Repeats tz v ((statusIn g id).elim 0 (·.stamp)) j
  listed : other ∉ g.serversList → id ∉ g.serversList → ∀ st, Listed r id st → st.installed = v

/-- A new server has no stamp. -/
theorem newServer_updatedAt {j : Json} {server : Server} (h : newServer j = .ok server) :
    server.updatedAt = 0 := by
  unfold newServer at h
  iterate 21 obtain ⟨_, -, h⟩ := ok_of_bind h
  cases h
  rfl

theorem syncReply_installed {st : Status} {reply : Option Json}
    (h : ∀ j, reply = some j → j.isEmpty = false → Repeats tz st.installed st.stamp j) :
    (st.syncReply tz reply).installed = st.installed := by
  unfold Status.syncReply
  cases reply with
  | none => rfl
  | some j =>
    simp only
    cases hj : j.isEmpty with
    | true => rfl
    | false => exact (sync_installed_iff tz j st).mpr (h j rfl hj)

theorem getServer_marked {found : Bool} (hr : ReadsAs v tz r other id g) (h : Marked v id g)
    (hget : getServer tz r other g = .ok found g') : Marked v id g' := by
  obtain ⟨g1, hsame, hext, hlook⟩ : Looked tz r other g g' := by
    rw [← endState_of_ok hget]
    exact getServer_looked
  -- the server before its record is read
  have hbefore : ∀ st, statusIn g1 id = some st →
      st.installed = v ∧ st.stamp = (statusIn g id).elim 0 (·.stamp) := by
    intro st hst
    by_cases hid : id ∈ g.serversList
    · rw [hext.kept id hid] at hst
      exact ⟨h st hst, by rw [hst]; rfl⟩
    · have hlisted := hext.added id st hid hst
      have hother : other ∉ g.serversList := by
        intro hmem
        rw [hsame hmem, statusIn_eq_none.mpr hid] at hst
        cases hst
      refine ⟨hr.listed hother hid st hlisted, ?_⟩
      obtain ⟨_, _, _, -, -, -, hserver, rfl⟩ := hlisted
      rw [statusIn_eq_none.mpr hid]
      exact newServer_updatedAt hserver
  intro st hst
  rcases hlook id with heq | ⟨rfl, heq⟩
  · exact (hbefore st (heq ▸ hst)).1
  · rw [heq] at hst
    obtain ⟨st0, h0, rfl⟩ := Option.map_eq_some_iff.mp hst
    obtain ⟨hv, hstamp⟩ := hbefore st0 h0
    subst hv
    apply syncReply_installed
    rw [hstamp]
    exact hr.record rfl

theorem setInstallStatus_marked {c : StampClock} (hne : other ∈ g.serversList → id ≠ other)
    (h : Marked v id g) (status : InstallStatus) :
    Marked v id (setInstallStatus c other status g) := by
  intro st hst
  by_cases hmem : other ∈ g.serversList
  · rw [statusIn_setInstallStatus_ne hmem (hne hmem)] at hst
    obtain ⟨st0, h0, rfl⟩ := Option.map_eq_some_iff.mp hst
    exact h st0 h0
  · rw [setInstallStatus, if_pos hmem] at hst
    exact h st hst

theorem setInstallStatus_marked_self {c : StampClock} :
    Marked v id (setInstallStatus c id v g) := by
  intro st hst
  by_cases hmem : id ∈ g.serversList
  · rw [statusIn_setInstallStatus_self hmem] at hst
    obtain ⟨st0, -, rfl⟩ := Option.map_eq_some_iff.mp hst
    rfl
  · rw [setInstallStatus, if_pos hmem, statusIn_eq_none.mpr hmem] at hst
    cases hst

end GameServersList

end GameAP
