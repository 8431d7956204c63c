import GameAP.Classes.GameServersList

/-!
# Stamps and the status they protect

`Status` is the part of a server that `sync_from_api` takes over only from a newer record, with
the stamp it compares. `Status.sync` is what a record does to it (`status_syncServer`); nothing
else of the record matters, and nothing else of the server does.

A record lowers the stamp as well, to its own `updated_at`. So `syncs_keep_installed_iff`: after
`set_install_status` a sequence of records leaves `installed` alone exactly when every record
that is newer than the one synced before it brings the same value. And
`syncFromApi_after_setInstallStatus`: the stamp that `sync_all` gives every server holds back the
records of the others too.
-/

namespace GameAP

open Lib

namespace GameServersList

/-- What `sync_from_api` protects by the stamp. -/
structure Status where
  enabled : Bool
  installed : InstallStatus
  blocked : Bool
  stamp : Int
  deriving DecidableEq, Repr

def status (s : Server) : Status :=
  { enabled := s.enabled, installed := s.installed, blocked := s.blocked, stamp := s.updatedAt }

/-- The `updated_at` of a record. -/
def recordStamp (tz : Int) (j : Json) : Except Exn Int := do
  return humanToTimestamp tz (← j.getString "updated_at")

/-- A newer record's values, up to the first one that is ill-typed; the stamp is set after
them. -/
def Status.take (st : Status) (j : Json) (stamp : Int) : Status :=
  match j.getBool "enabled" with
  | .error _ => st
  | .ok enabled =>
    match j.getUInt "installed" with
    | .error _ => { st with enabled }
    | .ok installed =>
      match j.getBool "blocked" with
      | .error _ => { st with enabled, installed := .ofUInt installed }
      | .ok blocked => { enabled, installed := .ofUInt installed, blocked, stamp }

/-- The effect of a record on a server's status. -/
def Status.sync (tz : Int) (j : Json) (st : Status) : Status :=
  match recordStamp tz j with
  | .error _ => st
  | .ok stamp => if st.stamp < stamp then st.take j stamp else { st with stamp }

/-! ## `syncServer` and the status -/

theorem setString_keeps {j : Json} {key : String} {set : Server → String → Server}
    {k : PUnit → SyncM PUnit} (h : ∀ s v, status (set s v) = status s)
    (hk : Keeps status (k ⟨⟩)) : Keeps status (setString j key set >>= k) :=
  ((Keeps.orThrow _).bind fun v => Keeps.modify fun s => h s v).bind fun _ => hk

/-- Reading a part of the record and storing it. -/
theorem store_keeps {α : Type} {x : Except Exn α} {set : Server → α → Server}
    {k : PUnit → SyncM PUnit} (h : ∀ s v, status (set s v) = status s)
    (hk : Keeps status (k ⟨⟩)) :
    Keeps status (orThrow x >>= fun v => modify (fun s => set s v) >>= k) :=
  (Keeps.orThrow _).bind fun v => (Keeps.modify fun s => h s v).bind fun _ => hk

/-- What does not depend on the settings. -/
theorem setSetting_eq {γ : Type} {f : Server → γ} (h : ∀ s settings, f { s with settings } = f s)
    (s : Server) (name value : String) : f (s.setSetting name value) = f s := by
  unfold Server.setSetting
  split
  · exact h s _
  · exact h s _

theorem syncSettings_keeps {γ : Type} {f : Server → γ}
    (h : ∀ s settings, f { s with settings } = f s) : ∀ js : List Json, Keeps f (syncSettings js)
  | [] => Keeps.pure _
  | _ :: rest =>
    (Keeps.orThrow _).bind fun name => (Keeps.orThrow _).bind fun value =>
      (Keeps.modify fun s => setSetting_eq h s name value).bind fun _ =>
        syncSettings_keeps h rest

theorem syncFields_keeps (j : Json) : Keeps status (syncFields j) := by
  unfold syncFields
  iterate 7 refine setString_keeps ?_ ?_; exact fun _ _ => rfl
  iterate 2 refine store_keeps ?_ ?_; exact fun _ _ => rfl
  iterate 6 refine setString_keeps ?_ ?_; exact fun _ _ => rfl
  apply store_keeps
  · exact fun _ _ => rfl
  · exact (Keeps.orThrow _).bind fun _ => syncSettings_keeps (fun _ _ => rfl) _

/-- What follows `syncStatus` in `syncServer` runs only if it does not throw. -/
theorem status_syncStatus (j : Json) (stamp : Int) (s : Server) (k : SyncM PUnit)
    (hk : ∀ t, status (endState k t) = { status t with stamp }) :
    status (endState (syncStatus j stamp >>= fun _ => k) s) =
      if s.updatedAt < stamp then (status s).take j stamp else { status s with stamp } := by
  unfold syncStatus Status.take
  by_cases h : s.updatedAt < stamp
  · rw [if_pos h, bind_assoc, endState_get_bind, if_pos h, bind_assoc, endState_orThrow_bind]
    cases j.getBool "enabled" with
    | error e => rfl
    | ok enabled =>
      simp only [bind_assoc, endState_modify_bind, endState_orThrow_bind]
      cases j.getUInt "installed" with
      | error e => rfl
      | ok installed =>
        simp only
        cases j.getBool "blocked" with
        | error e => rfl
        | ok blocked => exact hk _
  · rw [if_neg h, bind_assoc, endState_get_bind, if_neg h, pure_bind]
    exact hk s

/-- **The effect of a record on a server's status.** -/
theorem status_syncServer (tz : Int) (j : Json) (s : Server) :
    status (endState (syncServer tz j) s) = (status s).sync tz j := by
  unfold syncServer Status.sync recordStamp
  rw [endState_orThrow_bind]
  cases j.getString "updated_at" with
  | error e => rfl
  | ok str =>
    exact status_syncStatus j _ s _ fun t => syncFields_keeps j _

/-! ## The registry -/

/-- The status of server `id` in the registry. -/
def statusIn (g : GameServersList) (id : Nat) : Option Status :=
  (g.serversList.lookup id).map status

/-- A failed request and an empty record leave the server alone. -/
def Status.syncReply (tz : Int) (reply : Option Json) (st : Status) : Status :=
  match reply with
  | none => st
  | some j => if j.isEmpty then st else st.sync tz j

theorem statusIn_onServer {α : Type} (id : Nat) (f : EStateM Exn Server α)
    (g : GameServersList) :
    (endState (onServer id f) g).serversList.lookup id =
      (g.serversList.lookup id).map (endState f) := by
  unfold onServer endState
  cases h : g.serversList.lookup id with
  | none => simp only [h, Option.map_none]
  | some s => cases hf : f s <;> simp [Table.lookup_modify, h, hf]

theorem onServer_ne {α : Type} {id other : Nat} (h : other ≠ id) (f : EStateM Exn Server α)
    (g : GameServersList) :
    (endState (onServer id f) g).serversList.lookup other = g.serversList.lookup other := by
  unfold onServer endState
  cases hl : g.serversList.lookup id with
  | none => simp only [hl]
  | some s => cases hf : f s <;> simp [Table.lookup_modify_ne h, hl, hf]

theorem statusIn_syncFromApi (tz : Int) (id : Nat) (reply : Option Json) (g : GameServersList) :
    statusIn (endState (syncFromApi tz id reply) g) id =
      (statusIn g id).map (·.syncReply tz reply) := by
  unfold syncFromApi statusIn Status.syncReply
  cases reply with
  | none => exact Option.map_id'.symm
  | some j =>
    simp only
    split
    · exact Option.map_id'.symm
    · rw [statusIn_onServer, Option.map_map, Option.map_map]
      congr 1
      exact funext fun s => status_syncServer tz j s

theorem syncFromApi_ne {id other : Nat} (h : other ≠ id) (tz : Int) (reply : Option Json)
    (g : GameServersList) :
    (endState (syncFromApi tz id reply) g).serversList.lookup other =
      g.serversList.lookup other := by
  unfold syncFromApi
  cases reply with
  | none => rfl
  | some j =>
    simp only
    split
    · rfl
    · exact onServer_ne h _ g

theorem statusIn_setInstallStatus_self {c : StampClock} {id : Nat} {st : InstallStatus}
    {g : GameServersList} (h : id ∈ g.serversList) :
    statusIn (setInstallStatus c id st g) id =
      (statusIn g id).map fun x => { x with installed := st, stamp := c.sync id } := by
  unfold setInstallStatus statusIn
  rw [if_neg (not_not.mpr h)]
  simp only [syncAll, Table.lookup_mapVals, Table.lookup_modify, Option.map_map]
  rfl

theorem statusIn_setInstallStatus_ne {c : StampClock} {id other : Nat} {st : InstallStatus}
    {g : GameServersList} (h : id ∈ g.serversList) (hne : other ≠ id) :
    statusIn (setInstallStatus c id st g) other =
      (statusIn g other).map fun x => { x with stamp := c.sync other } := by
  unfold setInstallStatus statusIn
  rw [if_neg (not_not.mpr h)]
  simp only [syncAll, Table.lookup_mapVals, Table.lookup_modify_ne hne, Option.map_map]
  rfl

/-! ## Sequences of records -/

def installedIn (g : GameServersList) (id : Nat) : Option InstallStatus :=
  (statusIn g id).map (·.installed)

/-- Calls of `sync_from_api`, each with the server's id and the panel's reply. -/
def syncs (tz : Int) (calls : List (Nat × Option Json)) (g : GameServersList) :
    GameServersList :=
  calls.foldl (fun g c => endState (syncFromApi tz c.1 c.2) g) g

/-- The record of server `id` that a call delivers: none if it is for another server, if the
request fails or if the reply is empty. -/
def delivered (id : Nat) : Nat × Option Json → Option Json
  | (_, none) => none
  | (other, some j) => if other = id ∧ j.isEmpty = false then some j else none

/-- The records of server `id` that the calls deliver. -/
def recordsOf (id : Nat) (calls : List (Nat × Option Json)) : List Json :=
  calls.filterMap (delivered id)

/-- The record's status fields have types that `sync_from_api` can read. -/
def wellTyped (j : Json) : Bool :=
  (j.getBool "enabled").toBool && (j.getUInt "installed").toBool && (j.getBool "blocked").toBool

/-- The stamp a record leaves: its own, unless it is refused. -/
def stampAfter (tz : Int) (stamp : Int) (j : Json) : Int :=
  match recordStamp tz j with
  | .error _ => stamp
  | .ok u => if stamp < u ∧ wellTyped j = false then stamp else u

/-- A record newer than `stamp` has the value `v` for `installed`, as far as it can be read. -/
def Repeats (tz : Int) (v : InstallStatus) (stamp : Int) (j : Json) : Prop :=
  ∀ u b n, recordStamp tz j = .ok u → stamp < u → j.getBool "enabled" = .ok b →
    j.getUInt "installed" = .ok n → InstallStatus.ofUInt n = v

/-- Every record that is newer than the one before it (the first: than `stamp`) repeats `v`. -/
def OnlyRepeats (tz : Int) (v : InstallStatus) : Int → List Json → Prop
  | _, [] => True
  | stamp, j :: js => Repeats tz v stamp j ∧ OnlyRepeats tz v (stampAfter tz stamp j) js

theorem sync_stamp (tz : Int) (j : Json) (st : Status) :
    (st.sync tz j).stamp = stampAfter tz st.stamp j := by
  unfold Status.sync stampAfter Status.take wellTyped
  cases recordStamp tz j with
  | error e => rfl
  | ok u =>
    simp only
    by_cases h : st.stamp < u
    · simp only [h, if_true, true_and]
      cases j.getBool "enabled" with
      | error e => simp [Except.toBool]
      | ok b =>
        cases j.getUInt "installed" with
        | error e => simp [Except.toBool]
        | ok n => cases j.getBool "blocked" <;> simp [Except.toBool]
    · simp [h]

theorem sync_installed_iff (tz : Int) (j : Json) (st : Status) :
    (st.sync tz j).installed = st.installed ↔ Repeats tz st.installed st.stamp j := by
  unfold Status.sync
  cases hu : recordStamp tz j with
  | error e => exact ⟨fun _ u b n h => (by rw [hu] at h; cases h), fun _ => rfl⟩
  | ok u =>
    simp only
    by_cases h : st.stamp < u
    · rw [if_pos h, Status.take]
      cases hb : j.getBool "enabled" with
      | error e => exact ⟨fun _ _ b n _ _ h => (by rw [hb] at h; cases h), fun _ => rfl⟩
      | ok b =>
        cases hn : j.getUInt "installed" with
        | error e => exact ⟨fun _ _ _ n _ _ _ h => (by rw [hn] at h; cases h), fun _ => rfl⟩
        | ok n =>
          have hset : (match j.getBool "blocked" with
              | .error _ => { st with enabled := b, installed := .ofUInt n }
              | .ok blocked => { enabled := b, installed := .ofUInt n, blocked, stamp := u }
              : Status).installed = .ofUInt n := by cases j.getBool "blocked" <;> rfl
          simp only [hset]
          refine ⟨fun he u' b' n' _ _ _ hn' => ?_, fun hr => hr u b n hu h hb hn⟩
          rw [hn] at hn'
          cases hn'
          exact he
    · rw [if_neg h]
      refine ⟨fun _ u' b n hu' hlt => ?_, fun _ => rfl⟩
      rw [hu] at hu'
      cases hu'
      exact absurd hlt h

theorem statusIn_sync_delivered (tz : Int) (id : Nat) (c : Nat × Option Json)
    (g : GameServersList) :
    statusIn (endState (syncFromApi tz c.1 c.2) g) id =
      (statusIn g id).map fun st => (delivered id c).elim st fun j => st.sync tz j := by
  obtain ⟨other, reply⟩ := c
  by_cases h : other = id
  · subst h
    rw [statusIn_syncFromApi]
    congr 1
    funext st
    cases reply with
    | none => rfl
    | some j => cases hj : j.isEmpty <;> simp [Status.syncReply, delivered, hj]
  · have hd : delivered id (other, reply) = none := by
      cases reply with
      | none => rfl
      | some j => exact if_neg fun hc => h hc.1
    rw [hd, statusIn, syncFromApi_ne (Ne.symm h)]
    exact Option.map_id'.symm

/-- The calls act on a server's status as the delivered records do, one after the other. -/
theorem statusIn_syncs (tz : Int) (id : Nat) (calls : List (Nat × Option Json))
    (g : GameServersList) :
    statusIn (syncs tz calls g) id =
      (statusIn g id).map fun st => (recordsOf id calls).foldl (fun st j => st.sync tz j) st := by
  induction calls generalizing g with
  | nil => simp [syncs, recordsOf]
  | cons c calls ih =>
    show statusIn (syncs tz calls (endState (syncFromApi tz c.1 c.2) g)) id = _
    rw [ih, statusIn_sync_delivered, Option.map_map]
    congr 1
    funext st
    rw [recordsOf, recordsOf, List.filterMap_cons]
    cases delivered id c <;> rfl

/-- Along a sequence of records, `installed` stays the same exactly when only repeats come. -/
theorem foldl_sync_installed_iff (tz : Int) (js : List Json) (st : Status) :
    (∀ pre, pre <+: js → (pre.foldl (fun st j => st.sync tz j) st).installed = st.installed) ↔
      OnlyRepeats tz st.installed st.stamp js := by
  induction js generalizing st with
  | nil => simp [OnlyRepeats]
  | cons j js ih =>
    constructor
    · intro h
      have h1 : (st.sync tz j).installed = st.installed := h [j] ⟨js, rfl⟩
      refine ⟨(sync_installed_iff tz j st).mp h1, ?_⟩
      rw [← sync_stamp, ← h1]
      refine (ih (st.sync tz j)).mp fun pre hpre => ?_
      rw [h1]
      exact h (j :: pre) ((List.prefix_cons_inj j).mpr hpre)
    · rintro ⟨hr, hrest⟩ pre hpre
      have h1 := (sync_installed_iff tz j st).mpr hr
      rw [← sync_stamp, ← h1] at hrest
      cases pre with
      | nil => rfl
      | cons k pre =>
        obtain ⟨rfl, hpre'⟩ := List.cons_prefix_cons.mp hpre
        exact ((ih (st.sync tz k)).mpr hrest pre hpre').trans h1

/-- **When a local status survives.** After `set_install_status` gave server `id` a status, it
stays through a sequence of `sync_from_api` calls exactly when each record that is newer than
the one synced before it carries the same status. -/
theorem syncs_keep_installed_iff (tz : Int) {g : GameServersList} {id : Nat}
    (h : id ∈ g.serversList) (c : StampClock) (st : InstallStatus)
    (calls : List (Nat × Option Json)) :
    (∀ pre, pre <+: calls →
      installedIn (syncs tz pre (setInstallStatus c id st g)) id = some st) ↔
      OnlyRepeats tz st (c.sync id) (recordsOf id calls) := by
  obtain ⟨s, hs⟩ := Table.exists_lookup h
  let st0 : Status := { status s with installed := st, stamp := c.sync id }
  have hset : statusIn (setInstallStatus c id st g) id = some st0 := by
    rw [statusIn_setInstallStatus_self h, statusIn, hs]; rfl
  have hat : ∀ pre, installedIn (syncs tz pre (setInstallStatus c id st g)) id =
      some ((recordsOf id pre).foldl (fun st j => st.sync tz j) st0).installed := by
    intro pre
    rw [installedIn, statusIn_syncs, hset]; rfl
  rw [show OnlyRepeats tz st (c.sync id) (recordsOf id calls) ↔
    OnlyRepeats tz st0.installed st0.stamp (recordsOf id calls) from Iff.rfl,
    ← foldl_sync_installed_iff]
  constructor
  · intro hall js hjs
    obtain ⟨pre, hpre, rfl⟩ := List.prefix_filterMap_iff.mp hjs
    exact Option.some.inj ((hat pre).symm.trans (hall pre hpre))
  · intro hall pre hpre
    rw [hat pre]
    exact congrArg some (hall _ (hpre.filterMap _))

/-- A panel record; a member it leaves out reads as null. -/
def plainRecord (updatedAt : String) (enabled : Bool) (installed : Int) : Json :=
  .obj [("blocked", .bool false), ("enabled", .bool enabled), ("installed", .int installed),
    ("updated_at", .str updatedAt)]

/-- An older record that says something else, then a newer one with the same status. -/
def keepingCalls : List (Nat × Option Json) :=
  [(1, some (plainRecord "1970-01-01 00:00:50" true 0)), (2, none),
    (1, some (plainRecord "1970-01-01 00:01:00" true 1))]

theorem syncs_keep_installed_older :
    1 ∈ (plainList [1]).serversList ∧
      ∀ pre, pre <+: keepingCalls →
        installedIn (syncs 0 pre
          (setInstallStatus { now := 100, sync := fun _ => 100 } 1 .installed (plainList [1]))) 1 =
            some .installed := by
  have h50 : recordStamp 0 (plainRecord "1970-01-01 00:00:50" true 0) = .ok 50 := by rfl
  have hone : (plainRecord "1970-01-01 00:01:00" true 1).getUInt "installed" = .ok 1 := by rfl
  refine ⟨by decide, (syncs_keep_installed_iff 0 (by decide) _ _ _).mpr ⟨?_, ?_, trivial⟩⟩
  · intro u b n hu hlt
    rw [h50] at hu
    cases hu
    exact absurd hlt (by decide)
  · intro u b n _ _ _ hn
    rw [hone] at hn
    cases hn
    rfl

/-- The status is set at time 100. A record of time 50 only lowers the stamp, and the record of
time 60 after it is then taken for news. -/
theorem older_records_overwrite_installed :
    ¬ ∀ (tz : Int) (g : GameServersList) (id : Nat) (c : StampClock) (st : InstallStatus)
      (calls : List (Nat × Option Json)), id ∈ g.serversList → c.now ≤ c.sync id →
        (∀ j ∈ recordsOf id calls, ∃ u, recordStamp tz j = .ok u ∧ u < c.now) →
          installedIn (syncs tz calls (setInstallStatus c id st g)) id = some st := by
  intro h
  have h50 : recordStamp 0 (plainRecord "1970-01-01 00:00:50" true 0) = .ok 50 := by rfl
  have h60 : recordStamp 0 (plainRecord "1970-01-01 00:01:00" true 0) = .ok 60 := by rfl
  have hbad := h 0 (plainList [1]) 1 { now := 100, sync := fun _ => 100 } .installed
    [(1, some (plainRecord "1970-01-01 00:00:50" true 0)),
      (1, some (plainRecord "1970-01-01 00:01:00" true 0))] (by decide) (by decide) ?_
  · exact absurd hbad (by decide)
  · intro j hj
    rcases List.mem_pair.mp hj with rfl | rfl
    · exact ⟨50, h50, by decide⟩
    · exact ⟨60, h60, by decide⟩

/-! ## The other servers -/

/-- The values that a record newer than the stamp replaces. -/
def Status.values (st : Status) : Bool × InstallStatus × Bool :=
  (st.enabled, st.installed, st.blocked)

def valuesIn (g : GameServersList) (id : Nat) : Option (Bool × InstallStatus × Bool) :=
  (statusIn g id).map Status.values

/-- The reply is a record whose time is later than `lo` and not later than `hi`. -/
def DatedBetween (tz : Int) (reply : Option Json) (lo hi : Int) : Prop :=
  ∃ j u, reply = some j ∧ j.isEmpty = false ∧ recordStamp tz j = .ok u ∧ lo < u ∧ u ≤ hi

theorem take_values_restamp (st : Status) (stamp : Int) (j : Json) (u : Int) :
    (({ st with stamp } : Status).take j u).values = (st.take j u).values := by
  unfold Status.take
  cases j.getBool "enabled" with
  | error e => rfl
  | ok enabled =>
    cases j.getUInt "installed" with
    | error e => rfl
    | ok installed => cases j.getBool "blocked" <;> rfl

/-- Only the comparison of the stamp with the record's time decides what a record does to the
values. -/
theorem syncReply_values_restamp {tz : Int} {reply : Option Json} {st : Status} {stamp : Int}
    (h1 : ¬ DatedBetween tz reply st.stamp stamp) (h2 : ¬ DatedBetween tz reply stamp st.stamp) :
    (({ st with stamp } : Status).syncReply tz reply).values = (st.syncReply tz reply).values := by
  cases reply with
  | none => rfl
  | some j =>
    simp only [Status.syncReply]
    cases hj : j.isEmpty with
    | true => rfl
    | false =>
      simp only [Status.sync, Bool.false_eq_true, if_false]
      cases hu : recordStamp tz j with
      | error e => rfl
      | ok u =>
        by_cases hlt : st.stamp < u
        · have hlt' : stamp < u := by
            by_contra hn
            exact h1 ⟨j, u, rfl, hj, hu, hlt, not_lt.mp hn⟩
          simp only [hlt, hlt', if_true]
          exact take_values_restamp st stamp j u
        · have hlt' : ¬ stamp < u := by
            intro hn
            exact h2 ⟨j, u, rfl, hj, hu, hn, not_lt.mp hlt⟩
          simp only [hlt, hlt', if_false]

/-- A record that is not newer than the stamp leaves the values. -/
theorem syncReply_values_of_le {tz : Int} {reply : Option Json} {st : Status} {lo : Int}
    (h : DatedBetween tz reply lo st.stamp) : (st.syncReply tz reply).values = st.values := by
  obtain ⟨j, u, rfl, hj, hu, -, hle⟩ := h
  have hnot : ¬ st.stamp < u := not_lt.mpr hle
  simp only [Status.syncReply, Status.sync, hj, hu, hnot, Bool.false_eq_true, if_false]
  rfl

/-- **What changing one server's status does to the next record of another.** Nothing, unless
the record's time lies between the other server's stamp and the time at which `sync_all` stamps
it; a record later than the former and not later than the latter is held back. -/
theorem syncFromApi_after_setInstallStatus (tz : Int) (g : GameServersList) {a b : Nat}
    (hne : b ≠ a) (c : StampClock) (st : InstallStatus) (reply : Option Json) :
    ((∀ x, a ∈ g.serversList → statusIn g b = some x →
        ¬ DatedBetween tz reply x.stamp (c.sync b) ∧ ¬ DatedBetween tz reply (c.sync b) x.stamp) →
      valuesIn (endState (syncFromApi tz b reply) (setInstallStatus c a st g)) b =
        valuesIn (endState (syncFromApi tz b reply) g) b) ∧
    (∀ x, a ∈ g.serversList → statusIn g b = some x →
        DatedBetween tz reply x.stamp (c.sync b) →
      valuesIn (endState (syncFromApi tz b reply) (setInstallStatus c a st g)) b =
        valuesIn g b) := by
  unfold valuesIn
  simp only [statusIn_syncFromApi]
  constructor
  · intro h
    by_cases ha : a ∈ g.serversList
    · rw [statusIn_setInstallStatus_ne ha hne]
      cases hx : statusIn g b with
      | none => rfl
      | some x =>
        exact congrArg some (syncReply_values_restamp (h x ha hx).1 (h x ha hx).2)
    · rw [setInstallStatus, if_pos ha]
  · intro x ha hx hheld
    rw [statusIn_setInstallStatus_ne ha hne, hx]
    exact congrArg some (syncReply_values_of_le hheld)

theorem sync_two_after_one :
    (2 : Nat) ≠ 1 ∧
      valuesIn (endState (syncFromApi 0 2 (some (plainRecord "1970-01-01 00:03:20" false 1)))
        (setInstallStatus { now := 100, sync := fun _ => 100 } 1 .installed (plainList [1, 2])))
          2 = some (false, .installed, false) ∧
      valuesIn (endState (syncFromApi 0 2 (some (plainRecord "1970-01-01 00:01:00" false 1)))
        (setInstallStatus { now := 100, sync := fun _ => 100 } 1 .installed (plainList [1, 2])))
          2 = some (true, .notInstalled, false) := by
  have h200 : recordStamp 0 (plainRecord "1970-01-01 00:03:20" false 1) = .ok 200 := by rfl
  have hlate : ∀ lo hi, hi < 200 →
      ¬ DatedBetween 0 (some (plainRecord "1970-01-01 00:03:20" false 1)) lo hi := by
    rintro lo hi hlt ⟨j, u, hj, -, hu, -, hle⟩
    cases hj
    rw [h200] at hu
    cases hu
    omega
  refine ⟨by decide, ?_, ?_⟩
  · refine ((syncFromApi_after_setInstallStatus 0 (plainList [1, 2]) (by decide) _ _ _).1 ?_).trans
      (by decide)
    intro x _ hx
    obtain rfl : status (plainServer 2) = x := Option.some.inj hx
    exact ⟨hlate _ _ (by decide), hlate _ _ (by decide)⟩
  · exact ((syncFromApi_after_setInstallStatus 0 (plainList [1, 2]) (by decide) _ _ _).2
      (status (plainServer 2)) (by decide) rfl
      ⟨_, 60, rfl, by decide, by rfl, by decide, by decide⟩).trans (by decide)

/-- Server 1 gets its status at time 100, and the record of time 60 that disables server 2 is
not taken over. -/
theorem set_one_suppresses_two :
    ¬ ∀ (tz : Int) (g : GameServersList) (a b : Nat) (c : StampClock) (st : InstallStatus)
      (reply : Option Json), a ≠ b →
        valuesIn (endState (syncFromApi tz b reply) (setInstallStatus c a st g)) b =
          valuesIn (endState (syncFromApi tz b reply) g) b := by
  intro h
  exact absurd (h 0 (plainList [1, 2]) 1 2 { now := 100, sync := fun _ => 100 } .installed
    (some (plainRecord "1970-01-01 00:01:00" false 1)) (by decide)) (by decide)

end GameServersList

end GameAP
