import GameAP.Classes.GdaemonTasksSteps

/-!
# The import of tasks, entry by entry

`intended` is what an import should do with one entry of the panel's list, whatever the other
entries contain: the entry is added to the queue if it passes the checks, and skipped otherwise.
The import does that with all of them exactly if no entry has a field that it reads and jsoncpp
refuses to convert (`importTasks_iff`): an exception ends the import, and the daemon.
-/

namespace GameAP

open Lib

/-- A member of an object, null if it is absent. -/
def Json.field (j : Json) (key : String) : Json := resultD .null (j.get key)

namespace GdaemonTasks

/-! ## One entry -/

section Entries

variable (tz : Int) (status : GdaemonTask.Status) (e : Entry)

def entryId : Nat := getJsonUInt (e.1.field "id")

/-- The entry has a task and the expected status. -/
def entryPasses : Bool :=
  match (e.1.field "task").asString with
  | .ok name => name != "" && getJsonUInt (e.1.field "status_num") == status.toNat
  | .error _ => false

/-- Whether the entry is of no server or of a known one, and the registry behind the lookup; `none`
if the id of the server cannot be read or the lookup throws. -/
def entryServer (g : GameServersList) : Option (Bool × GameServersList) :=
  match (e.1.field "server_id").asLargestUInt with
  | .ok serverId => (findServer tz e.2 serverId g).toOption
  | .error _ => none

/-- The `cmd` of the entry is null or a string. -/
def entryCmd : Bool := (e.1.field "cmd").isNull || (e.1.field "cmd").isString

/-- The task that the entry describes. -/
def entryTask : GdaemonTask :=
  { id := entryId e
    runAftId := getJsonUInt (e.1.field "run_aft_id")
    serverId := getJsonUInt (e.1.field "server_id")
    task := cString (resultD "" (e.1.field "task").asString)
    cmd := resultD "" (e.1.field "cmd").asCString
    status := .waiting }

/-- The entry is queued if it passes the checks and its id is new, and skipped otherwise. -/
def intended (s : GdaemonTasks) : GdaemonTasks :=
  if entryId e ∈ s.existsTasks ∨ entryPasses status e = false then s
  else
    match entryServer tz e s.gslist with
    | none => s
    | some (found, gslist) =>
      if found && entryCmd e then importTask (entryTask e) { s with gslist } else { s with gslist }

/-- Nothing that the import reads of the entry is refused: its task if its id is new, its server if
it has a task and the expected status, and its `cmd` if the server is known. -/
def Harmless (s : GdaemonTasks) : Prop :=
  entryId e ∈ s.existsTasks ∨ (∃ name, (e.1.field "task").asString = .ok name) ∧
    (entryPasses status e = true →
      ∃ found gslist, entryServer tz e s.gslist = some (found, gslist) ∧
        (found = true → entryCmd e = true))

end Entries

variable {tz : Int} {status : GdaemonTask.Status} {e : Entry} {entries : List Entry}
  {s s' : GdaemonTasks}

/-- What `intended` does with the queue. -/
theorem intended_queue (tz : Int) (status : GdaemonTask.Status) (e : Entry) (s : GdaemonTasks) :
    ((intended tz status e s).tasks = s.tasks ++ [entryTask e] ∧
      (intended tz status e s).existsTasks = insert (entryId e) s.existsTasks ∧
      entryId e ∉ s.existsTasks ∧ entryPasses status e = true ∧ entryCmd e = true ∧
      ∃ gslist, entryServer tz e s.gslist = some (true, gslist)) ∨
    ((intended tz status e s).tasks = s.tasks ∧
      (intended tz status e s).existsTasks = s.existsTasks ∧
      ¬ (entryId e ∉ s.existsTasks ∧ entryPasses status e = true ∧ entryCmd e = true ∧
        ∃ gslist, entryServer tz e s.gslist = some (true, gslist))) := by
  unfold intended
  split
  · next h =>
    refine .inr ⟨rfl, rfl, fun ⟨hid, hpass, _⟩ => ?_⟩
    rcases h with h | h
    · exact hid h
    · rw [hpass] at h
      cases h
  · next h =>
    obtain ⟨hid, hpass⟩ := not_or.mp h
    split
    · next hnone =>
      refine .inr ⟨rfl, rfl, fun ⟨_, _, _, gslist, hsome⟩ => ?_⟩
      rw [hnone] at hsome
      cases hsome
    · next found gslist hsome =>
      split
      · next hok =>
        obtain ⟨rfl, hcmd⟩ := Bool.and_eq_true_iff.mp hok
        exact .inl ⟨rfl, rfl, hid, eq_true_of_ne_false hpass, hcmd, gslist, hsome⟩
      · next hno =>
        refine .inr ⟨rfl, rfl, fun ⟨_, _, hcmd, gslist', hsome'⟩ => hno ?_⟩
        cases hsome.symm.trans hsome'
        exact hcmd

/-! ## Reading an object -/

section Object

variable (hobj : ∃ kvs, e.1 = .obj kvs)

include hobj

theorem get_field (key : String) : e.1.get key = .ok (e.1.field key) := by
  obtain ⟨kvs, hkvs⟩ := hobj
  rw [hkvs]
  rfl

theorem getUInt_field (key : String) : e.1.getUInt key = .ok (getJsonUInt (e.1.field key)) := by
  unfold Json.getUInt
  rw [get_field hobj]
  rfl

theorem getString_field (key : String) : e.1.getString key = (e.1.field key).asString := by
  unfold Json.getString
  rw [get_field hobj]
  rfl

theorem newTask_of_cmd {name : String} (hname : (e.1.field "task").asString = .ok name)
    (hcmd : entryCmd e = true) : newTask e.1 = .ok (entryTask e) := by
  unfold newTask entryTask
  rw [get_field hobj, getUInt_field hobj, getUInt_field hobj, getUInt_field hobj,
    getString_field hobj, hname]
  unfold entryCmd at hcmd
  cases hj : e.1.field "cmd" <;> rw [hj] at hcmd
  case null | str => rfl
  all_goals cases hcmd

theorem newTask_of_not_cmd {name : String} (hname : (e.1.field "task").asString = .ok name)
    (hcmd : entryCmd e = false) : ∃ ex, newTask e.1 = .error ex := by
  unfold newTask
  rw [get_field hobj, getUInt_field hobj, getUInt_field hobj, getUInt_field hobj,
    getString_field hobj, hname]
  unfold entryCmd at hcmd
  cases hj : e.1.field "cmd" <;> rw [hj] at hcmd
  case null | str => cases hcmd
  all_goals exact ⟨_, rfl⟩

/-- The import of one entry, in the terms of its fields. -/
theorem importEntry_eq (tz : Int) (status : GdaemonTask.Status) (s : GdaemonTasks) :
    importTasks tz status [e] s =
      if entryId e ∈ s.existsTasks then .ok s
      else (do
        let name ← (e.1.field "task").asString
        if name = "" then .ok s
        else if getJsonUInt (e.1.field "status_num") ≠ status.toNat then .ok s
        else
          let serverId ← (e.1.field "server_id").asLargestUInt
          let (found, gslist) ← findServer tz e.2 serverId s.gslist
          if !found then .ok { s with gslist }
          else
            let task ← newTask e.1
            .ok { s with
              gslist, existsTasks := insert (entryId e) s.existsTasks
              tasks := s.tasks ++ [task] }) := by
  obtain ⟨jtask, r⟩ := e
  unfold importTasks
  simp only [getUInt_field hobj, getString_field hobj, get_field hobj, importTasks]
  rfl

omit hobj in
theorem entryPasses_of_ok (status : GdaemonTask.Status) {name : String}
    (hname : (e.1.field "task").asString = .ok name) :
    entryPasses status e = true ↔
      name ≠ "" ∧ getJsonUInt (e.1.field "status_num") = status.toNat := by
  unfold entryPasses
  rw [hname]
  simp

/-- An entry that passes the checks is imported as far as its server and its `cmd` allow. -/
theorem importEntry_of_passes (hid : entryId e ∉ s.existsTasks)
    (hpass : entryPasses status e = true) :
    importTasks tz status [e] s = (do
      let serverId ← (e.1.field "server_id").asLargestUInt
      let (found, gslist) ← findServer tz e.2 serverId s.gslist
      if !found then .ok { s with gslist }
      else
        let task ← newTask e.1
        .ok { s with
          gslist, existsTasks := insert (entryId e) s.existsTasks
          tasks := s.tasks ++ [task] }) := by
  rw [importEntry_eq hobj, if_neg hid]
  cases hname : (e.1.field "task").asString with
  | error ex =>
    unfold entryPasses at hpass
    rw [hname] at hpass
    cases hpass
  | ok name =>
    obtain ⟨hne, hnum⟩ := (entryPasses_of_ok status hname).mp hpass
    exact (if_neg hne).trans (if_neg (not_not.mpr hnum))

theorem importEntry_of_server {found : Bool} {gslist : GameServersList}
    (hid : entryId e ∉ s.existsTasks) (hpass : entryPasses status e = true)
    (hserver : entryServer tz e s.gslist = some (found, gslist)) :
    importTasks tz status [e] s =
      if !found then .ok { s with gslist }
      else (do
        let task ← newTask e.1
        .ok { s with
          gslist, existsTasks := insert (entryId e) s.existsTasks
          tasks := s.tasks ++ [task] }) := by
  rw [importEntry_of_passes hobj hid hpass]
  unfold entryServer at hserver
  cases hserverId : (e.1.field "server_id").asLargestUInt with
  | error ex => rw [hserverId] at hserver; cases hserver
  | ok serverId =>
    simp only [hserverId] at hserver
    change (findServer tz e.2 serverId s.gslist >>= _) = _
    cases hfind : findServer tz e.2 serverId s.gslist with
    | error ex => rw [hfind] at hserver; cases hserver
    | ok x => rw [hfind] at hserver; cases hserver; rfl

theorem importEntry_of_no_server (hid : entryId e ∉ s.existsTasks)
    (hpass : entryPasses status e = true) (hserver : entryServer tz e s.gslist = none) :
    ∃ ex, importTasks tz status [e] s = .error ex := by
  rw [importEntry_of_passes hobj hid hpass]
  unfold entryServer at hserver
  cases hserverId : (e.1.field "server_id").asLargestUInt with
  | error ex => exact ⟨ex, rfl⟩
  | ok serverId =>
    simp only [hserverId] at hserver
    change ∃ ex, (findServer tz e.2 serverId s.gslist >>= _) = _
    cases hfind : findServer tz e.2 serverId s.gslist with
    | error ex => exact ⟨ex, rfl⟩
    | ok x => rw [hfind] at hserver; cases hserver

/-- An entry that is not refused is imported as intended. -/
theorem importEntry_of_harmless (h : Harmless tz status e s) :
    importTasks tz status [e] s = .ok (intended tz status e s) := by
  unfold intended
  by_cases hid : entryId e ∈ s.existsTasks
  · rw [importEntry_eq hobj, if_pos hid, if_pos (.inl hid)]
  obtain ⟨⟨name, hname⟩, hserver⟩ := h.resolve_left hid
  cases hpass : entryPasses status e with
  | false =>
    rw [importEntry_eq hobj, if_neg hid, hname, if_pos (Or.inr rfl)]
    have hno := mt (entryPasses_of_ok status hname).mpr (by rw [hpass]; decide)
    change (if name = "" then _ else if _ then _ else _) = _
    by_cases hne : name = ""
    · rw [if_pos hne]
    · rw [if_neg hne, if_pos fun hnum => hno ⟨hne, hnum⟩]
  | true =>
    obtain ⟨found, gslist, hfound, hcmd⟩ := hserver hpass
    have hnew : ¬ (entryId e ∈ s.existsTasks ∨ true = false) := by simp [hid]
    rw [importEntry_of_server hobj hid hpass hfound, if_neg hnew, hfound]
    cases found with
    | false => rfl
    | true => rw [newTask_of_cmd hobj hname (hcmd rfl), hcmd rfl]; rfl

/-- An entry that is refused ends the import with an exception. -/
theorem importEntry_of_not_harmless (h : ¬ Harmless tz status e s) :
    ∃ ex, importTasks tz status [e] s = .error ex := by
  obtain ⟨hid, h⟩ := not_or.mp h
  cases hname : (e.1.field "task").asString with
  | error ex => exact ⟨ex, by rw [importEntry_eq hobj, if_neg hid, hname]; rfl⟩
  | ok name =>
    obtain ⟨hpass, hserver⟩ := Classical.not_imp.mp (not_and.mp h ⟨name, hname⟩)
    cases hfound : entryServer tz e s.gslist with
    | none => exact importEntry_of_no_server hobj hid hpass hfound
    | some x =>
      obtain ⟨found, gslist⟩ := x
      rw [importEntry_of_server hobj hid hpass hfound]
      cases found with
      | false => exact absurd ⟨false, gslist, hfound, nofun⟩ hserver
      | true =>
        have hcmd : entryCmd e = false :=
          eq_false_of_ne_true fun hcmd => hserver ⟨true, gslist, hfound, fun _ => hcmd⟩
        obtain ⟨ex, hex⟩ := newTask_of_not_cmd hobj hname hcmd
        exact ⟨ex, by rw [hex]; rfl⟩

end Object

/-! ## All entries -/

/-- The entries one after another, each as intended. -/
def intendedAll (tz : Int) (status : GdaemonTask.Status) (entries : List Entry)
    (s : GdaemonTasks) : GdaemonTasks :=
  entries.foldl (fun s e => intended tz status e s) s

/-- No entry is refused, each in the state that the entries before it lead to. -/
def AllHarmless (tz : Int) (status : GdaemonTask.Status) (entries : List Entry)
    (s : GdaemonTasks) : Prop :=
  ∀ before e rest, entries = before ++ e :: rest →
    Harmless tz status e (intendedAll tz status before s)

theorem allHarmless_cons : AllHarmless tz status (e :: entries) s ↔
    Harmless tz status e s ∧ AllHarmless tz status entries (intended tz status e s) := by
  constructor
  · exact fun h => ⟨h [] e entries rfl, fun before e' rest heq =>
      h (e :: before) e' rest (congrArg (e :: ·) heq)⟩
  · rintro ⟨he, h⟩ before e' rest heq
    cases before with
    | nil => cases heq; exact he
    | cons e₁ before =>
      obtain ⟨rfl, htail⟩ := List.cons.inj heq
      exact h before e' rest htail

/-- By induction over the list: the first entry that is refused ends the import. -/
theorem importTasks_iff (hobj : ∀ e ∈ entries, ∃ kvs, e.1 = .obj kvs) (s : GdaemonTasks) :
    importTasks tz status entries s = .ok (intendedAll tz status entries s) ↔
      AllHarmless tz status entries s := by
  induction entries generalizing s with
  | nil => exact iff_of_true rfl fun before e rest heq => by simp at heq
  | cons e entries ih =>
    have he := hobj e List.mem_cons_self
    rw [importTasks_cons, allHarmless_cons]
    by_cases hharm : Harmless tz status e s
    · rw [importEntry_of_harmless he hharm, and_iff_right hharm]
      exact ih (fun e' h => hobj e' (List.mem_cons_of_mem _ h)) (intended tz status e s)
    · obtain ⟨ex, hex⟩ := importEntry_of_not_harmless he hharm
      rw [hex]
      exact iff_of_false nofun fun h => hharm h.1

/-- **What an import does.** For every list of objects, `update` and `check_after_crash` queue each
entry that passes and skip each that does not exactly if none of them is refused. -/
theorem imports_iff (tz : Int) (reply : Option (List Entry)) (s : GdaemonTasks)
    (hobj : ∀ e ∈ reply.getD [], ∃ kvs, e.1 = .obj kvs) :
    (update tz reply s = .ok (intendedAll tz .waiting (reply.getD []) s) ↔
      AllHarmless tz .waiting (reply.getD []) s) ∧
    (checkAfterCrash tz reply s = .ok (intendedAll tz .working (reply.getD []) s) ↔
      AllHarmless tz .working (reply.getD []) s) := by
  cases reply with
  | none => exact ⟨importTasks_iff hobj s, importTasks_iff hobj s⟩
  | some entries => exact ⟨importTasks_iff hobj s, importTasks_iff hobj s⟩

/-! ## A number that is sent as a string -/

/-- The entry of a task whose server is the string `"1"`. -/
def quotedEntry : Entry :=
  (.obj [("cmd", .null), ("id", .int 4), ("run_aft_id", .int 0), ("server_id", .str "1"),
      ("status_num", .str "1"), ("task", .str "gsstop")],
    { now := 100, later := 100, list := none, server := none })

/-- Two tasks that wait. -/
def twoEntries : List Entry := [plainEntry 5 "gsstop" 1 1, plainEntry 6 "gsstart" 1 1]

example : (intendedAll 0 .waiting twoEntries plainInit).tasks =
    [entryTask (plainEntry 5 "gsstop" 1 1), entryTask (plainEntry 6 "gsstart" 1 1)] := by decide

theorem imports_twoEntries :
    (update 0 (some twoEntries) plainInit = .ok (intendedAll 0 .waiting twoEntries plainInit) ↔
      AllHarmless 0 .waiting twoEntries plainInit) ∧
    (checkAfterCrash 0 (some twoEntries) plainInit =
        .ok (intendedAll 0 .working twoEntries plainInit) ↔
      AllHarmless 0 .working twoEntries plainInit) := by
  refine imports_iff 0 (some twoEntries) plainInit fun e he => ?_
  obtain rfl | rfl := List.mem_pair.mp he
  · exact ⟨_, rfl⟩
  · exact ⟨_, rfl⟩

/-- The string, which `getJsonUInt` reads as 1, keeps the entry after it out of the queue. -/
theorem imports_quoted :
    update 0 (some [quotedEntry, plainEntry 5 "gsstop" 1 1]) plainInit = .error .logicError ∧
      (intendedAll 0 .waiting [quotedEntry, plainEntry 5 "gsstop" 1 1] plainInit).tasks =
        [entryTask (plainEntry 5 "gsstop" 1 1)] ∧
      entryPasses .waiting (plainEntry 5 "gsstop" 1 1) = true ∧
      getJsonUInt (quotedEntry.1.field "server_id") = 1 := by
  refine ⟨rfl, ?_, ?_, ?_⟩
  · decide
  · decide
  · decide

end GdaemonTasks

end GameAP
