import GameAP.Classes.ServersTasksSteps

/-!
# Dates between the clocks of the daemon and the panel

`sync_to_api` writes a task's date by the panel's clock, and `sync_from_api` reads the panel's
dates as if they were by the daemon's. `syncs_back_iff`: a date that is written and read back is
the same exactly when the clocks agree and its year has at most four digits.
-/

namespace GameAP

open Lib.Calendar

/-- Any two clocks that an `int` of seconds tells apart are in the same centuries. -/
theorem gmtime_year_near {t : Int} (h0 : -2 ^ 31 ≤ t) (h1 : t ≤ 2 ^ 31) :
    0 ≤ (gmtime t).date.year ∧ (gmtime t).date.year ≤ 9999 :=
  ofDays_year_near (by omega) (by omega)

/-- What is read back of a date that was written with the difference `d`. -/
theorem humanToTimestamp_shifted_iff {t d : Int} (h0 : -2 ^ 31 ≤ d) (h1 : d < 2 ^ 31) :
    humanToTimestamp 0 (formatTime (t - d)) = t ↔
      d = 0 ∧ 0 ≤ (gmtime t).date.year ∧ (gmtime t).date.year ≤ 9999 := by
  rw [humanToTimestamp_formatTime_year]
  constructor
  · intro h
    by_cases hy : 0 ≤ (gmtime (t - d)).date.year ∧ (gmtime (t - d)).date.year ≤ 9999
    · rw [if_pos hy] at h
      obtain rfl : d = 0 := by omega
      rw [Int.sub_zero] at hy
      exact ⟨rfl, hy⟩
    · -- what cannot be read is 0, and a date that is 0 with a difference of 32 bits can be read
      rw [if_neg hy] at h
      exact absurd (gmtime_year_near (by omega) (by omega)) hy
  · rintro ⟨rfl, hy⟩
    rw [Int.sub_zero, Int.sub_zero, if_pos hy]

namespace ServersTasks

/-- **Reading back what was written.** On a host in UTC, the date that `sync_to_api` sends for a
task, if the panel's record has it, is read by `sync_from_api` as the task's date exactly when
the panel's clock does not differ and the year has at most four digits. -/
theorem syncs_back_iff {diff : Int} (h0 : -2 ^ 31 ≤ diff) (h1 : diff < 2 ^ 31) {received : Bool}
    {task old new : ServerTask} {s s' : ServersTasks} {body : TaskUpdate} {j : Json}
    (hto : syncToApi (some diff) received task s = .ok s')
    (hbody : s'.log = s.log ++ [.synced task.id body received])
    (hj : j.getString "execute_date" = .ok body.executeDate)
    (hfrom : syncFromApi 0 (some j) old = .ok new) :
    new.executeDate = task.executeDate ↔
      diff = 0 ∧ 0 ≤ (gmtime task.executeDate).date.year ∧
        (gmtime task.executeDate).date.year ≤ 9999 := by
  obtain ⟨text, htext, hdate⟩ := (syncFromApi_spec hfrom).2.2.executeDate
  obtain rfl : text = body.executeDate := Except.ok.inj (htext.symm.trans hj)
  obtain rfl : body = taskUpdate diff task := by
    cases hto
    simpa [record, taskUpdate] using hbody.symm
  rw [hdate]
  exact humanToTimestamp_shifted_iff h0 h1

/-! ## An hour between the clocks -/

/-- A task of the 9th of September 2001. -/
def datedTask : ServerTask :=
  { status := .waiting, id := 1, command := .restart, serverId := 1, repeats := 0,
    repeatPeriod := 60, counter := 1, executeDate := 1000000000, payload := "" }

/-- The panel's record of the task, with the date that has been written to it. -/
def writtenRecord (diff : Int) : Json :=
  plainTask 1 "restart" (taskUpdate diff datedTask).executeDate

theorem syncs_back_same : ∃ new, syncFromApi 0 (some (writtenRecord 0)) datedTask = .ok new ∧
    new.executeDate = datedTask.executeDate := by
  have hto : ∃ s', syncToApi (some 0) true datedTask (init (GameServersList.plainList [])) = .ok s' ∧
      s'.log = [] ++ [.synced 1 (taskUpdate 0 datedTask) true] := ⟨_, rfl, rfl⟩
  obtain ⟨s', hs, hlog⟩ := hto
  refine ⟨_, rfl, (syncs_back_iff (j := writtenRecord 0) ?_ ?_ hs hlog ?_ rfl).mpr ?_⟩
  · decide
  · decide
  · rfl
  · exact ⟨rfl, by decide, by decide⟩

/-- The panel is an hour behind, and the task runs an hour early. -/
theorem syncs_back_early :
    ¬ ∀ (diff : Int) (received : Bool) (task old new : ServerTask) (s s' : ServersTasks)
        (body : TaskUpdate) (j : Json), -2 ^ 31 ≤ diff → diff < 2 ^ 31 →
      syncToApi (some diff) received task s = .ok s' →
      s'.log = s.log ++ [.synced task.id body received] →
      j.getString "execute_date" = .ok body.executeDate →
      syncFromApi 0 (some j) old = .ok new → new.executeDate = task.executeDate := by
  intro h
  have hsame := h 3600 true datedTask datedTask _ (init (GameServersList.plainList [])) _
    (taskUpdate 3600 datedTask) (writtenRecord 3600) (by decide) (by decide) rfl rfl rfl rfl
  have hearly : humanToTimestamp 0 (formatTime (1000000000 - 3600)) = 1000000000 := hsame
  rw [humanToTimestamp_formatTime 0 (by decide) (by decide)] at hearly
  exact absurd hearly (by decide)

end ServersTasks

end GameAP
