import GameAP.Classes.GdaemonTasksQueue
import GameAP.Components.Server.StatusComponent

/-!
# The counts of the daemon's tasks

`stats` counts the commands and the queue. The commands are those of the working tasks, but these
stand in the queue too: `stats_iff` says in which of the states that a run reaches the two numbers
are those of the working and of the waiting tasks.
-/

namespace GameAP

open Lib

namespace GdaemonTasks

/-- How many tasks of the queue have this status. -/
def countStatus (st : GdaemonTask.Status) (s : GdaemonTasks) : Nat :=
  s.tasks.countP fun t => t.status = st

/-- The two numbers are those of the working and of the waiting tasks, and those that a status
session sends add up to the length of the queue. -/
structure Counted (s : GdaemonTasks) : Prop where
  working : s.stats.workingTasksCount = countStatus .working s
  waiting : s.stats.waitingTasksCount = countStatus .waiting s
  sent : ∀ host : StatusSession.Host, host.gdaemonTasks = s → ∃ working waiting,
    StatusSession.statusBase host = [.uint32 StatusSession.statusOk, .uint32 host.uptime,
      .uint32 working, .uint32 waiting, .uint32 host.gslist.stats.activeServersCount] ∧
    working + waiting = s.tasks.length

variable {tz : Int} {s : GdaemonTasks}

/-- Every queued task is waiting or working. -/
theorem IdsInv.countStatus_add (hi : IdsInv s) :
    countStatus .working s + countStatus .waiting s = s.tasks.length := by
  unfold countStatus
  rw [List.length_eq_countP_add_countP (fun t : GdaemonTask => t.status = .working),
    Nat.add_left_cancel_iff]
  refine List.countP_congr fun t ht => ?_
  rcases hi.pending t ht with h | h <;> simp [h]

/-- There are as many commands as working tasks. -/
theorem TablesInv.length_activeCmds (hi : TablesInv s) :
    s.activeCmds.entries.length = countStatus .working s := by
  have hids : s.activeCmds.keys.Perm
      ((s.tasks.filter fun t => t.status = .working).map (·.id)) := by
    refine (List.perm_ext_iff_of_nodup s.activeCmds.nodupKeys ?_).mpr fun id => ?_
    · exact hi.nodup.sublist (List.filter_sublist.map _)
    · show id ∈ s.activeCmds ↔ _
      rw [hi.active, Working, List.mem_map]
      simp only [List.mem_filter, decide_eq_true_eq]
      refine exists_congr fun t => ?_
      constructor
      · rintro ⟨ht, he, hw⟩
        exact ⟨⟨ht, hw⟩, he⟩
      · rintro ⟨⟨ht, hw⟩, he⟩
        exact ⟨ht, he, hw⟩
  have hlength := hids.length_eq
  rw [List.length_map, ← List.countP_eq_length_filter] at hlength
  unfold countStatus
  rw [← hlength]
  exact (List.length_map _).symm

/-- **What the counts are.** In every state that a run reaches they are those of the working and
of the waiting tasks exactly if no task of the queue is working (and it is shorter than `2 ^ 32`). -/
theorem stats_iff {gslist : GameServersList} (h : Run (Step tz) Any (init gslist) s) :
    Counted s ↔ (∀ t ∈ s.tasks, t.status ≠ .working) ∧ s.tasks.length < 2 ^ 32 := by
  have hi := tablesInv_of_run h
  have hadd := hi.toIdsInv.countStatus_add
  have hworking : s.stats.workingTasksCount = countStatus .working s % 2 ^ 32 :=
    congrArg (· % 2 ^ 32) hi.length_activeCmds
  have hwaiting : s.stats.waitingTasksCount = s.tasks.length % 2 ^ 32 := rfl
  have hnone : countStatus .working s = 0 ↔ ∀ t ∈ s.tasks, t.status ≠ .working := by
    unfold countStatus
    rw [List.countP_eq_zero]
    simp only [decide_eq_true_eq, ne_eq]
  rw [← hnone]
  constructor
  · rintro ⟨hw, hq, -⟩
    rw [hworking] at hw
    rw [hwaiting] at hq
    omega
  · rintro ⟨hw, hlt⟩
    have hq : s.stats.waitingTasksCount = s.tasks.length :=
      hwaiting.trans (Nat.mod_eq_of_lt hlt)
    have hzero : s.stats.workingTasksCount = 0 := by rw [hworking, hw]; rfl
    refine ⟨by rw [hzero, hw], by rw [hq]; omega, fun host hhost => ⟨_, _, rfl, ?_⟩⟩
    rw [hhost, hzero, hq, Nat.zero_add]

/-! ## A queue of one task -/

def stopOps : List Op := [.update (some [plainEntry 5 "gsstop" 1 1])]

theorem run_stop : Run (Step 0) Any plainInit (performAll stopOps) :=
  run_snoc [] (.update (some [plainEntry 5 "gsstop" 1 1])) (.refl plainInit) trivial (by decide)

theorem stats_waiting : Counted (performAll stopOps) := (stats_iff run_stop).mpr (by decide)

/-- A task that has been started is counted twice. -/
theorem stats_working : ¬ ∀ s : GdaemonTasks, Run (Step 0) Any plainInit s → Counted s := by
  intro h
  have hrun : Run (Step 0) Any plainInit
      (performAll (stopOps ++ [.runNext (plainRun runningPoll true)])) :=
    run_snoc stopOps _ run_stop trivial (by decide)
  exact absurd (h _ hrun).waiting (by decide)

end GdaemonTasks

end GameAP
