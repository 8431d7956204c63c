import GameAP.Classes.GdaemonTasksForks
import GameAP.Classes.TaskOutput
import GameAP.Commands.UnprivilegedExec

/-!
# Shell commands of the panel

`DedicatedServerCmd` executes the text of a `cmdexec` task in the child process, as the daemon's own
user. Its way from the panel and back: the child appends the transcript of the command to the shared
output, sets `m_result` and exits (`acts`), and the polls of the daemon send what they find.
`shellCommand_reported`: the panel is told of a success exactly if the exit code is 0 and the exit
was seen, and then it has the whole transcript.
-/

namespace GameAP

open Lib GdaemonTasks

namespace TaskOutput

/-! ## How far the child is -/

def Act.chars : Act → List Char
  | .append line => line.toList ++ ['\n']
  | .act _ => []

/-- The child after the fork. -/
def unrun (b : Bool) : TaskProcess.Child :=
  { result := b, complete := false, exited := false, reaped := false }

/-- The child after some of its steps. -/
def performed (c : TaskProcess.Child) (l : List Act) : TaskProcess.Child :=
  l.foldl (fun c a => match a with
    | .append _ => c
    | .act a => c.act a) c

/-- A child that has not been killed has done the steps that are not left. -/
structure Behind (b : Bool) (lines : List String) (e : TaskProcess.Ending) (done : List Act)
    (w : World) : Prop where
  script : script lines e = done ++ w.todo
  appended : w.appended = done.flatMap Act.chars
  result : w.child.result = (performed (unrun b) done).result
  exited : w.child.exited = (performed (unrun b) done).exited

variable {tz : Int} {size id : Nat} {b : Bool} {lines : List String} {e : TaskProcess.Ending}
  {done todo : List Act} {w w' : World} {c c' : TaskProcess.Child} {s : GdaemonTasks}

theorem performed_append (c : TaskProcess.Child) (l m : List Act) :
    performed c (l ++ m) = performed (performed c l) m := List.foldl_append

/-- The marks that a step of the child leaves depend on those that are there only. -/
theorem act_marks (a : TaskProcess.Act) (hr : c.result = c'.result) (he : c.exited = c'.exited) :
    (c.act a).result = (c'.act a).result ∧ (c.act a).exited = (c'.act a).exited := by
  cases a with
  | writeResult => exact ⟨rfl, he⟩
  | setComplete => exact ⟨hr, he⟩
  | exit => exact ⟨hr, rfl⟩

theorem performed_appends (c : TaskProcess.Child) (lines : List String) :
    performed c (lines.map .append) = c := by
  induction lines generalizing c with
  | nil => rfl
  | cons line lines ih => exact ih c

theorem performed_acts (c : TaskProcess.Child) (acts : List TaskProcess.Act) :
    performed c (acts.map .act) = acts.foldl TaskProcess.Child.act c := List.foldl_map

/-- A step that is not the exit leaves the child running. -/
theorem performed_running (hc : c.exited = false) (h : Act.act .exit ∉ done) :
    (performed c done).exited = false := by
  induction done generalizing c with
  | nil => exact hc
  | cons a done ih =>
    have hrest := fun hmem => h (List.mem_cons_of_mem a hmem)
    cases a with
    | append line => exact ih hc hrest
    | act a =>
      cases a with
      | exit => exact absurd List.mem_cons_self h
      | writeResult | setComplete => exact ih hc hrest

/-- The exit is the last step of the script. -/
theorem script_exit (lines : List String) (e : TaskProcess.Ending) :
    ∃ first, script lines e = first ++ [.act .exit] ∧ Act.act .exit ∉ first := by
  cases e with
  | executed result =>
    exact ⟨lines.map .append ++ [.act (.writeResult result), .act .setComplete],
      by simp [script, TaskProcess.script], by simp⟩
  | failed =>
    exact ⟨lines.map .append ++ [.act .setComplete, .act (.writeResult false)],
      by simp [script, TaskProcess.script], by simp⟩

theorem Behind.todo_of_exited (h : Behind b lines e done w) (he : w.child.exited = true) :
    w.todo = [] := by
  obtain ⟨first, hscript, hnot⟩ := script_exit lines e
  rcases List.eq_nil_or_concat w.todo with hnil | ⟨todo, last, htodo⟩
  · exact hnil
  · rw [List.concat_eq_append] at htodo
    have hsplit := hscript.symm.trans h.script
    rw [htodo, ← List.append_assoc] at hsplit
    obtain ⟨hfirst, -⟩ := List.append_inj' hsplit rfl
    rw [h.exited, performed_running rfl fun hmem => hnot (hfirst ▸ List.mem_append_left _ hmem)] at he
    cases he

/-- What the child leaves behind when it is done. -/
theorem Behind.whole (h : Behind b lines e done w) (htodo : w.todo = []) :
    w.child.result = e.result ∧ w.appended = lines.flatMap fun line => line.toList ++ ['\n'] := by
  have hdone : done = TaskOutput.script lines e := by
    rw [h.script, htodo, List.append_nil]
  constructor
  · rw [h.result, hdone]
    unfold TaskOutput.script
    rw [performed_append, performed_appends, performed_acts]
    cases e <;> rfl
  · rw [h.appended, hdone]
    unfold TaskOutput.script
    rw [List.flatMap_append, List.flatMap_map, List.flatMap_map]
    show _ ++ (TaskProcess.script e).flatMap (fun _ => []) = _
    rw [List.flatMap_eq_nil_iff.mpr fun _ _ => rfl, List.append_nil]
    rfl

/-! ## What the daemon tells -/

/-- What the poll of the task has learnt of the child. -/
def Phase.child : Phase → Option ProcessStatus
  | .idle | .got _ | .cleared _ => none
  | .asked _ child | .looked _ child _ | .done child => some child

structure Told (id : Nat) (b : Bool) (lines : List String) (e : TaskProcess.Ending) (w : World) :
    Prop where
  behind : w.killed = false → ∃ done, Behind b lines e done w
  alive : w.child.exited = true → w.killed = false
  halted : w.killed = true → w.todo = []
  seen : w.phase.child = some .success → w.child.exited = true
  told : ∀ child, w.phase = .done child →
    (TaskForks.lastStatus id w.tasks.log = some .success ↔ child = .success ∧ e.result = true)

/-- A poll that finds the task completed sends its verdict. -/
theorem judged_status {i : RunInput} (hf : First id s) (hi : Active id s)
    {s' : GdaemonTasks} (h : runNext tz i s = .ok s') (hc : i.poll.cmdCompleted = true) :
    TaskForks.lastStatus id s'.log = some (if i.poll.succeeded then .success else .error) := by
  obtain ⟨task, rest, hs, hid, hb⟩ := hf
  obtain ⟨task', rest', hs', hcase⟩ := runNext_cases hi.pending h
  obtain ⟨rfl, rfl⟩ := List.cons.inj (hs'.symm.trans hs)
  have hwork := working_first hi hs hid
  have hpoll : i.poll.withPid (s.cmdProcesses.lookup task'.id) = i.poll := by
    obtain ⟨pid, hpid⟩ := Table.exists_lookup (hid ▸ hi.process)
    rw [hpid, TaskProcess.withPid_some]
  cases hcase with
  | blocked hpos hex => exact absurd ⟨hpos, hex⟩ hb
  | started hw | rejected hw =>
    rw [hwork] at hw
    cases hw
  | lost _ hl => exact absurd (hid ▸ hi.cmd) (AList.lookup_eq_none.mp hl)
  | running _ _ hnot =>
    rw [hpoll, hc] at hnot
    cases hnot
  | completed _ _ hp =>
    rw [hpoll] at hp
    rw [TaskForks.lastStatus_quiet TaskForks.outputEvents_quiet, hp]
    refine TaskForks.lastStatus_sent i.received ?_
    rw [← List.cons_append, List.getLast?_concat, hid]
    rfl

theorem forked_told : Told id b lines e (forked b s lines e) where
  behind := fun _ => ⟨[], rfl, rfl, rfl, rfl⟩
  alive := fun h => by cases h
  halted := fun h => by cases h
  seen := fun h => by cases h
  told := fun _ h => by cases h

theorem Behind.append {line : String} (h : Behind b lines e done w)
    (htodo : w.todo = .append line :: todo) {output : IpcCmdOutput} :
    Behind b lines e (done ++ [.append line]) { w with
      output, todo, appended := w.appended ++ (line.toList ++ ['\n']) } where
  script := by
    rw [h.script, htodo, List.append_assoc]
    rfl
  appended := by
    rw [List.flatMap_append, ← h.appended]
    show _ = _ ++ ((line.toList ++ ['\n']) ++ [])
    rw [List.append_nil]
  result := by
    rw [performed_append]
    exact h.result
  exited := by
    rw [performed_append]
    exact h.exited

theorem Behind.act {a : TaskProcess.Act} (h : Behind b lines e done w)
    (htodo : w.todo = .act a :: todo) :
    Behind b lines e (done ++ [.act a]) { w with child := w.child.act a, todo } := by
  obtain ⟨hresult, hexited⟩ := act_marks a h.result h.exited
  refine ⟨?_, ?_, ?_, ?_⟩
  · rw [h.script, htodo, List.append_assoc]
    rfl
  · rw [List.flatMap_append, ← h.appended]
    exact (List.append_nil _).symm
  · rw [performed_append]
    exact hresult
  · rw [performed_append]
    exact hexited

theorem exited_act {a : TaskProcess.Act} (h : c.exited = true) : (c.act a).exited = true := by
  cases a with
  | writeResult | setComplete => exact h
  | exit => rfl

/-- What `child_process_status` finds and leaves. -/
theorem status_marks (w : World) : w.status.2.result = w.child.result ∧
    w.status.2.exited = w.child.exited ∧ (w.status.1 = .success → w.child.exited = true) := by
  unfold World.status TaskProcess.Child.status
  split
  · exact ⟨rfl, rfl, fun h => by cases h⟩
  · split
    · next he => exact ⟨rfl, rfl, fun _ => he.1⟩
    · exact ⟨rfl, rfl, fun h => by cases h⟩

/-- The steps of the child. -/
theorem Told.append (ht : Told id b lines e w) {line : String} (htodo : w.todo = .append line :: todo)
    (size : Nat) : Told id b lines e { w with
      output := w.output.append size line, todo
      appended := w.appended ++ (line.toList ++ ['\n']) } where
  behind := fun hk =>
    have ⟨_, hbehind⟩ := ht.behind hk
    ⟨_, hbehind.append htodo⟩
  alive := ht.alive
  halted := fun hk => by
    rw [ht.halted hk] at htodo
    cases htodo
  seen := ht.seen
  told := ht.told

theorem Told.act (ht : Told id b lines e w) {a : TaskProcess.Act} (htodo : w.todo = .act a :: todo) :
    Told id b lines e { w with child := w.child.act a, todo } := by
  have hk : w.killed = false := by
    cases hk : w.killed with
    | false => rfl
    | true =>
      rw [ht.halted hk] at htodo
      cases htodo
  obtain ⟨done, hbehind⟩ := ht.behind hk
  refine ⟨fun _ => ⟨_, hbehind.act htodo⟩, fun _ => hk, fun hkilled => ?_,
    fun hs => exited_act (ht.seen hs), ht.told⟩
  rw [hk] at hkilled
  cases hkilled

theorem Told.killed (ht : Told id b lines e w) (hrunning : w.child.exited = false) :
    Told id b lines e { w with killed := true, todo := [] } where
  behind := fun hk => by cases hk
  alive := fun he => by
    rw [hrunning] at he
    cases he
  halted := fun _ => rfl
  seen := ht.seen
  told := ht.told

/-- A step of the daemon that asks for nothing. -/
theorem Behind.still (h : Behind b lines e done w) {output : IpcCmdOutput} {phase : Phase} :
    Behind b lines e done { w with tasks := s, output, phase } :=
  ⟨h.script, h.appended, h.result, h.exited⟩

theorem Told.daemon (ht : Told id b lines e w) {output : IpcCmdOutput} {phase : Phase}
    (hphase : phase.child = none) :
    Told id b lines e { w with tasks := s, output, phase } where
  behind := fun hk => (ht.behind hk).imp fun _ hbehind => hbehind.still
  alive := ht.alive
  halted := ht.halted
  seen := fun hs => by
    rw [hphase] at hs
    cases hs
  told := fun child hdone => by
    rw [show phase = .done child from hdone] at hphase
    cases hphase

theorem Told.ask (ht : Told id b lines e w) (output : String) : Told id b lines e { w with
    child := w.status.2, phase := .asked output w.status.1 } := by
  obtain ⟨hresult, hexited, hsuccess⟩ := status_marks w
  refine ⟨fun hk => ?_, fun he => ht.alive (hexited ▸ he), ht.halted, fun hs => ?_, fun _ hd => ?_⟩
  · obtain ⟨done, hbehind⟩ := ht.behind hk
    exact ⟨done, hbehind.script, hbehind.appended, hresult.trans hbehind.result,
      hexited.trans hbehind.exited⟩
  · exact hexited.trans (hsuccess (Option.some.inj hs))
  · cases hd

/-- What the poll has seen of the child that it judges. -/
theorem Told.verdict (ht : Told id b lines e w) {child : ProcessStatus}
    (hseen : w.phase.child = some child) :
    w.child.result = true ∧ child = .success ↔ child = .success ∧ e.result = true := by
  rw [and_comm]
  refine and_congr_right fun hchild => ?_
  have he := ht.seen (hchild ▸ hseen)
  obtain ⟨done, hbehind⟩ := ht.behind (ht.alive he)
  rw [(hbehind.whole (hbehind.todo_of_exited he)).1]

/-- The poll that judges what it has seen. -/
theorem Told.judge (ht : Told id b lines e w) {i : RunInput} {output : String}
    {child : ProcessStatus} {complete : Bool} (hactive : Active id w.tasks)
    (hfirst : First id w.tasks) (hp : w.phase = .looked output child complete)
    (hpoll : i.poll = { child, complete, result := w.child.result, output })
    (hrun : runNext tz i w.tasks = .ok s) : Told id b lines e { w with
      tasks := s, phase := if i.poll.cmdCompleted then .done child else .idle } := by
  have hseen : w.phase.child = some child := by rw [hp]; rfl
  refine ⟨fun hk => (ht.behind hk).imp fun _ hbehind => hbehind.still, ht.alive, ht.halted,
    fun hs => ?_, fun child' hd => ?_⟩
  · refine ht.seen (hseen.trans ?_)
    cases hc : i.poll.cmdCompleted <;> rw [hc] at hs <;> cases hs
    rfl
  · cases hc : i.poll.cmdCompleted with
    | false =>
      rw [hc] at hd
      cases hd
    | true =>
      rw [hc] at hd
      obtain rfl : child = child' := Phase.done.inj hd
      have hlast := judged_status hfirst hactive hrun hc
      rw [← ht.verdict hseen]
      show TaskForks.lastStatus id s.log = some .success ↔ _
      rw [hlast, Option.some_inj]
      have hsucceeded : i.poll.succeeded = true ↔ w.child.result = true ∧ child = .success := by
        rw [Poll.succeeded_iff, hpoll]
      rw [← hsucceeded]
      cases i.poll.succeeded <;> simp

theorem Told.micro {l : Label} {base : List Char} (ht : Told id b lines e w)
    (hi : Inv size id base w) (h : Micro tz size id w l w') : Told id b lines e w' := by
  cases h with
  | append htodo => exact ht.append htodo size
  | act htodo => exact ht.act htodo
  | killed hrunning => exact ht.killed hrunning
  | other hp => exact ht.daemon (by rw [hp]; rfl)
  | get => exact ht.daemon rfl
  | clear => exact ht.daemon rfl
  | ask => exact ht.ask _
  | @look output child hp =>
    have hsame : (Phase.looked output child w.child.complete).child = w.phase.child := by
      rw [hp]
      rfl
    exact ⟨fun hk => (ht.behind hk).imp fun _ hbehind => hbehind.still, ht.alive, ht.halted,
      fun hs => ht.seen (hsame ▸ hs), fun _ hd => by cases hd⟩
  | judge hp hpoll hrun =>
    obtain ⟨hactive, hfirst⟩ := hi.busy hp trivial
    exact ht.judge hactive hfirst hp hpoll hrun

/-- **What the panel is told.** When a task is found completed, the status that is sent is success
exactly if the exit of the child was seen and its command has succeeded; if the exit was seen, the
panel has all that the command has appended. -/
theorem reported {ok : GdaemonTasks → GdaemonTasks.Op → Prop} {gslist : GameServersList}
    (hsize : 1 ≤ size) (hrun : Run (Step tz) ok (GdaemonTasks.init gslist) s)
    (hcmd : id ∈ s.activeCmds)
    (h : Run (Micro tz size id) (fun w l => Fits size w l ∧ Drained w l) (forked b s lines e) w)
    {child : ProcessStatus} (hdone : w.phase = .done child) :
    (TaskForks.lastStatus id w.tasks.log = some .success ↔ child = .success ∧ e.result = true) ∧
      (child = .success → outputs id w.tasks.log =
        outputs id s.log ++ lines.flatMap fun line => line.toList ++ ['\n']) := by
  have htables : TablesInv s := tablesInv_of_run hrun
  have hwork := (htables.active id).mp hcmd
  have hstart : Active id s := ⟨htables.toIdsInv, hwork, hcmd, (htables.processes id).mpr hwork⟩
  obtain ⟨hi, ht⟩ := h.invariant
    (I := fun w => Inv size id (outputs id s.log) w ∧ Told id b lines e w)
    ⟨forked_inv hsize hstart, forked_told⟩
    fun _ _ _ hi hok hs => ⟨hi.1.micro hok.1 hok.2 hs, hi.2.micro hi.1 hs⟩
  refine ⟨ht.told child hdone, fun hchild => ?_⟩
  have hexited : w.child.exited = true := by
    refine ht.seen ?_
    rw [hdone, hchild]
    rfl
  obtain ⟨done, hbehind⟩ := ht.behind (ht.alive hexited)
  obtain ⟨text, -, hacc⟩ := hi.holds
  unfold Accounted at hacc
  rw [hdone] at hacc
  rw [hacc.2, hchild, (hbehind.whole (hbehind.todo_of_exited hexited)).2]
  exact congrArg _ (List.append_nil _)

end TaskOutput

/-! ## `DedicatedServerCmd` -/

namespace DedicatedServerCmd

variable (sys : HostSystem)

def cmdExecuteCommand : Nat := 1

def cmdExecute (shellCommand : String) : EStateM String Shell Bool := do
  if shellCommand = "" then
    modify (Shell.append "Empty shell command")
    return false
  else
    let result ← Shell.cmdExec sys shellCommand
    return result == 0

/-- The result is `m_result`; an exception leaves `m_complete` false. -/
def execute (command : Nat) (shellCommand : String) : EStateM String Shell Bool :=
  if command = cmdExecuteCommand then cmdExecute sys shellCommand
  else do
    modify (Shell.append "Invalid dedicated_server_cmd command")
    return false

/-- What the child does to the shared memory. Nothing catches an exception, so that it ends the
child before `m_result` is set. -/
def acts (shellCommand : String) (shell : Shell) : List TaskOutput.Act :=
  match execute sys cmdExecuteCommand shellCommand shell with
  | .ok result t => TaskOutput.script (t.output.drop shell.output.length) (.executed result)
  | .error _ t => (t.output.drop shell.output.length).map .append

/-- The world after the fork. -/
def forked (shellCommand : String) (shell : Shell) (b : Bool) (s : GdaemonTasks) :
    TaskOutput.World :=
  { TaskOutput.forked b s [] .failed with todo := acts sys shellCommand shell }

/-- What a command that has been run leaves in the output. -/
def transcript (path shellCommand : String) (lines : List String) (exitCode : Int) : List String :=
  [path ++ "# " ++ shellCommand] ++ lines ++ ["\nExited with " ++ toString exitCode ++ "\n"]

variable {sys} {shellCommand path : String} {lines : List String} {exitCode : Int}

/-- The command is run as the daemon's own user. -/
theorem execute_eq (hne : shellCommand ≠ "") (hpath : sys.currentPath = .ok path)
    (hexec : sys.exec shellCommand = some (exitCode, lines)) (shell : Shell) :
    execute sys cmdExecuteCommand shellCommand shell = .ok (exitCode == 0) { shell with
      output := shell.output ++ transcript path shellCommand lines exitCode
      executed := shell.executed ++ [(shellCommand, shell.identity.forgetPrivileges)] } := by
  have hrun : Shell.exec sys shellCommand (Shell.append (path ++ "# " ++ shellCommand) shell) =
      .ok exitCode { shell with
        output := shell.output ++ [path ++ "# " ++ shellCommand] ++ lines
        executed := shell.executed ++ [(shellCommand, shell.identity.forgetPrivileges)] } := by
    unfold Shell.exec
    rw [hexec]
    rfl
  unfold execute cmdExecute Shell.cmdExec transcript
  rw [if_pos rfl, if_neg hne]
  simp only [bind_assoc]
  rw [orThrow_ok_bind hpath, modify_bind_apply, bind_of_ok hrun, modify_bind_apply,
    ← List.append_assoc, ← List.append_assoc]
  rfl

theorem acts_eq (hne : shellCommand ≠ "") (hpath : sys.currentPath = .ok path)
    (hexec : sys.exec shellCommand = some (exitCode, lines)) (shell : Shell) :
    acts sys shellCommand shell = TaskOutput.script (transcript path shellCommand lines exitCode)
      (.executed (exitCode == 0)) := by
  unfold acts
  rw [execute_eq hne hpath hexec]
  simp only [List.drop_left]

def lineHost : HostSystem :=
  { getpwnam := fun _ => none, setegid := fun _ => true, seteuid := fun _ => true,
    currentPath := .ok "/", exec := fun _ => some (0, ["a"]) }

/-- Task 5 of the panel is to execute `ls`. -/
def shellEntry : Entry :=
  (.obj [("cmd", .str "ls"), ("id", .int 5), ("run_aft_id", .int 0), ("server_id", .int 0),
    ("status_num", .int 1), ("task", .str "cmdexec")], oldReplies)

def shellStarted : GdaemonTasks :=
  performAll [.update (some [shellEntry]), .runNext (answeredRun runningPoll)]

theorem run_shellStarted : Run (Step 0) Any plainInit shellStarted :=
  run_snoc [_] _ (run_snoc [] _ (.refl plainInit) trivial (by decide)) trivial (by decide)

def shellTask : GdaemonTask :=
  { id := 5, runAftId := 0, serverId := 0, task := "cmdexec", cmd := "ls", status := .working }

theorem shellStarted_first : TaskOutput.First 5 shellStarted :=
  ⟨shellTask, [], by decide, rfl, by decide⟩

def shellOutput : String := "/# ls\na\n\nExited with 0\n\n"

def shellReported : GdaemonTasks :=
  resultD shellStarted (runNext 0 (TaskOutput.doneRun shellOutput) shellStarted)

end DedicatedServerCmd

end GameAP
