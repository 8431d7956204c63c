import GameAP.Classes.GdaemonTasksInstall
import GameAP.Classes.TaskProcess
import GameAP.Commands.Output

/-!
# The output of a task on its way to the panel

The child appends lines to the `IpcCmdOutput` of its command; every `proceed` of the task gets
what is there, clears the buffer, asks for the child and for `m_complete`, and sends what it got.
The steps of the child may fall anywhere between those (`Micro`). What is appended between a get
and its clear is cleared unread, and what the buffer holds when the task is found completed is
never read. `output_complete`: where neither happens (`Drained`), the panel has received every
character once and in order when the task is completed.
-/

namespace GameAP

open Lib GdaemonTasks

namespace TaskOutput

/-! ## The child and the daemon -/

inductive Act where
  | append (line : String)
  | act (a : TaskProcess.Act)
  deriving DecidableEq, Repr

/-- Whatever a command appends, it appends before it is complete. -/
def script (lines : List String) (e : TaskProcess.Ending) : List Act :=
  lines.map .append ++ (TaskProcess.script e).map .act

/-- Where the `proceed` of the task stands. -/
inductive Phase where
  | idle
  | got (output : String)
  | cleared (output : String)
  | asked (output : String) (child : ProcessStatus)
  | looked (output : String) (child : ProcessStatus) (complete : Bool)
  | done (child : ProcessStatus)
  deriving DecidableEq, Repr

structure World where
  tasks : GdaemonTasks
  output : IpcCmdOutput
  child : TaskProcess.Child
  /-- a signal has ended the child -/
  killed : Bool
  todo : List Act
  phase : Phase
  /-- all that the child has appended -/
  appended : List Char

/-- The world after the fork. -/
def forked (result : Bool) (s : GdaemonTasks) (lines : List String) (e : TaskProcess.Ending) :
    World :=
  { tasks := s, output := .init,
    child := { result, complete := false, exited := false, reaped := false }, killed := false,
    todo := script lines e, phase := .idle, appended := [] }

/-- `child_process_status`, where a child that was killed counts as failed. -/
def World.status (w : World) : ProcessStatus × TaskProcess.Child :=
  if w.killed then (.fail, w.child) else w.child.status

/-- The next `run_next` calls `proceed` for the task. -/
def First (id : Nat) (s : GdaemonTasks) : Prop :=
  ∃ task rest, s.tasks = task :: rest ∧ task.id = id ∧ ¬ Blocked s task

inductive Label where
  | append (line : String)
  | act (a : TaskProcess.Act)
  | killed
  | other (o : GdaemonTasks.Op)
  | get
  | clear
  | ask
  | look
  | judge (i : RunInput)

/-- One step of the child or of the daemon. Between two polls of the task the daemon does
anything else. -/
inductive Micro (tz : Int) (size id : Nat) : World → Label → World → Prop where
  | append {w : World} {line : String} {rest : List Act} : w.todo = .append line :: rest →
      Micro tz size id w (.append line) { w with
        output := w.output.append size line, todo := rest
        appended := w.appended ++ (line.toList ++ ['\n']) }
  | act {w : World} {a : TaskProcess.Act} {rest : List Act} : w.todo = .act a :: rest →
      Micro tz size id w (.act a) { w with child := w.child.act a, todo := rest }
  | killed {w : World} : w.child.exited = false →
      Micro tz size id w .killed { w with killed := true, todo := [] }
  | other {w : World} {o : GdaemonTasks.Op} {s : GdaemonTasks} : w.phase = .idle →
      (∀ i, o = .runNext i → ¬ First id w.tasks) → Step tz w.tasks o s →
      Micro tz size id w (.other o) { w with tasks := s }
  | get {w : World} : w.phase = .idle → First id w.tasks →
      Micro tz size id w .get { w with phase := .got (w.output.get size) }
  | clear {w : World} {output : String} : w.phase = .got output →
      Micro tz size id w .clear { w with output := w.output.clear, phase := .cleared output }
  | ask {w : World} {output : String} : w.phase = .cleared output →
      Micro tz size id w .ask { w with child := w.status.2, phase := .asked output w.status.1 }
  | look {w : World} {output : String} {child : ProcessStatus} :
      w.phase = .asked output child →
      Micro tz size id w .look { w with phase := .looked output child w.child.complete }
  | judge {w : World} {i : RunInput} {output : String} {child : ProcessStatus} {complete : Bool}
      {s : GdaemonTasks} : w.phase = .looked output child complete →
      i.poll = { child, complete, result := w.child.result, output } →
      runNext tz i w.tasks = .ok s →
      Micro tz size id w (.judge i) { w with
        tasks := s, phase := if i.poll.cmdCompleted then .done child else .idle }

/-- The poll has found the task completed. -/
def Phase.Over : Phase → Prop
  | .asked _ child => child ≠ .working
  | .looked _ child complete => complete = true ∨ child ≠ .working
  | .done _ => True
  | _ => False

/-- The daemon is in the `proceed` of the task. -/
def Phase.Busy : Phase → Prop
  | .got _ | .cleared _ | .asked _ _ | .looked _ _ _ => True
  | _ => False

/-- Fewer than `size` characters are appended between two polls. -/
def Fits (size : Nat) (w : World) : Label → Prop
  | .append line => w.output.readable + (line.length + 1) < size
  | _ => True

/-- No line comes between a get and its clear, and the buffer of a task that is found completed
is empty. -/
def Drained (w : World) : Label → Prop
  | .append _ => ∀ output, w.phase ≠ .got output
  | .judge _ => w.phase.Over → w.output.readable = 0
  | _ => True

/-! ## What the panel receives -/

/-- The output that the panel has received for the task. -/
def outputs (id : Nat) (log : List Event) : List Char :=
  log.flatMap fun
    | .output other text => if other = id then text.toList else []
    | _ => []

def notice (child : ProcessStatus) : String :=
  if child != .success then "Child process failure" else ""

variable {tz : Int} {size id : Nat} {i : RunInput} {task : GdaemonTask}
  {rest : List GdaemonTask} {s s' : GdaemonTasks} {log new : List Event} {w w' : World}

theorem outputs_append : outputs id (log ++ new) = outputs id log ++ outputs id new :=
  List.flatMap_append

theorem outputs_eq_nil (h : ∀ e ∈ new, ∀ text, e ≠ .output id text) : outputs id new = [] := by
  refine List.flatMap_eq_nil_iff.mpr fun e he => ?_
  cases e with
  | output other text =>
    have hne : other ≠ id := fun hid => h _ he text (hid ▸ rfl)
    exact if_neg hne
  | _ => rfl

theorem outputs_outputEvents {text : String} :
    outputs id (outputEvents task text) = if task.id = id then text.toList else [] := by
  unfold outputEvents
  split
  · next hempty => simp [outputs, hempty]
  · simp [outputs]

/-- The events of a completion, apart from its output. -/
theorem outputs_completed {task' : GdaemonTask} {cmd : Cmd} {poll : Poll}
    {st : GdaemonTask.Status} {received : Bool} : outputs id (.completed task' cmd poll ::
      (afterEvents task' ++ [.status task.id st received])) = [] := by
  refine outputs_eq_nil fun e he text heq => ?_
  subst heq
  simp only [List.mem_cons, List.mem_append, List.not_mem_nil, or_false] at he
  rcases he with he | he | he
  · cases he
  · obtain ⟨st, he⟩ := mem_afterEvents he
    cases he
  · cases he

theorem finalOutput_eq (poll : Poll) :
    (finalOutput poll).toList = poll.output.toList ++ (notice poll.child).toList := by
  unfold finalOutput notice
  split <;> simp

/-! ## The steps of the other tasks -/

/-- The task is in the queue, and its command is active. -/
structure Active (id : Nat) (s : GdaemonTasks) : Prop extends IdsInv s where
  working : Working s.tasks id
  cmd : id ∈ s.activeCmds
  process : id ∈ s.cmdProcesses

theorem Active.rotate (hi : Active id s) (hs : s.tasks = task :: rest) {u : GdaemonTasks}
    (hids : IdsInv u) (ht : u.tasks = rest ++ [task]) (ha : u.activeCmds = s.activeCmds)
    (hp : u.cmdProcesses = s.cmdProcesses) : Active id u := by
  refine ⟨hids, ?_, ha ▸ hi.cmd, hp ▸ hi.process⟩
  rw [ht, working_perm (List.perm_append_singleton task rest), ← hs]
  exact hi.working

/-- A `run_next` for another task tells the panel nothing about this one. -/
theorem outputs_runNext (hne : task.id ≠ id) (h : RunNext tz i s task rest s') :
    outputs id s'.log = outputs id s.log := by
  obtain ⟨new, hlog, hev, -⟩ := h.events
  have hnil : outputs id new = [] := by
    refine outputs_eq_nil fun e he text heq => ?_
    subst heq
    cases hev _ he
    exact hne rfl
  rw [hlog, outputs_append, hnil, List.append_nil]

theorem Active.runNext (hi : Active id s) (hs : s.tasks = task :: rest) (hne : task.id ≠ id)
    (h : RunNext tz i s task rest s') : Active id s' := by
  have hids := h.idsInv hi.toIdsInv hs
  have hleft : Working rest id := (working_removed hi.toIdsInv hs).mp ⟨hne.symm, hi.working⟩
  cases h with
  | blocked => exact hi.rotate hs hids rfl rfl rfl
  | started =>
    exact ⟨hids, (working_started hs).mp (.inr hi.working), Table.mem_emplace.mpr (.inr hi.cmd),
      Table.mem_emplace.mpr (.inr hi.process)⟩
  | rejected => exact ⟨hids, hleft, AList.mem_erase.mpr ⟨hne.symm, hi.cmd⟩, hi.process⟩
  | lost => exact hi.rotate hs hids rfl rfl rfl
  | running => exact hi.rotate hs hids rfl rfl rfl
  | completed =>
    exact ⟨hids, hleft, AList.mem_erase.mpr ⟨hne.symm, hi.cmd⟩,
      AList.mem_erase.mpr ⟨hne.symm, hi.process⟩⟩

theorem Active.step {o : GdaemonTasks.Op} (hi : Active id s)
    (hno : ∀ i, o = .runNext i → ¬ First id s) (h : Step tz s o s') :
    Active id s' ∧ outputs id s'.log = outputs id s.log := by
  rcases step_cases h with himp | ⟨i, rfl, hrun⟩
  · refine importTasks_invariant (P := fun t => Active id t ∧ outputs id t.log = outputs id s.log)
      himp ⟨hi, rfl⟩ ?_ ?_
    · rintro t gslist ⟨ht, hlog⟩
      exact ⟨⟨⟨ht.nodup, ht.pending, ht.existing⟩, ht.working, ht.cmd, ht.process⟩, hlog⟩
    · rintro e he task t hnew - - hfresh ⟨ht, hlog⟩
      obtain ⟨u, hu, hid, hwork⟩ := ht.working
      refine ⟨⟨ht.toIdsInv.imported hfresh (newTask_spec hnew).2.2, ?_, ht.cmd, ht.process⟩, hlog⟩
      exact ⟨u, List.mem_append_left _ hu, hid, hwork⟩
  · obtain ⟨task, rest, hs, hcase⟩ := runNext_cases hi.pending hrun
    by_cases hb : Blocked s task
    · obtain rfl := runNext_blocked hs hb hrun
      exact ⟨hi.rotate hs (hcase.idsInv hi.toIdsInv hs) rfl rfl rfl, rfl⟩
    · have hne : task.id ≠ id := fun hid => hno i rfl ⟨task, rest, hs, hid, hb⟩
      exact ⟨hi.runNext hs hne hcase, outputs_runNext hne hcase⟩

/-! ## A poll of the task -/

theorem cmdCompleted_iff {poll : Poll} :
    poll.cmdCompleted = true ↔ poll.complete = true ∨ poll.child ≠ .working := by
  unfold Poll.cmdCompleted
  cases poll.complete <;> cases poll.child <;> simp

theorem working_first (hi : Active id s) (hs : s.tasks = task :: rest) (hid : task.id = id) :
    task.status = .working := by
  obtain ⟨u, hu, he, hwork⟩ := hi.working
  have hmem : task ∈ s.tasks := hs ▸ List.mem_cons_self
  obtain rfl := List.inj_on_of_nodup_map hi.nodup hu hmem (he.trans hid.symm)
  exact hwork

/-- A poll sends what it got, and the notice if it finds the task completed. -/
theorem First.runNext (hf : First id s) (hi : Active id s) (h : runNext tz i s = .ok s') :
    (i.poll.cmdCompleted = false →
      Active id s' ∧ outputs id s'.log = outputs id s.log ++ i.poll.output.toList) ∧
    (i.poll.cmdCompleted = true → outputs id s'.log =
      outputs id s.log ++ (i.poll.output.toList ++ (notice i.poll.child).toList)) := by
  obtain ⟨task, rest, hs, hid, hb⟩ := hf
  obtain ⟨task', rest', hs', hcase⟩ := runNext_cases hi.pending h
  obtain ⟨rfl, rfl⟩ := List.cons.inj (hs'.symm.trans hs)
  have hwork := working_first hi hs hid
  have hpoll : i.poll.withPid (s.cmdProcesses.lookup task'.id) = i.poll := by
    obtain ⟨pid, hpid⟩ := Table.exists_lookup (hid ▸ hi.process)
    rw [hpid, TaskProcess.withPid_some]
  have hids := hcase.idsInv hi.toIdsInv hs
  cases hcase with
  | blocked hpos hex => exact absurd ⟨hpos, hex⟩ hb
  | started hw => rw [hwork] at hw; cases hw
  | rejected hw => rw [hwork] at hw; cases hw
  | lost _ hl => exact absurd (hid ▸ hi.cmd) (AList.lookup_eq_none.mp hl)
  | running _ _ hc =>
    rw [hpoll] at hc
    refine ⟨fun _ => ⟨hi.rotate hs hids rfl rfl rfl, ?_⟩, fun hdone => ?_⟩
    · rw [outputs_append, outputs_outputEvents, if_pos hid]
    · rw [hc] at hdone
      cases hdone
  | completed _ _ hp hc =>
    rw [hpoll] at hp
    subst hp
    refine ⟨fun hnot => ?_, fun _ => ?_⟩
    · rw [hc] at hnot
      cases hnot
    · rw [outputs_append, outputs_append, outputs_completed, List.append_nil,
        outputs_outputEvents, if_pos hid, finalOutput_eq]

/-! ## What holds in every interleaving -/

/-- Nothing is left to append. -/
def Silent (todo : List Act) : Prop := ∀ line, Act.append line ∉ todo

/-- The child has set `m_complete` or has ended. -/
def World.Over (w : World) : Prop :=
  w.child.complete = true ∨ w.child.exited = true ∨ w.killed = true

/-- Where the characters are that the child has appended: `base` are those that the panel had
before, and `text` is in the buffer. -/
def Accounted (id : Nat) (base text : List Char) (w : World) : Prop :=
  match w.phase with
  | .idle => outputs id w.tasks.log ++ text = base ++ w.appended
  | .got output => output.toList = text ∧ outputs id w.tasks.log ++ text = base ++ w.appended
  | .cleared output | .asked output _ | .looked output _ _ =>
    outputs id w.tasks.log ++ (output.toList ++ text) = base ++ w.appended
  | .done child =>
    Silent w.todo ∧ outputs id w.tasks.log = base ++ (w.appended ++ (notice child).toList)

structure Inv (size id : Nat) (base : List Char) (w : World) : Prop where
  active : w.phase = .idle ∨ w.phase.Busy → Active id w.tasks
  first : w.phase.Busy → First id w.tasks
  holds : ∃ text, w.output.Holds size text ∧ Accounted id base text w
  order : ∃ lines acts, w.todo = List.map .append lines ++ List.map .act acts
  ended : w.Over → Silent w.todo
  seen : w.phase.Over → w.Over

variable {base text : List Char} {line : String} {todo : List Act}

theorem order_append (h : ∃ lines acts, Act.append line :: todo =
    List.map .append lines ++ List.map .act acts) :
    ∃ lines acts, todo = List.map .append lines ++ List.map .act acts := by
  obtain ⟨lines, acts, h⟩ := h
  cases lines with
  | nil => cases acts <;> cases h
  | cons line lines => exact ⟨lines, acts, (List.cons.inj h).2⟩

/-- After the first of its other steps the child appends nothing. -/
theorem order_act {a : TaskProcess.Act} (h : ∃ lines acts, Act.act a :: todo =
    List.map .append lines ++ List.map .act acts) : ∃ acts, todo = List.map .act acts := by
  obtain ⟨lines, acts, h⟩ := h
  cases lines with
  | nil =>
    cases acts with
    | nil => cases h
    | cons a acts => exact ⟨acts, (List.cons.inj h).2⟩
  | cons line lines => cases h

theorem silent_acts (acts : List TaskProcess.Act) : Silent (List.map .act acts) := by
  intro line h
  obtain ⟨a, -, he⟩ := List.mem_map.mp h
  cases he

theorem forked_inv {b : Bool} {lines : List String} {e : TaskProcess.Ending} (hsize : 1 ≤ size)
    (hi : Active id s) : Inv size id (outputs id s.log) (forked b s lines e) where
  active := fun _ => hi
  first := fun h => h.elim
  holds := ⟨[], IpcCmdOutput.init_holds hsize, rfl⟩
  order := ⟨lines, TaskProcess.script e, rfl⟩
  ended := fun h => by
    rcases h with h | h | h <;> cases h
  seen := fun h => h.elim

theorem status_over (w : World) : w.status.2.complete = w.child.complete ∧
    w.status.2.exited = w.child.exited ∧
    (w.status.1 ≠ .working → w.child.exited = true ∨ w.killed = true) := by
  unfold World.status TaskProcess.Child.status
  split
  · next hk => exact ⟨rfl, rfl, fun _ => .inr hk⟩
  · split
    · next he => exact ⟨rfl, rfl, fun _ => .inl he.1⟩
    · exact ⟨rfl, rfl, fun h => absurd rfl h⟩

/-! ## The steps of the child -/

theorem Accounted.append (h : Accounted id base text w) (hgot : ∀ output, w.phase ≠ .got output)
    (htodo : w.todo = .append line :: todo) {output : IpcCmdOutput} (chars : List Char) :
    Accounted id base (text ++ chars)
      { w with output, todo, appended := w.appended ++ chars } := by
  unfold Accounted at h ⊢
  cases hp : w.phase with
  | got output => exact absurd hp (hgot output)
  | done child =>
    rw [hp] at h
    exact absurd (htodo ▸ List.mem_cons_self) (h.1 line)
  | _ =>
    rw [hp] at h
    simp only at h ⊢
    simp only [← List.append_assoc] at h ⊢
    rw [h]

theorem Accounted.quiet (h : Accounted id base text w) (hs : Silent todo)
    {child : TaskProcess.Child} {killed : Bool} :
    Accounted id base text { w with child, killed, todo } := by
  unfold Accounted at h ⊢
  cases hp : w.phase <;> rw [hp] at h
  case done => exact ⟨hs, h.2⟩
  all_goals exact h

theorem Inv.append (hi : Inv size id base w) (htodo : w.todo = .append line :: todo)
    (hfits : w.output.readable + (line.length + 1) < size)
    (hgot : ∀ output, w.phase ≠ .got output) :
    Inv size id base { w with
      output := w.output.append size line, todo
      appended := w.appended ++ (line.toList ++ ['\n']) } := by
  obtain ⟨text, hholds, hacc⟩ := hi.holds
  have hnot : ¬ w.Over := fun ho => hi.ended ho line (htodo ▸ List.mem_cons_self)
  have hfit : (text ++ (line.toList ++ ['\n'])).length ≤ size := by
    rw [hholds.readable] at hfits
    simp only [List.length_append, List.length_singleton, String.length_toList]
    omega
  exact ⟨hi.active, hi.first, ⟨_, hholds.append hfit, hacc.append hgot htodo _⟩,
    order_append (htodo ▸ hi.order), fun ho => absurd ho hnot, hi.seen⟩

theorem Inv.act (hi : Inv size id base w) {a : TaskProcess.Act} (htodo : w.todo = .act a :: todo) :
    Inv size id base { w with child := w.child.act a, todo } := by
  obtain ⟨text, hholds, hacc⟩ := hi.holds
  obtain ⟨acts, hacts⟩ := order_act (htodo ▸ hi.order)
  have hsilent : Silent todo := hacts ▸ silent_acts acts
  refine ⟨hi.active, hi.first, ⟨text, hholds, hacc.quiet hsilent⟩, ⟨[], acts, hacts⟩,
    fun _ => hsilent, fun ho => ?_⟩
  rcases hi.seen ho with h | h | h
  · refine .inl ?_
    cases a <;> first | exact h | rfl
  · refine .inr (.inl ?_)
    cases a <;> first | exact h | rfl
  · exact .inr (.inr h)

theorem Inv.killed (hi : Inv size id base w) :
    Inv size id base { w with killed := true, todo := [] } := by
  obtain ⟨text, hholds, hacc⟩ := hi.holds
  have hsilent : Silent [] := fun line h => by cases h
  exact ⟨hi.active, hi.first, ⟨text, hholds, hacc.quiet hsilent⟩, ⟨[], [], rfl⟩,
    fun _ => hsilent, fun _ => .inr (.inr rfl)⟩

/-! ## The steps of the daemon -/

theorem Inv.busy (hi : Inv size id base w) {phase : Phase} (hp : w.phase = phase)
    (hb : phase.Busy) : Active id w.tasks ∧ First id w.tasks :=
  ⟨hi.active (.inr (hp ▸ hb)), hi.first (hp ▸ hb)⟩

theorem Inv.other (hi : Inv size id base w) {o : GdaemonTasks.Op} (hp : w.phase = .idle)
    (hno : ∀ i, o = .runNext i → ¬ First id w.tasks) (h : Step tz w.tasks o s) :
    Inv size id base { w with tasks := s } := by
  obtain ⟨text, hholds, hacc⟩ := hi.holds
  obtain ⟨hactive, hlog⟩ := (hi.active (.inl hp)).step hno h
  refine ⟨fun _ => hactive, fun hb => ?_, ⟨text, hholds, ?_⟩, hi.order, hi.ended, hi.seen⟩
  · rw [hp] at hb
    exact hb.elim
  · unfold Accounted at hacc ⊢
    rw [hp] at hacc ⊢
    exact hlog ▸ hacc

theorem Inv.get (hi : Inv size id base w) (hp : w.phase = .idle) (hf : First id w.tasks) :
    Inv size id base { w with phase := .got (w.output.get size) } := by
  obtain ⟨text, hholds, hacc⟩ := hi.holds
  refine ⟨fun _ => hi.active (.inl hp), fun _ => hf, ⟨text, hholds, ?_⟩, hi.order, hi.ended,
    fun ho => ho.elim⟩
  unfold Accounted at hacc
  rw [hp] at hacc
  refine ⟨?_, hacc⟩
  rw [hholds.get, String.toList_ofList]

theorem Inv.clear (hi : Inv size id base w) {output : String} (hp : w.phase = .got output) :
    Inv size id base { w with output := w.output.clear, phase := .cleared output } := by
  obtain ⟨text, hholds, hacc⟩ := hi.holds
  obtain ⟨hactive, hfirst⟩ := hi.busy hp trivial
  refine ⟨fun _ => hactive, fun _ => hfirst,
    ⟨[], hholds.clear, ?_⟩, hi.order, hi.ended, fun ho => ho.elim⟩
  unfold Accounted at hacc
  rw [hp] at hacc
  obtain ⟨rfl, hacc⟩ := hacc
  show _ ++ (output.toList ++ []) = _
  rw [List.append_nil]
  exact hacc

theorem Inv.ask (hi : Inv size id base w) {output : String} (hp : w.phase = .cleared output) :
    Inv size id base { w with child := w.status.2, phase := .asked output w.status.1 } := by
  obtain ⟨text, hholds, hacc⟩ := hi.holds
  obtain ⟨hcomplete, hexited, hended⟩ := status_over w
  obtain ⟨hactive, hfirst⟩ := hi.busy hp trivial
  refine ⟨fun _ => hactive, fun _ => hfirst, ⟨text, hholds, ?_⟩,
    hi.order, fun ho => hi.ended ?_, fun ho => ?_⟩
  · unfold Accounted at hacc
    rw [hp] at hacc
    exact hacc
  · unfold World.Over at ho ⊢
    rwa [hcomplete, hexited] at ho
  · unfold World.Over
    rw [hcomplete, hexited]
    exact .inr (hended ho)

theorem Inv.look (hi : Inv size id base w) {output : String} {child : ProcessStatus}
    (hp : w.phase = .asked output child) :
    Inv size id base { w with phase := .looked output child w.child.complete } := by
  obtain ⟨text, hholds, hacc⟩ := hi.holds
  obtain ⟨hactive, hfirst⟩ := hi.busy hp trivial
  refine ⟨fun _ => hactive, fun _ => hfirst, ⟨text, hholds, ?_⟩,
    hi.order, hi.ended, fun ho => ?_⟩
  · unfold Accounted at hacc
    rw [hp] at hacc
    exact hacc
  · rcases ho with hcomplete | hended
    · exact .inl hcomplete
    · exact hi.seen (by rw [hp]; exact hended)

/-- What a poll of a running task got is sent; a poll that completes the task must have found
the buffer empty again. -/
theorem Inv.judge (hi : Inv size id base w) {output : String} {child : ProcessStatus}
    {complete : Bool} (hp : w.phase = .looked output child complete)
    (hpoll : i.poll = { child, complete, result := w.child.result, output })
    (hrun : GdaemonTasks.runNext tz i w.tasks = .ok s)
    (hempty : w.phase.Over → w.output.readable = 0) :
    Inv size id base { w with
      tasks := s, phase := if i.poll.cmdCompleted then .done child else .idle } := by
  obtain ⟨text, hholds, hacc⟩ := hi.holds
  obtain ⟨hactive, hfirst⟩ := hi.busy hp trivial
  obtain ⟨hrunning, hcompleted⟩ := hfirst.runNext hactive hrun
  unfold Accounted at hacc
  rw [hp] at hacc
  simp only at hacc
  cases hc : i.poll.cmdCompleted with
  | false =>
    obtain ⟨hactive, hlog⟩ := hrunning hc
    refine ⟨fun _ => hactive, fun hb => hb.elim, ⟨text, hholds, ?_⟩, hi.order, hi.ended,
      fun ho => ho.elim⟩
    show outputs id s.log ++ text = _
    rw [hlog, hpoll, List.append_assoc]
    exact hacc
  | true =>
    have hover : w.phase.Over := by
      rw [hp]
      rw [cmdCompleted_iff, hpoll] at hc
      exact hc
    have htext : text = [] := by
      rw [← List.length_eq_zero_iff, ← hholds.readable]
      exact hempty hover
    refine ⟨fun hnot => ?_, fun hb => hb.elim,
      ⟨text, hholds, hi.ended (hi.seen hover), ?_⟩, hi.order, hi.ended, fun _ => hi.seen hover⟩
    · rcases hnot with hnot | hnot <;> cases hnot
    have hlog := hcompleted hc
    rw [hpoll] at hlog
    rw [htext, List.append_nil] at hacc
    rw [hlog, ← List.append_assoc, hacc, List.append_assoc]

/-- **What a step keeps.** -/
theorem Inv.micro {l : Label} (hi : Inv size id base w) (hfits : Fits size w l)
    (hdrained : Drained w l) (h : Micro tz size id w l w') : Inv size id base w' := by
  cases h with
  | append htodo => exact hi.append htodo hfits hdrained
  | act htodo => exact hi.act htodo
  | killed => exact hi.killed
  | other hp hno hstep => exact hi.other hp hno hstep
  | get hp hf => exact hi.get hp hf
  | clear hp => exact hi.clear hp
  | ask hp => exact hi.ask hp
  | look hp => exact hi.look hp
  | judge hp hpoll hrun => exact hi.judge hp hpoll hrun hdrained

/-! ## The output of a completed task -/

/-- **The panel receives the whole output.** In a run in which no line is appended between a get
and its clear, and the task is not found completed while its buffer holds anything, the panel has
at the end received what the child appended, each character once and in order, and behind it at
most the notice. -/
theorem output_complete {ok : GdaemonTasks → GdaemonTasks.Op → Prop} {gslist : GameServersList}
    {b : Bool} {lines : List String} {e : TaskProcess.Ending} (hsize : 1 ≤ size)
    (hrun : Run (Step tz) ok (GdaemonTasks.init gslist) s) (hcmd : id ∈ s.activeCmds)
    (hpid : id ∈ s.cmdProcesses)
    (h : Run (Micro tz size id) (fun w l => Fits size w l ∧ Drained w l) (forked b s lines e) w)
    {child : ProcessStatus} (hdone : w.phase = .done child) :
    outputs id w.tasks.log = outputs id s.log ++ (w.appended ++ (notice child).toList) := by
  have hactive : ActiveInv s := activeInv_of_run hrun
  have hstart : Active id s := ⟨hactive.toIdsInv, hactive.active id hcmd, hcmd, hpid⟩
  have hi : Inv size id (outputs id s.log) w :=
    h.invariant (forked_inv hsize hstart) fun _ _ _ hi hok hs => hi.micro hok.1 hok.2 hs
  obtain ⟨text, -, hacc⟩ := hi.holds
  unfold Accounted at hacc
  rw [hdone] at hacc
  exact hacc.2

/-! ## Two interleavings -/

/-- Every request is answered. -/
def Answers (w : World) : Label → Prop
  | .other o => Answered w.tasks o
  | .judge i => Answered w.tasks (.runNext i)
  | _ => True

/-- Task 5, which stops server 1, has been started. -/
def started : GdaemonTasks :=
  performAll [.update (some [answeredEntry 5 "gsstop"]), .runNext (answeredRun runningPoll)]

theorem run_started :
    Run (Step 0) Answered (GdaemonTasks.init (GameServersList.plainList [1])) started := by
  have h0 : Run (Step 0) Answered plainInit (performAll []) := .refl plainInit
  have h1 := run_snoc [] (.update (some [answeredEntry 5 "gsstop"])) h0 (by decide) (by decide)
  exact run_snoc _ (.runNext (answeredRun runningPoll)) h1 (by decide) (by decide)

theorem started_first : First 5 started :=
  ⟨TaskProcess.stopTask, [], by decide, rfl, by decide⟩

/-- The poll that completes the task, with what it got. -/
def doneRun (output : String) : RunInput := answeredRun { donePoll with output }

/-- The scheduler after this poll. -/
def completedWith (output : String) : GdaemonTasks :=
  resultD started (runNext 0 (doneRun output) started)

/-- The child does all that is left to do. -/
theorem run_acts {ok : World → Label → Prop} {w0 : World} {acts : List TaskProcess.Act}
    (hok : ∀ w a, ok w (.act a)) (h : Run (Micro tz size id) ok w0 w)
    (ht : w.todo = acts.map .act) : Run (Micro tz size id) ok w0
      { w with child := acts.foldl TaskProcess.Child.act w.child, todo := [] } := by
  induction acts generalizing w with
  | nil =>
    obtain ⟨tasks, output, child, killed, todo, phase, appended⟩ := w
    cases ht
    exact h
  | cons a acts ih => exact ih (h.step (hok w a) (.act ht)) rfl

/-- The end of the poll that finds the child exited. -/
theorem run_done {ok : World → Label → Prop} {w0 : World} {output : String}
    (h : Run (Micro tz size id) ok w0 w) (hask : ok w .ask) (hp : w.phase = .cleared output)
    (hc : w.child = { result := true, complete := true, exited := true, reaped := false })
    (hk : w.killed = false) (hlook : ∀ w, ok w .look)
    (hjudge : ∀ w', w'.output = w.output → ok w' (.judge i))
    (hpoll : i.poll = { donePoll with output }) (hrun : runNext tz i w.tasks = .ok s) :
    Run (Micro tz size id) ok w0 { w with
      tasks := s, child := { w.child with reaped := true }, phase := .done .success } := by
  have hstatus : w.status = (.success, { w.child with reaped := true }) := by
    unfold World.status TaskProcess.Child.status
    rw [hk, hc]
    rfl
  have h1 := h.step hask (.ask hp)
  rw [hstatus] at h1
  have h2 := h1.step (hlook _) (.look rfl)
  have h3 := h2.step (hjudge _ rfl) (.judge rfl (by rw [hpoll, hc]; rfl) hrun)
  have hcompleted : i.poll.cmdCompleted = true := by
    rw [hpoll]
    rfl
  rw [hcompleted] at h3
  exact h3

/-- The poll comes after the exit. -/
theorem output_complete_ok : outputs 5 (completedWith "ok\n").log = "ok\n".toList := by
  have h1 : Run (Micro 0 2000000 5) (fun w l => Fits 2000000 w l ∧ Drained w l)
      (forked false started ["ok"] (.executed true)) _ :=
    (Run.refl _).step (i := Label.append "ok")
      ⟨(by decide : 0 + 3 < 2000000), fun _ => Phase.noConfusion⟩ (.append rfl)
  have h2 := run_acts (fun _ _ => ⟨trivial, trivial⟩) h1 rfl
  have h3 := h2.step (i := Label.get) ⟨trivial, trivial⟩ (.get rfl started_first)
  have h4 := h3.step (i := Label.clear) ⟨trivial, trivial⟩ (.clear rfl)
  have h5 := run_done (i := doneRun "ok\n") h4 ⟨trivial, trivial⟩ rfl rfl rfl
    (fun _ => ⟨trivial, trivial⟩) (fun w hw => ⟨trivial, fun _ => by rw [hw]; rfl⟩) rfl
    (eq_ok_resultD started (by decide))
  have hsent := output_complete (by decide) run_started (by decide) (by decide) h5 rfl
  exact hsent.trans (by decide)

/-- One line comes between the get and the clear of a poll, and another one before this poll
finds the command complete: the panel receives neither, and the task has succeeded. -/
theorem output_lost :
    ¬ ∀ (tz : Int) (size id : Nat) (gslist : GameServersList) (s : GdaemonTasks) (b : Bool)
        (lines : List String) (e : TaskProcess.Ending) (w : World) (child : ProcessStatus),
      1 ≤ size → Run (Step tz) Answered (GdaemonTasks.init gslist) s → id ∈ s.activeCmds →
        id ∈ s.cmdProcesses →
        Run (Micro tz size id) (fun w l => Fits size w l ∧ Answers w l) (forked b s lines e) w →
        w.phase = .done child → ∃ note ∈ ["", "Child process failure"],
          outputs id w.tasks.log = outputs id s.log ++ (w.appended ++ note.toList) := by
  intro h
  have h1 : Run (Micro 0 2000000 5) (fun w l => Fits 2000000 w l ∧ Answers w l)
      (forked false started ["a", "b"] (.executed true)) _ :=
    (Run.refl _).step (i := Label.get) ⟨trivial, trivial⟩ (.get rfl started_first)
  have h2 := h1.step (i := Label.append "a") ⟨(by decide : 0 + 2 < 2000000), trivial⟩ (.append rfl)
  have h3 := h2.step (i := Label.clear) ⟨trivial, trivial⟩ (.clear rfl)
  have h4 := h3.step (i := Label.append "b") ⟨(by decide : 0 + 2 < 2000000), trivial⟩ (.append rfl)
  have h5 := run_acts (fun _ _ => ⟨trivial, trivial⟩) h4 rfl
  have h6 := run_done (i := doneRun "") h5 ⟨trivial, trivial⟩ rfl rfl rfl
    (fun _ => ⟨trivial, trivial⟩) (fun _ _ => ⟨trivial, (by decide : Answered started (.runNext _))⟩)
    rfl (eq_ok_resultD started (by decide))
  obtain ⟨note, -, hsent⟩ := h 0 2000000 5 _ _ _ _ _ _ _ (by decide) run_started (by decide)
    (by decide) h6 rfl
  have hnothing : outputs 5 (completedWith "").log = outputs 5 started.log := by decide
  have hall := congrArg List.length (hnothing.symm.trans hsent)
  simp at hall

end TaskOutput

end GameAP
