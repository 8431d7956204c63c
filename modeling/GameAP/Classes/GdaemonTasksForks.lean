import GameAP.Classes.GdaemonTasksQueue

/-!
# Tasks whose fork fails

The daemon's tasks together with its children. When `fork` fails, `run_process` returns -1, which
`start` keeps in `cmd_processes` as the number of a process; the next `proceed` of the task hands
it to `waitpid`, where -1 stands for any child. `failed_forks_harmless`: as long as each such call
finds children that have exited and no process of a task among them, a task without a process
becomes an error at once, and every other task gets the status that its own process earns it.
-/

namespace GameAP

open Lib

namespace TaskForks

/-- A child of the daemon that has not been waited for. -/
structure Process where
  pid : Int
  /-- the task whose command it executes, until the daemon is done with the command -/
  task : Option Nat
  /-- whether it has exited by itself or has been killed -/
  ended : Option Bool
  deriving DecidableEq, Repr

/-- What a command shares with its process. -/
structure Shared where
  result : Bool
  complete : Bool
  deriving DecidableEq, Repr

/-- The memory of a new command. -/
def Shared.new : Shared := { result := false, complete := false }

structure World where
  daemon : GdaemonTasks
  processes : List Process
  /-- the memory of the command of a task -/
  memory : Nat → Shared

def World.init (gslist : GameServersList) : World :=
  { daemon := GdaemonTasks.init gslist, processes := [], memory := fun _ => .new }

/-! ## The children -/

inductive Act where
  | writeResult (result : Bool)
  | setComplete
  | exit
  | kill
  deriving DecidableEq, Repr

/-- The memory is that of the command, as long as the daemon has one. -/
def World.write (p : Process) (f : Shared → Shared) (w : World) : World :=
  match p.task with
  | none => w
  | some id => { w with memory := Function.update w.memory id (f (w.memory id)) }

def World.endProcess (p : Process) (exited : Bool) (w : World) : World :=
  { w with
    processes := w.processes.map fun q => if q = p then { q with ended := some exited } else q }

/-- A step of a child; one that has ended does nothing. -/
def World.act (w : World) (x : Int × Act) : World :=
  match w.processes.find? fun p => p.pid = x.1 ∧ p.ended = none with
  | none => w
  | some p =>
    match x.2 with
    | .writeResult result => w.write p fun m => { m with result }
    | .setComplete => w.write p fun m => { m with complete := true }
    | .exit => w.endProcess p true
    | .kill => w.endProcess p false

/-- What `waitpid` tells of a child. -/
def status (ended : Option Bool) : ProcessStatus :=
  match ended with
  | none => .working
  | some exited => if exited then .success else .fail

/-- For -1 the kernel picks a child. -/
def asked (pid pick : Int) : Int := if pid = -1 then pick else pid

def childProcessStatus (pid pick : Int) (processes : List Process) :
    ProcessStatus × List Process :=
  match processes.find? fun p => p.pid = asked pid pick ∧ p.ended ≠ none with
  | some p => (status p.ended, processes.filter fun q => q.pid ≠ p.pid)
  | none => (.working, processes)

/-! ## The daemon -/

/-- The first task and the number of its process, if `proceed` is called for it and finds both. -/
def polled (s : GdaemonTasks) : Option (Nat × Int) :=
  match s.tasks with
  | [] => none
  | task :: _ =>
    if GdaemonTasks.Blocked s task ∨ task.status ≠ .working ∨ task.id ∉ s.activeCmds then none
    else (s.cmdProcesses.lookup task.id).map fun pid => (task.id, pid)

/-- What a `run_next` meets. -/
structure Turn where
  input : GdaemonTasks.RunInput
  /-- what `fork` returns if the task is started, `none` if it fails -/
  fork : Option Int
  /-- the child that `waitpid(-1)` returns -/
  pick : Int
  /-- what the children do after `waitpid`, and after `m_complete` is read -/
  waited : List (Int × Act)
  looked : List (Int × Act)

/-- A `proceed` asks `waitpid` and then reads `m_complete` and `m_result`. -/
def observe (t : Turn) (id : Nat) (pid : Int) (w : World) : Poll × World :=
  let (child, processes) := childProcessStatus pid t.pick w.processes
  let w1 := t.waited.foldl World.act { w with processes }
  let w2 := t.looked.foldl World.act w1
  ({ child, complete := (w1.memory id).complete, result := (w2.memory id).result,
     output := t.input.poll.output }, w2)

/-- The daemon is done with the command of a task. -/
def Process.letGo (id : Nat) (p : Process) : Process :=
  if p.task = some id then { p with task := none } else p

/-- A command that is new in `active_cmds` has new memory, and a process if the fork succeeded;
the process of one that is no longer there has no command any more. -/
def settle (old : GdaemonTasks) (id : Nat) (fork : Option Int) (w : World) : World :=
  if id ∉ w.daemon.activeCmds then
    { w with processes := w.processes.map (Process.letGo id) }
  else if id ∉ old.activeCmds then
    { w with
      memory := Function.update w.memory id .new
      processes := w.processes ++
        fork.toList.map fun pid => { pid, task := some id, ended := none } }
  else w

/-- What the daemon has read when it goes on. -/
def read (t : Turn) (w : World) : Poll × World :=
  match polled w.daemon with
  | some (id, pid) => observe t id pid w
  | none => (t.input.poll, w)

def runNext (tz : Int) (t : Turn) (w : World) : Except Exn World := do
  let i := { t.input with pid := t.fork.getD (-1), poll := (read t w).1 }
  let daemon ← GdaemonTasks.runNext tz i w.daemon
  match w.daemon.tasks with
  | [] => return { (read t w).2 with daemon }
  | task :: _ => return settle w.daemon task.id t.fork { (read t w).2 with daemon }

/-! ## Steps -/

inductive Action where
  | checkAfterCrash (reply : Option (List GdaemonTasks.Entry))
  | update (reply : Option (List GdaemonTasks.Entry))
  | runNext (t : Turn)
  | act (pid : Int) (a : Act)
  /-- another part of the daemon starts a process -/
  | forkOther (pid : Int)
  /-- it waits for it -/
  | waitOther (pid : Int)

def perform (tz : Int) (w : World) : Action → Except Exn World
  | .checkAfterCrash reply => do
    return { w with daemon := ← GdaemonTasks.checkAfterCrash tz reply w.daemon }
  | .update reply => do return { w with daemon := ← GdaemonTasks.update tz reply w.daemon }
  | .runNext t => runNext tz t w
  | .act pid a => return w.act (pid, a)
  | .forkOther pid =>
    return { w with processes := w.processes ++ [{ pid, task := none, ended := none }] }
  | .waitOther pid => return { w with processes := w.processes.filter fun q => q.pid ≠ pid }

/-- A number that `fork` may return. -/
def Fresh (w : World) (pid : Int) : Prop := 0 < pid ∧ ∀ p ∈ w.processes, p.pid ≠ pid

/-- `waitpid(-1)` returns a child that has ended, if there is one. -/
def Picks (w : World) (pick : Int) : Prop :=
  (∃ p ∈ w.processes, p.ended ≠ none) → ∃ p ∈ w.processes, p.ended ≠ none ∧ p.pid = pick

/-- What the kernel does, and the rest of the daemon. -/
def Allowed (w : World) : Action → Prop
  | .runNext t => (∀ pid ∈ t.fork, Fresh w pid) ∧ Picks w t.pick
  | .forkOther pid => Fresh w pid
  | .waitOther pid => ∃ p ∈ w.processes, p.pid = pid ∧ p.task = none ∧ p.ended ≠ none
  | _ => True

instance (w : World) (pid : Int) : Decidable (Fresh w pid) := inferInstanceAs (Decidable (_ ∧ _))

instance (w : World) (pick : Int) : Decidable (Picks w pick) := inferInstanceAs (Decidable (_ → _))

instance (w : World) (a : Action) : Decidable (Allowed w a) :=
  match a with
  | .runNext t => inferInstanceAs (Decidable ((∀ pid ∈ t.fork, Fresh w pid) ∧ Picks w t.pick))
  | .forkOther pid => inferInstanceAs (Decidable (Fresh w pid))
  | .waitOther pid => inferInstanceAs (Decidable (∃ p ∈ w.processes, p.pid = pid ∧ _))
  | .checkAfterCrash _ | .update _ | .act _ _ => isTrue trivial

/-- A step that throws nothing. -/
def Step (tz : Int) (w : World) (a : Action) (w' : World) : Prop :=
  Allowed w a ∧ perform tz w a = .ok w'

/-- Some children have ended, and no process of a task is among them. -/
def OthersEnded (w : World) : Prop :=
  (∃ p ∈ w.processes, p.ended ≠ none) ∧ ∀ p ∈ w.processes, p.ended ≠ none → p.task = none

instance (w : World) : Decidable (OthersEnded w) := inferInstanceAs (Decidable (_ ∧ _))

/-- This is so in every poll for -1. -/
def Spared (w : World) : Action → Prop
  | .runNext _ => ∀ id, polled w.daemon = some (id, -1) → OthersEnded w
  | _ => True

/-- No fork fails. -/
def Forks (_ : World) : Action → Prop
  | .runNext t => t.fork ≠ none
  | _ => True

/-! ## What a task is told -/

/-- What a poll of a task sees of the command and of its own process. -/
structure Sight where
  ended : Option Bool
  complete : Bool
  result : Bool
  deriving DecidableEq, Repr

/-- The status of a working task after a poll. -/
def verdict (poll : Poll) : GdaemonTask.Status :=
  if poll.cmdCompleted then (if poll.succeeded then .success else .error) else .working

/-- The status that the task's own process earns it. -/
def Sight.verdict (x : Sight) : GdaemonTask.Status :=
  TaskForks.verdict
    { child := status x.ended, complete := x.complete, result := x.result, output := "" }

/-- The sight of a task that has a process. -/
def sight (t : Turn) (id : Nat) (pid : Int) (w : World) : Option Sight :=
  (w.processes.find? fun p => p.task = some id).map fun p =>
    let poll := (observe t id pid w).1
    { ended := p.ended, complete := poll.complete, result := poll.result }

/-- The status of a task in an event. -/
def statusIn (id : Nat) : GdaemonTasks.Event → Option GdaemonTask.Status
  | .status other st _ => if other = id then some st else none
  | .started _ _ | .completed _ _ _ | .installStatus _ _ | .output _ _ => none

/-- The last status of a task that was sent to the panel. -/
def lastStatus (id : Nat) (log : List GdaemonTasks.Event) : Option GdaemonTask.Status :=
  log.reverse.findSome? (statusIn id)

variable {tz : Int} {w w' : World} {t : Turn} {id : Nat} {pid : Int}

/-! ## Which process belongs to which task -/

/-- The numbers of the processes, with their tasks. -/
def World.links (w : World) : List (Int × Option Nat) := w.processes.map fun p => (p.pid, p.task)

theorem mem_links {l : Int × Option Nat} :
    l ∈ w.links ↔ ∃ p ∈ w.processes, (p.pid, p.task) = l := List.mem_map

/-- Every task with a process in `cmd_processes` has that process or -1, and one with -1 has
memory that nobody writes. -/
structure Linked (cmdProcesses : Table Nat Int) (links : List (Int × Option Nat))
    (memory : Nat → Shared) : Prop where
  pids : (links.map Prod.fst).Nodup
  positive : ∀ l ∈ links, 0 < l.1
  owned : ∀ pid id, (pid, some id) ∈ links → cmdProcesses.lookup id = some pid
  process : ∀ id pid, cmdProcesses.lookup id = some pid → pid = -1 ∨ (pid, some id) ∈ links
  unrun : ∀ id, cmdProcesses.lookup id = some (-1) → memory id = .new

section Linked

variable {c c' : Table Nat Int} {ls : List (Int × Option Nat)} {m m' : Nat → Shared}

/-- A task whose fork failed has no process. -/
theorem Linked.no_process (h : Linked c ls m) (hid : c.lookup id = some (-1)) (pid : Int) :
    (pid, some id) ∉ ls := by
  intro hm
  have hpos : 0 < pid := h.positive _ hm
  have hpid : some pid = some (-1) := (h.owned _ _ hm).symm.trans hid
  rw [Option.some.inj hpid] at hpos
  exact absurd hpos (by decide)

/-- Two processes do not have the same number. -/
theorem Linked.task_eq (h : Linked c ls m) {l l' : Int × Option Nat} (hl : l ∈ ls) (hl' : l' ∈ ls)
    (he : l.1 = l'.1) : l = l' := List.inj_on_of_nodup_map h.pids hl hl' he

theorem Linked.memory (h : Linked c ls m) (hm : ∀ id, (∀ pid, (pid, some id) ∉ ls) → m' id = m id) :
    Linked c ls m' :=
  { h with unrun := fun id hid => (hm id (h.no_process hid)).trans (h.unrun id hid) }

/-- A process without a task is waited for. -/
theorem Linked.waited (h : Linked c ls m) (hpid : ∀ l ∈ ls, l.1 = pid → l.2 = none) :
    Linked c (ls.filter fun l => l.1 ≠ pid) m where
  pids := h.pids.sublist (List.filter_sublist.map _)
  positive := fun l hl => h.positive l (List.mem_of_mem_filter hl)
  owned := fun pid' id hl => h.owned pid' id (List.mem_of_mem_filter hl)
  process := fun id pid' hid => (h.process id pid' hid).imp_right fun hl =>
    List.mem_filter.mpr ⟨hl, decide_eq_true fun he => by cases hpid _ hl he⟩
  unrun := h.unrun

def letGo (id : Nat) (l : Int × Option Nat) : Int × Option Nat :=
  if l.2 = some id then (l.1, none) else l

@[simp] theorem letGo_fst (id : Nat) (l : Int × Option Nat) : (letGo id l).1 = l.1 := by
  unfold letGo
  split <;> rfl

theorem letGo_snd {l : Int × Option Nat} (h : l.2 = none ∨ l.2 = some id) :
    (letGo id l).2 = none := by
  unfold letGo
  split
  · rfl
  · next hne => exact h.resolve_right hne

theorem mem_map_letGo {other : Nat} :
    (pid, some other) ∈ ls.map (letGo id) ↔ other ≠ id ∧ (pid, some other) ∈ ls := by
  rw [List.mem_map]
  constructor
  · rintro ⟨l, hl, he⟩
    unfold letGo at he
    split at he
    · cases he
    · next hne =>
      subst he
      exact ⟨fun heq => hne (congrArg some heq), hl⟩
  · rintro ⟨hne, hl⟩
    exact ⟨_, hl, if_neg fun heq => hne (Option.some.inj heq)⟩

/-- A task leaves `cmd_processes`, or is not there. -/
theorem Linked.letGo (h : Linked c ls m) (hid : c'.lookup id = none)
    (hother : ∀ other, other ≠ id → c'.lookup other = c.lookup other) :
    Linked c' (ls.map (letGo id)) m where
  pids := by
    rw [List.map_map]
    have hfst : Prod.fst ∘ TaskForks.letGo id = Prod.fst := funext (letGo_fst id)
    rw [hfst]
    exact h.pids
  positive := fun l hl => by
    obtain ⟨l', hl', rfl⟩ := List.mem_map.mp hl
    rw [letGo_fst]
    exact h.positive l' hl'
  owned := fun pid other hl => by
    obtain ⟨hne, hl⟩ := mem_map_letGo.mp hl
    exact (hother other hne).trans (h.owned pid other hl)
  process := fun other pid hl => by
    have hne : other ≠ id := by
      rintro rfl
      rw [hid] at hl
      cases hl
    rw [hother other hne] at hl
    exact (h.process other pid hl).imp_right fun hm => mem_map_letGo.mpr ⟨hne, hm⟩
  unrun := fun other hl => by
    have hne : other ≠ id := by
      rintro rfl
      rw [hid] at hl
      cases hl
    exact h.unrun other ((hother other hne).symm.trans hl)

/-- A process that belongs to no task. -/
theorem Linked.snoc_none (h : Linked c ls m) (hpos : 0 < pid) (hnew : ∀ l ∈ ls, l.1 ≠ pid) :
    Linked c (ls ++ [(pid, none)]) m where
  pids := by
    rw [List.map_append, List.map_singleton]
    refine h.pids.append (List.nodup_singleton _) fun x hx hx' => ?_
    obtain ⟨l, hl, rfl⟩ := List.mem_map.mp hx
    exact hnew l hl (List.mem_singleton.mp hx')
  positive := fun l hl => by
    rcases List.mem_append.mp hl with hl | hl
    · exact h.positive l hl
    · rw [List.mem_singleton.mp hl]
      exact hpos
  owned := fun pid' id hl => by
    rcases List.mem_append.mp hl with hl | hl
    · exact h.owned pid' id hl
    · cases List.mem_singleton.mp hl
  process := fun id pid' hid => (h.process id pid' hid).imp_right (List.mem_append_left _)
  unrun := h.unrun

theorem Linked.owned_emplace (h : Linked c ls m) (hid : id ∉ c) (p : Int) {other : Nat}
    (hl : (pid, some other) ∈ ls) : (c.emplace id p).lookup other = some pid := by
  have hlookup := h.owned pid other hl
  have hne : other ≠ id := by
    rintro rfl
    exact hid (Table.mem_of_lookup hlookup)
  exact (Table.lookup_emplace_ne hne).trans hlookup

theorem Linked.unrun_emplace (h : Linked c ls m) (p : Int) {other : Nat}
    (hl : (c.emplace id p).lookup other = some (-1)) :
    Function.update m id .new other = .new := by
  by_cases he : other = id
  · rw [he, Function.update_self]
  · rw [Function.update_of_ne he]
    exact h.unrun other ((Table.lookup_emplace_ne he).symm.trans hl)

/-- A task is started and its fork fails. -/
theorem Linked.not_forked (h : Linked c ls m) (hid : id ∉ c) :
    Linked (c.emplace id (-1)) ls (Function.update m id .new) where
  pids := h.pids
  positive := h.positive
  owned := fun _ _ hl => h.owned_emplace hid (-1) hl
  process := fun other pid hl => by
    by_cases he : other = id
    · subst he
      exact .inl (Option.some.inj (hl.symm.trans (Table.lookup_emplace_of_notMem hid)))
    · rw [Table.lookup_emplace_ne he] at hl
      exact h.process other pid hl
  unrun := fun _ hl => h.unrun_emplace (-1) hl

/-- A task is started and gets a process. -/
theorem Linked.forked (h : Linked c ls m) (hid : id ∉ c) (hpos : 0 < pid)
    (hnew : ∀ l ∈ ls, l.1 ≠ pid) :
    Linked (c.emplace id pid) (ls ++ [(pid, some id)]) (Function.update m id .new) where
  pids := by simpa using (h.snoc_none hpos hnew).pids
  positive := fun l hl => by
    rcases List.mem_append.mp hl with hl | hl
    · exact h.positive l hl
    · rw [List.mem_singleton.mp hl]
      exact hpos
  owned := fun other id' hl => by
    rcases List.mem_append.mp hl with hl | hl
    · exact h.owned_emplace hid pid hl
    · cases List.mem_singleton.mp hl
      exact Table.lookup_emplace_of_notMem hid
  process := fun other pid' hl => by
    by_cases he : other = id
    · subst he
      cases hl.symm.trans (Table.lookup_emplace_of_notMem hid)
      exact .inr (List.mem_append_right _ (List.mem_singleton_self _))
    · rw [Table.lookup_emplace_ne he] at hl
      exact (h.process other pid' hl).imp_right (List.mem_append_left _)
  unrun := fun _ hl => h.unrun_emplace pid hl

/-- A task is started. -/
theorem Linked.started (h : Linked c ls m) (hid : id ∉ c) (fork : Option Int)
    (hfork : ∀ pid, fork = some pid → 0 < pid ∧ ∀ l ∈ ls, l.1 ≠ pid) :
    Linked (c.emplace id (fork.getD (-1))) (ls ++ fork.toList.map fun pid => (pid, some id))
      (Function.update m id .new) := by
  cases fork with
  | none => simpa using h.not_forked hid
  | some pid =>
    obtain ⟨hpos, hnew⟩ := hfork pid rfl
    simpa using h.forked hid hpos hnew

end Linked

/-! ## What the children do -/

/-- The children change neither the daemon nor the processes' tasks, nor the memory of a task
without a process. -/
structure Frame (w w' : World) : Prop where
  daemon : w'.daemon = w.daemon
  links : w'.links = w.links
  memory : ∀ id, (∀ pid, (pid, some id) ∉ w.links) → w'.memory id = w.memory id

theorem Frame.refl (w : World) : Frame w w := ⟨rfl, rfl, fun _ _ => rfl⟩

theorem Frame.trans {w'' : World} (h : Frame w w') (h' : Frame w' w'') : Frame w w'' where
  daemon := h'.daemon.trans h.daemon
  links := h'.links.trans h.links
  memory := fun id hid => (h'.memory id (h.links ▸ hid)).trans (h.memory id hid)

theorem write_frame {p : Process} (hp : p ∈ w.processes) (f : Shared → Shared) :
    Frame w (w.write p f) := by
  unfold World.write
  split
  · exact .refl w
  · next id hid =>
    refine ⟨rfl, rfl, fun other hother => Function.update_of_ne ?_ _ _⟩
    rintro rfl
    exact hother p.pid (mem_links.mpr ⟨p, hp, by rw [hid]⟩)

theorem endProcess_frame (p : Process) (exited : Bool) (w : World) :
    Frame w (w.endProcess p exited) := by
  refine ⟨rfl, ?_, fun _ _ => rfl⟩
  unfold World.links World.endProcess
  rw [List.map_map]
  refine List.map_congr_left fun q _ => ?_
  dsimp only [Function.comp]
  split <;> rfl

theorem act_frame (x : Int × Act) : Frame w (w.act x) := by
  unfold World.act
  split
  · exact .refl w
  · next p hp =>
    have hmem := List.mem_of_find?_eq_some hp
    split
    · exact write_frame hmem _
    · exact write_frame hmem _
    · exact endProcess_frame p true w
    · exact endProcess_frame p false w

theorem acts_frame (l : List (Int × Act)) (w : World) : Frame w (l.foldl World.act w) := by
  induction l generalizing w with
  | nil => exact .refl w
  | cons x l ih => exact (act_frame x).trans (ih _)

/-! ## What `waitpid` does -/

theorem status_working {ended : Option Bool} : status ended = .working ↔ ended = none := by
  unfold status
  split
  · simp
  · split <;> simp

/-- It has ended and is waited for, or no child with this number has ended. -/
theorem childProcessStatus_cases (pid pick : Int) (ps : List Process) :
    (∃ p ∈ ps, p.pid = asked pid pick ∧ p.ended ≠ none ∧
      childProcessStatus pid pick ps = (status p.ended, ps.filter fun q => q.pid ≠ p.pid)) ∨
    (∀ p ∈ ps, p.pid = asked pid pick → p.ended = none) ∧
      childProcessStatus pid pick ps = (.working, ps) := by
  unfold childProcessStatus
  cases hfind : ps.find? fun p => p.pid = asked pid pick ∧ p.ended ≠ none with
  | some p =>
    have hdec := List.find?_some hfind
    have hp := of_decide_eq_true hdec
    exact .inl ⟨p, List.mem_of_find?_eq_some hfind, hp.1, hp.2, rfl⟩
  | none =>
    refine .inr ⟨fun p hp he => ?_, rfl⟩
    have hnot := List.find?_eq_none.mp hfind p hp
    exact not_not.mp fun hended => hnot (decide_eq_true ⟨he, hended⟩)

theorem links_filter (pid : Int) (w : World) :
    ({ w with processes := w.processes.filter fun q => q.pid ≠ pid } : World).links =
      w.links.filter fun l => l.1 ≠ pid := by
  unfold World.links
  rw [List.filter_map]
  rfl

/-- What a `proceed` has done when it has read the command: no child was waited for, or one that
has ended. -/
inductive Observed (t : Turn) (id : Nat) (pid : Int) (w : World) (poll : Poll) (w1 : World) :
    Prop where
  | working : (∀ p ∈ w.processes, p.pid = asked pid t.pick → p.ended = none) →
      poll.child = .working → Frame w w1 → Observed t id pid w poll w1
  | ended {p : Process} : p ∈ w.processes → p.pid = asked pid t.pick → p.ended ≠ none →
      poll.child = status p.ended →
      Frame { w with processes := w.processes.filter fun q => q.pid ≠ p.pid } w1 →
      Observed t id pid w poll w1

theorem observe_cases (t : Turn) (id : Nat) (pid : Int) (w : World) :
    Observed t id pid w (observe t id pid w).1 (observe t id pid w).2 := by
  rcases childProcessStatus_cases pid t.pick w.processes with
    ⟨p, hp, he, hended, hstatus⟩ | ⟨hnone, hstatus⟩
  · refine .ended hp he hended (congrArg Prod.fst hstatus) ?_
    unfold observe
    rw [hstatus]
    exact (acts_frame _ _).trans (acts_frame _ _)
  · refine .working hnone (congrArg Prod.fst hstatus) ?_
    unfold observe
    rw [hstatus]
    exact (acts_frame t.waited w).trans (acts_frame _ _)

theorem Observed.daemon {poll : Poll} {w1 : World} (h : Observed t id pid w poll w1) :
    w1.daemon = w.daemon := by
  cases h with
  | working _ _ hframe => exact hframe.daemon
  | ended _ _ _ _ hframe => exact hframe.daemon

/-- Nobody writes the memory of a task without a process. -/
theorem Observed.memory {poll : Poll} {w1 : World} (h : Observed t id pid w poll w1) {other : Nat}
    (hno : ∀ pid, (pid, some other) ∉ w.links) : w1.memory other = w.memory other := by
  cases h with
  | working _ _ hframe => exact hframe.memory other hno
  | ended _ _ _ _ hframe =>
    refine hframe.memory other fun pid' hl => ?_
    rw [links_filter] at hl
    exact hno pid' (List.mem_of_mem_filter hl)

theorem read_daemon (t : Turn) (w : World) : (read t w).2.daemon = w.daemon := by
  unfold read
  split
  · exact (observe_cases t _ _ w).daemon
  · rfl

/-! ## What the panel was told last -/

section Log

variable {log post : List GdaemonTasks.Event} {st : GdaemonTask.Status}

theorem lastStatus_quiet (h : ∀ e ∈ post, statusIn id e = none) :
    lastStatus id (log ++ post) = lastStatus id log := by
  have hnone : post.reverse.findSome? (statusIn id) = none :=
    List.findSome?_eq_none_iff.mpr fun e he => h e (List.mem_reverse.mp he)
  unfold lastStatus
  rw [List.reverse_append, List.findSome?_append, hnone, Option.none_or]

theorem lastStatus_sent (received : Bool) (h : post.getLast? = some (.status id st received)) :
    lastStatus id (log ++ post) = some st := by
  obtain ⟨pre, rfl⟩ := List.getLast?_eq_some_iff.mp h
  unfold lastStatus
  rw [← List.append_assoc, List.reverse_append, List.findSome?_append]
  simp [statusIn]

theorem outputEvents_quiet {task : GdaemonTask} {output : String} :
    ∀ e ∈ GdaemonTasks.outputEvents task output, statusIn id e = none := by
  intro e he
  rw [GdaemonTasks.mem_outputEvents he]
  rfl

end Log

/-! ## A turn of the daemon -/

section Turn

variable {i : GdaemonTasks.RunInput} {s d : GdaemonTasks} {task : GdaemonTask}
  {rest : List GdaemonTask}

theorem polled_eq_some (hs : s.tasks = task :: rest) :
    polled s = some (id, pid) ↔ ¬ GdaemonTasks.Blocked s task ∧ task.status = .working ∧
      task.id ∈ s.activeCmds ∧ task.id = id ∧ s.cmdProcesses.lookup id = some pid := by
  unfold polled
  rw [hs]
  dsimp only
  split
  · next h =>
    refine ⟨fun hp => (nomatch hp), fun ⟨hb, hw, ha, _⟩ => ?_⟩
    exact (h.elim hb fun h => h.elim (fun hne => hne hw) fun hna => hna ha).elim
  · next h =>
    have hb : ¬ GdaemonTasks.Blocked s task := fun hb => h (.inl hb)
    have hw : task.status = .working := not_not.mp fun hne => h (.inr (.inl hne))
    have ha : task.id ∈ s.activeCmds := not_not.mp fun hna => h (.inr (.inr hna))
    rw [Option.map_eq_some_iff]
    constructor
    · rintro ⟨pid', hl, he⟩
      cases he
      exact ⟨hb, hw, ha, rfl, hl⟩
    · rintro ⟨-, -, -, rfl, hl⟩
      exact ⟨pid, hl, rfl⟩

theorem of_polled (hp : polled s = some (id, pid)) :
    id ∈ s.activeCmds ∧ s.cmdProcesses.lookup id = some pid := by
  cases hs : s.tasks with
  | nil =>
    unfold polled at hp
    rw [hs] at hp
    cases hp
  | cons task rest =>
    obtain ⟨-, -, ha, rfl, hl⟩ := (polled_eq_some hs).mp hp
    exact ⟨ha, hl⟩

/-- A `run_next` starts the first task, completes it, or leaves the tables as they are. -/
inductive Turned (s : GdaemonTasks) (i : GdaemonTasks.RunInput) (id : Nat) (d : GdaemonTasks) :
    Prop where
  | started : id ∉ s.activeCmds → polled s = none →
      (∀ x, x ∈ d.activeCmds ↔ x = id ∨ x ∈ s.activeCmds) →
      d.cmdProcesses = s.cmdProcesses.emplace id i.pid →
      lastStatus id d.log = some .working → Turned s i id d
  | kept : (∀ x, x ∈ d.activeCmds ↔ x ∈ s.activeCmds) → d.cmdProcesses = s.cmdProcesses →
      (id ∈ s.activeCmds → lastStatus id d.log = lastStatus id s.log) →
      (∀ x, polled s = some x → i.poll.cmdCompleted = false) → Turned s i id d
  | completed {pid : Int} : polled s = some (id, pid) → i.poll.cmdCompleted = true →
      (∀ x, x ∈ d.activeCmds ↔ x ≠ id ∧ x ∈ s.activeCmds) →
      d.cmdProcesses = s.cmdProcesses.erase id →
      lastStatus id d.log = some (verdict i.poll) → Turned s i id d

theorem Turned.keys (h : Turned s i id d) (hkeys : ∀ x, x ∈ s.cmdProcesses ↔ x ∈ s.activeCmds)
    (x : Nat) : x ∈ d.cmdProcesses ↔ x ∈ d.activeCmds := by
  cases h with
  | started _ _ hact hproc => rw [hproc, Table.mem_emplace, hact, hkeys]
  | kept hact hproc => rw [hproc, hact, hkeys]
  | completed _ _ hact hproc => rw [hproc, hact, AList.mem_erase, hkeys]

/-- The panel was last told that each task with a command is working. -/
theorem Turned.sent (h : Turned s i id d)
    (hother : ∀ x, x ≠ id → lastStatus x d.log = lastStatus x s.log)
    (hsent : ∀ x ∈ s.activeCmds, lastStatus x s.log = some .working) {x : Nat}
    (hx : x ∈ d.activeCmds) : lastStatus x d.log = some .working := by
  by_cases hne : x = id
  · subst hne
    cases h with
    | started _ _ _ _ hlast => exact hlast
    | kept hact _ hlast =>
      have hold := (hact x).mp hx
      exact (hlast hold).trans (hsent x hold)
    | completed _ _ hact => exact absurd rfl ((hact x).mp hx).1
  · refine (hother x hne).trans (hsent x ?_)
    cases h with
    | started _ _ hact => exact ((hact x).mp hx).resolve_left hne
    | kept hact => exact (hact x).mp hx
    | completed _ _ hact => exact ((hact x).mp hx).2

theorem polled_none_of_waiting (hs : s.tasks = task :: rest) (hw : task.status = .waiting) :
    polled s = none := by
  rw [Option.eq_none_iff_forall_ne_some]
  rintro ⟨id, pid⟩ hp
  obtain ⟨-, hworking, -⟩ := (polled_eq_some hs).mp hp
  rw [hw] at hworking
  cases hworking

/-- Only the first task has the id of the first task. -/
theorem not_active_of_waiting (hi : GdaemonTasks.ActiveInv s) (hs : s.tasks = task :: rest)
    (hw : task.status = .waiting) : task.id ∉ s.activeCmds := by
  intro hm
  obtain ⟨u, hu, he, hworking⟩ := hi.active _ hm
  have hmem : task ∈ s.tasks := hs ▸ List.mem_cons_self
  obtain rfl := List.inj_on_of_nodup_map hi.nodup hu hmem he
  rw [hw] at hworking
  cases hworking

/-- A `run_next` tells nothing about other tasks. -/
theorem lastStatus_other (hi : GdaemonTasks.ActiveInv s) (hs : s.tasks = task :: rest)
    (h : GdaemonTasks.runNext tz i s = .ok d) (hne : id ≠ task.id) :
    lastStatus id d.log = lastStatus id s.log := by
  obtain ⟨first, tail, hs', hcase⟩ := GdaemonTasks.runNext_cases hi.pending h
  obtain ⟨rfl, rfl⟩ := List.cons.inj (hs.symm.trans hs')
  obtain ⟨new, hlog, hnew, -⟩ := hcase.events
  rw [hlog]
  refine lastStatus_quiet fun e he => ?_
  cases hnew e he with
  | status st => exact if_neg hne.symm
  | _ => rfl

theorem turned (hi : GdaemonTasks.ActiveInv s) (hkeys : ∀ x, x ∈ s.cmdProcesses ↔ x ∈ s.activeCmds)
    (hs : s.tasks = task :: rest) (h : GdaemonTasks.runNext tz i s = .ok d) :
    Turned s i task.id d := by
  by_cases hb : GdaemonTasks.Blocked s task
  · have hnone : ∀ x, polled s = some x → i.poll.cmdCompleted = false := fun x hx =>
      absurd hb ((polled_eq_some hs).mp hx).1
    rw [GdaemonTasks.runNext_blocked hs hb h]
    exact .kept (fun _ => Iff.rfl) rfl (fun _ => rfl) hnone
  obtain ⟨first, tail, hs', hcase⟩ := GdaemonTasks.runNext_cases hi.pending h
  obtain ⟨rfl, rfl⟩ := List.cons.inj (hs.symm.trans hs')
  cases hcase with
  | blocked hpos hex => exact absurd ⟨hpos, hex⟩ hb
  | started hw hm =>
    refine .started (not_active_of_waiting hi hs hw) (polled_none_of_waiting hs hw)
      (fun x => Table.mem_emplace) rfl ?_
    exact lastStatus_sent i.received (by simp)
  | rejected hw hm =>
    have hna := not_active_of_waiting hi hs hw
    refine .kept (fun x => ?_) rfl (fun ha => absurd ha hna) fun x hx => ?_
    · rw [AList.mem_erase]
      exact and_iff_right_of_imp fun hx he => hna (he ▸ hx)
    · rw [polled_none_of_waiting hs hw] at hx
      cases hx
  | lost hw hl =>
    refine .kept (fun _ => Iff.rfl) rfl (fun _ => rfl) fun x hx => ?_
    have ha := ((polled_eq_some hs).mp hx).2.2.1
    rw [← AList.lookup_isSome, hl] at ha
    cases ha
  | running hw hl hc =>
    refine .kept (fun _ => Iff.rfl) rfl (fun _ => lastStatus_quiet outputEvents_quiet) ?_
    rintro ⟨id, pid⟩ hx
    obtain ⟨-, -, -, rfl, hpid⟩ := (polled_eq_some hs).mp hx
    rw [hpid] at hc
    exact hc
  | completed hw hl hp hc =>
    have ha : task.id ∈ s.activeCmds :=
      Table.mem_of_lookup hl
    obtain ⟨pid, hpid⟩ := Table.exists_lookup ((hkeys _).mpr ha)
    rw [hpid] at hp
    subst hp
    refine .completed ((polled_eq_some hs).mpr ⟨hb, hw, ha, rfl, hpid⟩) hc
      (fun x => AList.mem_erase) rfl ?_
    have hst : (GdaemonTasks.completedTask i.poll task).status = verdict i.poll :=
      (if_pos hc).symm
    dsimp only
    rw [lastStatus_quiet outputEvents_quiet, ← hst]
    refine lastStatus_sent i.received ?_
    rw [← List.cons_append]
    exact List.getLast?_concat

end Turn

/-! ## The invariant -/

structure Inv (w : World) : Prop where
  active : GdaemonTasks.ActiveInv w.daemon
  keys : ∀ id, id ∈ w.daemon.cmdProcesses ↔ id ∈ w.daemon.activeCmds
  linked : Linked w.daemon.cmdProcesses w.links w.memory
  sent : ∀ id ∈ w.daemon.activeCmds, lastStatus id w.daemon.log = some .working

theorem inv_init (gslist : GameServersList) : Inv (.init gslist) where
  active := GdaemonTasks.init_activeInv gslist
  keys := fun id => by simp [World.init, GdaemonTasks.init]
  linked :=
    { pids := List.nodup_nil
      positive := fun l hl => nomatch hl
      owned := fun pid id hl => nomatch hl
      process := fun id pid hl => by simp [World.init, GdaemonTasks.init] at hl
      unrun := fun _ _ => rfl }
  sent := fun id hm => by simp [World.init, GdaemonTasks.init] at hm

/-- What the daemon's tables and the processes say does not change. -/
theorem Inv.frame (hi : Inv w) (h : Frame w w') : Inv w' where
  active := h.daemon ▸ hi.active
  keys := h.daemon ▸ hi.keys
  linked := by
    rw [h.daemon, h.links]
    exact hi.linked.memory h.memory
  sent := h.daemon ▸ hi.sent

theorem mem_link {p : Process} (hp : p ∈ w.processes) : (p.pid, p.task) ∈ w.links :=
  mem_links.mpr ⟨p, hp, rfl⟩

/-- A process without a task is waited for. -/
theorem Inv.waited {p : Process} (hi : Inv w) (hp : p ∈ w.processes) (ht : p.task = none) :
    Inv { w with processes := w.processes.filter fun q => q.pid ≠ p.pid } where
  active := hi.active
  keys := hi.keys
  linked := by
    rw [links_filter]
    refine hi.linked.waited fun l hl he => ?_
    rw [hi.linked.task_eq hl (mem_link hp) he, ht]
  sent := hi.sent

theorem Inv.forkOther (hi : Inv w) (hf : Fresh w pid) :
    Inv { w with processes := w.processes ++ [{ pid, task := none, ended := none }] } where
  active := hi.active
  keys := hi.keys
  linked := by
    have hlinks : World.links { w with
        processes := w.processes ++ [{ pid, task := none, ended := none }] } =
        w.links ++ [(pid, none)] := List.map_append
    rw [hlinks]
    refine hi.linked.snoc_none hf.1 fun l hl => ?_
    obtain ⟨p, hp, rfl⟩ := mem_links.mp hl
    exact hf.2 p hp
  sent := hi.sent

/-- An import changes nothing about the commands. -/
theorem imports_frame {s d : GdaemonTasks} {o : GdaemonTasks.Op} (ho : ∀ i, o ≠ .runNext i)
    (h : GdaemonTasks.Step tz s o d) : d.activeCmds = s.activeCmds ∧
      d.cmdProcesses = s.cmdProcesses ∧ d.log = s.log := by
  rcases GdaemonTasks.step_cases h with himp | ⟨i, rfl, -⟩
  · exact GdaemonTasks.importTasks_invariant (P := fun d => d.activeCmds = s.activeCmds ∧
      d.cmdProcesses = s.cmdProcesses ∧ d.log = s.log) himp ⟨rfl, rfl, rfl⟩ (fun _ _ ht => ht)
      fun _ _ _ _ _ _ _ _ ht => ht
  · exact absurd rfl (ho i)

theorem Inv.imports {daemon : GdaemonTasks} {o : GdaemonTasks.Op} (hi : Inv w)
    (ho : ∀ i, o ≠ .runNext i) (h : GdaemonTasks.Step tz w.daemon o daemon) :
    Inv { w with daemon } := by
  obtain ⟨ha, hc, hl⟩ := imports_frame ho h
  refine ⟨GdaemonTasks.step_activeInv hi.active h, ?_, ?_, ?_⟩
  · show ∀ id, id ∈ daemon.cmdProcesses ↔ id ∈ daemon.activeCmds
    rw [ha, hc]
    exact hi.keys
  · show Linked daemon.cmdProcesses w.links w.memory
    rw [hc]
    exact hi.linked
  · show ∀ id ∈ daemon.activeCmds, lastStatus id daemon.log = some .working
    rw [ha, hl]
    exact hi.sent

/-! ## A turn and the processes -/

/-- The parts of a `run_next`. -/
theorem runNext_cases (h : runNext tz t w = .ok w') : ∃ task rest daemon,
    w.daemon.tasks = task :: rest ∧
    GdaemonTasks.runNext tz { t.input with pid := t.fork.getD (-1), poll := (read t w).1 }
      w.daemon = .ok daemon ∧
    w' = settle w.daemon task.id t.fork { (read t w).2 with daemon } := by
  unfold runNext at h
  obtain ⟨daemon, hd, h⟩ := ok_of_bind h
  cases hs : w.daemon.tasks with
  | nil =>
    unfold GdaemonTasks.runNext GdaemonTasks.runNextWith at hd
    rw [hs] at hd
    cases hd
  | cons task rest =>
    rw [hs] at h
    exact ⟨task, rest, daemon, rfl, hd, (Except.ok.inj h).symm⟩

theorem read_of_none (h : polled w.daemon = none) : read t w = (t.input.poll, w) := by
  unfold read
  rw [h]

theorem read_of_some (h : polled w.daemon = some (id, pid)) : read t w = observe t id pid w := by
  unfold read
  rw [h]

theorem links_letGo (id : Nat) (w : World) :
    ({ w with processes := w.processes.map (Process.letGo id) } : World).links =
      w.links.map (letGo id) := by
  unfold World.links
  rw [List.map_map, List.map_map]
  refine List.map_congr_left fun p _ => ?_
  dsimp only [Function.comp, Process.letGo, letGo]
  split <;> rfl

@[simp] theorem settle_daemon (old : GdaemonTasks) (id : Nat) (fork : Option Int) (w : World) :
    (settle old id fork w).daemon = w.daemon := by
  unfold settle
  split
  · rfl
  · split <;> rfl

/-- A process that a poll waits for is that of the task, or of none. -/
theorem Inv.waited_task {p : Process} (hi : Inv w) (hok : Spared w (.runNext t))
    (hp : polled w.daemon = some (id, pid)) (hmem : p ∈ w.processes)
    (he : p.pid = asked pid t.pick) (hended : p.ended ≠ none) :
    p.task = none ∨ p.task = some id := by
  unfold asked at he
  by_cases hpid : pid = -1
  · subst hpid
    exact .inl ((hok id hp).2 p hmem hended)
  · rw [if_neg hpid] at he
    have hown := (hi.linked.process id pid (of_polled hp).2).resolve_left hpid
    have heq := hi.linked.task_eq (mem_link hmem) hown he
    exact .inr (congrArg Prod.snd heq)

/-- A completed poll reads a child that is not working. -/
theorem child_of_not_completed {poll : Poll} (h : poll.cmdCompleted = false) :
    poll.child = .working := by
  cases hc : poll.child <;> simp [Poll.cmdCompleted, hc] at h ⊢

/-- What a poll that finds the command running has read is in agreement with the daemon. -/
theorem Inv.read_kept (hi : Inv w)
    (h : ∀ x, polled w.daemon = some x → (read t w).1.cmdCompleted = false) : Inv (read t w).2 := by
  cases hp : polled w.daemon with
  | none =>
    rw [read_of_none hp]
    exact hi
  | some x =>
    have hrun := h x hp
    rw [read_of_some hp] at hrun ⊢
    cases observe_cases t x.1 x.2 w with
    | working _ _ hframe => exact hi.frame hframe
    | ended _ _ hended hchild _ =>
      exact absurd (hchild.symm.trans (child_of_not_completed hrun)) (mt status_working.mp hended)

theorem Inv.read_completed (hi : Inv w) (hok : Spared w (.runNext t))
    (hp : polled w.daemon = some (id, pid)) :
    Linked (w.daemon.cmdProcesses.erase id) ((read t w).2.links.map (letGo id))
      (read t w).2.memory := by
  have herased : ∀ {m}, Linked w.daemon.cmdProcesses w.links m →
      Linked (w.daemon.cmdProcesses.erase id) (w.links.map (TaskForks.letGo id)) m := fun h =>
    h.letGo (AList.lookup_erase id _) fun other hne => AList.lookup_erase_ne hne
  have hobs := observe_cases t id pid w
  have hmemory := herased (hi.linked.memory fun _ hno => hobs.memory hno)
  rw [read_of_some hp]
  cases hobs with
  | working _ _ hframe =>
    rw [hframe.links]
    exact hmemory
  | @ended p hmem he hended _ hframe =>
    have hlinks : ((observe t id pid w).2.links.map (TaskForks.letGo id)) =
        (w.links.map (TaskForks.letGo id)).filter fun l => l.1 ≠ p.pid := by
      rw [hframe.links, links_filter, List.filter_map]
      congr 2
      funext l
      simp
    rw [hlinks]
    refine hmemory.waited fun l hl heq => ?_
    obtain ⟨l', hl', rfl⟩ := List.mem_map.mp hl
    rw [letGo_fst] at heq
    rw [hi.linked.task_eq hl' (mem_link hmem) heq]
    exact letGo_snd (hi.waited_task hok hp hmem he hended)

/-- A command that is started gets its process, if the fork succeeds. -/
theorem Inv.settle_started {d : GdaemonTasks} (hi : Inv w) {fork : Option Int}
    (hfork : ∀ pid ∈ fork, Fresh w pid) (hna : id ∉ w.daemon.activeCmds) (hin : id ∈ d.activeCmds)
    (hproc : d.cmdProcesses = w.daemon.cmdProcesses.emplace id (fork.getD (-1))) :
    Linked d.cmdProcesses (settle w.daemon id fork { w with daemon := d }).links
      (settle w.daemon id fork { w with daemon := d }).memory := by
  have hnc : id ∉ w.daemon.cmdProcesses := fun hm => hna ((hi.keys _).mp hm)
  have hlinks := hi.linked.started hnc fork fun pid hpid => ⟨(hfork pid hpid).1, fun l hl => ?_⟩
  · unfold settle
    rw [if_neg (not_not.mpr hin), if_pos hna, hproc]
    simpa only [World.links, List.map_append, List.map_map, Function.comp_def] using hlinks
  · obtain ⟨p, hp, rfl⟩ := mem_links.mp hl
    exact (hfork pid hpid).2 p hp

/-- A task that gets no command and keeps the one it has. -/
theorem Inv.settle_kept {old d : GdaemonTasks} (hi : Inv w) {fork : Option Int}
    (hkeys : ∀ x, x ∈ d.cmdProcesses ↔ x ∈ d.activeCmds)
    (hact : id ∈ d.activeCmds → id ∈ old.activeCmds)
    (hproc : d.cmdProcesses = w.daemon.cmdProcesses) :
    Linked d.cmdProcesses (settle old id fork { w with daemon := d }).links
      (settle old id fork { w with daemon := d }).memory := by
  have hlinked : Linked d.cmdProcesses w.links w.memory := hproc ▸ hi.linked
  unfold settle
  split
  · next hout =>
    rw [links_letGo]
    refine hlinked.letGo ?_ fun _ _ => rfl
    rw [AList.lookup_eq_none, hkeys]
    exact hout
  · next hin =>
    rw [if_neg (not_not.mpr (hact (not_not.mp hin)))]
    exact hlinked

theorem Inv.runNext (hi : Inv w) (hok : Spared w (.runNext t))
    (hfork : ∀ pid ∈ t.fork, Fresh w pid) (h : runNext tz t w = .ok w') : Inv w' := by
  obtain ⟨task, rest, d, hs, hd, rfl⟩ := runNext_cases h
  have hactive : GdaemonTasks.ActiveInv d :=
    GdaemonTasks.step_activeInv (o := .runNext _) hi.active hd
  have hturned := turned hi.active hi.keys hs hd
  have hkeys := hturned.keys hi.keys
  have hsent : ∀ x ∈ d.activeCmds, lastStatus x d.log = some .working := fun x hx =>
    hturned.sent (fun _ hne => lastStatus_other hi.active hs hd hne) hi.sent hx
  have hlinked : Linked d.cmdProcesses
      (settle w.daemon task.id t.fork { (read t w).2 with daemon := d }).links
      (settle w.daemon task.id t.fork { (read t w).2 with daemon := d }).memory := by
    cases hturned with
    | started hna hnone hact hproc =>
      rw [read_of_none hnone]
      exact hi.settle_started hfork hna ((hact _).mpr (.inl rfl)) hproc
    | kept hact hproc _ hrun =>
      rw [← read_daemon t w] at hproc
      exact (hi.read_kept hrun).settle_kept hkeys (hact _).mp hproc
    | completed hp _ hact hproc =>
      have hout : task.id ∉ d.activeCmds := fun hm => ((hact _).mp hm).1 rfl
      unfold settle
      rw [if_pos hout, links_letGo, hproc]
      exact hi.read_completed hok hp
  refine ⟨?_, ?_, ?_, ?_⟩ <;> rw [settle_daemon]
  · exact hactive
  · exact hkeys
  · exact hlinked
  · exact hsent

theorem Inv.step {a : Action} (hi : Inv w) (hok : Spared w a) (h : Step tz w a w') : Inv w' := by
  obtain ⟨hallowed, h⟩ := h
  cases a with
  | checkAfterCrash reply =>
    obtain ⟨d, hd, h⟩ := ok_of_bind h
    cases h
    exact hi.imports (fun _ he => nomatch he) (o := .checkAfterCrash reply) hd
  | update reply =>
    obtain ⟨d, hd, h⟩ := ok_of_bind h
    cases h
    exact hi.imports (fun _ he => nomatch he) (o := .update reply) hd
  | runNext t => exact hi.runNext hok hallowed.1 h
  | act pid a =>
    cases h
    exact hi.frame (act_frame _)
  | forkOther pid =>
    cases h
    exact hi.forkOther hallowed
  | waitOther pid =>
    obtain ⟨p, hp, rfl, ht, -⟩ := hallowed
    cases h
    exact hi.waited hp ht

theorem inv_run {gslist : GameServersList} (h : Run (Step tz) Spared (.init gslist) w) : Inv w :=
  h.invariant (inv_init gslist) fun _ _ _ hi hok hs => hi.step hok hs

/-! ## The polls -/

/-- The status after a poll is what the poll has read. -/
theorem Inv.lastStatus_polled (hi : Inv w) (hp : polled w.daemon = some (id, pid))
    (h : TaskForks.runNext tz t w = .ok w') :
    lastStatus id w'.daemon.log = some (verdict (observe t id pid w).1) := by
  obtain ⟨task, rest, d, hs, hd, rfl⟩ := runNext_cases h
  obtain ⟨-, -, ha, rfl, -⟩ := (polled_eq_some hs).mp hp
  rw [settle_daemon]
  rw [read_of_some hp] at hd
  cases turned hi.active hi.keys hs hd with
  | started hna => exact absurd ha hna
  | kept _ _ hlast hrun =>
    refine (hlast ha).trans ((hi.sent _ ha).trans ?_)
    have hnot := hrun _ hp
    exact congrArg some (if_neg (ne_true_of_eq_false hnot)).symm
  | completed _ _ _ _ hlast => exact hlast

/-- A poll of a task without a process leaves its memory as the command was made with. -/
theorem Inv.memory_polled (hi : Inv w) (hp : polled w.daemon = some (id, -1)) :
    (observe t id (-1) w).2.memory id = .new := by
  have hlookup := (of_polled hp).2
  have hkept := (observe_cases t id (-1) w).memory (hi.linked.no_process hlookup)
  exact hkept.trans (hi.linked.unrun id hlookup)

/-- A task without a process is an error as soon as any child is waited for. -/
theorem Inv.failed_error (hi : Inv w) (hok : Spared w (.runNext t)) (hpick : Picks w t.pick)
    (hp : polled w.daemon = some (id, -1)) : verdict (observe t id (-1) w).1 = .error := by
  obtain ⟨q, hq, hended, hpid⟩ := hpick (hok id hp).1
  have hresult : (observe t id (-1) w).1.result = false :=
    congrArg Shared.result (hi.memory_polled hp)
  cases observe_cases t id (-1) w with
  | working hall _ _ => exact absurd (hall q hq hpid) hended
  | ended _ _ hpended hchild _ =>
    have hcompleted : (observe t id (-1) w).1.cmdCompleted = true := by
      cases hc : (observe t id (-1) w).1.cmdCompleted with
      | true => rfl
      | false =>
        have hworking := hchild.symm.trans (child_of_not_completed hc)
        exact absurd (status_working.mp hworking) hpended
    unfold verdict
    rw [if_pos hcompleted, if_neg]
    unfold Poll.succeeded
    rw [hresult]
    exact Bool.false_ne_true

theorem Inv.process_eq (hi : Inv w) {p q : Process} (hp : p ∈ w.processes) (hq : q ∈ w.processes)
    (he : p.pid = q.pid) : p = q := by
  refine List.inj_on_of_nodup_map ?_ hp hq he
  have hpids := hi.linked.pids
  unfold World.links at hpids
  rw [List.map_map] at hpids
  exact hpids

theorem Inv.find_process (hi : Inv w) {p : Process} (hp : p ∈ w.processes)
    (ht : p.task = some id) : w.processes.find? (fun q => q.task = some id) = some p := by
  cases hfind : w.processes.find? fun q => q.task = some id with
  | none => exact absurd (decide_eq_true ht) (List.find?_eq_none.mp hfind p hp)
  | some q =>
    have hq := List.mem_of_find?_eq_some hfind
    have hqt := List.find?_some hfind
    have hpl := hi.linked.owned p.pid id (ht ▸ mem_link hp)
    have hql := hi.linked.owned q.pid id (of_decide_eq_true hqt ▸ mem_link hq)
    rw [hi.process_eq hq hp (Option.some.inj (hql.symm.trans hpl))]

/-- The poll of a task with a process reads its own process. -/
theorem Inv.own_sight (hi : Inv w) (hp : polled w.daemon = some (id, pid)) (hpid : pid ≠ -1) :
    ∃ x, sight t id pid w = some x ∧ verdict (observe t id pid w).1 = x.verdict := by
  obtain ⟨p, hmem, hlink⟩ :=
    mem_links.mp ((hi.linked.process id pid (of_polled hp).2).resolve_left hpid)
  obtain ⟨rfl, htask⟩ := Prod.mk.inj hlink
  have hfind := hi.find_process hmem htask
  have hchild : (observe t id p.pid w).1.child = status p.ended := by
    cases observe_cases t id p.pid w with
    | working hall hchild _ =>
      rw [hchild, hall p hmem (if_neg hpid).symm]
      rfl
    | ended hq he _ hchild _ =>
      rw [hchild, hi.process_eq hq hmem (he.trans (if_neg hpid))]
  refine ⟨_, by rw [sight, hfind]; rfl, ?_⟩
  unfold Sight.verdict
  rw [← hchild]
  rfl

/-- The processes of the other tasks are still there after a turn. -/
theorem Inv.others_kept (hi : Inv w) (hi' : Inv w') (hp : polled w.daemon = some (id, pid))
    (h : TaskForks.runNext tz t w = .ok w') {p : Process} {other : Nat} (hmem : p ∈ w.processes)
    (ht : p.task = some other) (hne : other ≠ id) :
    ∃ q ∈ w'.processes, q.pid = p.pid ∧ q.task = p.task := by
  have hlink : (p.pid, some other) ∈ w.links := ht ▸ mem_link hmem
  obtain ⟨task, rest, d, hs, hd, hw'⟩ := runNext_cases h
  obtain ⟨-, -, ha, rfl, -⟩ := (polled_eq_some hs).mp hp
  have hlookup : w'.daemon.cmdProcesses.lookup other = some p.pid := by
    rw [hw', settle_daemon]
    show d.cmdProcesses.lookup other = some p.pid
    have hold := hi.linked.owned p.pid other hlink
    cases turned hi.active hi.keys hs hd with
    | started hna => exact absurd ha hna
    | kept _ hproc => rw [hproc, hold]
    | completed _ _ _ hproc => rw [hproc, AList.lookup_erase_ne hne, hold]
  have hpos : p.pid ≠ -1 := fun he => by
    have hpos : 0 < p.pid := hi.linked.positive _ hlink
    rw [he] at hpos
    exact absurd hpos (by decide)
  obtain ⟨q, hq, he⟩ := mem_links.mp ((hi'.linked.process other p.pid hlookup).resolve_left hpos)
  obtain ⟨hpid, htask⟩ := Prod.mk.inj he
  exact ⟨q, hq, hpid, htask.trans ht.symm⟩

/-- A poll that a failed fork has done no harm to. -/
structure Unharmed (w : World) (t : Turn) (id : Nat) (pid : Int) (w' : World) : Prop where
  failed : pid = -1 → lastStatus id w'.daemon.log = some .error
  own : pid ≠ -1 →
    ∃ x, sight t id pid w = some x ∧ lastStatus id w'.daemon.log = some x.verdict
  others : ∀ p ∈ w.processes, ∀ other, p.task = some other → other ≠ id →
    ∃ q ∈ w'.processes, q.pid = p.pid ∧ q.task = p.task

theorem Inv.unharmed (hi : Inv w) (hok : Spared w (.runNext t))
    (hstep : Step tz w (.runNext t) w') (hp : polled w.daemon = some (id, pid)) :
    Unharmed w t id pid w' := by
  obtain ⟨⟨hfork, hpick⟩, hrun⟩ := hstep
  have hlast := hi.lastStatus_polled hp hrun
  refine ⟨?_, fun hpid => ?_, fun p hmem other ht hne => ?_⟩
  · rintro rfl
    rw [hlast, hi.failed_error hok hpick hp]
  · obtain ⟨x, hx, hv⟩ := hi.own_sight hp hpid
    exact ⟨x, hx, by rw [hlast, hv]⟩
  · exact hi.others_kept (hi.runNext hok hfork hrun) hp hrun hmem ht hne

/-! ## Runs in which no fork fails -/

def NoneFailed (w : World) : Prop := ∀ id, w.daemon.cmdProcesses.lookup id ≠ some (-1)

theorem NoneFailed.spared (h : NoneFailed w) (a : Action) : Spared w a := by
  cases a with
  | runNext t => exact fun id hp => absurd (of_polled hp).2 (h id)
  | _ => trivial

theorem NoneFailed.runNext (hi : Inv w) (h : NoneFailed w) (hf : t.fork ≠ none)
    (hfork : ∀ pid ∈ t.fork, Fresh w pid) (hrun : runNext tz t w = .ok w') : NoneFailed w' := by
  obtain ⟨task, rest, d, hs, hd, rfl⟩ := runNext_cases hrun
  intro id
  rw [settle_daemon]
  show d.cmdProcesses.lookup id ≠ some (-1)
  cases turned hi.active hi.keys hs hd with
  | started hna _ _ hproc =>
    obtain ⟨pid, hpid⟩ := Option.ne_none_iff_exists'.mp hf
    rw [hproc, hpid]
    by_cases he : id = task.id
    · subst he
      rw [Table.lookup_emplace_of_notMem fun hm => hna ((hi.keys _).mp hm)]
      have hpos := (hfork pid hpid).1
      rintro he
      cases Option.some.inj he
      exact absurd hpos (by decide)
    · rw [Table.lookup_emplace_ne he]
      exact h id
  | kept _ hproc =>
    rw [hproc]
    exact h id
  | completed _ _ _ hproc =>
    rw [hproc]
    by_cases he : id = task.id
    · subst he
      rw [AList.lookup_erase]
      exact nofun
    · rw [AList.lookup_erase_ne he]
      exact h id

theorem NoneFailed.step {a : Action} (hi : Inv w) (h : NoneFailed w) (hf : Forks w a)
    (hs : Step tz w a w') : NoneFailed w' := by
  have hkeep : ∀ {d : GdaemonTasks}, d.cmdProcesses = w.daemon.cmdProcesses →
      ∀ id, d.cmdProcesses.lookup id ≠ some (-1) := fun he id => he ▸ h id
  obtain ⟨hallowed, hs⟩ := hs
  cases a with
  | checkAfterCrash reply =>
    obtain ⟨d, hd, hs⟩ := ok_of_bind hs
    cases hs
    exact hkeep (imports_frame (fun _ he => nomatch he) (o := .checkAfterCrash reply) hd).2.1
  | update reply =>
    obtain ⟨d, hd, hs⟩ := ok_of_bind hs
    cases hs
    exact hkeep (imports_frame (fun _ he => nomatch he) (o := .update reply) hd).2.1
  | runNext t => exact h.runNext hi hf hallowed.1 hs
  | act pid a =>
    cases hs
    exact hkeep (congrArg GdaemonTasks.cmdProcesses (act_frame (w := w) (pid, a)).daemon)
  | forkOther pid =>
    cases hs
    exact h
  | waitOther pid =>
    cases hs
    exact h

theorem inv_forks {gslist : GameServersList} (h : Run (Step tz) Forks (.init gslist) w) :
    Inv w ∧ NoneFailed w := by
  refine h.invariant (I := fun w => Inv w ∧ NoneFailed w) ⟨inv_init gslist, ?_⟩ ?_
  · exact fun id he => by simp [World.init, GdaemonTasks.init] at he
  · rintro v a v' ⟨hi, hn⟩ hf hs
    exact ⟨hi.step (hn.spared a) hs, hn.step hi hf hs⟩

/-! ## Nothing less will do -/

/-- A `proceed` throws nothing. -/
theorem runNext_returns (t : Turn) (hp : polled w.daemon = some (id, pid)) :
    ∃ w', runNext tz t w = .ok w' := by
  cases hs : w.daemon.tasks with
  | nil =>
    unfold polled at hp
    rw [hs] at hp
    cases hp
  | cons task rest =>
    obtain ⟨hb, hw, -⟩ := (polled_eq_some hs).mp hp
    obtain ⟨d, hd⟩ : ∃ d, GdaemonTasks.runNext tz
        { t.input with pid := t.fork.getD (-1), poll := (read t w).1 } w.daemon = .ok d := by
      unfold GdaemonTasks.Blocked at hb
      unfold GdaemonTasks.runNext GdaemonTasks.runNextWith
      rw [hs]
      simp only [if_neg hb, hw]
      exact ⟨_, rfl⟩
    refine ⟨settle w.daemon task.id t.fork { (read t w).2 with daemon := d }, ?_⟩
    unfold runNext
    dsimp only at hd ⊢
    rw [hd, hs]
    rfl

/-- Without a fork no number is new. -/
theorem settle_pids {old : GdaemonTasks} {q : Process} (hq : q ∈ (settle old id none w).processes) :
    ∃ p ∈ w.processes, p.pid = q.pid := by
  unfold settle at hq
  split at hq
  · obtain ⟨p, hp, rfl⟩ := List.mem_map.mp hq
    refine ⟨p, hp, ?_⟩
    unfold Process.letGo
    split <;> rfl
  · split at hq
    · simp only [Option.toList_none, List.map_nil, List.append_nil] at hq
      exact ⟨q, hq, rfl⟩
    · exact ⟨q, hq, rfl⟩

/-- A poll for -1 in which the children do nothing. -/
def Turn.polling (t : Turn) (pick : Int) : Turn :=
  { t with fork := none, pick, waited := [], looked := [] }

section Polling

variable (hp : polled w.daemon = some (id, -1))
  (hall : ∀ t w', Step tz w (.runNext t) w' → Unharmed w t id (-1) w')

include hp hall

theorem polling_unharmed (t : Turn) (pick : Int) (hpick : Picks w pick) :
    ∃ w', runNext tz (t.polling pick) w = .ok w' ∧ Unharmed w (t.polling pick) id (-1) w' := by
  obtain ⟨w', hrun⟩ : ∃ w', runNext tz (t.polling pick) w = .ok w' := runNext_returns _ hp
  exact ⟨w', hrun, hall _ w' ⟨⟨fun _ h => (nomatch h), hpick⟩, hrun⟩⟩

/-- While every child runs, the task goes on working. -/
theorem Inv.some_ended (hi : Inv w) (t : Turn) : ∃ p ∈ w.processes, p.ended ≠ none := by
  by_contra hno
  obtain ⟨w', hrun, hu⟩ := polling_unharmed hp hall t 0 fun h => absurd h hno
  have herror := (hi.lastStatus_polled hp hrun).symm.trans (hu.failed rfl)
  cases observe_cases (t.polling 0) id (-1) w with
  | ended hq _ hended => exact hno ⟨_, hq, hended⟩
  | working _ hchild _ =>
    have hcomplete : (observe (t.polling 0) id (-1) w).1.complete = false :=
      congrArg Shared.complete (hi.memory_polled (t := t.polling 0) hp)
    have hworking : verdict (observe (t.polling 0) id (-1) w).1 = .working := by
      simp [verdict, Poll.cmdCompleted, hchild, hcomplete]
    rw [hworking] at herror
    cases herror

/-- The kernel may pick any child that has ended, and then it is gone. -/
theorem Inv.ended_taskless (hi : Inv w) (t : Turn) {p : Process} (hmem : p ∈ w.processes)
    (hended : p.ended ≠ none) : p.task = none := by
  by_contra hne
  obtain ⟨other, ht⟩ := Option.ne_none_iff_exists'.mp hne
  obtain ⟨w', hrun, hu⟩ := polling_unharmed hp hall t p.pid fun _ =>
    ⟨p, hmem, hended, rfl⟩
  have hother : other ≠ id := by
    rintro rfl
    exact hi.linked.no_process (of_polled hp).2 p.pid (ht ▸ mem_link hmem)
  obtain ⟨q, hq, hpid, -⟩ := hu.others p hmem other ht hother
  obtain ⟨task, rest, d, -, -, rfl⟩ := runNext_cases hrun
  obtain ⟨q', hq', hpid'⟩ := settle_pids hq
  rw [read_of_some hp] at hq'
  cases observe_cases (t.polling p.pid) id (-1) w with
  | working hnone => exact hended (hnone p hmem rfl)
  | ended _ he _ _ hframe =>
    have hlink : (q'.pid, q'.task) ∈ (observe (t.polling p.pid) id (-1) w).2.links := mem_link hq'
    rw [hframe.links, links_filter] at hlink
    have hgone := of_decide_eq_true (List.mem_filter.mp hlink).2
    exact hgone ((hpid'.trans hpid).trans he.symm)

end Polling

/-- If a poll for -1 does no harm whatever the kernel picks, others have ended. -/
theorem Inv.others_ended (hi : Inv w) (hp : polled w.daemon = some (id, -1)) (t : Turn)
    (hall : ∀ t w', Step tz w (.runNext t) w' → Unharmed w t id (-1) w') : OthersEnded w :=
  ⟨hi.some_ended hp hall t, fun _ hmem hended => hi.ended_taskless hp hall t hmem hended⟩

/-- **When a failed fork harms nobody.** In every run whose polls for -1 all find that others have
ended: a poll, whatever the kernel picks, makes a task whose fork failed an error, gives another
task the status that its own process earns it and takes no process from the other tasks, exactly if
it finds the same. And the status of a task with a process is the one that it has, with the same
sight of its process, in a run in which no fork fails. -/
theorem failed_forks_harmless {gslist : GameServersList}
    (h : Run (Step tz) Spared (.init gslist) w) (hp : polled w.daemon = some (id, pid))
    (t : Turn) :
    ((∀ t w', Step tz w (.runNext t) w' → Unharmed w t id pid w') ↔
      (pid = -1 → OthersEnded w)) ∧
    (pid ≠ -1 → ∀ (gslist' : GameServersList) (w' v v' : World) (t' : Turn) (pid' : Int),
      Step tz w (.runNext t) w' → Run (Step tz) Forks (.init gslist') v →
      Step tz v (.runNext t') v' → polled v.daemon = some (id, pid') →
      sight t' id pid' v = sight t id pid w →
      lastStatus id v'.daemon.log = lastStatus id w'.daemon.log) := by
  have hi := inv_run h
  have hunharmed : (pid = -1 → OthersEnded w) → ∀ t w', Step tz w (.runNext t) w' →
      Unharmed w t id pid w' := fun hended t w' hstep => by
    refine hi.unharmed (fun id' hp' => hended ?_) hstep hp
    exact (Prod.mk.inj (Option.some.inj (hp.symm.trans hp'))).2
  refine ⟨⟨?_, hunharmed⟩, fun hpid gslist' w' v v' t' pid' hstep hv hstep' hp' hsight => ?_⟩
  · rintro hall rfl
    exact hi.others_ended hp t hall
  · obtain ⟨hiv, hn⟩ := inv_forks hv
    have hpid' : pid' ≠ -1 := fun he => hn id (he ▸ (of_polled hp').2)
    obtain ⟨x, hx, hlast⟩ := (hunharmed (fun he => absurd he hpid) t w' hstep).own hpid
    obtain ⟨y, hy, hlast'⟩ := (hiv.unharmed (hn.spared _) hstep' hp').own hpid'
    rw [hlast, hlast', Option.some.inj (hy.symm.trans (hsight.trans hx))]

/-! ## Two runs -/

def turn (fork : Option Int) (pick : Int) : Turn :=
  { input := GdaemonTasks.plainRun GdaemonTasks.runningPoll true, fork, pick, waited := [],
    looked := [] }

/-- The daemon after some steps, as far as they throw nothing. -/
def after (as : List Action) : World :=
  as.foldl (fun w a => resultD w (perform 0 w a)) (.init (GameServersList.plainList [1]))

theorem step_after (as : List Action) (a : Action) (hallowed : Allowed (after as) a)
    (h : (perform 0 (after as) a).toBool = true) : Step 0 (after as) a (after (as ++ [a])) := by
  have hlast : after (as ++ [a]) = resultD (after as) (perform 0 (after as) a) := by
    unfold after
    rw [List.foldl_append]
    rfl
  rw [hlast]
  exact ⟨hallowed, eq_ok_resultD _ h⟩

/-- No task is polled. -/
def Quiet (w : World) : Action → Prop
  | .runNext _ => polled w.daemon = none
  | _ => True

instance (w : World) (a : Action) : Decidable (Quiet w a) :=
  match a with
  | .runNext _ => inferInstanceAs (Decidable (polled w.daemon = none))
  | .checkAfterCrash _ | .update _ | .act _ _ | .forkOther _ | .waitOther _ => isTrue trivial

theorem Quiet.spared {a : Action} (h : Quiet w a) : Spared w a := by
  cases a with
  | runNext t => exact fun id hp => nomatch Eq.trans (Eq.symm h) hp
  | _ => trivial

/-- Steps that poll no task. -/
theorem run_after (as : List Action) (h : ∀ n : Fin as.length,
    Quiet (after (as.take n)) as[n] ∧ Allowed (after (as.take n)) as[n] ∧
      (perform 0 (after (as.take n)) as[n]).toBool = true) :
    Run (Step 0) Spared (.init (GameServersList.plainList [1])) (after as) := by
  have htake : ∀ n ≤ as.length,
      Run (Step 0) Spared (.init (GameServersList.plainList [1])) (after (as.take n)) := by
    intro n
    induction n with
    | zero => exact fun _ => .refl _
    | succ n ih =>
      intro hn
      obtain ⟨hquiet, hallowed, hok⟩ := h ⟨n, hn⟩
      rw [List.take_succ_eq_append_getElem hn]
      exact (ih (Nat.le_of_succ_le hn)).step hquiet.spared
        (step_after _ _ hallowed hok)
  have hall := htake as.length le_rfl
  rwa [List.take_length] at hall

/-- The fork of task 5 fails, the process of task 6 has the number 7. -/
def oneFailed : List Action :=
  [.update (some [GdaemonTasks.plainEntry 5 "gsstop" 1 1, GdaemonTasks.plainEntry 6 "gsstop" 1 1]),
    .runNext (turn none 0), .runNext (turn (some 7) 0)]

/-- Another part of the daemon has a child that has exited. -/
def otherExited : List Action := oneFailed ++ [.forkOther 9, .act 9 .exit]

theorem failed_forks_harmless_otherExited :
    lastStatus 5 (after (otherExited ++ [.runNext (turn none 9)])).daemon.log = some .error := by
  have hstep := step_after otherExited (.runNext (turn none 9)) (by decide) (by decide)
  have hrun := run_after otherExited (by decide)
  have hp : polled (after otherExited).daemon = some (5, -1) := by decide
  have hunharmed := (failed_forks_harmless hrun hp (turn none 9)).1.mpr fun _ => by decide
  exact (hunharmed _ _ hstep).failed rfl

/-- The command of task 6 has succeeded and its process has exited. -/
def sixExited : List Action :=
  [.act 7 (.writeResult true), .act 7 .setComplete, .act 7 .exit]

/-- The poll for task 5 waits for the process of task 6, which becomes an error; it is a success
if the fork of task 5 does not fail. -/
theorem failed_fork_robs :
    (¬ ∀ (w w' : World) (t : Turn) (id : Nat) (pid : Int),
      Run (Step 0) Any (.init (GameServersList.plainList [1])) w → Step 0 w (.runNext t) w' →
      polled w.daemon = some (id, pid) → Unharmed w t id pid w') ∧
    lastStatus 6 (after (oneFailed ++ sixExited ++
      [.runNext (turn none 7), .runNext (turn none 0)])).daemon.log = some .error ∧
    lastStatus 6 (after (
      [.update (some [GdaemonTasks.plainEntry 5 "gsstop" 1 1,
          GdaemonTasks.plainEntry 6 "gsstop" 1 1]),
        .runNext (turn (some 8) 0), .runNext (turn (some 7) 0)] ++ sixExited ++
      [.runNext (turn none 7), .runNext (turn none 0)])).daemon.log = some .success := by
  refine ⟨fun hall => ?_, by decide, by decide⟩
  have hrun : Run (Step 0) Any (.init (GameServersList.plainList [1]))
      (after (oneFailed ++ sixExited)) :=
    (run_after _ (by decide)).mono fun _ _ _ => trivial
  have hstep := step_after (oneFailed ++ sixExited) (.runNext (turn none 7)) (by decide) (by decide)
  have hharm := hall _ _ _ 5 (-1) hrun hstep (by decide)
  have hmem : { pid := 7, task := some 6, ended := some true } ∈
      (after (oneFailed ++ sixExited)).processes := by decide
  obtain ⟨q, hq, hpid, -⟩ := hharm.others _ hmem 6 rfl (by decide)
  have hgone : ∀ q ∈ (after (oneFailed ++ sixExited ++ [.runNext (turn none 7)])).processes,
      q.pid ≠ 7 := by decide
  exact hgone q hq hpid

end TaskForks

end GameAP
