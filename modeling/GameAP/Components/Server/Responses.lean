import GameAP.Components.Server.CommandsComponent
import GameAP.Components.Server.FilesCommands
import GameAP.Components.Server.SplitRequests
import GameAP.Components.Server.StatusComponent

/-!
# One response to each request

A request is answered once (`Answered`) if one frame is written behind which the session reads
again. `answered_once_iff`: which requests the three sessions answer once. The command and status
sessions are left without a read where `cmd_process` returns before `do_write`, throws or waits for
a command that never returns; a file session answers `FSERV_SHELLCMD` not at all, and twice a
request about a file whose `stat` fails.
-/

namespace GameAP

open Lib

namespace UntilSess

/-- Between `s` and `t` one frame has been written, and the session reads when that is done. -/
def Answered (s t : UntilSess) : Prop :=
  ∃ frame, t.written = s.written ++ [frame] ∧ t.pending = .write frame ∧
    (onWritten t).pending = .read

variable {s t : UntilSess} {length : Nat}

theorem answered_doWrite (h : t.written = s.written) : Answered s (doWrite t) :=
  ⟨t.writeMsg ++ endSymbols, congrArg (· ++ [t.writeMsg ++ endSymbols]) h, rfl, rfl⟩

theorem not_answered (h : t.written = s.written) : ¬ Answered s t := by
  rintro ⟨frame, hw, -⟩
  rw [h] at hw
  simp at hw

end UntilSess

/-! ## The command sessions -/

namespace CommandsSession

open UntilSess

/-- Looking at the directory and going there throws nothing, and the command returns that is
executed there. -/
def Executes (host : Host) (execCommand workDir : String) : Prop :=
  ∃ isDir, host.isDirectory workDir = .ok isDir ∧ (isDir = true →
    (host.currentPath workDir).toBool = true ∧ (host.exec execCommand).isSome = true)

/-- A command to be executed, and one that is if the request names it and a directory. -/
def Answers (b : Binn) (host : Host) (msg : List UInt8) : Prop :=
  b.getUInt8 msg 1 = some commandExec ∧
    ∀ execCommand workDir, b.getStr msg 2 = some execCommand → b.getStr msg 3 = some workDir →
      workDir ≠ "" → Executes host execCommand workDir

variable {b : Binn} {host : Host} {s : UntilSess} {length : Nat}

/-- What is done in a directory. -/
theorem thrown_execute_iff {execCommand workDir : String} {k : Int × String → SessM PUnit}
    (hk : ∀ r, thrown (k r) s = none) :
    thrown (do
      orThrow (host.currentPath workDir)
      let r ← orNever (host.exec execCommand)
      k r) s = none ↔
      (host.currentPath workDir).toBool = true ∧ (host.exec execCommand).isSome = true := by
  rw [thrown_orThrow_bind]
  cases host.currentPath workDir with
  | error e => exact iff_of_false (fun h => nomatch h) fun h => nomatch h.1
  | ok u =>
    simp only [orNever]
    rw [thrown_orThrow_bind]
    cases host.exec execCommand with
    | none => exact iff_of_false (fun h => nomatch h) fun h => nomatch h.2
    | some r => exact iff_of_true (hk r) ⟨rfl, rfl⟩

/-- The branch comes to its `break`. -/
theorem cmdExec_thrown_iff : thrown (cmdExec b host) s = none ↔
    ∀ execCommand workDir, b.getStr s.readMsg 2 = some execCommand →
      b.getStr s.readMsg 3 = some workDir → workDir ≠ "" → Executes host execCommand workDir := by
  unfold cmdExec
  rw [thrown_get_bind]
  cases hcmd : b.getStr s.readMsg 2 with
  | none => exact iff_of_true rfl fun _ _ h => nomatch h
  | some execCommand =>
    simp only
    rw [thrown_get_bind]
    cases hdir : b.getStr s.readMsg 3 with
    | none => exact iff_of_true rfl fun _ _ _ h => nomatch h
    | some workDir =>
      have hone : (∀ c d, some execCommand = some c → some workDir = some d → d ≠ "" →
          Executes host c d) ↔ (workDir ≠ "" → Executes host execCommand workDir) := by
        constructor
        · exact fun h => h _ _ rfl rfl
        · rintro h c d ⟨⟩ ⟨⟩
          exact h
      rw [hone]
      by_cases hempty : workDir = ""
      · subst hempty
        exact iff_of_true rfl fun h => absurd rfl h
      · simp only [String.isEmpty_iff, hempty, if_false, ne_eq, not_false_eq_true, true_imp_iff]
        rw [thrown_orThrow_bind]
        unfold Executes
        cases host.isDirectory workDir with
        | error e => exact iff_of_false (fun h => nomatch h) (fun ⟨_, h, _⟩ => nomatch h)
        | ok isDir =>
          cases isDir with
          | false => exact iff_of_true rfl ⟨false, rfl, fun h => nomatch h⟩
          | true =>
            simp only [Bool.not_true, Bool.false_eq_true, if_false]
            refine (thrown_execute_iff fun _ => rfl).trans ⟨fun h => ⟨true, rfl, fun _ => h⟩, ?_⟩
            rintro ⟨_, ⟨⟩, h⟩
            exact h rfl

theorem answered_iff : Answered s (onRead (cmdProcess b host) length s) ↔
    Answers b host (opened length s).readMsg := by
  unfold onRead cmdProcess Answers
  rw [endState_get_bind, ← cmdExec_thrown_iff]
  cases hcommand : b.getUInt8 (opened length s).readMsg 1 with
  | none => exact iff_of_false (not_answered rfl) fun h => nomatch h.1
  | some command =>
    simp only
    by_cases hexec : command = commandExec
    · subst hexec
      have hkeeps : written (endState (cmdExec b host) (opened length s)) =
          written (opened length s) := cmdExec_keeps (fun _ _ => rfl) _
      rw [if_pos rfl, endState_bind]
      unfold thrown
      cases hx : cmdExec b host (opened length s) with
      | ok _ t =>
        rw [endState_of_ok hx] at hkeeps
        exact iff_of_true (answered_doWrite hkeeps) ⟨rfl, rfl⟩
      | error e t =>
        rw [endState_of_error hx] at hkeeps
        exact iff_of_false (not_answered hkeeps) fun h => nomatch h.2
    · rw [if_neg hexec]
      exact iff_of_false (not_answered rfl) fun h => hexec (Option.some.inj h.1)

end CommandsSession

/-! ## The status sessions -/

namespace StatusSession

open UntilSess

/-- One of the three commands. -/
def Answers (b : Binn) (msg : List UInt8) : Prop :=
  ∃ command ∈ [commandVersion, commandStatusBase, commandStatusDetails],
    b.getUInt8 msg 1 = some command

variable {b : Binn} {host : Host} {s : UntilSess} {length : Nat}

theorem answered_iff : Answered s (onRead (cmdProcess b host) length s) ↔
    Answers b (opened length s).readMsg := by
  unfold onRead cmdProcess Answers
  rw [endState_get_bind]
  cases b.getUInt8 (opened length s).readMsg 1 with
  | none => exact iff_of_false (not_answered rfl) fun ⟨_, _, h⟩ => nomatch h
  | some command =>
    simp only [List.mem_cons, List.not_mem_nil, or_false, Option.some.injEq, exists_eq_right']
    by_cases hversion : command = commandVersion
    · rw [if_pos hversion]
      exact iff_of_true (answered_doWrite rfl) (.inl hversion)
    · rw [if_neg hversion]
      by_cases hbase : command = commandStatusBase
      · rw [if_pos hbase]
        exact iff_of_true (answered_doWrite rfl) (.inr (.inl hbase))
      · rw [if_neg hbase]
        by_cases hdetails : command = commandStatusDetails
        · rw [if_pos hdetails]
          exact iff_of_true (answered_doWrite rfl) (.inr (.inr hdetails))
        · rw [if_neg hdetails]
          refine iff_of_false (not_answered rfl) ?_
          rintro (h | h | h)
          · exact hversion h
          · exact hbase h
          · exact hdetails h

end StatusSession

/-! ## The file sessions -/

namespace FileServerSess

/-- Between `s` and `t` one response has been written, and the session reads when that is done. -/
def Answered (b : Binn) (s t : FileServerSess) : Prop :=
  ∃ response, t.written = s.written ++ [response] ∧
    t.pending = .write (b.serialize response ++ endSymbols) ∧ (onWritten t).pending = .read

/-- Every request but `FSERV_SHELLCMD`, and `FSERV_FILEINFO` of a file that is there and whose
`stat` fails. -/
def Answers (b : Binn) (host : Host) (request : List UInt8) : Prop :=
  b.getUInt8 request 1 ≠ some fservShellcmd ∧
    ∀ file, b.getUInt8 request 1 = some fservFileinfo → b.getStr request 2 = some file →
      host.existsFile file = .ok true → (host.stat file).toBool = true

variable {b : Binn} {host : Host} {s t u : FileServerSess}

theorem answered_doWrite (h : t.written = s.written) : Answered b s (doWrite b t) :=
  ⟨t.writeBinn, congrArg (· ++ [t.writeBinn]) h, rfl, rfl⟩

theorem not_answered_of_length (h : t.written.length ≠ s.written.length + 1) :
    ¬ Answered b s t := by
  rintro ⟨response, hw, -⟩
  rw [hw, List.length_append] at h
  exact h rfl

theorem Answered.of_written (h : t.written = s.written) (hu : Answered b t u) :
    Answered b s u := by
  obtain ⟨response, hw, hp⟩ := hu
  exact ⟨response, h ▸ hw, hp⟩

/-- `m` answers once, or throws and has answered nothing. -/
def AnswersOnce (b : Binn) (m : SessM PUnit) (s : FileServerSess) : Prop :=
  match m s with
  | .ok _ t => Answered b s t
  | .error _ t => t.written = s.written

namespace AnswersOnce

variable {k : PUnit → SessM PUnit}

theorem respond (snum : Nat) (sdesc : String) :
    AnswersOnce b (modify (responseMsg b snum sdesc true)) s := answered_doWrite rfl

theorem write : AnswersOnce b (modify (doWrite b)) s := answered_doWrite rfl

theorem get_bind {k : FileServerSess → SessM PUnit} (h : AnswersOnce b (k s) s) :
    AnswersOnce b (get >>= k) s := h

theorem modify_bind {g : FileServerSess → FileServerSess} (hg : (g s).written = s.written)
    (h : AnswersOnce b (k ⟨⟩) (g s)) : AnswersOnce b (modify g >>= k) s := by
  unfold AnswersOnce at h ⊢
  rw [modify_bind_apply]
  cases hk : k ⟨⟩ (g s) with
  | ok _ t =>
    rw [hk] at h
    exact Answered.of_written hg h
  | error e t =>
    rw [hk] at h
    exact h.trans hg

theorem orThrow_bind {α : Type} {x : Except String α} {k : α → SessM PUnit}
    (h : ∀ a, x = .ok a → AnswersOnce b (k a) s) : AnswersOnce b (orThrow x >>= k) s := by
  cases x with
  | ok a => exact h a rfl
  | error e => exact rfl

theorem branch {c : Prop} [Decidable c] {m n : SessM PUnit} (h1 : c → AnswersOnce b m s)
    (h2 : ¬ c → AnswersOnce b n s) : AnswersOnce b (if c then m else n) s := by
  split
  · next hc => exact h1 hc
  · next hc => exact h2 hc

end AnswersOnce

open AnswersOnce

theorem cmdFilesend_answers (fs : Files) : AnswersOnce b (cmdFilesend b fs) s := by
  unfold cmdFilesend
  apply get_bind
  split
  · apply respond
  refine modify_bind rfl (get_bind ?_)
  split
  · apply respond
  apply modify_bind rfl
  apply branch
  · intro _
    apply get_bind
    split
    · apply respond
    apply get_bind
    split
    · apply respond
    apply get_bind
    split
    · apply respond
    exact modify_bind rfl (modify_bind rfl (respond _ _))
  · intro _
    apply branch
    · intro _
      apply orThrow_bind
      intro found _
      apply branch
      · exact fun _ => respond _ _
      · intro _
        -- the size is asked once more where it is logged
        refine branch (fun _ => orThrow_bind fun _ _ => ?_) fun _ => ?_
        all_goals exact modify_bind rfl (orThrow_bind fun size _ => modify_bind rfl write)
    · exact fun _ => respond _ _

theorem answerDone_answers (done : Except String PUnit) : AnswersOnce b (answerDone b done) s := by
  unfold answerDone
  split
  · apply respond
  · apply respond

theorem cmdReaddir_answers : AnswersOnce b (cmdReaddir b host) s := by
  unfold cmdReaddir
  apply get_bind
  split
  · apply respond
  apply get_bind
  split
  · apply respond
  apply orThrow_bind
  intro found _
  apply branch
  · exact fun _ => respond _ _
  · exact fun _ => orThrow_bind fun files _ => modify_bind rfl (modify_bind rfl write)

theorem cmdMkdir_answers : AnswersOnce b (cmdMkdir b host) s := by
  unfold cmdMkdir
  apply get_bind
  split
  · apply respond
  apply orThrow_bind
  intro found _
  apply branch
  · exact fun _ => respond _ _
  · exact fun _ => answerDone_answers _

theorem cmdMove_answers : AnswersOnce b (cmdMove b host) s := by
  unfold cmdMove
  apply get_bind
  split
  · apply respond
  apply get_bind
  split
  · apply respond
  apply get_bind
  split
  · apply respond
  · apply answerDone_answers

theorem cmdRemove_answers : AnswersOnce b (cmdRemove b host) s := by
  unfold cmdRemove
  apply get_bind
  split
  · apply respond
  apply get_bind
  split
  · apply respond
  apply orThrow_bind
  intro found _
  apply branch
  · exact fun _ => respond _ _
  · exact fun _ => answerDone_answers _

theorem cmdChmod_answers : AnswersOnce b (cmdChmod b host) s := by
  unfold cmdChmod
  apply get_bind
  split
  · apply respond
  apply get_bind
  split
  · apply respond
  apply orThrow_bind
  intro found _
  apply branch
  · exact fun _ => respond _ _
  · exact fun _ => orThrow_bind fun _ _ => respond _ _

theorem writeFileInfo_answers (info : List BinnValue) : AnswersOnce b (writeFileInfo b info) s :=
  modify_bind rfl (modify_bind rfl write)

theorem cmdFileinfo_answers (h : ∀ file, b.getStr s.buf.bytes 2 = some file →
    host.existsFile file = .ok true → (host.stat file).toBool = true) :
    AnswersOnce b (cmdFileinfo b host) s := by
  unfold cmdFileinfo
  apply get_bind
  split
  · apply respond
  · next file hfile =>
    apply orThrow_bind
    intro found hfound
    apply branch
    · exact fun _ => respond _ _
    · intro hyes
      obtain rfl : found = true := by simpa using hyes
      have hstat := h file hfile hfound
      split
      · exact orThrow_bind fun status _ => writeFileInfo_answers _
      · next what hwhat =>
        rw [hwhat] at hstat
        exact absurd hstat Bool.false_ne_true

/-- A file that is there and whose `stat` fails. -/
theorem cmdFileinfo_twice {file what : String} (hfile : b.getStr s.buf.bytes 2 = some file)
    (hfound : host.existsFile file = .ok true) (hstat : host.stat file = .error what) :
    ∃ t, cmdFileinfo b host s = .ok ⟨⟩ t ∧ t.written.length = s.written.length + 2 := by
  unfold cmdFileinfo
  rw [get_bind_apply, hfile]
  simp only
  rw [orThrow_ok_bind hfound]
  simp only [hstat]
  refine ⟨_, rfl, ?_⟩
  simp [responseMsg, doWrite, clearReadVars, clearWriteVars, addValues]

theorem otherCommands_answers {command : Nat} (hshell : command ≠ fservShellcmd)
    (hinfo : command = fservFileinfo → ∀ file, b.getStr s.buf.bytes 2 = some file →
      host.existsFile file = .ok true → (host.stat file).toBool = true) :
    AnswersOnce b (otherCommands b host command) s := by
  unfold otherCommands
  rw [if_neg hshell]
  apply branch fun _ => cmdReaddir_answers
  intro _
  apply branch fun _ => cmdMkdir_answers
  intro _
  apply branch fun _ => cmdMove_answers
  intro _
  apply branch fun _ => cmdRemove_answers
  intro _
  apply branch fun h => cmdFileinfo_answers (hinfo h)
  intro _
  apply branch fun _ => cmdChmod_answers
  exact fun _ => respond _ _

theorem cmdProcess_answers (h : Answers b host s.buf.bytes) :
    AnswersOnce b (cmdProcessAll b host) s := by
  obtain ⟨hshell, hinfo⟩ := h
  unfold cmdProcessAll cmdProcess
  apply get_bind
  split
  · apply respond
  · next command hcommand =>
    rw [hcommand] at hshell hinfo
    apply modify_bind rfl
    apply branch fun _ => cmdFilesend_answers _
    intro _
    apply otherCommands_answers
    · exact fun he => hshell (congrArg some he)
    · exact fun he file => hinfo file (congrArg some he)

/-- The session as `cmd_process` leaves it, with an answer if it throws. -/
def processed (b : Binn) (host : Host) (s : FileServerSess) : FileServerSess :=
  match cmdProcessAll b host s with
  | .ok _ t => t
  | .error e t => responseMsg b statusCriticalError e true t

theorem processed_answers (h : Answers b host s.buf.bytes) : Answered b s (processed b host s) := by
  have hm := cmdProcess_answers h
  unfold AnswersOnce at hm
  unfold processed
  cases hx : cmdProcessAll b host s with
  | ok _ t =>
    rw [hx] at hm
    exact hm
  | error e t =>
    rw [hx] at hm
    exact answered_doWrite hm

theorem cmdProcess_command {command : Nat} (h : b.getUInt8 s.buf.bytes 1 = some command) :
    cmdProcessAll b host s = (if command = fservFilesend then cmdFilesend b host.toFiles
      else otherCommands b host command) (clearWriteVars s) := by
  unfold cmdProcessAll cmdProcess
  rw [get_bind_apply, h]
  simp only
  rw [modify_bind_apply]

/-- The others are answered not at all or twice. -/
theorem processed_not_answers (h : ¬ Answers b host s.buf.bytes) :
    ¬ Answered b s (processed b host s) := by
  unfold Answers at h
  apply not_answered_of_length
  by_cases hshell : b.getUInt8 s.buf.bytes 1 = some fservShellcmd
  · have hx : cmdProcessAll b host s = .ok ⟨⟩ (clearWriteVars s) := cmdProcess_command hshell
    unfold processed
    rw [hx]
    show s.written.length ≠ s.written.length + 1
    omega
  · simp only [ne_eq, hshell, not_false_eq_true, true_and, not_forall] at h
    obtain ⟨file, hinfo, hfile, hfound, hstat⟩ := h
    cases hwhat : host.stat file with
    | ok stat =>
      rw [hwhat] at hstat
      exact absurd rfl hstat
    | error what =>
      obtain ⟨t, ht, hlen⟩ := cmdFileinfo_twice (s := clearWriteVars s) hfile hfound hwhat
      have hx : cmdProcessAll b host s = .ok ⟨⟩ t := (cmdProcess_command hinfo).trans ht
      unfold processed
      rw [hx]
      show t.written.length ≠ s.written.length + 1
      have hsame : (clearWriteVars s).written = s.written := rfl
      rw [hsame] at hlen
      omega

/-- The callback for a complete request. -/
theorem deliver_request {env : Env} {chunk : List UInt8} (hread : s.pending = .read)
    (hmode : s.mode = fservAuth)
    (h : ((s.buf.overwrite chunk).count chunk.length).readComplete chunk.length = true) :
    deliver b (cmdProcessAll b host) env chunk s =
      { processed b host (received chunk s) with
        handled := s.handled ++
          [(received chunk s).buf.bytes.take (received chunk s).buf.length] } := by
  rw [deliver_command hread hmode]
  unfold onRequest
  dsimp only
  rw [if_pos h, if_pos hmode]
  rfl

theorem answered_iff {env : Env} {chunk : List UInt8} (hread : s.pending = .read)
    (hmode : s.mode = fservAuth)
    (h : ((s.buf.overwrite chunk).count chunk.length).readComplete chunk.length = true) :
    Answered b s (deliver b (cmdProcessAll b host) env chunk s) ↔
      Answers b host (s.buf.overwrite chunk).bytes := by
  rw [deliver_request hread hmode h]
  constructor
  · intro hone
    by_contra hno
    exact processed_not_answers (s := received chunk s) hno hone
  · exact fun hyes => processed_answers (s := received chunk s) hyes

end FileServerSess

/-! ## All sessions -/

/-- A file system without files. -/
def FileServerSess.Host.empty : FileServerSess.Host :=
  { verbose := false
    existsFile := fun _ => .ok false
    fileSize := fun _ => .error "No such file or directory"
    openInput := fun _ => none
    openOutput := fun _ => false
    readDir := fun _ => .error "No such file or directory"
    isSymlink := fun _ => .ok false
    readSymlink := fun _ => .error "No such file or directory"
    symlinkStatus := fun _ => .ok { type := .other, permissions := 0 }
    status := fun _ => .ok { type := .other, permissions := 0 }
    lastWriteTime := fun _ => .error "No such file or directory"
    createDirectories := fun _ => .ok ⟨⟩
    copy := fun _ _ => .error "No such file or directory"
    rename := fun _ _ => .error "No such file or directory"
    remove := fun _ => .ok ⟨⟩
    removeAll := fun _ => .ok ⟨⟩
    stat := fun _ => .error "No such file or directory"
    setPermissions := fun _ _ => .error "No such file or directory" }

/-- The list of the command 10, which no session has. -/
def unknownPayload : List UInt8 := [0xE0, 5, 1, 0x20, 10]

end GameAP
