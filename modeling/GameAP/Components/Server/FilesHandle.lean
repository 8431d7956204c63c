import GameAP.Components.Server.Responses

/-!
# The handle of a frame

`do_read` opens a frame with `binn_open` and frees the handle when `cmd_process` returns or throws;
`cmd_process` reads the values of the frame through it. `Traced` is the session with what is done
with the handle: its commands are those of `FileServerSess` (`Follows`), and `freed_once_iff` says
for which frames the handle is freed once and not read afterwards.
-/

namespace GameAP

open Lib

namespace FileServerSess

inductive HandleEvent where
  | opened
  | read (pos : Nat)
  | freed
  deriving DecidableEq, Repr

structure Traced where
  sess : FileServerSess
  events : List HandleEvent

namespace Traced

abbrev TracedM := EStateM String Traced

def record (e : HandleEvent) : TracedM PUnit := modify fun t => { t with events := t.events ++ [e] }

/-- What does nothing with the handle. -/
def lift {α : Type} (m : SessM α) : TracedM α := fun t =>
  match m t.sess with
  | .ok a sess => .ok a { t with sess }
  | .error e sess => .error e { t with sess }

/-- `binn_list_get_...` of the handle. -/
def readBinn {α : Type} (getValue : List UInt8 → Nat → Option α) (pos : Nat) :
    TracedM (Option α) := do
  record (.read pos)
  return getValue (← get).sess.buf.bytes pos

def respond (b : Binn) (snum : Nat) (sdesc : String) : TracedM PUnit :=
  lift (modify (responseMsg b snum sdesc true))

/-! ## The commands -/

section Commands

variable (b : Binn) (host : Host)

def cmdFilesend (fs : Files) : TracedM PUnit := do
  match ← readBinn b.getUInt8 2 with
  | none => respond b statusError "Binn parse error: invalid sendfile mode"
  | some sendfileMode =>
    lift (modify fun s => { s with sendfileMode })
    match ← readBinn b.getStr 3 with
    | none => respond b statusError "Binn parse error: invalid filename"
    | some filename =>
      lift (modify fun s => { s with filename, mode := fservFilesend })
      if sendfileMode = fservFileDownload then
        match ← readBinn b.getUInt64 4 with
        | none => respond b statusError "Binn parse error: invalid filesize"
        | some filesize =>
          match ← readBinn b.getBool 5 with
          | none => respond b statusError "Binn parse error: invalid makedir value"
          | some _ =>
            match ← readBinn b.getUInt16 6 with
            | none => respond b statusError "Binn parse error: invalid chmod"
            | some _ => lift do
              modify fun s => { s with filesize }
              modify (openOutputFile (fs.openOutput filename))
              modify (responseMsg b statusFileTransferReady "File receive started" true)
      else if sendfileMode = fservFileUpload then lift do
        if !(← orThrow (fs.existsFile filename)) then
          modify (responseMsg b statusError "File not found" true)
        else
          if fs.verbose then
            let _ ← orThrow (fs.fileSize filename)
          modify fun s => { s with writeBinn := s.writeBinn ++
            [BinnValue.uint32 statusFileTransferReady, .str "File sending ready"] }
          let size ← orThrow (fs.fileSize filename)
          modify fun s => { s with
            writeBinn := s.writeBinn ++ [.uint64 size]
            inputFile := s.inputFile.openFile (fs.openInput filename) }
          modify (doWrite b)
      else respond b statusError "Unknown sendfile mode"

def cmdReaddir : TracedM PUnit := do
  match ← readBinn b.getStr 2 with
  | none => respond b statusError "Binn parse error: invalid dir value"
  | some dir =>
    match ← readBinn b.getUInt8 3 with
    | none => respond b statusError "Binn parse error: invalid type value"
    | some type => lift do
      if !(← orThrow (host.existsFile dir)) then
        modify (responseMsg b statusError "Directory open error" true)
      else
        let files ← orThrow (host.readDir dir)
        modify (responseMsg b statusOk "OK" false)
        modify (addValues [.list (b.serialize (filesInfo b host type files))])
        modify (doWrite b)

def cmdMkdir : TracedM PUnit := do
  match ← readBinn b.getStr 2 with
  | none => respond b statusError "Binn parse error: invalid path"
  | some path => lift do
    if ← orThrow (host.existsFile path) then
      modify (responseMsg b statusError ("File `" ++ path ++ "` exist") true)
    else answerDone b (host.createDirectories path)

def cmdMove : TracedM PUnit := do
  match ← readBinn b.getStr 2 with
  | none => respond b statusError "Binn parse error: invalid oldfile value"
  | some oldfile =>
    match ← readBinn b.getStr 3 with
    | none => respond b statusError "Binn parse error: invalid newfile value"
    | some newfile =>
      match ← readBinn b.getBool 4 with
      | none => respond b statusError "Binn parse error: invalid copy value"
      | some copy =>
        lift (answerDone b (if copy then host.copy oldfile newfile else host.rename oldfile newfile))

def cmdRemove : TracedM PUnit := do
  match ← readBinn b.getStr 2 with
  | none => respond b statusError "Binn parse error: invalid file value"
  | some file =>
    match ← readBinn b.getBool 3 with
    | none => respond b statusError "Binn parse error: invalid recursive value"
    | some recursive => lift do
      if !(← orThrow (host.existsFile file)) then
        modify (responseMsg b statusError "File not found" true)
      else answerDone b (if recursive then host.removeAll file else host.remove file)

def cmdFileinfo : TracedM PUnit := do
  match ← readBinn b.getStr 2 with
  | none => respond b statusError "Binn parse error: invalid file value"
  | some file => lift do
    if !(← orThrow (host.existsFile file)) then
      modify (responseMsg b statusError "File not found" true)
    else
      match host.stat file with
      | .ok stat =>
        let status ← orThrow (host.status file)
        writeFileInfo b [.str file, .uint64 stat.size, .uint8 (statType stat.mode),
          .uint64 stat.mtime, .uint64 stat.atime, .uint64 stat.ctime,
          .uint16 (status.permissions % 2 ^ 16)]
      | .error what =>
        modify (responseMsg b statusError what true)
        writeFileInfo b [.str file]

def cmdChmod : TracedM PUnit := do
  match ← readBinn b.getStr 2 with
  | none => respond b statusError "Binn parse error: invalid file value"
  | some file =>
    match ← readBinn b.getUInt16 3 with
    | none => respond b statusError "Binn parse error: invalid permissions value"
    | some permissions => lift do
      if !(← orThrow (host.existsFile file)) then
        modify (responseMsg b statusError "File not found" true)
      else
        orThrow (host.setPermissions file (fsPermissions permissions))
        modify (writeOk b "OK")

def otherCommands (command : Nat) : TracedM PUnit :=
  if command = fservShellcmd then pure ⟨⟩
  else if command = fservReaddir then cmdReaddir b host
  else if command = fservMkdir then cmdMkdir b host
  else if command = fservMove then cmdMove b host
  else if command = fservRemove then cmdRemove b host
  else if command = fservFileinfo then cmdFileinfo b host
  else if command = fservChmod then cmdChmod b host
  else respond b statusUnknownCommand "Unknown command"

/-- The exit of a frame without a command frees the handle. -/
def cmdProcess : TracedM PUnit := do
  match ← readBinn b.getUInt8 1 with
  | none =>
    record .freed
    respond b statusError "Binn parse error: reading command failed"
  | some command =>
    lift (modify clearWriteVars)
    if command = fservFilesend then cmdFilesend b host.toFiles else otherCommands b host command

/-- The branch `FSERV_AUTH` of the callback in `do_read`. -/
def handleRequest : TracedM PUnit := do
  record .opened
  try
    cmdProcess b host
    record .freed
  catch e =>
    record .freed
    respond b statusCriticalError e

end Commands

/-! ## What the commands do with the handle -/

/-- From `t` on, `m` does with the session what `n` does, and reads of the handle alone. -/
def Follows {α : Type} (m : TracedM α) (n : SessM α) (t : Traced) : Prop :=
  ∃ events, (∀ e ∈ events, ∃ pos, e = .read pos) ∧
    m t = match n t.sess with
      | .ok a sess => .ok a { sess, events := t.events ++ events }
      | .error e sess => .error e { sess, events := t.events ++ events }

variable {α β : Type} {t : Traced} {b : Binn} {host : Host}

theorem follows_lift (n : SessM α) : Follows (lift n) n t := by
  refine ⟨[], nofun, ?_⟩
  rw [List.append_nil]
  rfl

theorem follows_pure (a : α) : Follows (pure a) (pure a) t := follows_lift (pure a)

theorem follows_respond (snum : Nat) (sdesc : String) :
    Follows (respond b snum sdesc) (modify (responseMsg b snum sdesc true)) t := follows_lift _

theorem follows_read {getValue : List UInt8 → Nat → Option α} {pos : Nat}
    {k : Option α → TracedM β} {k' : FileServerSess → SessM β}
    (h : Follows (k (getValue t.sess.buf.bytes pos)) (k' t.sess)
      { t with events := t.events ++ [.read pos] }) :
    Follows (readBinn getValue pos >>= k) (get >>= k') t := by
  obtain ⟨events, hevents, heq⟩ := h
  refine ⟨.read pos :: events, ?_, ?_⟩
  · rintro e (_ | ⟨_, he⟩)
    · exact ⟨pos, rfl⟩
    · exact hevents e he
  · rw [List.append_cons t.events]
    exact heq

theorem follows_modify {g : FileServerSess → FileServerSess} {k : PUnit → TracedM β}
    {k' : PUnit → SessM β} (h : Follows (k ⟨⟩) (k' ⟨⟩) { t with sess := g t.sess }) :
    Follows (lift (modify g) >>= k) (modify g >>= k') t := h

theorem follows_ite {c : Prop} [Decidable c] {m m' : TracedM α} {n n' : SessM α}
    (h : Follows m n t) (h' : Follows m' n' t) :
    Follows (if c then m else m') (if c then n else n') t := by
  split
  · exact h
  · exact h'

theorem cmdFilesend_follows (fs : Files) :
    Follows (cmdFilesend b fs) (FileServerSess.cmdFilesend b fs) t := by
  unfold cmdFilesend FileServerSess.cmdFilesend
  apply follows_read
  cases b.getUInt8 t.sess.buf.bytes 2
  · apply follows_respond
  apply follows_modify
  apply follows_read
  cases b.getStr t.sess.buf.bytes 3
  · apply follows_respond
  apply follows_modify
  apply follows_ite
  · apply follows_read
    cases b.getUInt64 t.sess.buf.bytes 4
    · apply follows_respond
    apply follows_read
    cases b.getBool t.sess.buf.bytes 5
    · apply follows_respond
    apply follows_read
    cases b.getUInt16 t.sess.buf.bytes 6
    · apply follows_respond
    apply follows_lift
  · exact follows_ite (follows_lift _) (follows_respond _ _)

theorem cmdReaddir_follows : Follows (cmdReaddir b host) (FileServerSess.cmdReaddir b host) t := by
  unfold cmdReaddir FileServerSess.cmdReaddir
  apply follows_read
  cases b.getStr t.sess.buf.bytes 2
  · apply follows_respond
  apply follows_read
  cases b.getUInt8 t.sess.buf.bytes 3
  · apply follows_respond
  apply follows_lift

theorem cmdMkdir_follows : Follows (cmdMkdir b host) (FileServerSess.cmdMkdir b host) t := by
  unfold cmdMkdir FileServerSess.cmdMkdir
  apply follows_read
  cases b.getStr t.sess.buf.bytes 2
  · apply follows_respond
  apply follows_lift

theorem cmdMove_follows : Follows (cmdMove b host) (FileServerSess.cmdMove b host) t := by
  unfold cmdMove FileServerSess.cmdMove
  apply follows_read
  cases b.getStr t.sess.buf.bytes 2
  · apply follows_respond
  apply follows_read
  cases b.getStr t.sess.buf.bytes 3
  · apply follows_respond
  apply follows_read
  cases b.getBool t.sess.buf.bytes 4
  · apply follows_respond
  apply follows_lift

theorem cmdRemove_follows : Follows (cmdRemove b host) (FileServerSess.cmdRemove b host) t := by
  unfold cmdRemove FileServerSess.cmdRemove
  apply follows_read
  cases b.getStr t.sess.buf.bytes 2
  · apply follows_respond
  apply follows_read
  cases b.getBool t.sess.buf.bytes 3
  · apply follows_respond
  apply follows_lift

theorem cmdFileinfo_follows :
    Follows (cmdFileinfo b host) (FileServerSess.cmdFileinfo b host) t := by
  unfold cmdFileinfo FileServerSess.cmdFileinfo
  apply follows_read
  cases b.getStr t.sess.buf.bytes 2
  · apply follows_respond
  apply follows_lift

theorem cmdChmod_follows : Follows (cmdChmod b host) (FileServerSess.cmdChmod b host) t := by
  unfold cmdChmod FileServerSess.cmdChmod
  apply follows_read
  cases b.getStr t.sess.buf.bytes 2
  · apply follows_respond
  apply follows_read
  cases b.getUInt16 t.sess.buf.bytes 3
  · apply follows_respond
  apply follows_lift

theorem otherCommands_follows (command : Nat) :
    Follows (otherCommands b host command) (FileServerSess.otherCommands b host command) t := by
  unfold otherCommands FileServerSess.otherCommands
  apply follows_ite (follows_pure _)
  apply follows_ite cmdReaddir_follows
  apply follows_ite cmdMkdir_follows
  apply follows_ite cmdMove_follows
  apply follows_ite cmdRemove_follows
  apply follows_ite cmdFileinfo_follows
  apply follows_ite cmdChmod_follows
  apply follows_respond

/-- Of a frame that has a command, the handle is only read. -/
theorem cmdProcess_follows (host : Host) {command : Nat}
    (h : b.getUInt8 t.sess.buf.bytes 1 = some command) :
    Follows (cmdProcess b host) (cmdProcessAll b host) t := by
  unfold cmdProcess cmdProcessAll FileServerSess.cmdProcess
  apply follows_read
  rw [h]
  apply follows_modify
  exact follows_ite (cmdFilesend_follows _) (otherCommands_follows _)

/-! ## When the handle is freed -/

/-- The handle is freed once, and neither freed nor read again. -/
def FreedOnce (events : List HandleEvent) : Prop :=
  ∃ before after, events = before ++ .freed :: after ∧ .freed ∉ before ∧ .freed ∉ after ∧
    ∀ pos, .read pos ∉ after

theorem handleRequest_eq (s : FileServerSess) :
    handleRequest b host { sess := s, events := [] } =
      match (cmdProcess b host >>= fun _ => record .freed) { sess := s, events := [.opened] } with
      | .ok a t => .ok a t
      | .error e t => (record .freed >>= fun _ => respond b statusCriticalError e) t := by
  show (tryCatch (cmdProcess b host >>= fun _ => record .freed) fun e =>
    record .freed >>= fun _ => respond b statusCriticalError e : TracedM PUnit)
      { sess := s, events := [.opened] } = _
  show EStateM.tryCatch _ _ _ = _
  unfold EStateM.tryCatch
  cases (cmdProcess b host >>= fun _ => record .freed) { sess := s, events := [.opened] } <;> rfl

/-- A frame with a command: the handle is opened, read and freed. -/
theorem handleRequest_known (host : Host) {s : FileServerSess} {command : Nat}
    (h : b.getUInt8 s.buf.bytes 1 = some command) :
    ∃ events, (∀ e ∈ events, ∃ pos, e = .read pos) ∧
      handleRequest b host { sess := s, events := [] } = .ok ⟨⟩
        { sess := processed b host s, events := .opened :: events ++ [.freed] } := by
  obtain ⟨events, hevents, heq⟩ := cmdProcess_follows host
    (t := { sess := s, events := [.opened] }) h
  refine ⟨events, hevents, ?_⟩
  rw [handleRequest_eq]
  unfold processed
  cases hx : cmdProcessAll b host s with
  | ok a t =>
    rw [hx] at heq
    rw [bind_of_ok heq]
    rfl
  | error e t =>
    rw [hx] at heq
    rw [bind_of_error heq]
    rfl

/-- A frame without a command: the handle is freed by `cmd_process` and by the callback. -/
theorem handleRequest_unknown (host : Host) {s : FileServerSess}
    (h : b.getUInt8 s.buf.bytes 1 = none) :
    handleRequest b host { sess := s, events := [] } = .ok ⟨⟩
      { sess := processed b host s, events := [.opened, .read 1, .freed, .freed] } := by
  have hx : cmdProcess b host { sess := s, events := [.opened] } = .ok ⟨⟩
      { sess := responseMsg b statusError "Binn parse error: reading command failed" true s
        events := [.opened, .read 1, .freed] } := by
    unfold cmdProcess
    show (match b.getUInt8 s.buf.bytes 1 with
      | none => _
      | some command => _ : TracedM PUnit) { sess := s, events := [.opened, .read 1] } = _
    rw [h]
    rfl
  have hall : cmdProcessAll b host s = .ok ⟨⟩
      (responseMsg b statusError "Binn parse error: reading command failed" true s) := by
    unfold cmdProcessAll FileServerSess.cmdProcess
    rw [get_bind_apply, h]
    rfl
  rw [handleRequest_eq, bind_of_ok hx]
  unfold processed
  rw [hall]
  rfl

theorem freedOnce_of_reads {events : List HandleEvent} (h : ∀ e ∈ events, ∃ pos, e = .read pos) :
    FreedOnce (.opened :: events ++ [.freed]) := by
  refine ⟨.opened :: events, [], rfl, ?_, List.not_mem_nil, fun pos => List.not_mem_nil⟩
  rintro (_ | ⟨_, hfreed⟩)
  obtain ⟨pos, hpos⟩ := h _ hfreed
  cases hpos

theorem not_freedOnce : ¬ FreedOnce [.opened, .read 1, .freed, .freed] := by
  rintro ⟨before, after, heq, hbefore, hafter, -⟩
  have hcount := congrArg (List.count HandleEvent.freed) heq
  rw [List.count_append, List.count_cons_self, List.count_eq_zero.mpr hbefore,
    List.count_eq_zero.mpr hafter] at hcount
  revert hcount
  decide

/-- **When the handle is freed once.** For every complete frame of a session in the mode
`fservAuth`, and whatever the file system does, exactly if the first value of the frame can be read
as a command. -/
theorem freed_once_iff (b : Binn) (host : Host) (s : FileServerSess) (env : Env)
    (chunk : List UInt8) (hread : s.pending = .read) (hmode : s.mode = fservAuth)
    (h : ((s.buf.overwrite chunk).count chunk.length).readComplete chunk.length = true) :
    ∃ t events, handleRequest b host { sess := received chunk s, events := [] } =
        .ok ⟨⟩ { sess := t, events } ∧
      deliver b (cmdProcessAll b host) env chunk s = { t with
        handled := s.handled ++
          [(received chunk s).buf.bytes.take (received chunk s).buf.length] } ∧
      (FreedOnce events ↔ ∃ command, b.getUInt8 (s.buf.overwrite chunk).bytes 1 = some command) := by
  have hdeliver : deliver b (cmdProcessAll b host) env chunk s =
      { processed b host (received chunk s) with
        handled := s.handled ++
          [(received chunk s).buf.bytes.take (received chunk s).buf.length] } :=
    deliver_request hread hmode h
  cases hcommand : b.getUInt8 (received chunk s).buf.bytes 1 with
  | none =>
    refine ⟨_, _, handleRequest_unknown host hcommand, hdeliver, iff_of_false not_freedOnce ?_⟩
    rintro ⟨command, hsome⟩
    cases hcommand.symm.trans hsome
  | some command =>
    obtain ⟨events, hevents, heq⟩ := handleRequest_known host hcommand
    exact ⟨_, _, heq, hdeliver, iff_of_true (freedOnce_of_reads hevents) ⟨command, hcommand⟩⟩

/-! ## Two frames -/

/-- The list of the command 10, which the session does not know. -/
theorem freed_once_unknown : ∃ t events,
    handleRequest Binn.short Host.empty
        { sess := received (unknownPayload ++ endSymbols) (new { bytes := [], length := 0 } 0),
          events := [] } = .ok ⟨⟩ { sess := t, events } ∧ FreedOnce events := by
  obtain ⟨t, events, heq, -, hiff⟩ := freed_once_iff Binn.short Host.empty
    (new { bytes := [], length := 0 } 0) ⟨true, fun _ _ => none, 0⟩ (unknownPayload ++ endSymbols)
    rfl rfl (by decide)
  exact ⟨t, events, heq, hiff.mpr ⟨10, by decide⟩⟩

/-- A list whose first value is the text `a`. -/
def textPayload : List UInt8 := [0xE0, 7, 1, 0xA0, 1, 0x61, 0]

/-- It is freed twice. -/
theorem freed_twice :
    ¬ ∀ (b : Binn) (host : Host) (s : FileServerSess) (chunk : List UInt8), s.pending = .read →
      s.mode = fservAuth →
      ((s.buf.overwrite chunk).count chunk.length).readComplete chunk.length = true →
      ∀ t events, handleRequest b host { sess := received chunk s, events := [] } =
        .ok ⟨⟩ { sess := t, events } → FreedOnce events := by
  intro h
  have htext := handleRequest_unknown (b := Binn.short) Host.empty
    (s := received (textPayload ++ endSymbols) (new { bytes := [], length := 0 } 0)) (by decide)
  exact not_freedOnce (h Binn.short Host.empty (new { bytes := [], length := 0 } 0)
    (textPayload ++ endSymbols) rfl rfl (by decide) _ _ htext)

end Traced

end FileServerSess

end GameAP
