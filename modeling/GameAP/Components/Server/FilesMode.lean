import GameAP.Components.Server.FilesTransfer
import GameAP.Components.Server.Responses
import GameAP.Lib.Run

/-!
# Transfers that are under way

A request for a transfer sets the mode `fservFilesend` as soon as its sendfile mode and its name
are read, and nothing that fails later takes it back. `run_inStep`: in a run in which every such
request opens its file, the mode is `fservFilesend` only while a transfer is under way.
-/

namespace GameAP

open Lib

theorem OutFile.isOpen_write (success : Bool) (bytes : List UInt8) (f : OutFile) :
    (f.write success bytes).isOpen = f.isOpen := by
  unfold OutFile.write
  split
  · rfl
  · split <;> rfl

namespace FileServerSess

/-- What happens to a session, with what its callback finds outside. -/
inductive Input where
  | chunk (host : Host) (env : Env) (bytes : List UInt8)
  | written

def step (b : Binn) (s : FileServerSess) : Input → FileServerSess
  | .chunk host env bytes => deliver b (cmdProcessAll b host) env bytes s
  | .written =>
    match s.pending with
    | .write _ => onWritten s
    | _ => s

/-- The rest of the request is readable, and the file can be opened. -/
def Opens (b : Binn) (fs : Files) (request : List UInt8) (sendfileMode : Nat) (filename : String) :
    Prop :=
  (sendfileMode = fservFileDownload ∧ (b.getUInt64 request 4).isSome = true ∧
      (b.getBool request 5).isSome = true ∧ (b.getUInt16 request 6).isSome = true ∧
      fs.openOutput filename = true) ∨
    (sendfileMode = fservFileUpload ∧ fs.existsFile filename = .ok true ∧
      (fs.fileSize filename).toBool = true ∧ (fs.openInput filename).isSome = true)

/-- If the input is a request for a transfer that names a mode and a file, it opens the file. -/
def Admits (b : Binn) (s : FileServerSess) : Input → Prop
  | .written => True
  | .chunk host _ bytes =>
    s.pending = .read → s.mode = fservAuth →
    ((s.buf.overwrite bytes).count bytes.length).readComplete bytes.length = true →
    ∀ sendfileMode filename, b.getUInt8 (s.buf.overwrite bytes).bytes 1 = some fservFilesend →
      b.getUInt8 (s.buf.overwrite bytes).bytes 2 = some sendfileMode →
      b.getStr (s.buf.overwrite bytes).bytes 3 = some filename →
      Opens b host.toFiles (s.buf.overwrite bytes).bytes sendfileMode filename

/-- The last response announces a transfer. -/
def Announced (s : FileServerSess) : Prop :=
  ∃ rest, s.written.getLast? = some (.uint32 statusFileTransferReady :: rest)

/-- The mode says what the session does. -/
structure InStep (s : FileServerSess) : Prop where
  underWay : s.mode = fservFilesend → Announced s ∧
    (s.sendfileMode = fservFileDownload ∧ s.outputFile.isOpen = true ∨
      s.sendfileMode = fservFileUpload ∧ s.inputFile.isOpen = true)
  errors : ∀ snum rest, s.written.getLast? = some (.uint32 snum :: rest) →
    snum ∈ [statusError, statusCriticalError, statusUnknownCommand] → s.mode = fservAuth

/-! ## The invariant -/

/-- No transfer, and no file is open. -/
structure AtRest (s : FileServerSess) : Prop where
  mode : s.mode = fservAuth
  input : s.inputFile.isOpen = false
  output : s.outputFile.isOpen = false

structure Receives (s : FileServerSess) : Prop where
  mode : s.mode = fservFilesend
  direction : s.sendfileMode = fservFileDownload
  announced : Announced s
  input : s.inputFile.isOpen = false
  output : s.outputFile.isOpen = true

structure SendsFile (s : FileServerSess) : Prop where
  mode : s.mode = fservFilesend
  direction : s.sendfileMode = fservFileUpload
  announced : Announced s
  input : s.inputFile.isOpen = true
  output : s.outputFile.isOpen = false

inductive Consistent (s : FileServerSess) : Prop where
  | atRest (h : AtRest s)
  | receives (h : Receives s)
  | sends (h : SendsFile s)

variable {b : Binn} {host : Host} {s t : FileServerSess}

theorem Consistent.inStep (h : Consistent s) : InStep s := by
  have hne : fservAuth ≠ fservFilesend := by decide
  have herror : Announced s → ∀ snum rest, s.written.getLast? = some (.uint32 snum :: rest) →
      snum ∉ [statusError, statusCriticalError, statusUnknownCommand] := by
    rintro ⟨rest, hrest⟩ snum rest' hlast
    rw [hrest] at hlast
    cases hlast
    decide
  cases h with
  | atRest h => exact ⟨fun hm => absurd (h.mode.symm.trans hm) hne, fun _ _ _ _ => h.mode⟩
  | receives h =>
    exact ⟨fun _ => ⟨h.announced, .inl ⟨h.direction, h.output⟩⟩,
      fun _ _ hlast hmem => absurd hmem (herror h.announced _ _ hlast)⟩
  | sends h =>
    exact ⟨fun _ => ⟨h.announced, .inr ⟨h.direction, h.input⟩⟩,
      fun _ _ hlast hmem => absurd hmem (herror h.announced _ _ hlast)⟩

/-- The part of the session that a transfer is about. -/
def transfer (s : FileServerSess) : Nat × InFile × OutFile := (s.mode, s.inputFile, s.outputFile)

theorem Consistent.of_eq (ht : transfer t = transfer s) (hd : t.sendfileMode = s.sendfileMode)
    (hw : t.written = s.written) (hs : Consistent s) : Consistent t := by
  obtain ⟨hmode, hfiles⟩ := Prod.mk.inj ht
  obtain ⟨hin, hout⟩ := Prod.mk.inj hfiles
  have hann : Announced s → Announced t := fun ⟨rest, h⟩ => ⟨rest, hw ▸ h⟩
  cases hs with
  | atRest h => exact .atRest ⟨hmode.trans h.mode, hin ▸ h.input, hout ▸ h.output⟩
  | receives h =>
    exact .receives ⟨hmode.trans h.mode, hd.trans h.direction, hann h.announced, hin ▸ h.input,
      hout ▸ h.output⟩
  | sends h =>
    exact .sends ⟨hmode.trans h.mode, hd.trans h.direction, hann h.announced, hin ▸ h.input,
      hout ▸ h.output⟩

theorem AtRest.of_transfer (h : transfer t = transfer s) (hs : AtRest s) : AtRest t := by
  obtain ⟨hmode, hfiles⟩ := Prod.mk.inj h
  obtain ⟨hin, hout⟩ := Prod.mk.inj hfiles
  exact ⟨hmode.trans hs.mode, hin ▸ hs.input, hout ▸ hs.output⟩

theorem transfer_responseMsg (snum : Nat) (sdesc : String) (write : Bool) (s : FileServerSess) :
    transfer (responseMsg b snum sdesc write s) = transfer s := by
  unfold responseMsg
  cases write <;> rfl

/-! ## Transfers -/

theorem Receives.closed (h : Receives s) : AtRest (clearReadVars (closeOutputFile s)) :=
  ⟨rfl, h.input, rfl⟩

theorem writeFile_consistent (h : Receives s) (success : Bool) (length : Nat) :
    Consistent (writeFile b success length s) := by
  have hrespond : ∀ {t} snum sdesc, AtRest t → Consistent (responseMsg b snum sdesc true t) :=
    fun snum sdesc ht => .atRest (ht.of_transfer (transfer_responseMsg snum sdesc true _))
  have hwritten : Receives { s with
      outputFile := s.outputFile.write success (s.buf.bytes.take length) } :=
    ⟨h.mode, h.direction, h.announced, h.input, (OutFile.isOpen_write _ _ _).trans h.output⟩
  unfold writeFile
  split
  · exact hrespond _ _ h.closed
  · split
    · dsimp only
      split
      · exact hrespond _ _ hwritten.closed
      · split
        · exact hrespond _ _ hwritten.closed
        · exact .receives
            ⟨hwritten.mode, hwritten.direction, hwritten.announced, hwritten.input,
              hwritten.output⟩
    · exact hrespond _ _ h.closed

/-- Sending either closes the file or does not end. -/
theorem sendFile_consistent (h : SendsFile s) (buf : ReadBuffer) (w : WriteSome) (rounds : Nat) :
    Consistent ((sendFile w rounds { s with pending := .none, buf }).getD
      { s with pending := .none }) := by
  unfold sendFile
  dsimp only
  cases loop (sendBody w) rounds { input := s.inputFile, calls := 0, sent := [] } with
  | none => exact .sends ⟨h.mode, h.direction, h.announced, h.input, h.output⟩
  | some x => exact .atRest ⟨rfl, rfl, h.output⟩

/-! ## Requests -/

/-- The session but for what a response changes. -/
def quiet (s : FileServerSess) : FileServerSess :=
  { s with buf := { bytes := [], length := 0 }, writeBinn := [], pending := .none, written := [] }

theorem quiet_responseMsg (snum : Nat) (sdesc : String) (write : Bool) (s : FileServerSess) :
    quiet (responseMsg b snum sdesc write s) = quiet s := by
  unfold responseMsg
  cases write <;> rfl

theorem answerDone_keeps (done : Except String PUnit) : Keeps quiet (answerDone b done) := by
  unfold answerDone
  split
  · exact .modify (quiet_responseMsg _ _ _)
  · exact .modify (quiet_responseMsg _ _ _)

theorem writeFileInfo_keeps (info : List BinnValue) : Keeps quiet (writeFileInfo b info) :=
  .bind (.modify (quiet_responseMsg _ _ _)) fun _ =>
    .bind (.modify fun _ => rfl) fun _ => .modify fun _ => rfl

theorem respond_keeps (snum : Nat) (sdesc : String) :
    Keeps quiet (modify (responseMsg b snum sdesc true) : SessM PUnit) :=
  .modify (quiet_responseMsg _ _ _)

theorem cmdReaddir_keeps : Keeps quiet (cmdReaddir b host) := by
  unfold cmdReaddir
  refine .bind .get fun s => ?_
  split
  · apply respond_keeps
  refine .bind .get fun s => ?_
  split
  · apply respond_keeps
  refine .bind (.orThrow _) fun found => .ite (respond_keeps _ _) ?_
  refine .bind (.orThrow _) fun files => ?_
  refine .bind (.modify (quiet_responseMsg _ _ _)) fun _ => ?_
  exact .bind (.modify fun _ => rfl) fun _ => .modify fun _ => rfl

theorem cmdMkdir_keeps : Keeps quiet (cmdMkdir b host) := by
  unfold cmdMkdir
  refine .bind .get fun s => ?_
  split
  · apply respond_keeps
  · exact .bind (.orThrow _) fun found => .ite (respond_keeps _ _) (answerDone_keeps _)

theorem cmdMove_keeps : Keeps quiet (cmdMove b host) := by
  unfold cmdMove
  refine .bind .get fun s => ?_
  split
  · apply respond_keeps
  refine .bind .get fun s => ?_
  split
  · apply respond_keeps
  refine .bind .get fun s => ?_
  split
  · apply respond_keeps
  · apply answerDone_keeps

theorem cmdRemove_keeps : Keeps quiet (cmdRemove b host) := by
  unfold cmdRemove
  refine .bind .get fun s => ?_
  split
  · apply respond_keeps
  refine .bind .get fun s => ?_
  split
  · apply respond_keeps
  · exact .bind (.orThrow _) fun found => .ite (respond_keeps _ _) (answerDone_keeps _)

theorem cmdFileinfo_keeps : Keeps quiet (cmdFileinfo b host) := by
  unfold cmdFileinfo
  refine .bind .get fun s => ?_
  split
  · apply respond_keeps
  refine .bind (.orThrow _) fun found => .ite (respond_keeps _ _) ?_
  split
  · exact .bind (.orThrow _) fun status => writeFileInfo_keeps _
  · exact .bind (respond_keeps _ _) fun _ => writeFileInfo_keeps _

theorem cmdChmod_keeps : Keeps quiet (cmdChmod b host) := by
  unfold cmdChmod
  refine .bind .get fun s => ?_
  split
  · apply respond_keeps
  refine .bind .get fun s => ?_
  split
  · apply respond_keeps
  refine .bind (.orThrow _) fun found => .ite (respond_keeps _ _) ?_
  exact .bind (.orThrow _) fun _ => respond_keeps _ _

/-- The requests that are no transfers only answer. -/
theorem otherCommands_quiet (command : Nat) : Keeps quiet (otherCommands b host command) := by
  unfold otherCommands
  apply Keeps.ite (.pure _)
  apply Keeps.ite cmdReaddir_keeps
  apply Keeps.ite cmdMkdir_keeps
  apply Keeps.ite cmdMove_keeps
  apply Keeps.ite cmdRemove_keeps
  apply Keeps.ite cmdFileinfo_keeps
  apply Keeps.ite cmdChmod_keeps
  apply respond_keeps

theorem otherCommands_keeps (command : Nat) : Keeps transfer (otherCommands b host command) :=
  (otherCommands_quiet command).comp transfer

/-- A request for a file to be received. -/
theorem cmdFilesend_download {fs : Files} {filename : String} {filesize chmod : Nat}
    {makeDir : Bool}
    (hmode : b.getUInt8 s.buf.bytes 2 = some fservFileDownload)
    (hname : b.getStr s.buf.bytes 3 = some filename)
    (hsize : b.getUInt64 s.buf.bytes 4 = some filesize)
    (hdir : b.getBool s.buf.bytes 5 = some makeDir)
    (hchmod : b.getUInt16 s.buf.bytes 6 = some chmod) :
    cmdFilesend b fs s = .ok ⟨⟩ (responseMsg b statusFileTransferReady "File receive started" true
      { s with
        sendfileMode := fservFileDownload
        filename
        mode := fservFilesend
        filesize
        outputFile := s.outputFile.openFile (fs.openOutput filename) }) := by
  unfold cmdFilesend
  rw [get_bind_apply, hmode]
  simp only
  rw [modify_bind_apply, get_bind_apply]
  simp only [hname]
  rw [modify_bind_apply, if_pos trivial, get_bind_apply]
  simp only [hsize]
  rw [get_bind_apply]
  simp only [hdir]
  rw [get_bind_apply]
  simp only [hchmod]
  rw [modify_bind_apply, modify_bind_apply]
  rfl

theorem openFile_opens {f : InFile} (h : f.isOpen = false) {content : Option (List UInt8)}
    (hc : content.isSome = true) : (f.openFile content).isOpen = true := by
  obtain ⟨rest, rfl⟩ := Option.isSome_iff_exists.mp hc
  unfold InFile.openFile
  simp only [h, Bool.false_eq_true, if_false]

/-- A request that opens its file starts the transfer. -/
theorem cmdFilesend_opens {fs : Files} {sendfileMode : Nat} {filename : String} (hs : AtRest s)
    (hcommand : b.getUInt8 s.buf.bytes 1 = some fservFilesend) (hempty : s.writeBinn = [])
    (hmode : b.getUInt8 s.buf.bytes 2 = some sendfileMode)
    (hname : b.getStr s.buf.bytes 3 = some filename)
    (hopens : Opens b fs s.buf.bytes sendfileMode filename) :
    ∃ t, cmdFilesend b fs s = .ok ⟨⟩ t ∧ Consistent t := by
  rcases hopens with ⟨rfl, hsize, hdir, hchmod, hopen⟩ | ⟨rfl, hexists, hsize, hopen⟩
  · obtain ⟨filesize, hsize⟩ := Option.isSome_iff_exists.mp hsize
    obtain ⟨makeDir, hdir⟩ := Option.isSome_iff_exists.mp hdir
    obtain ⟨chmod, hchmod⟩ := Option.isSome_iff_exists.mp hchmod
    refine ⟨_, cmdFilesend_download hmode hname hsize hdir hchmod, .receives ?_⟩
    refine ⟨rfl, rfl, ⟨[.str "File receive started"], ?_⟩, hs.input, ?_⟩
    · show (s.written ++ [s.writeBinn ++ _]).getLast? = _
      rw [hempty]
      exact List.getLast?_concat
    · show (s.outputFile.openFile (fs.openOutput filename)).isOpen = true
      unfold OutFile.openFile
      simp only [hopen, hs.output, Bool.not_false, Bool.and_self, if_true]
  · refine ⟨_, cmdFilesend_upload ⟨hcommand, hmode, hname⟩ hexists (eq_ok_resultD 0 hsize) hempty,
      .sends ?_⟩
    exact ⟨rfl, rfl, ⟨_, List.getLast?_concat⟩, openFile_opens hs.input hopen, hs.output⟩

theorem cmdFilesend_consistent {fs : Files} (hs : AtRest s)
    (hcommand : b.getUInt8 s.buf.bytes 1 = some fservFilesend) (hempty : s.writeBinn = [])
    (hopens : ∀ sendfileMode filename, b.getUInt8 s.buf.bytes 2 = some sendfileMode →
      b.getStr s.buf.bytes 3 = some filename →
      Opens b fs s.buf.bytes sendfileMode filename) :
    ∃ t, cmdFilesend b fs s = .ok ⟨⟩ t ∧ Consistent t := by
  cases hmode : b.getUInt8 s.buf.bytes 2 with
  | none =>
    have hx : cmdFilesend b fs s =
        .ok ⟨⟩ (responseMsg b statusError "Binn parse error: invalid sendfile mode" true s) := by
      unfold cmdFilesend
      rw [get_bind_apply, hmode]
      rfl
    exact ⟨_, hx, .atRest (hs.of_transfer (transfer_responseMsg _ _ _ _))⟩
  | some sendfileMode =>
    cases hname : b.getStr s.buf.bytes 3 with
    | none =>
      have hx : cmdFilesend b fs s = .ok ⟨⟩ (responseMsg b statusError
          "Binn parse error: invalid filename" true { s with sendfileMode }) := by
        unfold cmdFilesend
        rw [get_bind_apply, hmode]
        simp only
        rw [modify_bind_apply, get_bind_apply]
        simp only [hname]
        rfl
      exact ⟨_, hx, .atRest (AtRest.of_transfer (transfer_responseMsg _ _ _ _)
        ⟨hs.mode, hs.input, hs.output⟩)⟩
    | some filename =>
      exact cmdFilesend_opens hs hcommand hempty hmode hname
        (hopens sendfileMode filename hmode hname)

/-- What a request leaves behind, answered if it throws. -/
theorem request_consistent (hs : AtRest s)
    (hopens : b.getUInt8 s.buf.bytes 1 = some fservFilesend →
      ∀ sendfileMode filename, b.getUInt8 s.buf.bytes 2 = some sendfileMode →
        b.getStr s.buf.bytes 3 = some filename →
        Opens b host.toFiles s.buf.bytes sendfileMode filename) :
    Consistent (processed b host s) := by
  unfold processed cmdProcessAll cmdProcess
  rw [get_bind_apply]
  cases hcommand : b.getUInt8 s.buf.bytes 1 with
  | none => exact .atRest (hs.of_transfer (transfer_responseMsg _ _ _ _))
  | some command =>
    simp only
    rw [modify_bind_apply]
    have hs' : AtRest (clearWriteVars s) := ⟨hs.mode, hs.input, hs.output⟩
    by_cases hsend : command = fservFilesend
    · subst hsend
      rw [if_pos rfl]
      obtain ⟨t, ht, hcons⟩ := cmdFilesend_consistent (s := clearWriteVars s) hs' hcommand rfl
        (hopens hcommand)
      rw [ht]
      exact hcons
    · rw [if_neg hsend]
      have hkeeps : transfer (endState (otherCommands b host command) (clearWriteVars s)) =
          transfer (clearWriteVars s) := otherCommands_keeps command _
      cases hx : otherCommands b host command (clearWriteVars s) with
      | ok _ t =>
        rw [endState_of_ok hx] at hkeeps
        exact .atRest (hs'.of_transfer hkeeps)
      | error e t =>
        rw [endState_of_error hx] at hkeeps
        exact .atRest (hs'.of_transfer ((transfer_responseMsg _ _ _ _).trans hkeeps))

/-! ## Runs -/

theorem deliver_receives {process : SessM PUnit} {env : Env} {chunk : List UInt8}
    (hread : s.pending = .read) (h : Receives s) :
    deliver b process env chunk s = writeFile b env.writes chunk.length
      { s with pending := .none, buf := s.buf.overwrite chunk } := by
  unfold deliver onRead
  dsimp only
  rw [if_pos hread, if_pos h.mode, if_pos h.direction]
  rfl

theorem deliver_sends {process : SessM PUnit} {env : Env} {chunk : List UInt8}
    (hread : s.pending = .read) (h : SendsFile s) :
    deliver b process env chunk s =
      (sendFile env.writeSome env.rounds
        { s with pending := .none, buf := s.buf.overwrite chunk }).getD
        { s with pending := .none } := by
  have hne : s.sendfileMode ≠ fservFileDownload := by
    rw [h.direction]
    decide
  unfold deliver onRead
  dsimp only
  rw [if_pos hread, if_pos h.mode, if_neg hne, if_pos h.direction]

theorem deliver_consistent (hs : Consistent s) {env : Env} {bytes : List UInt8}
    (hok : Admits b s (.chunk host env bytes)) :
    Consistent (deliver b (cmdProcessAll b host) env bytes s) := by
  by_cases hread : s.pending = .read
  · cases hs with
    | atRest h =>
      cases hc : ((s.buf.overwrite bytes).count bytes.length).readComplete bytes.length with
      | true =>
        have hreq : Consistent (processed b host (received bytes s)) :=
          request_consistent (s := received bytes s) ⟨h.mode, h.input, h.output⟩
            fun hcommand sendfileMode filename hmode hname =>
              hok hread h.mode hc sendfileMode filename hcommand hmode hname
        rw [deliver_request hread h.mode hc]
        refine Consistent.of_eq ?_ ?_ ?_ hreq
        all_goals rfl
      | false =>
        rw [deliver_command hread h.mode, onRequest_incomplete hc]
        exact .atRest ⟨h.mode, h.input, h.output⟩
    | receives h =>
      have hr : Receives { s with pending := .none, buf := s.buf.overwrite bytes } :=
        ⟨h.mode, h.direction, h.announced, h.input, h.output⟩
      rw [deliver_receives hread h]
      exact writeFile_consistent hr _ _
    | sends h =>
      rw [deliver_sends hread h]
      exact sendFile_consistent h _ _ _
  · unfold deliver
    rw [if_neg hread]
    exact hs

theorem step_consistent (hs : Consistent s) {i : Input} (hok : Admits b s i) :
    Consistent (step b s i) := by
  cases i with
  | chunk host env bytes => exact deliver_consistent hs hok
  | written =>
    simp only [step]
    split
    · refine Consistent.of_eq ?_ ?_ ?_ hs
      all_goals rfl
    · exact hs

/-- **Transfers that are under way.** In every run of a session whose requests for transfers, if
they name a mode and a file, open the file, the mode is `fservFilesend` only while the transfer
has been announced and its file is open; whatever is answered with an error leaves the session
in the mode `fservAuth`. -/
theorem run_inStep {buf : ReadBuffer} {sendfileMode : Nat}
    (h : Run (fun s i t => t = step b s i) (Admits b) (new buf sendfileMode) t) : InStep t := by
  have hinv : Consistent t := by
    apply h.invariant (I := Consistent)
    · exact .atRest ⟨rfl, rfl, rfl⟩
    · rintro s i t hs hok rfl
      exact step_consistent hs hok
  exact hinv.inStep

/-- A session that has got a request for the file `f` and has written its response. -/
def afterUpload (host : Host) : FileServerSess :=
  step Binn.short
    (step Binn.short (new { bytes := [], length := 0 } 0)
      (.chunk host ⟨true, wholeWrites, 0⟩ (uploadPayload ++ endSymbols)))
    .written

theorem afterUpload_run (host : Host) {ok : FileServerSess → Input → Prop}
    (h : ok (new { bytes := [], length := 0 } 0)
      (.chunk host ⟨true, wholeWrites, 0⟩ (uploadPayload ++ endSymbols)))
    (hw : ∀ s, ok s .written) :
    Run (fun s i t => t = step Binn.short s i) ok (new { bytes := [], length := 0 } 0)
      (afterUpload host) :=
  .step (.step (.refl _) h rfl) (hw _) rfl

theorem upload_inStep :
    (afterUpload { Host.empty with toFiles := oneFile [1, 2, 3] }).mode = fservFilesend ∧
      InStep (afterUpload { Host.empty with toFiles := oneFile [1, 2, 3] }) := by
  refine ⟨rfl, run_inStep (afterUpload_run _ ?_ fun _ => trivial)⟩
  intro _ _ _ sendfileMode filename _ hmode hname
  obtain rfl : 2 = sendfileMode := Option.some.inj hmode
  obtain rfl : "f" = filename := Option.some.inj hname
  exact .inr ⟨rfl, rfl, rfl, rfl⟩

/-- Without the file the request is answered with an error, and what arrives next is taken for a
part of it. -/
theorem missing_file_not_inStep :
    ¬ ∀ (b : Binn) (buf : ReadBuffer) (sendfileMode : Nat) (t : FileServerSess),
      Run (fun s i t => t = step b s i) Any (new buf sendfileMode) t → InStep t := by
  intro h
  have hstep := h _ _ _ _ (afterUpload_run Host.empty trivial fun _ => trivial)
  obtain ⟨⟨rest, hrest⟩, -⟩ := hstep.underWay rfl
  cases hrest

end FileServerSess

end GameAP
