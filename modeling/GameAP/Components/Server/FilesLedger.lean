import GameAP.Components.Server.FilesReceive

/-!
# Where the bytes of the files go

A session receives and sends files one after the other, with other requests in between. `Ledger` is
a session with what its transfers have been about. `run_balanced`: if the files can be opened and
written, the connection takes whole blocks and the client keeps to the sizes it announces, each byte
that arrives for a file is in that file, and each byte of a file that was asked for has been sent or
is about to be.
-/

namespace GameAP

open Lib

namespace FileServerSess

/-- A session, and what is not part of it. -/
structure Ledger where
  sess : FileServerSess
  /-- the files that were to be received, with their sizes -/
  announced : List (String × Nat)
  /-- the bytes that have arrived for them -/
  arrived : List UInt8
  /-- what was in the files that were to be sent -/
  asked : List UInt8

namespace Ledger

def new (buf : ReadBuffer) (sendfileMode : Nat) : Ledger :=
  { sess := FileServerSess.new buf sendfileMode, announced := [], arrived := [], asked := [] }

/-- The bytes for the file that is received. -/
def arriving (s : FileServerSess) : Input → List UInt8
  | .chunk _ _ bytes =>
    if s.pending = .read ∧ s.mode = fservFilesend ∧ s.sendfileMode = fservFileDownload then bytes
    else []
  | .written => []

/-- The file that is received. -/
def receivedFile (s : FileServerSess) : List (String × Nat) :=
  if s.outputFile.isOpen then [(s.filename, s.filesize)] else []

/-- What has been written to it. -/
def unstored (s : FileServerSess) : List UInt8 :=
  if s.outputFile.isOpen then s.outputFile.content else []

/-- What is not read yet of the file that is sent. -/
def unsent (s : FileServerSess) : List UInt8 :=
  if s.inputFile.isOpen then s.inputFile.rest else []

def step (b : Binn) (l : Ledger) (i : Input) : Ledger :=
  let t := FileServerSess.step b l.sess i
  { sess := t
    announced := l.announced ++ if l.sess.outputFile.isOpen then [] else receivedFile t
    arrived := l.arrived ++ arriving l.sess i
    asked := l.asked ++ if l.sess.inputFile.isOpen then [] else unsent t }

/-- Every call of `write_some` transmits all it is given. -/
def WritesWhole (w : WriteSome) : Prop := ∀ k block, w k block = some block.length

/-- What the client and the host do for a chunk. -/
structure Sound (b : Binn) (s : FileServerSess) (host : Host) (env : Env) (bytes : List UInt8) :
    Prop where
  opens : FileServerSess.Admits b s (.chunk host env bytes)
  writes : env.writes = true
  transmits : WritesWhole env.writeSome
  size : s.mode = fservAuth → ∀ filename n,
    Download b (s.buf.overwrite bytes).bytes filename n → 1 ≤ n ∧ n < 2 ^ 63
  /-- no bytes behind the last one that was announced -/
  short : s.outputFile.isOpen = true → s.outputFile.content.length + bytes.length ≤ s.filesize

def Admits (b : Binn) (l : Ledger) : Input → Prop
  | .chunk host env bytes => Sound b l.sess host env bytes
  | .written => True

structure Balanced (l : Ledger) : Prop where
  /-- the files that are stored have the announced names and sizes -/
  files : l.sess.stored.map (fun f => (f.1, f.2.length)) ++ receivedFile l.sess = l.announced
  /-- and together consist of the bytes that have arrived -/
  arrived : (l.sess.stored.map Prod.snd).flatten ++ unstored l.sess = l.arrived
  sent : l.sess.sent ++ unsent l.sess = l.asked

/-! ## The invariant -/

structure Inv (l : Ledger) : Prop where
  consistent : Consistent l.sess
  balanced : Balanced l
  receiving : l.sess.outputFile.isOpen = true → l.sess.filesize < 2 ^ 63 ∧
    Receiving l.sess.filename l.sess.filesize l.sess l.sess.outputFile.content (doRead l.sess)
  sending : l.sess.inputFile.isOpen = true → l.sess.inputFile = opened l.sess.inputFile.rest

variable {b : Binn} {host : Host} {env : Env} {l : Ledger} {s t : FileServerSess} {i : Input}
  {bytes : List UInt8}

/-- The part of a session that the books are about. -/
def books (s : FileServerSess) : List (String × List UInt8) × List UInt8 := (s.stored, s.sent)

theorem receivedFile_closed (h : s.outputFile.isOpen = false) : receivedFile s = [] := by
  unfold receivedFile
  rw [h]
  rfl

theorem unstored_closed (h : s.outputFile.isOpen = false) : unstored s = [] := by
  unfold unstored
  rw [h]
  rfl

theorem unsent_closed (h : s.inputFile.isOpen = false) : unsent s = [] := by
  unfold unsent
  rw [h]
  rfl

/-- While no file is open. -/
structure Even (l : Ledger) : Prop where
  files : l.sess.stored.map (fun f => (f.1, f.2.length)) = l.announced
  arrived : (l.sess.stored.map Prod.snd).flatten = l.arrived
  sent : l.sess.sent = l.asked

theorem Balanced.even (h : Balanced l) (hs : AtRest l.sess) : Even l := by
  obtain ⟨hfiles, harrived, hsent⟩ := h
  rw [receivedFile_closed hs.output, List.append_nil] at hfiles
  rw [unstored_closed hs.output, List.append_nil] at harrived
  rw [unsent_closed hs.input, List.append_nil] at hsent
  exact ⟨hfiles, harrived, hsent⟩

theorem Even.inv (h : Even l) (hs : AtRest l.sess) : Inv l where
  consistent := .atRest hs
  balanced := by
    refine ⟨?_, ?_, ?_⟩
    · rw [receivedFile_closed hs.output, List.append_nil, h.files]
    · rw [unstored_closed hs.output, List.append_nil, h.arrived]
    · rw [unsent_closed hs.input, List.append_nil, h.sent]
  receiving := fun hopen => by
    rw [hs.output] at hopen
    cases hopen
  sending := fun hopen => by
    rw [hs.input] at hopen
    cases hopen

/-! ## Requests -/

theorem atRest_responseMsg (hs : AtRest s) (snum : Nat) (sdesc : String) (write : Bool) :
    AtRest (responseMsg b snum sdesc write s) := hs.of_transfer (transfer_responseMsg _ _ _ _)

theorem books_responseMsg (snum : Nat) (sdesc : String) (write : Bool) (s : FileServerSess) :
    books (responseMsg b snum sdesc write s) = books s := by
  unfold responseMsg
  cases write <;> rfl

/-- No transfer is started, and nothing is stored or sent. -/
def Stays (s t : FileServerSess) : Prop := AtRest t ∧ books t = books s

theorem stays_responseMsg {u : FileServerSess} (hu : Stays s u) (snum : Nat) (sdesc : String)
    (write : Bool) : Stays s (responseMsg b snum sdesc write u) :=
  ⟨atRest_responseMsg hu.1 _ _ _, (books_responseMsg _ _ _ _).trans hu.2⟩

/-- A request for a transfer whose mode or name cannot be read. -/
theorem cmdFilesend_malformed (fs : Files) (hs : AtRest s)
    (h : b.getUInt8 s.buf.bytes 2 = none ∨ b.getStr s.buf.bytes 3 = none) :
    ∃ t, cmdFilesend b fs s = .ok ⟨⟩ t ∧ Stays s t := by
  unfold cmdFilesend
  rw [get_bind_apply]
  cases hmode : b.getUInt8 s.buf.bytes 2 with
  | none => exact ⟨_, rfl, stays_responseMsg ⟨hs, rfl⟩ _ _ _⟩
  | some sendfileMode =>
    have hname := h.resolve_left (by rw [hmode]; exact nofun)
    simp only
    rw [modify_bind_apply, get_bind_apply]
    simp only [hname]
    have hstays : Stays s { s with sendfileMode } := ⟨⟨hs.mode, hs.input, hs.output⟩, rfl⟩
    exact ⟨_, rfl, stays_responseMsg hstays _ _ _⟩

/-- A request that is no request for a transfer. -/
theorem otherCommands_stays (host : Host) (hs : AtRest s) (command : Nat) :
    Stays s (endState (otherCommands b host command) s) :=
  ⟨hs.of_transfer (otherCommands_keeps command s), (otherCommands_quiet command).comp books s⟩

/-- The session that has answered a request for a file to be sent. -/
def uploadReady (b : Binn) (filename : String) (size : Nat) (content : Option (List UInt8))
    (s : FileServerSess) : FileServerSess :=
  doWrite b { s with
    sendfileMode := fservFileUpload
    filename
    mode := fservFilesend
    writeBinn := sendingReady size
    inputFile := s.inputFile.openFile content }

theorem processed_of_ok (h : cmdProcessAll b host s = .ok ⟨⟩ t) : processed b host s = t := by
  unfold processed
  rw [h]

/-- What a request leaves behind. -/
theorem processed_cases (hs : AtRest s)
    (hopens : b.getUInt8 s.buf.bytes 1 = some fservFilesend →
      ∀ sendfileMode filename, b.getUInt8 s.buf.bytes 2 = some sendfileMode →
        b.getStr s.buf.bytes 3 = some filename →
        Opens b host.toFiles s.buf.bytes sendfileMode filename) :
    Stays s (processed b host s) ∨
    (∃ filename n, Download b s.buf.bytes filename n ∧ CanOpen host.toFiles filename s ∧
      processed b host s = downloadReady b host.toFiles filename n s) ∨
    ∃ filename size content, processed b host s = uploadReady b filename size (some content) s := by
  have hs' : AtRest (clearWriteVars s) := ⟨hs.mode, hs.input, hs.output⟩
  cases hcommand : b.getUInt8 s.buf.bytes 1 with
  | none =>
    have hx : cmdProcessAll b host s =
        .ok ⟨⟩ (responseMsg b statusError "Binn parse error: reading command failed" true s) := by
      unfold cmdProcessAll cmdProcess
      rw [get_bind_apply, hcommand]
      rfl
    rw [processed_of_ok hx]
    exact .inl (stays_responseMsg ⟨hs, rfl⟩ _ _ _)
  | some command =>
    by_cases hsend : command = fservFilesend
    · subst hsend
      have hfilesend : cmdProcessAll b host s = cmdFilesend b host.toFiles (clearWriteVars s) :=
        cmdProcess_command hcommand
      cases hmode : b.getUInt8 s.buf.bytes 2 with
      | none =>
        obtain ⟨t, ht, hstays⟩ := cmdFilesend_malformed host.toFiles hs' (.inl hmode)
        rw [processed_of_ok (hfilesend.trans ht)]
        exact .inl hstays
      | some sendfileMode =>
        cases hname : b.getStr s.buf.bytes 3 with
        | none =>
          obtain ⟨t, ht, hstays⟩ := cmdFilesend_malformed host.toFiles hs' (.inr hname)
          rw [processed_of_ok (hfilesend.trans ht)]
          exact .inl hstays
        | some filename =>
          right
          rcases hopens hcommand sendfileMode filename hmode hname with
            ⟨rfl, hsize, hdir, hchmod, hopen⟩ | ⟨rfl, hexists, hsize, hopen⟩
          · left
            obtain ⟨n, hn⟩ := Option.isSome_iff_exists.mp hsize
            have hreq : Download b s.buf.bytes filename n :=
              ⟨hcommand, hmode, hname, hn, Option.isSome_iff_exists.mp hdir,
                Option.isSome_iff_exists.mp hchmod⟩
            exact ⟨filename, n, hreq, ⟨hopen, hs.output⟩,
              processed_of_ok (cmdProcess_download _ hreq)⟩
          · right
            obtain ⟨content, hcontent⟩ := Option.isSome_iff_exists.mp hopen
            refine ⟨filename, resultD 0 (host.fileSize filename), content, ?_⟩
            rw [processed_of_ok (cmdProcess_upload _ ⟨hcommand, hmode, hname⟩ hexists
              (eq_ok_resultD 0 hsize)), hcontent]
            rfl
    · left
      have hstays := otherCommands_stays (b := b) host hs' command
      have hother : cmdProcessAll b host s = otherCommands b host command (clearWriteVars s) := by
        rw [cmdProcess_command hcommand, if_neg hsend]
      unfold processed
      rw [hother]
      cases hx : otherCommands b host command (clearWriteVars s) with
      | ok _ t =>
        rw [endState_of_ok hx] at hstays
        exact hstays
      | error e t =>
        rw [endState_of_error hx] at hstays
        exact stays_responseMsg hstays _ _ _

/-! ## Steps -/

theorem step_of_eq (h : FileServerSess.step b l.sess i = t) : step b l i =
    { sess := t
      announced := l.announced ++ if l.sess.outputFile.isOpen then [] else receivedFile t
      arrived := l.arrived ++ arriving l.sess i
      asked := l.asked ++ if l.sess.inputFile.isOpen then [] else unsent t } := by
  subst h
  rfl

theorem ite_closed {f : FileServerSess → List α} {open' : FileServerSess → Bool}
    (h : ∀ s, open' s = false → f s = []) (s : FileServerSess) :
    (if open' s then [] else f s) = [] := by
  split
  · rfl
  · next hopen => exact h s (by simpa using hopen)

/-- Only what is pending has changed. -/
theorem Inv.of_pending (h : Inv l) {pending : Pending}
    (ht : FileServerSess.step b l.sess i = { l.sess with pending })
    (ha : arriving l.sess i = []) : Inv (step b l i) := by
  have hann : (if l.sess.outputFile.isOpen then [] else receivedFile l.sess) = [] :=
    ite_closed (fun _ => receivedFile_closed) l.sess
  have hask : (if l.sess.inputFile.isOpen then [] else unsent l.sess) = [] :=
    ite_closed (fun _ => unsent_closed) l.sess
  have hsame : step b l i = { l with sess := { l.sess with pending } } := by
    rw [step_of_eq ht, ha, List.append_nil]
    show Ledger.mk _ (_ ++ if l.sess.outputFile.isOpen then [] else receivedFile l.sess) _
      (_ ++ if l.sess.inputFile.isOpen then [] else unsent l.sess) = _
    rw [hann, hask, List.append_nil, List.append_nil]
  have hconsistent : Consistent { l.sess with pending } := by
    refine Consistent.of_eq (s := l.sess) ?_ ?_ ?_ h.consistent
    all_goals rfl
  rw [hsame]
  have hbalanced := h.balanced
  refine ⟨hconsistent, ⟨hbalanced.files, hbalanced.arrived, hbalanced.sent⟩, fun hopen => ?_,
    h.sending⟩
  obtain ⟨hsize, hreceiving⟩ := h.receiving hopen
  exact ⟨hsize, rfl, hreceiving.mode, hreceiving.direction, rfl, rfl, hreceiving.file,
    hreceiving.answer, hreceiving.short, rfl, rfl⟩

theorem Inv.next (ht : FileServerSess.step b l.sess i = t) (hc : Consistent t)
    (hfiles : t.stored.map (fun f => (f.1, f.2.length)) ++ receivedFile t =
      l.announced ++ if l.sess.outputFile.isOpen then [] else receivedFile t)
    (harrived : (t.stored.map Prod.snd).flatten ++ unstored t = l.arrived ++ arriving l.sess i)
    (hsent : t.sent ++ unsent t = l.asked ++ if l.sess.inputFile.isOpen then [] else unsent t)
    (hreceiving : t.outputFile.isOpen = true → t.filesize < 2 ^ 63 ∧
      Receiving t.filename t.filesize t t.outputFile.content (doRead t))
    (hsending : t.inputFile.isOpen = true → t.inputFile = opened t.inputFile.rest) :
    Inv (step b l i) := by
  subst ht
  exact ⟨hc, ⟨hfiles, harrived, hsent⟩, hreceiving, hsending⟩

/-- No transfer has been started. -/
theorem Inv.of_stays (h : Inv l) (hs : AtRest l.sess)
    (ht : Stays l.sess (FileServerSess.step b l.sess i)) (ha : arriving l.sess i = []) :
    Inv (step b l i) := by
  have heven := h.balanced.even hs
  obtain ⟨hrest, hbooks⟩ := ht
  obtain ⟨hstored, hsent⟩ := Prod.mk.inj hbooks
  refine Even.inv ⟨?_, ?_, ?_⟩ hrest
  · show (FileServerSess.step b l.sess i).stored.map _ = l.announced ++ _
    rw [hstored, heven.files, hs.output, receivedFile_closed hrest.output]
    simp
  · show ((FileServerSess.step b l.sess i).stored.map _).flatten = l.arrived ++ arriving l.sess i
    rw [hstored, heven.arrived, ha, List.append_nil]
  · show (FileServerSess.step b l.sess i).sent = l.asked ++ _
    rw [hsent, heven.sent, hs.input, unsent_closed hrest.input]
    simp

/-- A file is opened to be written. -/
theorem Inv.of_download (h : Inv l) (hs : AtRest l.sess) (filename : String) {n : Nat}
    (ht : FileServerSess.step b l.sess i = t) (hc : Consistent t) (hmax : n < 2 ^ 63)
    (hready : Receiving filename n t [] (doRead t)) (hbooks : books t = books l.sess)
    (hin : t.inputFile.isOpen = false) (ha : arriving l.sess i = []) : Inv (step b l i) := by
  have heven := h.balanced.even hs
  obtain ⟨hstored, hsent⟩ := Prod.mk.inj hbooks
  have hfile : t.outputFile = { isOpen := true, fail := false, bad := false, content := [] } :=
    hready.file
  have hname : t.filename = filename := hready.name
  have hsize : t.filesize = n := hready.size
  apply Inv.next ht hc
  case hfiles => rw [hstored, heven.files, hs.output, if_neg Bool.false_ne_true]
  case harrived =>
    have hnothing : unstored t = [] := by
      unfold unstored
      rw [hfile]
      rfl
    rw [hstored, heven.arrived, ha, hnothing]
  case hsent => rw [hsent, heven.sent, hs.input, if_neg Bool.false_ne_true]
  case hreceiving =>
    intro _
    rw [hname, hsize, hfile]
    exact ⟨hmax, hready⟩
  case hsending =>
    intro hopen
    rw [hin] at hopen
    cases hopen

/-- A file is opened to be read. -/
theorem Inv.of_upload (h : Inv l) (hs : AtRest l.sess) {content : List UInt8}
    (ht : FileServerSess.step b l.sess i = t) (hc : Consistent t)
    (hin : t.inputFile = opened content) (hbooks : books t = books l.sess)
    (hout : t.outputFile.isOpen = false) (ha : arriving l.sess i = []) : Inv (step b l i) := by
  have heven := h.balanced.even hs
  obtain ⟨hstored, hsent⟩ := Prod.mk.inj hbooks
  apply Inv.next ht hc
  case hfiles => rw [hstored, heven.files, hs.output, if_neg Bool.false_ne_true]
  case harrived => rw [hstored, heven.arrived, ha, unstored_closed hout]
  case hsent => rw [hsent, heven.sent, hs.input, if_neg Bool.false_ne_true]
  case hreceiving =>
    intro hopen
    rw [hout] at hopen
    cases hopen
  case hsending =>
    intro _
    rw [hin]
    rfl

/-- The bytes of a file that is received. -/
theorem Inv.of_receives (h : Inv l) (hr : Receives l.sess) (hread : l.sess.pending = .read)
    (hok : Sound b l.sess host env bytes)
    (hc : Consistent (deliver b (cmdProcessAll b host) env bytes l.sess)) :
    Inv (step b l (.chunk host env bytes)) := by
  obtain ⟨hmax, hreceiving⟩ := h.receiving hr.output
  have hsess : doRead l.sess = l.sess := by
    unfold doRead
    rw [← hread]
  rw [hsess] at hreceiving
  have hshort := hok.short hr.output
  have hfiles := h.balanced.files
  have harrived := h.balanced.arrived
  have hsent := h.balanced.sent
  unfold receivedFile at hfiles
  unfold unstored at harrived
  rw [hr.output, if_pos rfl] at hfiles harrived
  rw [unsent_closed hr.input, List.append_nil] at hsent
  have harriving : arriving l.sess (.chunk host env bytes) = bytes :=
    if_pos ⟨hread, hr.mode, hr.direction⟩
  have hstep : FileServerSess.step b l.sess (.chunk host env bytes) = _ :=
    hreceiving.deliver_eq hok.writes hmax
  rw [List.length_append] at hstep
  dsimp only at hstep
  split at hstep
  · next hdone =>
    have hlength : (l.sess.outputFile.content ++ bytes).length = l.sess.filesize := by
      rw [List.length_append]
      omega
    apply Inv.next hstep (hstep ▸ hc)
    case hfiles =>
      show (l.sess.stored ++
        [(l.sess.filename, l.sess.outputFile.content ++ bytes)]).map _ ++ [] = _
      rw [hr.output, if_pos rfl, List.append_nil, List.append_nil, List.map_append, ← hfiles]
      simp only [List.map_cons, List.map_nil, hlength]
    case harrived =>
      show ((l.sess.stored ++
        [(l.sess.filename, l.sess.outputFile.content ++ bytes)]).map _).flatten ++ [] = _
      rw [harriving, ← harrived]
      simp
    case hsent =>
      rw [hr.input, if_neg Bool.false_ne_true, ← hsent]
      rfl
    case hreceiving => exact nofun
    case hsending =>
      intro hopen
      cases hr.input.symm.trans hopen
  · next hmore =>
    apply Inv.next hstep (hstep ▸ hc)
    case hfiles =>
      rw [hr.output, if_pos rfl, List.append_nil, ← hfiles]
      rfl
    case harrived =>
      show (l.sess.stored.map _).flatten ++ (l.sess.outputFile.content ++ bytes) = _
      rw [harriving, ← harrived, List.append_assoc]
    case hsent =>
      rw [hr.input, if_neg Bool.false_ne_true, ← hsent]
      rfl
    case hreceiving =>
      intro _
      refine ⟨hmax, rfl, hr.mode, hr.direction, rfl, rfl, rfl, hreceiving.answer, ?_, rfl, rfl⟩
      show (l.sess.outputFile.content ++ bytes).length < l.sess.filesize
      rw [List.length_append]
      omega
    case hsending =>
      intro hopen
      cases hr.input.symm.trans hopen

/-- All of the file is sent, if the loop ends. -/
theorem sent_of_loop {w : WriteSome} (hw : WritesWhole w) {content : List UInt8} {rounds : Nat}
    {x : Sending} (hloop : loop (sendBody w) rounds
      { input := opened content, calls := 0, sent := [] } = some x) : x.sent = content := by
  have htransmits : Transmits w := fun k block =>
    ⟨block.length, hw k block, Nat.le_refl _, List.length_pos_of_ne_nil⟩
  obtain ⟨y, hy, hiff, -⟩ := sends htransmits content 0 []
  obtain rfl := Returns.unique ⟨rounds, hloop⟩ hy
  exact hiff.mpr fun k _ => hw _ _

/-- The callback that sends a file. -/
theorem Inv.of_sends (h : Inv l) (hs : SendsFile l.sess) (hread : l.sess.pending = .read)
    (hok : Sound b l.sess host env bytes)
    (hc : Consistent (deliver b (cmdProcessAll b host) env bytes l.sess)) :
    Inv (step b l (.chunk host env bytes)) := by
  have hopened := h.sending hs.input
  have hfiles := h.balanced.files
  have harrived := h.balanced.arrived
  have hsent := h.balanced.sent
  rw [receivedFile_closed hs.output, List.append_nil] at hfiles
  rw [unstored_closed hs.output, List.append_nil] at harrived
  unfold unsent at hsent
  rw [hs.input, if_pos rfl] at hsent
  have harriving : arriving l.sess (.chunk host env bytes) = [] := by
    refine if_neg ?_
    rintro ⟨-, -, hdirection⟩
    rw [hs.direction] at hdirection
    revert hdirection
    decide
  have hstep : FileServerSess.step b l.sess (.chunk host env bytes) = _ := deliver_sends hread hs
  unfold sendFile at hstep
  dsimp only at hstep
  cases hloop : loop (sendBody env.writeSome) env.rounds
      { input := l.sess.inputFile, calls := 0, sent := [] } with
  | none =>
    rw [hloop] at hstep
    exact h.of_pending hstep harriving
  | some x =>
    rw [hloop] at hstep
    rw [hopened] at hloop
    have hx := sent_of_loop hok.transmits hloop
    apply Inv.next hstep (hstep ▸ hc)
    case hfiles =>
      rw [hs.output, if_neg Bool.false_ne_true, ← hfiles]
      rfl
    case harrived =>
      show (l.sess.stored.map Prod.snd).flatten ++ unstored l.sess = _
      rw [unstored_closed hs.output, harriving, ← harrived]
    case hsent =>
      show l.sess.sent ++ x.sent ++ [] = _
      rw [hs.input, if_pos rfl, List.append_nil, List.append_nil, hx, hsent]
    case hreceiving =>
      intro hopen
      cases hs.output.symm.trans hopen
    case hsending => exact nofun

/-- A part of a request, or the rest of it. -/
theorem Inv.of_atRest (h : Inv l) (hs : AtRest l.sess) (hread : l.sess.pending = .read)
    (hok : Sound b l.sess host env bytes)
    (hc : Consistent (deliver b (cmdProcessAll b host) env bytes l.sess)) :
    Inv (step b l (.chunk host env bytes)) := by
  have hne : fservAuth ≠ fservFilesend := by decide
  have ha : arriving l.sess (.chunk host env bytes) = [] :=
    if_neg fun hall => hne (hs.mode.symm.trans hall.2.1)
  have hr : AtRest (received bytes l.sess) := ⟨hs.mode, hs.input, hs.output⟩
  cases hcomplete :
      ((l.sess.buf.overwrite bytes).count bytes.length).readComplete bytes.length with
  | false =>
    have hstep : FileServerSess.step b l.sess (.chunk host env bytes) = received bytes l.sess :=
      (deliver_command hread hs.mode).trans (onRequest_incomplete hcomplete)
    exact h.of_stays hs (hstep ▸ ⟨hr, rfl⟩) ha
  | true =>
    have hstep : FileServerSess.step b l.sess (.chunk host env bytes) = _ :=
      deliver_request hread hs.mode hcomplete
    rcases processed_cases hr fun hcommand sendfileMode filename hmode hname =>
        hok.opens hread hs.mode hcomplete sendfileMode filename hcommand hmode hname with
      hstays | ⟨filename, n, hreq, hopen, hprocessed⟩ | ⟨filename, size, content, hprocessed⟩
    · refine h.of_stays hs ?_ ha
      rw [hstep]
      exact ⟨⟨hstays.1.mode, hstays.1.input, hstays.1.output⟩, hstays.2⟩
    · obtain ⟨hn, hmax⟩ := hok.size hs.mode filename n hreq
      rw [hprocessed] at hstep
      have hready := downloadReady_receiving (b := b) hopen hn
      refine h.of_download hs filename hstep (hstep ▸ hc) hmax ?_ rfl hs.input ha
      exact ⟨rfl, rfl, rfl, rfl, rfl, hready.file, rfl, hn, rfl, rfl⟩
    · rw [hprocessed] at hstep
      have hin : (uploadReady b filename size (some content) (received bytes l.sess)).inputFile =
          opened content := by
        show l.sess.inputFile.openFile (some content) = _
        unfold InFile.openFile
        rw [hs.input]
        rfl
      exact h.of_upload hs hstep (hstep ▸ hc) hin rfl hs.output ha

/-- By cases on what the session does. -/
theorem step_inv (h : Inv l) (hok : Admits b l i) : Inv (step b l i) := by
  cases i with
  | written =>
    have hstep : ∃ pending, FileServerSess.step b l.sess .written = { l.sess with pending } := by
      simp only [FileServerSess.step]
      split
      · exact ⟨.read, rfl⟩
      · exact ⟨l.sess.pending, rfl⟩
    obtain ⟨pending, hstep⟩ := hstep
    exact h.of_pending hstep rfl
  | chunk host env bytes =>
    have hc := deliver_consistent h.consistent hok.opens
    by_cases hread : l.sess.pending = .read
    · cases h.consistent with
      | atRest hs => exact h.of_atRest hs hread hok hc
      | receives hr => exact h.of_receives hr hread hok hc
      | sends hs => exact h.of_sends hs hread hok hc
    · have hstep : FileServerSess.step b l.sess (.chunk host env bytes) = l.sess := if_neg hread
      exact h.of_pending hstep (if_neg fun hall => hread hall.1)

def plainHost : Host := { Host.empty with toFiles := oneFile [1, 2, 3] }

def wholeEnv : Env := { writes := true, writeSome := wholeWrites, rounds := 2 }

theorem sound_transfer (hmode : s.mode ≠ fservAuth)
    (hshort : s.outputFile.isOpen = true →
      s.outputFile.content.length + bytes.length ≤ s.filesize) :
    Sound flagBinn s plainHost wholeEnv bytes :=
  ⟨fun _ h => absurd h hmode, rfl, fun _ _ => rfl, fun h => absurd h hmode, hshort⟩

/-- Requests for the file `f`. -/
theorem sound_request (hclosed : s.outputFile.isOpen = false)
    (hopens : ∀ sendfileMode filename,
      flagBinn.getUInt8 (s.buf.overwrite bytes).bytes 2 = some sendfileMode →
        flagBinn.getStr (s.buf.overwrite bytes).bytes 3 = some filename →
        Opens flagBinn plainHost.toFiles (s.buf.overwrite bytes).bytes sendfileMode filename)
    (hsize : ∀ n, flagBinn.getUInt64 (s.buf.overwrite bytes).bytes 4 = some n →
      1 ≤ n ∧ n < 2 ^ 63) : Sound flagBinn s plainHost wholeEnv bytes where
  opens _ _ _ sendfileMode filename _ := hopens sendfileMode filename
  writes := rfl
  transmits _ _ := rfl
  size _ _ n hreq := hsize n hreq.size
  short hopen := by
    rw [hclosed] at hopen
    cases hopen

/-- The file is received in two parts and sent back. -/
def bothWays : List Input :=
  [.chunk plainHost wholeEnv (downloadPayload ++ endSymbols), .written,
    .chunk plainHost wholeEnv [1, 2], .chunk plainHost wholeEnv [3], .written,
    .chunk plainHost wholeEnv (uploadPayload ++ endSymbols), .written,
    .chunk plainHost wholeEnv [0]]

def afterBothWays (k : Nat) : Ledger :=
  (bothWays.take k).foldl (step flagBinn) (new { bytes := [], length := 0 } 0)

theorem sound_download : Sound flagBinn (afterBothWays 0).sess plainHost wholeEnv
    (downloadPayload ++ endSymbols) := by
  refine sound_request rfl ?_ ?_
  · intro sendfileMode filename hmode _
    cases hmode
    exact .inl ⟨rfl, by decide, by decide, by decide, rfl⟩
  · rintro n ⟨⟩
    decide

theorem sound_upload : Sound flagBinn (afterBothWays 5).sess plainHost wholeEnv
    (uploadPayload ++ endSymbols) := by
  have hbytes : flagBinn.getUInt8 ((afterBothWays 5).sess.buf.overwrite
        (uploadPayload ++ endSymbols)).bytes 2 = some fservFileUpload ∧
      flagBinn.getStr ((afterBothWays 5).sess.buf.overwrite
        (uploadPayload ++ endSymbols)).bytes 3 = some "f" ∧
      flagBinn.getUInt64 ((afterBothWays 5).sess.buf.overwrite
        (uploadPayload ++ endSymbols)).bytes 4 = none := by decide +kernel
  refine sound_request (by decide +kernel) ?_ ?_
  · intro sendfileMode filename hmode hname
    obtain rfl := Option.some.inj (hmode.symm.trans hbytes.1)
    obtain rfl := Option.some.inj (hname.symm.trans hbytes.2.1)
    exact .inr ⟨rfl, rfl, rfl, rfl⟩
  · intro n hn
    cases hn.symm.trans hbytes.2.2

theorem afterBothWays_run {k : Nat} (hi : bothWays[k]? = some i)
    (hok : Admits flagBinn (afterBothWays k) i)
    (h : Run (fun l i l' => l' = step flagBinn l i) (Admits flagBinn) (afterBothWays 0)
      (afterBothWays k)) :
    Run (fun l i l' => l' = step flagBinn l i) (Admits flagBinn) (afterBothWays 0)
      (afterBothWays (k + 1)) := by
  refine h.step hok ?_
  unfold afterBothWays
  rw [List.take_add_one, hi, List.foldl_append]
  rfl

example : (afterBothWays 8).sess.stored = [("f", [1, 2, 3])] ∧
    (afterBothWays 8).sess.sent = [1, 2, 3] := by decide +kernel

end Ledger

end FileServerSess

end GameAP
