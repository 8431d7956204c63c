import GameAP.Components.Server.FilesComponent

/-!
# What is sent of a file

The blocks of a file of `n` bytes are full up to the last one, which has less than `maxLength`
bytes and may be empty. `sent_iff`: the bytes on the connection are those of the file exactly when
`write_some` transmits each block as a whole.
-/

namespace GameAP

open Lib

namespace FileServerSess

/-- No call fails, and each transmits some of the bytes it is given. -/
def Transmits (w : WriteSome) : Prop :=
  ∀ k block, ∃ n, w k block = some n ∧ n ≤ block.length ∧ (block ≠ [] → 0 < n)

/-- What the `k`-th round of the loop reads of a file. -/
def block (file : List UInt8) (k : Nat) : List UInt8 :=
  (file.drop (ReadBuffer.maxLength * k)).take ReadBuffer.maxLength

/-- The first calls transmit all they are given. -/
def WholeBlocks (w : WriteSome) (calls : Nat) (file : List UInt8) : Prop :=
  ∀ k ≤ file.length / ReadBuffer.maxLength,
    w (calls + k) (block file k) = some (block file k).length

variable {w : WriteSome} {file : List UInt8} {calls : Nat} {sent : List UInt8}

/-- A file that has just been opened, or of which some blocks have been read. -/
def opened (rest : List UInt8) : InFile := { isOpen := true, eof := false, fail := false, rest }

theorem block_zero : block file 0 = file.take ReadBuffer.maxLength := rfl

theorem block_succ (k : Nat) : block file (k + 1) = block (file.drop ReadBuffer.maxLength) k := by
  unfold block
  rw [List.drop_drop]
  congr 2
  rw [Nat.mul_succ, Nat.add_comm]

theorem wholeBlocks_short (h : file.length < ReadBuffer.maxLength) :
    WholeBlocks w calls file ↔ w calls file = some file.length := by
  have hblock : block file 0 = file := List.take_of_length_le (Nat.le_of_lt h)
  unfold WholeBlocks
  rw [Nat.div_eq_of_lt h]
  constructor
  · intro hall
    simpa [hblock] using hall 0 (Nat.le_refl _)
  · intro hone k hk
    obtain rfl : k = 0 := by omega
    simpa [hblock] using hone

theorem wholeBlocks_long (h : ReadBuffer.maxLength ≤ file.length) :
    WholeBlocks w calls file ↔
      w calls (block file 0) = some (block file 0).length ∧
        WholeBlocks w (calls + 1) (file.drop ReadBuffer.maxLength) := by
  have hdiv : file.length / ReadBuffer.maxLength =
      (file.drop ReadBuffer.maxLength).length / ReadBuffer.maxLength + 1 := by
    rw [List.length_drop]
    exact Nat.div_eq_sub_div (by decide) h
  unfold WholeBlocks
  rw [hdiv]
  constructor
  · intro hall
    refine ⟨hall 0 (Nat.zero_le _), fun k hk => ?_⟩
    rw [← block_succ, Nat.add_assoc, Nat.add_comm 1 k]
    exact hall (k + 1) (by omega)
  · rintro ⟨hzero, hall⟩ k hk
    cases k with
    | zero => exact hzero
    | succ k =>
      rw [block_succ, ← Nat.add_assoc, Nat.add_right_comm]
      exact hall k (by omega)

/-! ## The loop -/

theorem sendBody_block {n : Nat} (h : w calls (file.take ReadBuffer.maxLength) = some n) :
    sendBody w { input := opened file, calls, sent } = .inl
      { input := { opened (file.drop ReadBuffer.maxLength) with
          eof := decide (file.length < ReadBuffer.maxLength)
          fail := decide (file.length < ReadBuffer.maxLength) }
        calls := calls + 1
        sent := sent ++ (file.take ReadBuffer.maxLength).take n } := by
  unfold sendBody InFile.read opened
  simp only [Bool.false_eq_true, if_false, Bool.or_self, h]

theorem sendBody_end {input : InFile} (h : input.eof = true) :
    sendBody w { input, calls, sent } = .inr { input, calls, sent } := by
  unfold sendBody
  rw [if_pos h]

/-- The loop ends, and has sent the whole of the file exactly if all blocks were. -/
def Sends (w : WriteSome) (file : List UInt8) (calls : Nat) (sent : List UInt8) : Prop :=
  ∃ x, Returns (sendBody w) { input := opened file, calls, sent } x ∧
    (x.sent = sent ++ file ↔ WholeBlocks w calls file) ∧
    x.sent.length ≤ sent.length + file.length

/-- The last block, which may be empty, is read up to the end of the file. -/
theorem sends_last (hw : Transmits w) (hshort : file.length < ReadBuffer.maxLength) :
    Sends w file calls sent := by
  have htake : file.take ReadBuffer.maxLength = file := List.take_of_length_le (Nat.le_of_lt hshort)
  obtain ⟨n, hn, hle, -⟩ := hw calls file
  have hbody : sendBody w { input := opened file, calls, sent } = _ :=
    sendBody_block (htake.symm ▸ hn)
  refine ⟨_, (returns_inl hbody).mpr (returns_inr (sendBody_end ?_)), ?_, ?_⟩
  · exact decide_eq_true hshort
  · rw [wholeBlocks_short hshort, hn, htake, List.append_cancel_left_eq]
    simp only [Option.some.injEq]
    constructor
    · intro he
      have hlen := congrArg List.length he
      rw [List.length_take] at hlen
      omega
    · rintro rfl
      exact List.take_length
  · simp only [htake, List.length_append, List.length_take]
    omega

/-- A full block, after which the rest of the file is read. -/
theorem sends_next {n : Nat} (hlong : ReadBuffer.maxLength ≤ file.length)
    (hn : w calls (file.take ReadBuffer.maxLength) = some n)
    (hle : n ≤ (file.take ReadBuffer.maxLength).length)
    (hrest : Sends w (file.drop ReadBuffer.maxLength) (calls + 1)
      (sent ++ (file.take ReadBuffer.maxLength).take n)) : Sends w file calls sent := by
  obtain ⟨x, hx, hiff, hlen⟩ := hrest
  have hbody : sendBody w { input := opened file, calls, sent } = _ := sendBody_block hn
  have hnotshort : decide (file.length < ReadBuffer.maxLength) = false :=
    decide_eq_false (by omega)
  rw [hnotshort] at hbody
  refine ⟨x, (returns_inl hbody).mpr hx, ?_, ?_⟩
  · rw [wholeBlocks_long hlong, block_zero, hn, ← hiff]
    simp only [Option.some.injEq]
    constructor
    · intro he
      -- a block that is cut short makes the whole too short
      have hcut : n = (file.take ReadBuffer.maxLength).length := by
        have htotal := congrArg List.length he
        simp only [List.length_append, List.length_take, List.length_drop] at hlen htotal hle ⊢
        omega
      refine ⟨hcut, ?_⟩
      rw [he, hcut, List.take_length, List.append_assoc, List.take_append_drop]
    · rintro ⟨rfl, he⟩
      rw [he, List.take_length, List.append_assoc, List.take_append_drop]
  · simp only [List.length_append, List.length_take, List.length_drop] at hlen ⊢
    omega

theorem sends (hw : Transmits w) (file : List UInt8) (calls : Nat) (sent : List UInt8) :
    Sends w file calls sent := by
  induction hq : file.length / ReadBuffer.maxLength generalizing file calls sent with
  | zero =>
    apply sends_last hw
    rcases (Nat.div_eq_zero_iff).mp hq with h | h
    · exact absurd h (by decide)
    · exact h
  | succ q ih =>
    have hlong : ReadBuffer.maxLength ≤ file.length := by
      by_contra hlt
      rw [Nat.div_eq_of_lt (by omega)] at hq
      cases hq
    have hrest : (file.drop ReadBuffer.maxLength).length / ReadBuffer.maxLength = q := by
      have hdiv := Nat.div_eq_sub_div (by decide : 0 < ReadBuffer.maxLength) hlong
      rw [List.length_drop]
      omega
    obtain ⟨n, hn, hle, -⟩ := hw calls (file.take ReadBuffer.maxLength)
    exact sends_next hlong hn hle (ih _ _ _ hrest)

/-! ## The request -/

/-- A request for a file to be sent. -/
structure Upload (b : Binn) (bytes : List UInt8) (filename : String) : Prop where
  command : b.getUInt8 bytes 1 = some fservFilesend
  mode : b.getUInt8 bytes 2 = some fservFileUpload
  name : b.getStr bytes 3 = some filename

/-- The response to it, which announces the size. -/
def sendingReady (size : Nat) : List BinnValue :=
  [.uint32 statusFileTransferReady, .str "File sending ready", .uint64 size]

variable {b : Binn} {fs : Files} {s : FileServerSess} {filename : String}

theorem cmdFilesend_upload {size : Nat} (hreq : Upload b s.buf.bytes filename)
    (hexists : fs.existsFile filename = .ok true) (hsize : fs.fileSize filename = .ok size)
    (hempty : s.writeBinn = []) :
    cmdFilesend b fs s = .ok ⟨⟩ (doWrite b { s with
      sendfileMode := fservFileUpload
      filename
      mode := fservFilesend
      writeBinn := sendingReady size
      inputFile := s.inputFile.openFile (fs.openInput filename) }) := by
  have hne : ¬ fservFileUpload = fservFileDownload := by decide
  unfold cmdFilesend
  rw [get_bind_apply, hreq.mode]
  simp only
  rw [modify_bind_apply, get_bind_apply]
  simp only [hreq.name]
  rw [modify_bind_apply, if_neg hne]
  simp only [if_true]
  rw [orThrow_ok_bind hexists]
  simp only [Bool.not_true, Bool.false_eq_true, if_false, orThrow_ok_bind hsize]
  cases fs.verbose
  · simp only [Bool.false_eq_true, if_false]
    rw [modify_bind_apply, modify_bind_apply, hempty]
    rfl
  · simp only [if_true]
    rw [modify_bind_apply, modify_bind_apply, hempty]
    rfl

theorem cmdProcess_upload {size : Nat} (others : Nat → SessM PUnit)
    (hreq : Upload b s.buf.bytes filename) (hexists : fs.existsFile filename = .ok true)
    (hsize : fs.fileSize filename = .ok size) :
    cmdProcess b fs others s = .ok ⟨⟩ (doWrite b { s with
      sendfileMode := fservFileUpload
      filename
      mode := fservFilesend
      writeBinn := sendingReady size
      inputFile := s.inputFile.openFile (fs.openInput filename) }) := by
  have hreq' : Upload b (clearWriteVars s).buf.bytes filename := hreq
  unfold cmdProcess
  rw [get_bind_apply, hreq.command]
  simp only [if_true]
  rw [modify_bind_apply]
  exact cmdFilesend_upload hreq' hexists hsize rfl

/-- Whatever arrives next starts the sending. -/
theorem deliver_upload {process : SessM PUnit} {env : Env} {chunk : List UInt8} {x : Sending}
    (hread : s.pending = .read) (hmode : s.mode = fservFilesend)
    (hupload : s.sendfileMode = fservFileUpload)
    (hloop : loop (sendBody env.writeSome) env.rounds
      { input := s.inputFile, calls := 0, sent := [] } = some x) :
    deliver b process env chunk s = doRead (clearReadVars (closeInputFile { s with
      pending := .none
      buf := s.buf.overwrite chunk
      inputFile := x.input
      sent := s.sent ++ x.sent })) := by
  have hne : ¬ fservFileUpload = fservFileDownload := by decide
  unfold deliver onRead sendFile
  simp only [hread, hmode, hupload, hne, hloop, if_true, if_false, Option.map_some,
    Option.getD_some]

/-- What the session sends is what the loop does. -/
theorem sends_upload {x : Sending} (hreq : Upload b s.buf.bytes filename)
    (hexists : fs.existsFile filename = .ok true) (hsize : fs.fileSize filename = .ok file.length)
    (hopen : s.inputFile.openFile (fs.openInput filename) = opened file)
    (others : Nat → SessM PUnit)
    (hx : Returns (sendBody w) { input := opened file, calls := 0, sent := [] } x) :
    ∃ t, cmdProcess b fs others s = .ok ⟨⟩ t ∧
      t.pending = .write (b.serialize (sendingReady file.length) ++ endSymbols) ∧
      ∀ (process : SessM PUnit) (chunk : List UInt8), ∃ rounds, ∀ env : Env,
        env.writeSome = w → rounds ≤ env.rounds →
        (deliver b process env chunk (onWritten t)).sent = s.sent ++ x.sent := by
  refine ⟨_, cmdProcess_upload others hreq hexists hsize, rfl, fun process chunk => ?_⟩
  rw [hopen]
  obtain ⟨rounds, hrounds⟩ := hx
  refine ⟨rounds, ?_⟩
  rintro env rfl hle
  rw [deliver_upload rfl rfl rfl (loop_mono hrounds hle)]
  rfl

/-- **What is sent.** A request for a file is answered with the size of the file, and whatever
arrives next makes the session send it. If no call of `write_some` fails, the bytes on the
connection are then exactly those of the file if and only if each block is transmitted as a
whole. -/
theorem sent_iff (hw : Transmits w) (hreq : Upload b s.buf.bytes filename)
    (hexists : fs.existsFile filename = .ok true) (hsize : fs.fileSize filename = .ok file.length)
    (hopen : s.inputFile.openFile (fs.openInput filename) = opened file)
    (others : Nat → SessM PUnit) :
    ∃ t, cmdProcess b fs others s = .ok ⟨⟩ t ∧
      t.pending = .write (b.serialize (sendingReady file.length) ++ endSymbols) ∧
      ∀ (process : SessM PUnit) (chunk : List UInt8), ∃ rounds, ∀ env : Env,
        env.writeSome = w → rounds ≤ env.rounds →
        ((deliver b process env chunk (onWritten t)).sent = s.sent ++ file ↔
          WholeBlocks w 0 file) := by
  obtain ⟨x, hx, hiff, -⟩ := sends hw file 0 []
  obtain ⟨t, ht, hready, hsent⟩ := sends_upload hreq hexists hsize hopen others hx
  refine ⟨t, ht, hready, fun process chunk => ?_⟩
  obtain ⟨rounds, hrounds⟩ := hsent process chunk
  refine ⟨rounds, fun env henv hle => ?_⟩
  rw [hrounds env henv hle, List.append_cancel_left_eq]
  exact hiff

/-! ## A file of three bytes -/

/-- The list of the command 3, the mode `fservFileUpload` and the name `f`. -/
def uploadPayload : List UInt8 := [0xE0, 11, 3, 0x20, 3, 0x20, 2, 0xA0, 1, 0x66, 0]

def uploadSess : FileServerSess :=
  { new { bytes := [], length := 0 } 0 with
    buf := { bytes := uploadPayload ++ endSymbols, length := 15 } }

/-- The file is `f`. -/
def oneFile (content : List UInt8) : Files :=
  { verbose := true
    existsFile := fun name => .ok (decide (name = "f"))
    fileSize := fun _ => .ok content.length
    openInput := fun name => if name = "f" then some content else none
    openOutput := fun _ => true }

theorem upload_uploadSess : Upload Binn.short uploadSess.buf.bytes "f" :=
  ⟨by decide, by decide, by decide⟩

theorem oneFile_exists (content : List UInt8) : (oneFile content).existsFile "f" = .ok true := rfl

theorem oneFile_size (content : List UInt8) : (oneFile content).fileSize "f" = .ok content.length :=
  rfl

theorem oneFile_open (content : List UInt8) :
    uploadSess.inputFile.openFile ((oneFile content).openInput "f") = opened content := rfl

/-- Each call transmits all it is given. -/
def wholeWrites : WriteSome := fun _ block => some block.length

/-- Each call transmits one byte, if there is one. -/
def byteWrites : WriteSome := fun _ block => some (min 1 block.length)

theorem transmits_wholeWrites : Transmits wholeWrites := fun _ block =>
  ⟨block.length, rfl, Nat.le_refl _, List.length_pos_of_ne_nil⟩

theorem transmits_byteWrites : Transmits byteWrites := fun _ block =>
  ⟨min 1 block.length, rfl, Nat.min_le_right _ _, fun h => by
    have := List.length_pos_of_ne_nil h
    omega⟩

theorem sent_whole : ∃ t,
    cmdProcess Binn.short (oneFile [1, 2, 3]) (fun _ => pure ⟨⟩) uploadSess = .ok ⟨⟩ t ∧
    ∃ rounds, (deliver Binn.short (pure ⟨⟩) ⟨true, wholeWrites, rounds⟩ [0] (onWritten t)).sent =
      [1, 2, 3] := by
  obtain ⟨t, ht, -, hsent⟩ := sent_iff transmits_wholeWrites upload_uploadSess
    (oneFile_exists [1, 2, 3]) (oneFile_size [1, 2, 3]) (oneFile_open [1, 2, 3]) fun _ => pure ⟨⟩
  obtain ⟨rounds, hrounds⟩ := hsent (pure ⟨⟩) [0]
  refine ⟨t, ht, rounds, ?_⟩
  exact (hrounds ⟨true, wholeWrites, rounds⟩ rfl (Nat.le_refl _)).mpr fun k _ => rfl

/-- One byte of the file is sent. -/
theorem sent_one_byte :
    ¬ ∀ (w : WriteSome) (b : Binn) (fs : Files) (s : FileServerSess) (filename : String)
        (file : List UInt8), Transmits w → Upload b s.buf.bytes filename →
      fs.existsFile filename = .ok true → fs.fileSize filename = .ok file.length →
      s.inputFile.openFile (fs.openInput filename) = opened file →
      ∀ others : Nat → SessM PUnit, ∃ t, cmdProcess b fs others s = .ok ⟨⟩ t ∧
        t.pending = .write (b.serialize (sendingReady file.length) ++ endSymbols) ∧
        ∀ (process : SessM PUnit) (chunk : List UInt8), ∃ rounds, ∀ env : Env,
          env.writeSome = w → rounds ≤ env.rounds →
          (deliver b process env chunk (onWritten t)).sent = s.sent ++ file := by
  intro h
  obtain ⟨x, hx, hiff, -⟩ := sends transmits_byteWrites [1, 2, 3] 0 []
  obtain ⟨t, ht, -, hall⟩ := h byteWrites Binn.short (oneFile [1, 2, 3]) uploadSess "f" [1, 2, 3]
    transmits_byteWrites upload_uploadSess (oneFile_exists _) (oneFile_size _) (oneFile_open _)
    fun _ => pure ⟨⟩
  obtain ⟨t', ht', -, hsent⟩ := sends_upload upload_uploadSess (oneFile_exists [1, 2, 3])
    (oneFile_size [1, 2, 3]) (oneFile_open [1, 2, 3]) (fun _ => pure ⟨⟩) hx
  obtain rfl : t = t' := by
    rw [ht'] at ht
    cases ht
    rfl
  obtain ⟨m, hm⟩ := hall (pure ⟨⟩) [0]
  obtain ⟨n, hn⟩ := hsent (pure ⟨⟩) [0]
  have hwhole := hm ⟨true, byteWrites, max m n⟩ rfl (Nat.le_max_left _ _)
  rw [hn ⟨true, byteWrites, max m n⟩ rfl (Nat.le_max_right _ _), List.append_cancel_left_eq] at hwhole
  have hone := hiff.mp hwhole 0 (Nat.zero_le _)
  revert hone
  decide

end FileServerSess

end GameAP
