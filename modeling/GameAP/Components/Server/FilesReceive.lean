import GameAP.Components.Server.FilesMode

/-!
# What is stored of an upload

While a file is received, each chunk is written as a whole; only then the position is compared with
the size that was announced. `received_iff`: a file that is answered with OK has exactly that size,
unless one chunk holds its last bytes together with the first ones behind them.
-/

namespace GameAP

open Lib

namespace FileServerSess

/-- A request for a file of `n` bytes to be received. -/
structure Download (b : Binn) (bytes : List UInt8) (filename : String) (n : Nat) : Prop where
  command : b.getUInt8 bytes 1 = some fservFilesend
  mode : b.getUInt8 bytes 2 = some fservFileDownload
  name : b.getStr bytes 3 = some filename
  size : b.getUInt64 bytes 4 = some n
  makeDir : ∃ makeDir, b.getBool bytes 5 = some makeDir
  chmod : ∃ chmod, b.getUInt16 bytes 6 = some chmod

/-- The response to it. -/
def receivingReady : List BinnValue :=
  [.uint32 statusFileTransferReady, .str "File receive started"]

/-- The response to a file that has been received. -/
def fileReceived : List BinnValue := [.uint32 statusOk, .str "OK"]

/-- The chunks that follow. -/
def receive (b : Binn) (process : SessM PUnit) (env : Env) (chunks : List (List UInt8))
    (s : FileServerSess) : FileServerSess :=
  chunks.foldl (fun s chunk => deliver b process env chunk s) s

/-- If the session has answered OK since `t`, the one file it has stored since consists of the
first `n` bytes. -/
def StoresPrefix (filename : String) (n : Nat) (chunks : List (List UInt8))
    (t u : FileServerSess) : Prop :=
  fileReceived ∈ u.written.drop t.written.length →
    n ≤ chunks.flatten.length ∧ u.stored = t.stored ++ [(filename, chunks.flatten.take n)]

/-- A chunk begins before the `n`-th byte and ends behind it. -/
def Straddles (n : Nat) (chunks : List (List UInt8)) : Prop :=
  ∃ before chunk rest, chunks = before ++ chunk :: rest ∧ before.flatten.length < n ∧
    n < (before.flatten ++ chunk).length

/-! ## Chunks -/

section Chunks

variable {n : Nat} {chunk : List UInt8} {chunks : List (List UInt8)}

theorem Straddles.lt_length (h : Straddles n chunks) : n < chunks.flatten.length := by
  obtain ⟨before, chunk, rest, rfl, -, hlt⟩ := h
  rw [List.flatten_append, List.flatten_cons, ← List.append_assoc, List.length_append]
  omega

/-- A chunk that ends at the `n`-th byte or behind it decides. -/
theorem straddles_cons_of_le (hn : 0 < n) (hle : n ≤ chunk.length) :
    Straddles n (chunk :: chunks) ↔ n < chunk.length := by
  constructor
  · rintro ⟨before, last, rest, heq, hlt, hgt⟩
    cases before with
    | nil =>
      cases heq
      exact hgt
    | cons c before =>
      cases heq
      rw [List.flatten_cons, List.length_append] at hlt
      omega
  · exact fun hlt => ⟨[], chunk, chunks, rfl, hn, hlt⟩

theorem straddles_cons_of_lt (hlt : chunk.length < n) :
    Straddles n (chunk :: chunks) ↔ Straddles (n - chunk.length) chunks := by
  constructor
  · rintro ⟨before, last, rest, heq, hbefore, hgt⟩
    cases before with
    | nil =>
      cases heq
      rw [List.flatten_nil, List.nil_append] at hgt
      omega
    | cons c before =>
      cases heq
      rw [List.flatten_cons, List.length_append] at hbefore
      rw [List.flatten_cons, List.append_assoc, List.length_append] at hgt
      exact ⟨before, last, rest, rfl, by omega, by omega⟩
  · rintro ⟨before, last, rest, rfl, hbefore, hgt⟩
    refine ⟨chunk :: before, last, rest, rfl, ?_, ?_⟩
    · rw [List.flatten_cons, List.length_append]
      omega
    · rw [List.flatten_cons, List.append_assoc, List.length_append]
      omega

end Chunks

/-! ## Receiving into an open file -/

/-- `got` has been written to the file, which is shorter than announced. -/
structure Receiving (filename : String) (n : Nat) (t : FileServerSess) (got : List UInt8)
    (u : FileServerSess) : Prop where
  pending : u.pending = .read
  mode : u.mode = fservFilesend
  direction : u.sendfileMode = fservFileDownload
  name : u.filename = filename
  size : u.filesize = n
  file : u.outputFile = { isOpen := true, fail := false, bad := false, content := got }
  answer : u.writeBinn = []
  short : got.length < n
  written : u.written = t.written
  stored : u.stored = t.stored

/-- The file has been closed with this content, and answered with OK. -/
structure Received (filename : String) (t : FileServerSess) (content : List UInt8)
    (u : FileServerSess) : Prop where
  pending : u.pending ≠ .read
  written : u.written = t.written ++ [fileReceived]
  stored : u.stored = t.stored ++ [(filename, content)]

section Receive

variable {b : Binn} {process : SessM PUnit} {env : Env} {filename : String} {n : Nat}
  {s t u : FileServerSess} {got chunk : List UInt8} {chunks : List (List UInt8)}

theorem streamsize_of_lt (h : n < 2 ^ 63) : streamsize n = n := if_pos h

theorem tellp_open (content : List UInt8) :
    OutFile.tellp { isOpen := true, fail := false, bad := false, content } = content.length := rfl

theorem deliver_filesend (hread : u.pending = .read) (hmode : u.mode = fservFilesend)
    (hdir : u.sendfileMode = fservFileDownload) : deliver b process env chunk u =
      writeFile b env.writes chunk.length
        { u with pending := .none, buf := u.buf.overwrite chunk } := by
  unfold deliver onRead
  dsimp only
  rw [if_pos hread, if_pos hmode, if_pos hdir]
  rfl

theorem receive_cons : receive b process env (chunk :: chunks) u =
    receive b process env chunks (deliver b process env chunk u) := rfl

/-- What arrives behind the response is left to the next read. -/
theorem receive_of_not_read (h : u.pending ≠ .read) : receive b process env chunks u = u := by
  induction chunks with
  | nil => rfl
  | cons chunk chunks ih =>
    rw [receive_cons]
    unfold deliver
    rw [if_neg h, ih]

/-- The chunk is written, and the file is closed if it is long enough then. -/
theorem Receiving.deliver_eq (h : Receiving filename n t got u) (hwrites : env.writes = true)
    (hn : n < 2 ^ 63) : deliver b process env chunk u =
      let v := { u with
        pending := .none
        buf := u.buf.overwrite chunk
        outputFile := { isOpen := true, fail := false, bad := false, content := got ++ chunk } }
      if n ≤ (got ++ chunk).length then writeOk b "OK" (clearReadVars (closeOutputFile v))
      else doRead v := by
  have hchunk : (u.buf.overwrite chunk).bytes.take chunk.length = chunk := List.take_left
  have hpos : u.filesize ≠ 0 := by
    rw [h.size]
    exact Nat.ne_zero_of_lt h.short
  have hbefore : u.outputFile.tellp < streamsize u.filesize := by
    rw [h.file, tellp_open, h.size, streamsize_of_lt hn]
    exact_mod_cast h.short
  have hwrite : u.outputFile.write true chunk =
      { isOpen := true, fail := false, bad := false, content := got ++ chunk } := by
    rw [h.file]
    rfl
  rw [deliver_filesend h.pending h.mode h.direction]
  unfold writeFile
  dsimp only
  rw [if_neg hpos, if_pos hbefore, hwrites, hchunk, hwrite]
  dsimp only
  rw [if_neg Bool.false_ne_true, tellp_open, h.size, streamsize_of_lt hn]
  simp only [ge_iff_le, Nat.cast_le, decide_eq_true_eq]

theorem Receiving.step (h : Receiving filename n t got u) (b : Binn) (process : SessM PUnit)
    (chunk : List UInt8) (hwrites : env.writes = true) (hn : n < 2 ^ 63) :
    ((got ++ chunk).length < n ∧
      Receiving filename n t (got ++ chunk) (deliver b process env chunk u)) ∨
    (n ≤ (got ++ chunk).length ∧
      Received filename t (got ++ chunk) (deliver b process env chunk u)) := by
  rw [h.deliver_eq hwrites hn]
  dsimp only
  split
  · next hle =>
    refine .inr ⟨hle, nofun, ?_, ?_⟩
    · show u.written ++ [u.writeBinn ++ fileReceived] = _
      rw [h.written, h.answer, List.nil_append]
    · show u.stored ++ [(u.filename, got ++ chunk)] = _
      rw [h.stored, h.name]
  · next hlt =>
    exact .inl ⟨by omega, rfl, h.mode, h.direction, h.name, h.size, rfl, h.answer, by omega,
      h.written, h.stored⟩

/-- By induction over the chunks: all are written, or the first that reaches the size is the
last. -/
theorem Receiving.run (h : Receiving filename n t got u) (process : SessM PUnit)
    (hwrites : env.writes = true) (hn : n < 2 ^ 63) (chunks : List (List UInt8)) :
    Receiving filename n t (got ++ chunks.flatten) (receive b process env chunks u) ∨
    ∃ content, Received filename t content (receive b process env chunks u) ∧
      n ≤ content.length ∧ content <+: got ++ chunks.flatten ∧
      (Straddles (n - got.length) chunks ↔ n < content.length) := by
  induction chunks generalizing got u with
  | nil => exact .inl ((List.append_nil got).symm ▸ h)
  | cons chunk chunks ih =>
    have hflat : got ++ (chunk :: chunks).flatten = got ++ chunk ++ chunks.flatten := by
      rw [List.flatten_cons, List.append_assoc]
    have hshort := h.short
    have hlen : (got ++ chunk).length = got.length + chunk.length := List.length_append
    rw [receive_cons, hflat]
    rcases h.step b process chunk hwrites hn with
      ⟨hlt, hstep⟩ | ⟨hle, hstep⟩
    · refine (ih hstep).imp id fun ⟨content, hrec, hle, hpre, hiff⟩ =>
        ⟨content, hrec, hle, hpre, ?_⟩
      rw [straddles_cons_of_lt (by omega), ← hiff, hlen, Nat.sub_sub]
    · refine .inr ⟨got ++ chunk, ?_, hle, List.prefix_append _ _, ?_⟩
      · rwa [receive_of_not_read hstep.pending]
      · rw [straddles_cons_of_le (by omega) (by omega)]
        omega

/-! ## A file that is not written -/

/-- The file could not be opened, or the size is no `std::streamsize`. -/
structure Refuses (n : Nat) (t u : FileServerSess) : Prop where
  mode : u.mode = fservFilesend
  direction : u.sendfileMode = fservFileDownload
  size : u.filesize = n
  hopeless : u.outputFile.fail = true ∨ 2 ^ 63 ≤ n
  written : u.written = t.written

/-- Nothing is answered with OK since `t`. -/
def NoneReceived (t u : FileServerSess) : Prop := fileReceived ∉ u.written.drop t.written.length

theorem noneReceived_of_eq (h : u.written = t.written) : NoneReceived t u := by
  unfold NoneReceived
  rw [h, List.drop_length]
  exact List.not_mem_nil

theorem tellp_ge (f : OutFile) : -1 ≤ f.tellp := by
  unfold OutFile.tellp
  split <;> omega

theorem write_fail {f : OutFile} (h : f.fail = true) (success : Bool) (bytes : List UInt8) :
    f.write success bytes = f := by
  unfold OutFile.write
  rw [h]
  rfl

theorem noneReceived_error (b : Binn) {v : FileServerSess} (hv : v.written = t.written) :
    NoneReceived t (responseMsg b 1 "File receiving error" true v) := by
  unfold NoneReceived
  have hwritten : (responseMsg b 1 "File receiving error" true v).written =
      t.written ++ [v.writeBinn ++ [.uint32 1, .str "File receiving error"]] := by
    rw [← hv]
    rfl
  rw [hwritten, List.drop_left, List.mem_singleton]
  intro heq
  have hlast := congrArg List.getLast? heq
  rw [List.getLast?_append] at hlast
  simp [fileReceived] at hlast

/-- A chunk is ignored, or answered with an error. -/
theorem Refuses.step (h : Refuses n t u) (b : Binn) (process : SessM PUnit) (env : Env)
    (chunk : List UInt8) (hpos : 1 ≤ n) (hn : n < 2 ^ 64)
    (hread : u.pending = .read) :
    Refuses n t (deliver b process env chunk u) ∨
      ((deliver b process env chunk u).pending ≠ .read ∧
        NoneReceived t (deliver b process env chunk u)) := by
  have hsize : u.filesize ≠ 0 := by
    rw [h.size]
    omega
  rw [deliver_filesend hread h.mode h.direction]
  unfold writeFile
  dsimp only
  rw [if_neg hsize]
  split
  · next hlt =>
    have hfail : u.outputFile.fail = true := by
      refine h.hopeless.resolve_right fun hbig => ?_
      have htell := tellp_ge u.outputFile
      rw [h.size] at hlt
      unfold streamsize at hlt
      rw [if_neg (by omega)] at hlt
      omega
    rw [write_fail hfail]
    split
    · exact .inr ⟨nofun, noneReceived_error b h.written⟩
    · rw [decide_eq_false (by omega), if_neg Bool.false_ne_true]
      exact .inl ⟨h.mode, h.direction, h.size, h.hopeless, h.written⟩
  · exact .inr ⟨nofun, noneReceived_error b h.written⟩

theorem Refuses.run (h : Refuses n t u) (hpos : 1 ≤ n) (hn : n < 2 ^ 64)
    (chunks : List (List UInt8)) : NoneReceived t (receive b process env chunks u) := by
  induction chunks generalizing u with
  | nil => exact noneReceived_of_eq h.written
  | cons chunk chunks ih =>
    by_cases hread : u.pending = .read
    · rw [receive_cons]
      rcases h.step b process env chunk hpos hn hread with
        hstep | ⟨hdone, hnone⟩
      · exact ih hstep
      · rwa [receive_of_not_read hdone]
    · rw [receive_of_not_read hread]
      exact noneReceived_of_eq h.written

/-! ## The request -/

/-- The session that has answered such a request. -/
def downloadReady (b : Binn) (fs : Files) (filename : String) (n : Nat) (s : FileServerSess) :
    FileServerSess :=
  responseMsg b statusFileTransferReady "File receive started" true { clearWriteVars s with
    sendfileMode := fservFileDownload
    filename
    mode := fservFilesend
    filesize := n
    outputFile := s.outputFile.openFile (fs.openOutput filename) }

theorem cmdProcess_download {fs : Files} (others : Nat → SessM PUnit)
    (hreq : Download b s.buf.bytes filename n) :
    cmdProcess b fs others s = .ok ⟨⟩ (downloadReady b fs filename n s) := by
  obtain ⟨makeDir, hdir⟩ := hreq.makeDir
  obtain ⟨chmod, hchmod⟩ := hreq.chmod
  unfold cmdProcess
  rw [get_bind_apply, hreq.command]
  simp only [if_true]
  rw [modify_bind_apply]
  exact cmdFilesend_download (s := clearWriteVars s) hreq.mode hreq.name hreq.size hdir hchmod

/-- The file that the request names can be opened. -/
def CanOpen (fs : Files) (filename : String) (s : FileServerSess) : Prop :=
  fs.openOutput filename = true ∧ s.outputFile.isOpen = false

theorem downloadReady_receiving {fs : Files} (hopen : CanOpen fs filename s) (hn : 1 ≤ n) :
    Receiving filename n (downloadReady b fs filename n s) []
      (onWritten (downloadReady b fs filename n s)) where
  pending := rfl
  mode := rfl
  direction := rfl
  name := rfl
  size := rfl
  file := by
    show s.outputFile.openFile (fs.openOutput filename) = _
    unfold OutFile.openFile
    rw [hopen.1, hopen.2]
    rfl
  answer := rfl
  short := hn
  written := rfl
  stored := rfl

theorem downloadReady_refuses {fs : Files} (h : ¬ (CanOpen fs filename s ∧ n < 2 ^ 63)) :
    Refuses n (downloadReady b fs filename n s) (onWritten (downloadReady b fs filename n s)) where
  mode := rfl
  direction := rfl
  size := rfl
  hopeless := by
    rcases not_and_or.mp h with hopen | hbig
    · refine .inl ?_
      show (s.outputFile.openFile (fs.openOutput filename)).fail = true
      unfold OutFile.openFile
      rw [if_neg fun hok => hopen (by simpa [CanOpen] using hok)]
    · exact .inr (not_lt.mp hbig)
  written := rfl

theorem Received.storesPrefix_iff {content : List UInt8} (h : Received filename t content u)
    (hle : n ≤ content.length) (hpre : content <+: chunks.flatten) :
    StoresPrefix filename n chunks t u ↔ content.length = n := by
  have hok : fileReceived ∈ u.written.drop t.written.length := by
    rw [h.written, List.drop_left]
    exact List.mem_singleton_self _
  have htake : content = chunks.flatten.take content.length := List.prefix_iff_eq_take.mp hpre
  have hlen := hpre.length_le
  constructor
  · intro hstores
    have hsame := h.stored.symm.trans (hstores hok).2
    rw [List.append_cancel_left_eq, List.singleton_inj, Prod.mk.injEq] at hsame
    rw [hsame.2, List.length_take]
    omega
  · rintro rfl _
    exact ⟨hlen, by rw [← htake]; exact h.stored⟩

/-- **What is stored.** A request for a file of `n` bytes to be received is answered with a ready
message. If the session then answers OK, however the bytes that follow are split into chunks, the
file it has stored consists of exactly the first `n` of them, except where the file could be
opened, `n` is a `std::streamsize` and one chunk holds bytes before and behind the `n`-th. -/
theorem received_iff (fs : Files) (hn : 1 ≤ n) (h64 : n < 2 ^ 64)
    (hreq : Download b s.buf.bytes filename n) (others : Nat → SessM PUnit) :
    ∃ t, cmdProcess b fs others s = .ok ⟨⟩ t ∧
      t.pending = .write (b.serialize receivingReady ++ endSymbols) ∧
      ∀ (process : SessM PUnit) (env : Env), env.writes = true → ∀ chunks : List (List UInt8),
        StoresPrefix filename n chunks t (receive b process env chunks (onWritten t)) ↔
          ¬ (CanOpen fs filename s ∧ n < 2 ^ 63 ∧ Straddles n chunks) := by
  refine ⟨_, cmdProcess_download others hreq, rfl, fun process env hwrites chunks => ?_⟩
  rw [← and_assoc]
  by_cases h : CanOpen fs filename s ∧ n < 2 ^ 63
  · rw [and_iff_right h]
    rcases (downloadReady_receiving h.1 hn).run process hwrites h.2 chunks with
      hall | ⟨content, hrec, hle, hpre, hiff⟩
    · have hshort := hall.short
      exact iff_of_true (fun hok => absurd hok (noneReceived_of_eq hall.written))
        fun hstraddles => absurd hstraddles.lt_length (by simpa using hshort.le)
    · rw [hrec.storesPrefix_iff hle hpre]
      have hiff' : Straddles n chunks ↔ n < content.length := hiff
      rw [hiff']
      omega
  · exact iff_of_true (fun hok => absurd hok ((downloadReady_refuses h).run hn h64 chunks))
      fun hboth => h hboth.1

end Receive

/-! ## A file of three bytes -/

/-- The elements that follow: numbers of one byte, texts of less than 128 bytes, truth values. -/
def flagElems : Nat → List UInt8 → List (BinnValue ⊕ Bool)
  | n + 1, 0x20 :: v :: rest => .inl (.uint32 v.toNat) :: flagElems n rest
  | n + 1, 0xA0 :: length :: rest =>
    .inl (.str (String.ofList ((rest.take length.toNat).map fun c => Char.ofNat c.toNat))) ::
      flagElems n (rest.drop (length.toNat + 1))
  | n + 1, 0x01 :: rest => .inr true :: flagElems n rest
  | n + 1, 0x02 :: rest => .inr false :: flagElems n rest
  | _, _ => []

def flagList : List UInt8 → List (BinnValue ⊕ Bool)
  | 0xE0 :: _ :: count :: rest => flagElems count.toNat rest
  | _ => []

def flagNum (bytes : List UInt8) (pos : Nat) : Option Nat :=
  match (flagList bytes)[pos - 1]? with
  | some (.inl (.uint32 n)) => some n
  | _ => none

/-- The library on lists of such elements. -/
def flagBinn : Binn :=
  { Binn.short with
    getUInt8 := flagNum
    getUInt16 := flagNum
    getUInt64 := flagNum
    getBool := fun bytes pos =>
      match (flagList bytes)[pos - 1]? with
      | some (.inr flag) => some flag
      | _ => none
    getStr := fun bytes pos =>
      match (flagList bytes)[pos - 1]? with
      | some (.inl (.str text)) => some text
      | _ => none }

/-- The list of the command 3, the mode `fservFileDownload`, the name `f`, the size 3, no directory
to be made and the permissions 6. -/
def downloadPayload : List UInt8 :=
  [0xE0, 16, 6, 0x20, 3, 0x20, 1, 0xA0, 1, 0x66, 0, 0x20, 3, 0x02, 0x20, 6]

def downloadSess : FileServerSess :=
  { new { bytes := [], length := 0 } 0 with
    buf := { bytes := downloadPayload ++ endSymbols, length := 20 } }

theorem download_downloadSess : Download flagBinn downloadSess.buf.bytes "f" 3 :=
  ⟨by decide, by decide, by decide, by decide, ⟨false, by decide⟩, ⟨6, by decide⟩⟩

theorem stored_two_chunks : ∃ t,
    cmdProcess flagBinn (oneFile []) (fun _ => pure ⟨⟩) downloadSess = .ok ⟨⟩ t ∧
    StoresPrefix "f" 3 [[1, 2], [3]] t
      (receive flagBinn (pure ⟨⟩) ⟨true, wholeWrites, 0⟩ [[1, 2], [3]] (onWritten t)) := by
  obtain ⟨t, ht, -, hiff⟩ := received_iff (oneFile []) (by decide) (by decide)
    download_downloadSess fun _ => pure ⟨⟩
  refine ⟨t, ht, (hiff (pure ⟨⟩) ⟨true, wholeWrites, 0⟩ rfl [[1, 2], [3]]).mpr ?_⟩
  rintro ⟨-, -, hstraddles⟩
  exact absurd hstraddles.lt_length (by decide)

/-- Four bytes arrive together, and all of them are stored. -/
theorem stored_beyond :
    ¬ ∀ (n : Nat) (b : Binn) (fs : Files) (s t : FileServerSess) (filename : String)
        (others : Nat → SessM PUnit), 1 ≤ n → n < 2 ^ 64 → Download b s.buf.bytes filename n →
      cmdProcess b fs others s = .ok ⟨⟩ t →
      ∀ (process : SessM PUnit) (env : Env), env.writes = true → ∀ chunks : List (List UInt8),
        StoresPrefix filename n chunks t (receive b process env chunks (onWritten t)) := by
  intro h
  have hstores := h 3 flagBinn (oneFile []) downloadSess _ "f" (fun _ => pure ⟨⟩) (by decide)
    (by decide) download_downloadSess (cmdProcess_download _ download_downloadSess) (pure ⟨⟩)
    ⟨true, wholeWrites, 0⟩ rfl [[1, 2, 3, 4]]
  have hstored := (hstores (by decide)).2
  revert hstored
  decide

end FileServerSess

end GameAP
