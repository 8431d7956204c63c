import GameAP.DaemonServer
import GameAP.Lib.Keeps
import GameAP.Lib.Loop
import Mathlib.Algebra.Group.Int.Defs
import Mathlib.Algebra.Group.Nat.Defs

/-!
# The file sessions

`FileServerSess`: in the mode `fservAuth` a session reads requests and answers them; a request for
a transfer sets the mode `fservFilesend`, in which whatever arrives is part of the file
(`writeFile`) or starts the sending (`sendFile`). `cmdFilesend` is the branch of `cmdProcess` for
transfers; what a callback does with a request is a parameter of it. The loop of `sendFile` hands
each block to `write_some` once, whatever part of it is transmitted.
-/

namespace GameAP

open Lib

/-- `std::ifstream`: `rest` is what has not been read yet. -/
structure InFile where
  isOpen : Bool
  eof : Bool
  fail : Bool
  rest : List UInt8
  deriving DecidableEq, Repr

namespace InFile

def closed : InFile := { isOpen := false, eof := false, fail := false, rest := [] }

/-- `open`, of a file with this content; `none` is a file that cannot be opened. -/
def openFile (content : Option (List UInt8)) (f : InFile) : InFile :=
  match content with
  | some rest =>
    if f.isOpen then { f with fail := true }
    else { isOpen := true, eof := false, fail := false, rest }
  | none => { f with fail := true }

/-- `read`, with the `gcount` bytes that are read. -/
def read (n : Nat) (f : InFile) : List UInt8 × InFile :=
  if f.eof || f.fail then ([], { f with fail := true })
  else
    let short := decide (f.rest.length < n)
    (f.rest.take n, { f with rest := f.rest.drop n, eof := short, fail := short })

def close (f : InFile) : InFile :=
  { f with isOpen := false, rest := [], fail := f.fail || !f.isOpen }

end InFile

/-- `std::ofstream`. -/
structure OutFile where
  isOpen : Bool
  fail : Bool
  bad : Bool
  content : List UInt8
  deriving DecidableEq, Repr

namespace OutFile

def closed : OutFile := { isOpen := false, fail := false, bad := false, content := [] }

def openFile (success : Bool) (f : OutFile) : OutFile :=
  if success && !f.isOpen then { isOpen := true, fail := false, bad := false, content := [] }
  else { f with fail := true }

def tellp (f : OutFile) : Int := if f.fail || f.bad || !f.isOpen then -1 else f.content.length

/-- `write`, which the system may refuse. -/
def write (success : Bool) (bytes : List UInt8) (f : OutFile) : OutFile :=
  if f.fail || f.bad then f
  else if success && f.isOpen then { f with content := f.content ++ bytes }
  else { f with bad := true }

def close (f : OutFile) : OutFile := { f with isOpen := false, fail := f.fail || !f.isOpen }

end OutFile

structure FileServerSess where
  mode : Nat
  sendfileMode : Nat
  filename : String
  filesize : Nat
  buf : ReadBuffer
  writeBinn : List BinnValue
  inputFile : InFile
  outputFile : OutFile
  pending : Pending
  /-- not part of the session: the requests it has opened -/
  handled : List (List UInt8)
  /-- not part of the session: the bytes that `write_some` has transmitted -/
  sent : List UInt8
  /-- not part of the session: the files it has closed -/
  stored : List (String × List UInt8)
  /-- not part of the session: the responses it has written -/
  written : List (List BinnValue)
  deriving DecidableEq, Repr

namespace FileServerSess

def fservAuth : Nat := 1

def fservFilesend : Nat := 3

def fservFileDownload : Nat := 1

def fservFileUpload : Nat := 2

def statusError : Nat := 1

def statusCriticalError : Nat := 2

def statusOk : Nat := 100

def statusFileTransferReady : Nat := 101

/-- A new session. -/
def new (buf : ReadBuffer) (sendfileMode : Nat) : FileServerSess :=
  { mode := fservAuth, sendfileMode, filename := "", filesize := 0, buf := { buf with length := 0 },
    writeBinn := [], inputFile := .closed, outputFile := .closed, pending := .read, handled := [],
    sent := [], stored := [], written := [] }

/-! ## Responses -/

section Responses

variable (b : Binn)

def doRead (s : FileServerSess) : FileServerSess := { s with pending := .read }

def clearReadVars (s : FileServerSess) : FileServerSess := { s with buf := s.buf.clear }

def clearWriteVars (s : FileServerSess) : FileServerSess := { s with writeBinn := [] }

def doWrite (s : FileServerSess) : FileServerSess :=
  clearReadVars (clearWriteVars { s with
    pending := .write (b.serialize s.writeBinn ++ endSymbols)
    written := s.written ++ [s.writeBinn] })

/-- The callback of `async_write`, when there is no error. -/
def onWritten (s : FileServerSess) : FileServerSess := doRead s

def responseMsg (snum : Nat) (sdesc : String) (write : Bool) (s : FileServerSess) :
    FileServerSess :=
  let s := { s with writeBinn := s.writeBinn ++ [BinnValue.uint32 snum, .str sdesc] }
  if write then doWrite b s else s

def writeOk (message : String) (s : FileServerSess) : FileServerSess :=
  responseMsg b statusOk message true s

end Responses

/-! ## Receiving a file -/

/-- `static_cast<std::streamsize>`. -/
def streamsize (n : Nat) : Int := if n < 2 ^ 63 then n else n - 2 ^ 64

def openOutputFile (success : Bool) (s : FileServerSess) : FileServerSess :=
  { s with outputFile := s.outputFile.openFile success }

def closeOutputFile (s : FileServerSess) : FileServerSess :=
  { s with
    outputFile := s.outputFile.close
    stored := if s.outputFile.isOpen then s.stored ++ [(s.filename, s.outputFile.content)]
      else s.stored
    mode := fservAuth
    filename := ""
    filesize := 0 }

/-- `success` is whether the system accepts the write. -/
def writeFile (b : Binn) (success : Bool) (length : Nat) (s : FileServerSess) : FileServerSess :=
  if s.filesize = 0 then writeOk b "Empty file" (clearReadVars (closeOutputFile s))
  else if s.outputFile.tellp < streamsize s.filesize then
    let file := s.outputFile.write success (s.buf.bytes.take length)
    let done := decide (file.tellp ≥ streamsize s.filesize)
    let s := { s with outputFile := file }
    if file.bad then
      responseMsg b 1 "File receiving error" true (clearReadVars (closeOutputFile s))
    else if done then writeOk b "OK" (clearReadVars (closeOutputFile s))
    else doRead s
  else responseMsg b 1 "File receiving error" true (clearReadVars (closeOutputFile s))

/-! ## Sending a file -/

/-- The `n`-th call of `write_some` with a buffer: how many bytes it transmits, or an error. -/
abbrev WriteSome := Nat → List UInt8 → Option Nat

/-- The loop of `send_file`. -/
structure Sending where
  input : InFile
  calls : Nat
  sent : List UInt8
  deriving DecidableEq, Repr

/-- What `write_some` returns is not looked at. -/
def sendBody (w : WriteSome) (x : Sending) : Sending ⊕ Sending :=
  if x.input.eof then .inr x
  else
    let (block, input) := x.input.read ReadBuffer.maxLength
    match w x.calls block with
    | none => .inr { x with input }
    | some n => .inl { input, calls := x.calls + 1, sent := x.sent ++ block.take n }

def closeInputFile (s : FileServerSess) : FileServerSess :=
  { s with inputFile := s.inputFile.close, mode := fservAuth }

/-- `none`: the loop has not ended after `rounds` rounds. -/
def sendFile (w : WriteSome) (rounds : Nat) (s : FileServerSess) : Option FileServerSess :=
  (loop (sendBody w) rounds { input := s.inputFile, calls := 0, sent := [] }).map fun x =>
    doRead (clearReadVars (closeInputFile { s with inputFile := x.input, sent := s.sent ++ x.sent }))

/-! ## Requests -/

/-- What a request for a transfer finds out about the file system; `fs::exists` and
`fs::file_size` may throw, with this message. The size is also logged, if the log is verbose. -/
structure Files where
  verbose : Bool
  existsFile : String → Except String Bool
  fileSize : String → Except String Nat
  openInput : String → Option (List UInt8)
  openOutput : String → Bool

abbrev SessM := EStateM String FileServerSess

/-- The branch `FSERV_FILESEND` of `cmd_process`. -/
def cmdFilesend (b : Binn) (fs : Files) : SessM PUnit := do
  match b.getUInt8 (← get).buf.bytes 2 with
  | none => modify (responseMsg b statusError "Binn parse error: invalid sendfile mode" true)
  | some sendfileMode =>
    modify fun s => { s with sendfileMode }
    match b.getStr (← get).buf.bytes 3 with
    | none => modify (responseMsg b statusError "Binn parse error: invalid filename" true)
    | some filename =>
      modify fun s => { s with filename, mode := fservFilesend }
      if sendfileMode = fservFileDownload then
        match b.getUInt64 (← get).buf.bytes 4 with
        | none => modify (responseMsg b statusError "Binn parse error: invalid filesize" true)
        | some filesize =>
          match b.getBool (← get).buf.bytes 5 with
          | none => modify (responseMsg b statusError "Binn parse error: invalid makedir value" true)
          | some _ =>
            match b.getUInt16 (← get).buf.bytes 6 with
            | none => modify (responseMsg b statusError "Binn parse error: invalid chmod" true)
            | some _ =>
              modify fun s => { s with filesize }
              modify (openOutputFile (fs.openOutput filename))
              modify (responseMsg b statusFileTransferReady "File receive started" true)
      else if sendfileMode = fservFileUpload then
        if !(← orThrow (fs.existsFile filename)) then
          modify (responseMsg b statusError "File not found" true)
        else
          if fs.verbose then
            let _ ← orThrow (fs.fileSize filename)
          modify fun s => { s with writeBinn := s.writeBinn ++
            [BinnValue.uint32 statusFileTransferReady, .str "File sending ready"] }
          let size ← orThrow (fs.fileSize filename)
          modify fun s => { s with
            writeBinn := s.writeBinn ++ [.uint64 size]
            inputFile := s.inputFile.openFile (fs.openInput filename) }
          modify (doWrite b)
      else modify (responseMsg b statusError "Unknown sendfile mode" true)

/-- `others` are the other branches. -/
def cmdProcess (b : Binn) (fs : Files) (others : Nat → SessM PUnit) : SessM PUnit := do
  match b.getUInt8 (← get).buf.bytes 1 with
  | none => modify (responseMsg b statusError "Binn parse error: reading command failed" true)
  | some command =>
    modify clearWriteVars
    if command = fservFilesend then cmdFilesend b fs else others command

/-- The branch of the callback for a request; an exception of `cmd_process` is answered. -/
def onRequest (b : Binn) (cmdProcess : SessM PUnit) (length : Nat) (s : FileServerSess) :
    FileServerSess :=
  let s := { s with buf := s.buf.count length }
  if s.buf.readComplete length then
    if s.mode = fservAuth then
      let t := match cmdProcess s with
        | .ok _ t => t
        | .error e t => responseMsg b statusCriticalError e true t
      { t with handled := s.handled ++ [s.buf.bytes.take s.buf.length] }
    else s
  else s

/-- What one callback finds outside. -/
structure Env where
  writes : Bool
  writeSome : WriteSome
  rounds : Nat

/-- The callback of `async_read_some`, when there is no error. -/
def onRead (b : Binn) (cmdProcess : SessM PUnit) (env : Env) (chunk : List UInt8)
    (s : FileServerSess) : Option FileServerSess :=
  let s := { s with pending := .none, buf := s.buf.overwrite chunk }
  if s.mode = fservFilesend then
    if s.sendfileMode = fservFileDownload then some (writeFile b env.writes chunk.length s)
    else if s.sendfileMode = fservFileUpload then sendFile env.writeSome env.rounds s
    else some { s with mode := fservAuth }
  else some (onRequest b cmdProcess chunk.length s)

/-- A chunk that arrives while no read is under way stays in the socket; a callback that does not
return starts nothing more. -/
def deliver (b : Binn) (cmdProcess : SessM PUnit) (env : Env) (chunk : List UInt8)
    (s : FileServerSess) : FileServerSess :=
  if s.pending = .read then (onRead b cmdProcess env chunk s).getD { s with pending := .none }
  else s

end FileServerSess

end GameAP
