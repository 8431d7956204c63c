import GameAP.Components.Server.FilesComponent

/-!
# The requests of a file session

The branches of `cmd_process` besides transfers (`otherCommands`). A callback that throws is
answered by `onRequest`, so a branch may leave a `filesystem_error` alone; those around what
changes the file system are answered in the branch. `FSERV_SHELLCMD` does nothing at all.
-/

namespace GameAP

open Lib

/-- `fs::file_type`, as far as the requests tell them apart. -/
inductive FileType where
  | unknown
  | regular
  | directory
  | other
  deriving DecidableEq, Repr

structure FileStatus where
  type : FileType
  permissions : Nat
  deriving DecidableEq, Repr

/-- What is read of `struct stat`. -/
structure Stat where
  mode : Nat
  size : Nat
  mtime : Nat
  atime : Nat
  ctime : Nat
  deriving DecidableEq, Repr

namespace FileServerSess

/-- What the requests find in the file system, and what it does. The functions of `fs` may throw,
with this message; `stat` may fail, with the text of its error. -/
structure Host extends Files where
  readDir : String → Except String (List String)
  isSymlink : String → Except String Bool
  readSymlink : String → Except String String
  symlinkStatus : String → Except String FileStatus
  status : String → Except String FileStatus
  lastWriteTime : String → Except String Nat
  createDirectories : String → Except String PUnit
  copy : String → String → Except String PUnit
  rename : String → String → Except String PUnit
  remove : String → Except String PUnit
  removeAll : String → Except String PUnit
  stat : String → Except String Stat
  setPermissions : String → Nat → Except String PUnit

def fservShellcmd : Nat := 2

def fservReaddir : Nat := 4

def fservMkdir : Nat := 5

def fservMove : Nat := 6

def fservRemove : Nat := 7

def fservFileinfo : Nat := 8

def fservChmod : Nat := 9

def fservDetails : Nat := 1

def fservTypeUnknown : Nat := 0

def fservTypeDir : Nat := 1

def fservTypeFile : Nat := 2

def fservTypeChrDevice : Nat := 3

def fservTypeBlockDevice : Nat := 4

def fservTypeFifo : Nat := 5

def fservTypeSymlink : Nat := 6

def fservTypeSocket : Nat := 7

def statusUnknownCommand : Nat := 3

variable (b : Binn) (host : Host)

def addValues (values : List BinnValue) (s : FileServerSess) : FileServerSess :=
  { s with writeBinn := s.writeBinn ++ values }

/-! ## `FSERV_READDIR` -/

/-- `path::filename` of a path that does not end with a slash. -/
def fileName (path : String) : String :=
  String.ofList (path.toList.reverse.takeWhile (· ≠ '/')).reverse

/-- One entry of a directory; `none` is left out. -/
def fileInfo (type : Nat) (filePath : String) : Except String (Option (List BinnValue)) := do
  let name := BinnValue.str (fileName filePath)
  if type ≠ fservDetails then return some [name]
  let filePath ← if ← host.isSymlink filePath then host.readSymlink filePath else pure filePath
  if !(← host.existsFile filePath) then return none
  let fileStatus ←
    if ← host.isSymlink filePath then host.symlinkStatus filePath else host.status filePath
  if fileStatus.type = .unknown then return none
  let size ← if fileStatus.type = .regular then host.fileSize filePath else pure 0
  let time ← host.lastWriteTime filePath
  let fileType := if fileStatus.type = .directory then fservTypeDir else fservTypeFile
  return some [name, .uint64 size, .uint64 time, .uint8 fileType,
    .uint16 (fileStatus.permissions % 2 ^ 16)]

/-- An entry that throws is left out as well. -/
def filesInfo (type : Nat) (files : List String) : List BinnValue :=
  files.filterMap fun file =>
    match fileInfo host type file with
    | .ok (some info) => some (.list (b.serialize info))
    | .ok none | .error _ => none

def cmdReaddir : SessM PUnit := do
  match b.getStr (← get).buf.bytes 2 with
  | none => modify (responseMsg b statusError "Binn parse error: invalid dir value" true)
  | some dir =>
    match b.getUInt8 (← get).buf.bytes 3 with
    | none => modify (responseMsg b statusError "Binn parse error: invalid type value" true)
    | some type =>
      if !(← orThrow (host.existsFile dir)) then
        modify (responseMsg b statusError "Directory open error" true)
      else
        let files ← orThrow (host.readDir dir)
        modify (responseMsg b statusOk "OK" false)
        modify (addValues [.list (b.serialize (filesInfo b host type files))])
        modify (doWrite b)

/-! ## Changes to the file system -/

/-- What is done is answered, and so is a `filesystem_error` of it. -/
def answerDone (done : Except String PUnit) : SessM PUnit :=
  match done with
  | .ok _ => modify (writeOk b "OK")
  | .error what => modify (responseMsg b statusError what true)

def cmdMkdir : SessM PUnit := do
  match b.getStr (← get).buf.bytes 2 with
  | none => modify (responseMsg b statusError "Binn parse error: invalid path" true)
  | some path =>
    if ← orThrow (host.existsFile path) then
      modify (responseMsg b statusError ("File `" ++ path ++ "` exist") true)
    else answerDone b (host.createDirectories path)

def cmdMove : SessM PUnit := do
  match b.getStr (← get).buf.bytes 2 with
  | none => modify (responseMsg b statusError "Binn parse error: invalid oldfile value" true)
  | some oldfile =>
    match b.getStr (← get).buf.bytes 3 with
    | none => modify (responseMsg b statusError "Binn parse error: invalid newfile value" true)
    | some newfile =>
      match b.getBool (← get).buf.bytes 4 with
      | none => modify (responseMsg b statusError "Binn parse error: invalid copy value" true)
      | some copy =>
        answerDone b (if copy then host.copy oldfile newfile else host.rename oldfile newfile)

def cmdRemove : SessM PUnit := do
  match b.getStr (← get).buf.bytes 2 with
  | none => modify (responseMsg b statusError "Binn parse error: invalid file value" true)
  | some file =>
    match b.getBool (← get).buf.bytes 3 with
    | none => modify (responseMsg b statusError "Binn parse error: invalid recursive value" true)
    | some recursive =>
      if !(← orThrow (host.existsFile file)) then
        modify (responseMsg b statusError "File not found" true)
      else answerDone b (if recursive then host.removeAll file else host.remove file)

/-- The bits of `fs::perms` that a request may set, from `owner_read` on. -/
def permissionBits : List Nat :=
  [0o400, 0o200, 0o100, 0o40, 0o20, 0o10, 0o4, 0o2, 0o1, 0o4000, 0o2000, 0o1000]

def fsPermissions (permissions : Nat) : Nat :=
  permissionBits.foldl (fun perms bit => if permissions &&& bit ≠ 0 then perms ||| bit else perms) 0

def cmdChmod : SessM PUnit := do
  match b.getStr (← get).buf.bytes 2 with
  | none => modify (responseMsg b statusError "Binn parse error: invalid file value" true)
  | some file =>
    match b.getUInt16 (← get).buf.bytes 3 with
    | none => modify (responseMsg b statusError "Binn parse error: invalid permissions value" true)
    | some permissions =>
      if !(← orThrow (host.existsFile file)) then
        modify (responseMsg b statusError "File not found" true)
      else
        orThrow (host.setPermissions file (fsPermissions permissions))
        modify (writeOk b "OK")

/-! ## `FSERV_FILEINFO` -/

/-- `S_IFDIR` and so on, in the order in which the code asks. -/
def statTypes : List (Nat × Nat) :=
  [(0o040000, fservTypeDir), (0o100000, fservTypeFile), (0o020000, fservTypeChrDevice),
    (0o060000, fservTypeBlockDevice), (0o010000, fservTypeFifo), (0o120000, fservTypeSymlink),
    (0o140000, fservTypeSocket)]

/-- The first whose bits are not all missing. -/
def statType (mode : Nat) : Nat :=
  match statTypes.find? fun t => mode &&& t.1 ≠ 0 with
  | some t => t.2
  | none => fservTypeUnknown

/-- The end of the branch; the mime type is not there yet. -/
def writeFileInfo (info : List BinnValue) : SessM PUnit := do
  modify (responseMsg b statusOk "File info" false)
  modify (addValues [.list (b.serialize (info ++ [.str ""]))])
  modify (doWrite b)

/-- A `stat` that fails is answered, and the branch goes on. -/
def cmdFileinfo : SessM PUnit := do
  match b.getStr (← get).buf.bytes 2 with
  | none => modify (responseMsg b statusError "Binn parse error: invalid file value" true)
  | some file =>
    if !(← orThrow (host.existsFile file)) then
      modify (responseMsg b statusError "File not found" true)
    else
      match host.stat file with
      | .ok stat =>
        let status ← orThrow (host.status file)
        writeFileInfo b [.str file, .uint64 stat.size, .uint8 (statType stat.mode),
          .uint64 stat.mtime, .uint64 stat.atime, .uint64 stat.ctime,
          .uint16 (status.permissions % 2 ^ 16)]
      | .error what =>
        modify (responseMsg b statusError what true)
        writeFileInfo b [.str file]

/-! ## All requests -/

def otherCommands (command : Nat) : SessM PUnit :=
  if command = fservShellcmd then pure ⟨⟩
  else if command = fservReaddir then cmdReaddir b host
  else if command = fservMkdir then cmdMkdir b host
  else if command = fservMove then cmdMove b host
  else if command = fservRemove then cmdRemove b host
  else if command = fservFileinfo then cmdFileinfo b host
  else if command = fservChmod then cmdChmod b host
  else modify (responseMsg b statusUnknownCommand "Unknown command" true)

def cmdProcessAll : SessM PUnit := cmdProcess b host.toFiles (otherCommands b host)

end FileServerSess

end GameAP
