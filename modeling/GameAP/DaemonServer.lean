import GameAP.Components.Server.ReadBuffer

/-!
# The server of the daemon

`DaemonServerSess` waits for a request with a login and a password and answers it; when they are
accepted, the next session takes the connection over. The binn library is a parameter (`Binn`).
`pending` is the operation that is under way on the connection: a callback that starts none leaves
the connection alone for good.
-/

namespace GameAP

/-- The elements of the binn lists that the daemon writes. -/
inductive BinnValue where
  | uint8 (n : Nat)
  | uint16 (n : Nat)
  | uint32 (n : Nat)
  | uint64 (n : Nat)
  | int32 (n : Int)
  | str (s : String)
  /-- a list inside the list, by its bytes -/
  | list (bytes : List UInt8)
  deriving DecidableEq, Repr

/-- The binn library: what it reads of the list at the start of a buffer, by position, and how it
writes a list. -/
structure Binn where
  getUInt8 : List UInt8 → Nat → Option Nat
  getUInt16 : List UInt8 → Nat → Option Nat
  getUInt64 : List UInt8 → Nat → Option Nat
  getBool : List UInt8 → Nat → Option Bool
  getStr : List UInt8 → Nat → Option String
  serialize : List BinnValue → List UInt8

/-! ## Lists whose sizes, numbers and texts fit in one byte -/

namespace Binn

/-- The elements that follow, of which there are as many. -/
def shortElems : Nat → List UInt8 → List BinnValue
  | n + 1, 0x20 :: v :: rest => .uint32 v.toNat :: shortElems n rest
  | n + 1, 0xA0 :: length :: rest =>
    .str (String.ofList ((rest.take length.toNat).map fun c => Char.ofNat c.toNat)) ::
      shortElems n (rest.drop (length.toNat + 1))
  | _, _ => []

def shortList : List UInt8 → List BinnValue
  | 0xE0 :: _ :: count :: rest => shortElems count.toNat rest
  | _ => []

def shortNum (bytes : List UInt8) (pos : Nat) : Option Nat :=
  match (shortList bytes)[pos - 1]? with
  | some (.uint32 n) => some n
  | _ => none

def shortElem : BinnValue → List UInt8
  | .uint8 n | .uint16 n | .uint32 n | .uint64 n => [0x20, UInt8.ofNat n]
  | .int32 n => [0x21, UInt8.ofInt n]
  | .str text =>
    0xA0 :: UInt8.ofNat text.length :: text.toList.map (fun c => UInt8.ofNat c.toNat) ++ [0]
  | .list bytes => bytes

/-- The library on such lists. -/
def short : Binn :=
  { getUInt8 := shortNum
    getUInt16 := shortNum
    getUInt64 := shortNum
    getBool := fun _ _ => none
    getStr := fun bytes pos =>
      match (shortList bytes)[pos - 1]? with
      | some (.str text) => some text
      | _ => none
    serialize := fun values =>
      let body := values.flatMap shortElem
      0xE0 :: UInt8.ofNat (body.length + 3) :: UInt8.ofNat values.length :: body }

end Binn

/-- The asynchronous operation that is under way. -/
inductive Pending where
  | none
  | read
  | write (frame : List UInt8)
  deriving DecidableEq, Repr

structure DaemonServerSess where
  mode : Nat
  buf : ReadBuffer
  writeBinn : List BinnValue
  pending : Pending
  /-- the mode of the session that has been given the connection -/
  successor : Option Nat
  /-- not part of the session: the requests it has opened -/
  handled : List (List UInt8)
  /-- not part of the session: the responses it has written -/
  written : List (List BinnValue)
  deriving DecidableEq, Repr

namespace DaemonServerSess

def modeNoauth : Nat := 0

def modeCmd : Nat := 2

def modeFiles : Nat := 3

def modeStatus : Nat := 4

/-- A new session. -/
def new : DaemonServerSess :=
  { mode := modeNoauth, buf := { bytes := List.replicate ReadBuffer.maxLength 0, length := 0 },
    writeBinn := [], pending := .read, successor := none, handled := [], written := [] }

def doRead (s : DaemonServerSess) : DaemonServerSess :=
  if s.mode = modeNoauth then { s with pending := .read }
  else if s.mode = modeCmd ∨ s.mode = modeFiles ∨ s.mode = modeStatus then
    { s with pending := .none, successor := some s.mode }
  else { s with pending := .none }

variable (b : Binn)

/-- `append_end_symbols` gives up on a frame without bytes. -/
def frame (values : List BinnValue) : List UInt8 := b.serialize values ++ endSymbols

def doWrite (s : DaemonServerSess) : DaemonServerSess :=
  { s with
    buf := s.buf.clear
    pending := .write (frame b s.writeBinn)
    written := s.written ++ [s.writeBinn] }

/-- The callback of `async_write`, when there is no error. -/
def onWritten (s : DaemonServerSess) : DaemonServerSess := doRead s

/-- What the callback does with a complete request; `check` is `gameap::auth::check`. -/
def process (check : String → String → Bool) (s : DaemonServerSess) : DaemonServerSess :=
  match b.getStr s.buf.bytes 2, b.getStr s.buf.bytes 3 with
  | some login, some password =>
    if check login password then
      let s := { s with writeBinn := s.writeBinn ++ [BinnValue.uint32 100, .str "Auth success"] }
      match b.getUInt16 s.buf.bytes 4 with
      | none => { s with mode := modeNoauth }
      | some mode => doWrite b { s with mode }
    else doWrite b { s with writeBinn := s.writeBinn ++ [.uint32 2, .str "Auth failed"] }
  | _, _ => s

/-- The callback of `async_read_some`, when there is no error. -/
def onRead (check : String → String → Bool) (chunk : List UInt8) (s : DaemonServerSess) :
    DaemonServerSess :=
  let s := { s with pending := .none, buf := (s.buf.overwrite chunk).count chunk.length }
  if s.buf.readComplete chunk.length then
    process b check { s with handled := s.handled ++ [s.buf.bytes.take s.buf.length] }
  else s

/-- A chunk that arrives while no read is under way stays in the socket. -/
def deliver (check : String → String → Bool) (chunk : List UInt8) (s : DaemonServerSess) :
    DaemonServerSess :=
  if s.pending = .read then onRead b check chunk s else s

variable {b} {check : String → String → Bool} {s : DaemonServerSess}

theorem process_handled : (process b check s).handled = s.handled := by
  unfold process
  split
  · split
    · simp only
      split <;> rfl
    · rfl
  · rfl

/-- The session with a chunk in its buffer. -/
def received (chunk : List UInt8) (s : DaemonServerSess) : DaemonServerSess :=
  { s with pending := .none, buf := (s.buf.overwrite chunk).count chunk.length }

theorem deliver_read {chunk : List UInt8} (h : s.pending = .read) :
    deliver b check chunk s = onRead b check chunk s := if_pos h

theorem onRead_complete {chunk : List UInt8}
    (h : ((s.buf.overwrite chunk).count chunk.length).readComplete chunk.length = true) :
    onRead b check chunk s = process b check { received chunk s with
      handled := s.handled ++ [(received chunk s).buf.bytes.take (received chunk s).buf.length] } :=
  if_pos h

theorem onRead_incomplete {chunk : List UInt8}
    (h : ((s.buf.overwrite chunk).count chunk.length).readComplete chunk.length = false) :
    onRead b check chunk s = received chunk s := if_neg (Bool.eq_false_iff.mp h)

/-- **Authentication in several chunks.** The session handles the request as if it had come in
one chunk exactly when it has, and is not empty. -/
theorem deliver_all_iff (hread : s.pending = .read) (hlen : s.buf.length = 0)
    {payload : List UInt8} (hpay : 0xFF ∉ payload) {chunks : List (List UInt8)}
    (hmsg : chunks.flatten = payload ++ endSymbols) (hne : ∀ c ∈ chunks, c ≠ []) :
    ((chunks.foldl (fun t c => deliver b check c t) s).handled =
          s.handled ++ [payload ++ endSymbols] ∧
        (chunks.foldl (fun t c => deliver b check c t) s).pending =
          (deliver b check (payload ++ endSymbols) s).pending) ↔
      chunks.length = 1 ∧ payload ≠ [] := by
  refine ReadBuffer.processed_iff (deliver b check) handled pending (fun t => t.pending = .none) hlen
    (fun c hc => ?_) (fun c hc => ?_) (fun c t ht => ?_) hpay hmsg hne
  · rw [deliver_read hread, onRead_complete hc, process_handled]
    show s.handled ++ [(c ++ s.buf.bytes.drop c.length).take (s.buf.length + c.length)] = _
    rw [hlen, Nat.zero_add, List.take_left]
  · rw [deliver_read hread, onRead_incomplete hc]
    exact ⟨rfl, rfl⟩
  · unfold deliver
    rw [if_neg (by rw [ht]; decide)]

end DaemonServerSess

/-- The list of a login, which is `a`, a password, which is `b`, and the mode 3. -/
def loginPayload : List UInt8 :=
  [0xE0, 15, 4, 0x20, 0, 0xA0, 1, 0x61, 0, 0xA0, 1, 0x62, 0, 0x20, 3]

end GameAP
