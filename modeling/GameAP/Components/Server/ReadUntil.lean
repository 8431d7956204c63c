import GameAP.DaemonServer
import GameAP.Lib.Delimiter
import GameAP.Lib.Keeps

/-!
# Sessions that read up to the end symbols

`CommandsSession` and `StatusSession` have the same members, the same `do_read` and the same
`do_write`; what they do with a message, `cmd_process`, is a parameter here. A read is complete as
soon as the buffer holds the end symbols. The message is then the whole buffer without its last
four bytes, and the bytes up to the first end symbols are taken out of the buffer
(`Receiver.feed`).

`run_receiver`: in every run the session hands on what the receiver does that is fed what its
reads have brought.
-/

namespace GameAP

open Lib

structure UntilSess where
  readBuffer : List UInt8
  readMsg : List UInt8
  writeMsg : List UInt8
  pending : Pending
  /-- not part of the session: what its reads have brought, nothing where the buffer already held
  the end symbols -/
  reads : List (List UInt8)
  /-- not part of the session: the messages `cmd_process` has been called for -/
  handed : List (List UInt8)
  /-- not part of the session: the frames it has written -/
  written : List (List UInt8)
  deriving DecidableEq, Repr

namespace UntilSess

abbrev SessM := EStateM String UntilSess

def doRead (s : UntilSess) : UntilSess := { s with pending := .read }

/-- A session that has been started. -/
def start : UntilSess :=
  doRead
    { readBuffer := [], readMsg := [], writeMsg := [], pending := .none, reads := [], handed := [],
      written := [] }

def doWrite (s : UntilSess) : UntilSess :=
  let writeMsg := s.writeMsg ++ endSymbols
  { s with writeMsg, pending := .write writeMsg, written := s.written ++ [writeMsg] }

/-- The callback of `async_write`, when there is no error. -/
def onWritten (s : UntilSess) : UntilSess := doRead { s with writeMsg := [] }

/-- The message replaces the one that has not been written. -/
def setWriteMsg (b : Binn) (values : List BinnValue) (s : UntilSess) : UntilSess :=
  { s with writeMsg := b.serialize values }

/-- Both sessions' `response_msg`: nothing is written. -/
def responseMsg (b : Binn) (snum : Nat) (sdesc : String) (s : UntilSess) : UntilSess :=
  setWriteMsg b [.uint32 snum, .str sdesc] s

/-- The session with the message of a read of which `length` bytes are taken. -/
def opened (length : Nat) (s : UntilSess) : UntilSess :=
  let readMsg := s.readBuffer.take (s.readBuffer.length - endSymbols.length)
  { s with
    pending := .none
    readMsg
    readBuffer := s.readBuffer.drop length
    handed := s.handed ++ [readMsg] }

/-- The callback of `async_read_until`, when there is no error; an exception leaves it. -/
def onRead (cmdProcess : SessM PUnit) (length : Nat) (s : UntilSess) : UntilSess :=
  endState cmdProcess (opened length s)

/-- A part of `async_read_until`: these bytes come into the buffer. -/
def receive (cmdProcess : SessM PUnit) (bytes : List UInt8) (s : UntilSess) : UntilSess :=
  let s := { s with readBuffer := s.readBuffer ++ bytes, reads := s.reads ++ [bytes] }
  match firstEnd endSymbols s.readBuffer with
  | some length => onRead cmdProcess length s
  | none => s

/-- A read is complete at once if the buffer holds the end symbols. -/
def resume (cmdProcess : SessM PUnit) (s : UntilSess) : UntilSess :=
  if (firstEnd endSymbols s.readBuffer).isSome then receive cmdProcess [] s else s

/-- What happens to a session, and what its `cmd_process` finds outside. -/
inductive Event (ε : Type) where
  | chunk (env : ε) (bytes : List UInt8)
  | written (env : ε)

variable {ε : Type}

/-- Bytes that arrive while no read is under way stay in the socket. -/
def step (cmdProcess : ε → SessM PUnit) (s : UntilSess) : Event ε → UntilSess
  | .chunk env bytes => if s.pending = .read then receive (cmdProcess env) bytes s else s
  | .written env =>
    match s.pending with
    | .write _ => resume (cmdProcess env) (onWritten s)
    | _ => s

def run (cmdProcess : ε → SessM PUnit) (events : List (Event ε)) : UntilSess :=
  events.foldl (step cmdProcess) start

/-! ## What is handed on -/

/-- The part of the session that its reads are about. -/
def reading (s : UntilSess) : List (List UInt8) × List (List UInt8) × List UInt8 :=
  (s.reads, s.handed, s.readBuffer)

def receiver (s : UntilSess) : Receiver UInt8 := { handed := s.handed, buffer := s.readBuffer }

/-- The session has handed on what the receiver hands on. -/
def Reads (s : UntilSess) : Prop :=
  receiver s = s.reads.foldl (Receiver.feed endSymbols) { handed := [], buffer := [] }

variable {cmdProcess : ε → SessM PUnit} {s t : UntilSess}

theorem Reads.of_reading (h : reading t = reading s) (hs : Reads s) : Reads t := by
  obtain ⟨hreads, hrest⟩ := Prod.mk.inj h
  obtain ⟨hhanded, hbuffer⟩ := Prod.mk.inj hrest
  unfold Reads receiver at hs ⊢
  rw [hreads, hhanded, hbuffer]
  exact hs

theorem reading_endState {m : SessM PUnit} (h : Keeps reading m) (s : UntilSess) :
    reading (endState m s) = reading s := h s

theorem receive_reads {m : SessM PUnit} (h : Keeps reading m) (bytes : List UInt8) (hs : Reads s) :
    Reads (receive m bytes s) := by
  have hfeed : ∀ r, r = receiver s → Receiver.feed endSymbols r bytes =
      (s.reads ++ [bytes]).foldl (Receiver.feed endSymbols) { handed := [], buffer := [] } := by
    rintro r rfl
    rw [List.foldl_append, ← hs]
    rfl
  cases hf : firstEnd endSymbols (s.readBuffer ++ bytes) with
  | none =>
    have hr : receive m bytes s =
        { s with readBuffer := s.readBuffer ++ bytes, reads := s.reads ++ [bytes] } := by
      unfold receive
      simp only [hf]
    rw [hr]
    exact (Receiver.feed_none hf).symm.trans (hfeed _ rfl)
  | some length =>
    have hr : receive m bytes s = onRead m length
        { s with readBuffer := s.readBuffer ++ bytes, reads := s.reads ++ [bytes] } := by
      unfold receive
      simp only [hf]
    rw [hr]
    apply Reads.of_reading (reading_endState h _)
    exact (Receiver.feed_some hf).symm.trans (hfeed _ rfl)

theorem step_reads (h : ∀ env, Keeps reading (cmdProcess env)) (e : Event ε) (hs : Reads s) :
    Reads (step cmdProcess s e) := by
  cases e with
  | chunk env bytes =>
    show Reads (if s.pending = .read then receive (cmdProcess env) bytes s else s)
    split
    · exact receive_reads (h env) bytes hs
    · exact hs
  | written env =>
    have hw : Reads (onWritten s) := hs
    simp only [step]
    split
    · unfold resume
      split
      · exact receive_reads (h env) [] hw
      · exact hw
    · exact hs

/-- **What a session reads.** In every run. -/
theorem run_receiver (h : ∀ env, Keeps reading (cmdProcess env)) (events : List (Event ε)) :
    Reads (run cmdProcess events) := by
  have hrun : ∀ (events : List (Event ε)) s, Reads s →
      Reads (events.foldl (step cmdProcess) s) := by
    intro events
    induction events with
    | nil => exact fun _ hs => hs
    | cons e events ih => exact fun _ hs => ih _ (step_reads h e hs)
  exact hrun events start rfl

/-- `groups` are the chunks of the frames of the messages: the session has handed on the messages
whose frames have been read, and all of them once all have. -/
def Hands (messages : List (List UInt8)) (groups : List (List (List UInt8))) (s : UntilSess) :
    Prop :=
  (s.reads <+: groups.flatten → s.handed <+: messages) ∧
    (s.reads = groups.flatten → s.handed = messages)

theorem run_hands (h : ∀ env, Keeps reading (cmdProcess env)) {messages : List (List UInt8)}
    {groups : List (List (List UInt8))} (hm : ∀ m ∈ messages, OnlyAtEnd endSymbols m)
    (hg : groups.map List.flatten = messages.map (· ++ endSymbols)) (events : List (Event ε)) :
    Hands messages groups (run cmdProcess events) := by
  have hd : endSymbols ≠ [] := by decide
  have hhanded := congrArg Receiver.handed (run_receiver h events)
  constructor
  · intro hreads
    have hprefix : _ <+: [] ++ messages := Receiver.feed_prefix hd hm hg hreads
    rw [← hhanded, List.nil_append] at hprefix
    exact hprefix
  · intro hreads
    rw [hreads, Receiver.feed_frames hd hm hg, List.nil_append] at hhanded
    exact hhanded

end UntilSess

end GameAP
