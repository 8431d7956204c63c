import GameAP.Components.Server.CommandsComponent
import GameAP.Components.Server.StatusComponent

/-!
# Frames and messages

A message is sent as its bytes and the end symbols, and nothing in it is escaped.
`frames_handed`: what `CommandsSession` and `StatusSession` hand to `cmd_process` if the end symbols
occur in each frame only at its end and no read brings bytes of two frames.
-/

namespace GameAP

open Lib UntilSess

/-- **Frames and messages.** For messages whose frames hold the end symbols only at the end, of
which no two share a chunk: what has been read of them is handed on message by message. -/
theorem frames_handed {messages : List (List UInt8)} {groups : List (List (List UInt8))}
    (hm : ∀ m ∈ messages, OnlyAtEnd endSymbols m)
    (hg : groups.map List.flatten = messages.map (· ++ endSymbols)) (b : Binn) :
    (∀ events : List (Event CommandsSession.Host),
      Hands messages groups (CommandsSession.run b events)) ∧
    ∀ events : List (Event StatusSession.Host),
      Hands messages groups (StatusSession.run b events) :=
  ⟨fun events => run_hands (CommandsSession.cmdProcess_keeps b) hm hg events,
    fun events => run_hands (StatusSession.cmdProcess_keeps b) hm hg events⟩

/-! ## Requests for the version -/

/-- The list of the command 1. -/
def versionPayload : List UInt8 := [0xE0, 5, 1, 0x20, 1]

def idleHost : StatusSession.Host :=
  { compilationDate := "", now := 0, statusStartedTime := 0,
    gdaemonTasks := .init .empty, gslist := .empty }

/-- Two requests, of which the first comes in two chunks. -/
def twoRequests : List (Event StatusSession.Host) :=
  [.chunk idleHost [0xE0, 5, 1], .chunk idleHost ([0x20, 1] ++ endSymbols), .written idleHost,
    .chunk idleHost (versionPayload ++ endSymbols)]

theorem twoRequests_handed :
    (StatusSession.run Binn.short twoRequests).handed = [versionPayload, versionPayload] := by
  have hm : ∀ m ∈ [versionPayload, versionPayload], OnlyAtEnd endSymbols m := by
    intro m hm
    obtain rfl : m = versionPayload := by simpa using hm
    apply onlyAtEnd_of_notMem
    decide
  have hg : [[[0xE0, 5, 1], [0x20, 1] ++ endSymbols], [versionPayload ++ endSymbols]].map
      List.flatten = [versionPayload, versionPayload].map (· ++ endSymbols) := rfl
  apply ((frames_handed hm hg Binn.short).2 twoRequests).2
  rfl

/-- A message with the end symbols in it is handed on in two parts. -/
theorem escaped_message_split :
    ¬ ∀ (messages chunks : List (List UInt8)) (b : Binn),
      chunks.flatten = (messages.map (· ++ endSymbols)).flatten →
      (∀ events : List (Event CommandsSession.Host),
        (CommandsSession.run b events).reads = chunks →
        (CommandsSession.run b events).handed = messages) ∧
      ∀ events : List (Event StatusSession.Host),
        (StatusSession.run b events).reads = chunks →
        (StatusSession.run b events).handed = messages := by
  intro h
  have hall := (h [versionPayload ++ endSymbols ++ [2]]
    [versionPayload ++ endSymbols, [2] ++ endSymbols] Binn.short rfl).2
    [.chunk idleHost (versionPayload ++ endSymbols), .written idleHost,
      .chunk idleHost ([2] ++ endSymbols)] rfl
  revert hall
  decide

end GameAP
