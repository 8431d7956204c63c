import GameAP.Components.Server.FilesMode

/-!
# When the sending of a file ends

The loop of `send_file` asks for `eofbit` alone. A stream that has failed extracts nothing and never
sets it, so that the loop writes empty buffers for ever: `sendFile_ends_iff`.
-/

namespace GameAP

open Lib

namespace FileServerSess

/-- Writing an empty buffer succeeds. -/
def WritesEmpty (w : WriteSome) : Prop := ∀ k, ∃ n, w k [] = some n

/-- The stream has reached the end, or can still be read. -/
def Sending.Live (x : Sending) : Prop := x.input.eof = true ∨ x.input.fail = false

variable {w : WriteSome} {x : Sending}

/-- A round of the loop brings a stream that can be read nearer to its end. -/
theorem sendBody_live (w : WriteSome) (x : Sending) (h : x.Live) :
    (∃ y, sendBody w x = .inr y) ∨ ∃ y, sendBody w x = .inl y ∧ y.Live ∧
      y.input.rest.length + (if y.input.eof then 0 else 1) <
        x.input.rest.length + (if x.input.eof then 0 else 1) := by
  cases heof : x.input.eof with
  | true => exact .inl ⟨x, if_pos heof⟩
  | false =>
    have hfail : x.input.fail = false := h.resolve_left (by rw [heof]; decide)
    have hread : x.input.read ReadBuffer.maxLength =
        (x.input.rest.take ReadBuffer.maxLength, { x.input with
          rest := x.input.rest.drop ReadBuffer.maxLength
          eof := decide (x.input.rest.length < ReadBuffer.maxLength)
          fail := decide (x.input.rest.length < ReadBuffer.maxLength) }) := by
      unfold InFile.read
      rw [heof, hfail]
      rfl
    unfold sendBody
    rw [heof, hread]
    simp only [Bool.false_eq_true, if_false]
    cases w x.calls (x.input.rest.take ReadBuffer.maxLength) with
    | none => exact .inl ⟨_, rfl⟩
    | some n =>
      refine .inr ⟨_, rfl, ?_, ?_⟩
      · by_cases hshort : x.input.rest.length < ReadBuffer.maxLength
        · exact .inl (decide_eq_true hshort)
        · exact .inr (decide_eq_false hshort)
      · by_cases hshort : x.input.rest.length < ReadBuffer.maxLength
        · simp only [decide_eq_true hshort, if_true, List.length_drop]
          omega
        · have hpos : 0 < ReadBuffer.maxLength := by decide
          simp only [decide_eq_false hshort, Bool.false_eq_true, if_false, List.length_drop]
          omega

/-- A stream that has failed stays as it is. -/
theorem sendBody_dead (hw : WritesEmpty w) (x : Sending)
    (h : x.input.eof = false ∧ x.input.fail = true) :
    ∃ y, sendBody w x = .inl y ∧ y.input.eof = false ∧ y.input.fail = true := by
  have hread : x.input.read ReadBuffer.maxLength = ([], { x.input with fail := true }) := by
    unfold InFile.read
    rw [if_pos (by rw [h.1, h.2]; rfl)]
  obtain ⟨n, hn⟩ := hw x.calls
  refine ⟨{ input := { x.input with fail := true }, calls := x.calls + 1, sent := x.sent ++ [] },
    ?_, h.1, rfl⟩
  unfold sendBody
  rw [h.1, hread]
  simp only [Bool.false_eq_true, if_false, hn, List.take_nil]

/-- **When the sending ends.** In every state of a session, and for every connection on which
writing an empty buffer succeeds, the loop of `send_file` ends exactly if the stream has met the
end of a file or has not failed. -/
theorem sendFile_ends_iff (hw : WritesEmpty w) (s : FileServerSess) :
    (∃ rounds t, sendFile w rounds s = some t) ↔
      s.inputFile.eof = true ∨ s.inputFile.fail = false := by
  have hloop : (∃ rounds t, sendFile w rounds s = some t) ↔
      ∃ x, Returns (sendBody w) { input := s.inputFile, calls := 0, sent := [] } x := by
    unfold sendFile Returns
    simp only [Option.map_eq_some_iff]
    exact ⟨fun ⟨rounds, _, x, hx, _⟩ => ⟨x, rounds, hx⟩,
      fun ⟨x, rounds, hx⟩ => ⟨rounds, _, x, hx, rfl⟩⟩
  rw [hloop]
  constructor
  · rintro ⟨x, hx⟩
    by_contra hdead
    obtain ⟨heof, hfail⟩ := not_or.mp hdead
    exact not_returns (I := fun x => x.input.eof = false ∧ x.input.fail = true) (sendBody_dead hw)
      ⟨eq_false_of_ne_true heof, eq_true_of_ne_false hfail⟩ hx
  · intro hlive
    exact returns_of_lt (I := Sending.Live)
      (fun x : Sending => x.input.rest.length + (if x.input.eof then 0 else 1))
      (sendBody_live w) hlive

/-! ## A file that cannot be opened -/

theorem writesEmpty_wholeWrites : WritesEmpty wholeWrites := fun _ => ⟨0, rfl⟩

theorem sendFile_ends_one :
    ∃ rounds t, sendFile wholeWrites rounds
      (afterUpload { Host.empty with toFiles := oneFile [1, 2, 3] }) = some t :=
  (sendFile_ends_iff writesEmpty_wholeWrites _).mpr (.inr rfl)

/-- The file `f` exists and cannot be opened. -/
def lockedFile : Files := { oneFile [1, 2, 3] with openInput := fun _ => none }

/-- The session announces the file, and does not return from sending it. -/
theorem sendFile_spins :
    ¬ ∀ (b : Binn) (buf : ReadBuffer) (sendfileMode : Nat) (s : FileServerSess) (w : WriteSome),
      Run (fun s i t => t = step b s i) Any (new buf sendfileMode) s → s.pending = .read →
      s.mode = fservFilesend → s.sendfileMode = fservFileUpload → WritesEmpty w →
        ∃ rounds t, sendFile w rounds s = some t := by
  intro h
  obtain ⟨rounds, t, ht⟩ := h _ _ _ _ wholeWrites
    (afterUpload_run { Host.empty with toFiles := lockedFile } trivial fun _ => trivial) rfl rfl rfl
    writesEmpty_wholeWrites
  unfold sendFile at ht
  obtain ⟨x, hx, -⟩ := Option.map_eq_some_iff.mp ht
  exact not_returns (I := fun x => x.input.eof = false ∧ x.input.fail = true)
    (sendBody_dead writesEmpty_wholeWrites) ⟨rfl, rfl⟩ ⟨rounds, hx⟩

end FileServerSess

end GameAP
