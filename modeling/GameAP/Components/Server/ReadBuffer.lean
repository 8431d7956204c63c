import Mathlib.Data.List.Basic
import Mathlib.Data.List.Count

/-!
# Read buffers

A session reads into a buffer of `maxLength` bytes, always from its first byte on
(`overwrite`), counts what it has read, and takes a request as complete when four bytes `0xFF` are
among those it has just read (`readComplete`, the same in `DaemonServerSess` and
`FileServerSess`).
-/

namespace GameAP

/-- The four bytes a message ends with. -/
def endSymbols : List UInt8 := [0xFF, 0xFF, 0xFF, 0xFF]

structure ReadBuffer where
  bytes : List UInt8
  /-- `m_read_length` -/
  length : Nat
  deriving DecidableEq, Repr

namespace ReadBuffer

def maxLength : Nat := 1024

/-- `async_read_some` into `boost::asio::buffer(m_read_buf, max_length)`. -/
def overwrite (chunk : List UInt8) (r : ReadBuffer) : ReadBuffer :=
  { r with bytes := chunk ++ r.bytes.drop chunk.length }

/-- `m_read_length += length`. -/
def count (length : Nat) (r : ReadBuffer) : ReadBuffer := { r with length := r.length + length }

/-- The loop of `read_complete` from `i` down, for `k` rounds. -/
def countEnd (bytes : List UInt8) : Nat → Nat → Nat → Nat
  | _, 0, found => found
  | i, k + 1, found =>
    if found < 4 then
      countEnd bytes (i - 1) k (if bytes[i - 1]? = some 0xFF then found + 1 else found)
    else found

def readComplete (length : Nat) (r : ReadBuffer) : Bool :=
  if r.length ≤ 4 then false else decide (countEnd r.bytes r.length length 0 ≥ 4)

/-- `memset` leaves the last byte of the buffer. -/
def clear (r : ReadBuffer) : ReadBuffer :=
  { bytes := List.replicate (maxLength - 1) 0 ++ r.bytes.drop (maxLength - 1), length := 0 }

/-! ## When a request is complete -/

theorem countEnd_ge (bytes : List UInt8) (i k found : Nat) (hk : k ≤ i) (hi : i ≤ bytes.length) :
    4 ≤ countEnd bytes i k found ↔ 4 ≤ found + ((bytes.take i).drop (i - k)).count 0xFF := by
  induction k generalizing i found with
  | zero =>
    have hnil : (bytes.take i).drop (i - 0) = [] := by simp
    rw [hnil]
    rfl
  | succ k ih =>
    obtain ⟨j, rfl⟩ : ∃ j, i = j + 1 := ⟨i - 1, by omega⟩
    have hlast : (bytes.take (j + 1)).drop (j + 1 - (k + 1)) =
        (bytes.take j).drop (j - k) ++ [bytes[j]] := by
      rw [List.take_succ_eq_append_getElem hi, List.drop_append_of_le_length, Nat.add_sub_add_right]
      rw [List.length_take]
      omega
    have hcount : ((bytes.take (j + 1)).drop (j + 1 - (k + 1))).count 0xFF =
        ((bytes.take j).drop (j - k)).count 0xFF + if bytes[j] = 0xFF then 1 else 0 := by
      rw [hlast, List.count_append, List.count_singleton]
      simp only [beq_iff_eq]
    unfold countEnd
    rw [hcount, Nat.add_sub_cancel]
    split
    · rw [ih j _ (by omega) (by omega), List.getElem?_eq_getElem hi]
      simp only [Option.some.injEq]
      split <;> omega
    · omega

/-- Behind a read from the start of the buffer the request is complete if four bytes `0xFF` are
in what has been read. -/
theorem readComplete_first {chunk : List UInt8} {r : ReadBuffer} (h : r.length = 0) :
    readComplete chunk.length ((r.overwrite chunk).count chunk.length) = true ↔
      4 < chunk.length ∧ 4 ≤ chunk.count 0xFF := by
  have hlen : ((r.overwrite chunk).count chunk.length).length = chunk.length := by
    show r.length + chunk.length = chunk.length
    omega
  have hbytes : ((r.overwrite chunk).count chunk.length).bytes = chunk ++ r.bytes.drop chunk.length :=
    rfl
  unfold readComplete
  rw [hlen, hbytes]
  split
  · next hle =>
    simp only [Bool.false_eq_true, false_iff, not_and]
    omega
  · next hgt =>
    rw [decide_eq_true_iff, ge_iff_le, countEnd_ge _ _ _ _ (Nat.le_refl _) (by simp)]
    simp only [Nat.sub_self, List.drop_zero, List.take_left, Nat.zero_add]
    exact ⟨fun h4 => ⟨by omega, h4⟩, fun h4 => h4.2⟩

/-- The first chunk of a message completes it only if it is the whole message. -/
theorem first_complete_iff {payload chunk : List UInt8} {rest : List (List UInt8)} {r : ReadBuffer}
    (h : r.length = 0) (hpay : 0xFF ∉ payload)
    (hmsg : (chunk :: rest).flatten = payload ++ endSymbols)
    (hne : ∀ c ∈ chunk :: rest, c ≠ []) :
    readComplete chunk.length ((r.overwrite chunk).count chunk.length) = true ↔
      rest = [] ∧ payload ≠ [] := by
  have hcount : chunk.count 0xFF + rest.flatten.count 0xFF = 4 := by
    have hall := congrArg (List.count 0xFF) hmsg
    rwa [List.flatten_cons, List.count_append, List.count_append, List.count_eq_zero.mpr hpay,
      show endSymbols.count 0xFF = 4 by decide, Nat.zero_add] at hall
  have hlen : chunk.length + rest.flatten.length = payload.length + 4 := by
    have hall := congrArg List.length hmsg
    rwa [List.flatten_cons, List.length_append, List.length_append] at hall
  rw [readComplete_first h]
  constructor
  · rintro ⟨hgt, h4⟩
    have hnil : rest = [] := by
      by_contra hrest
      have hfull : rest.flatten ≠ [] := by
        obtain ⟨c, cs, rfl⟩ := List.exists_cons_of_ne_nil hrest
        rw [List.flatten_cons]
        intro hnil
        exact hne c (by simp) (List.append_eq_nil_iff.mp hnil).1
      have hlast : 0xFF ∈ rest.flatten := by
        have hend := congrArg List.getLast? hmsg
        rw [List.flatten_cons, List.getLast?_append_of_ne_nil _ hfull,
          List.getLast?_append_of_ne_nil _ (by decide)] at hend
        exact List.mem_of_getLast? hend
      have := List.count_pos_iff.mpr hlast
      omega
    refine ⟨hnil, fun hp => ?_⟩
    subst hnil hp
    simp at hlen
    omega
  · rintro ⟨rfl, hp⟩
    have hpos := List.length_pos_iff.mpr hp
    rw [List.flatten_nil] at hcount hlen
    simp only [List.length_nil, List.count_nil] at hcount hlen
    omega

/-! ## Whether the message has ended -/

/-- The byte `j` from the end of what has been read is `0xFF`. -/
def endByte (r : ReadBuffer) (j : Nat) : Bool := r.bytes[r.length - 1 - j]? == some 0xFF

/-- The last four of the bytes read so far are `0xFF`. -/
def EndsMessage (r : ReadBuffer) : Prop := ∀ j < 4, r.endByte j = true

/-- How many bytes of the last chunk are `0xFF`. -/
def endBytes (length : Nat) (r : ReadBuffer) : Nat := (List.range length).countP r.endByte

theorem countEnd_ge_count (bytes : List UInt8) (i k found : Nat) :
    4 ≤ countEnd bytes i k found ↔
      4 ≤ found + (List.range k).countP fun j => bytes[i - 1 - j]? == some 0xFF := by
  induction k generalizing i found with
  | zero => rfl
  | succ k ih =>
    have hshift : (List.range (k + 1)).countP (fun j => bytes[i - 1 - j]? == some 0xFF) =
        (if bytes[i - 1]? = some 0xFF then 1 else 0) +
          (List.range k).countP fun j => bytes[i - 1 - 1 - j]? == some 0xFF := by
      rw [List.range_succ_eq_map, List.countP_cons, List.countP_map, Nat.add_comm]
      simp only [Nat.sub_zero, beq_iff_eq]
      congr 2
      funext j
      simp only [Function.comp_apply, Nat.succ_eq_add_one]
      rw [Nat.sub_sub _ 1 j, Nat.add_comm 1 j]
    unfold countEnd
    rw [hshift]
    split
    · rw [ih]
      split <;> omega
    · omega

theorem readComplete_iff_endBytes {length : Nat} {r : ReadBuffer} (h5 : 5 ≤ r.length) :
    readComplete length r = true ↔ 4 ≤ r.endBytes length := by
  unfold readComplete endBytes endByte
  rw [if_neg (by omega), decide_eq_true_iff, ge_iff_le, countEnd_ge_count, Nat.zero_add]

/-- The last four bytes of a chunk that has as many. -/
theorem endBytes_of_endsMessage {length : Nat} {r : ReadBuffer} (h4 : 4 ≤ length)
    (h : r.EndsMessage) : 4 ≤ r.endBytes length := by
  have hlast : (List.range 4).countP r.endByte = 4 :=
    List.countP_eq_length.mpr fun j hj => h j (List.mem_range.mp hj)
  have hsub : (List.range 4).Sublist (List.range length) := List.range_sublist.mpr h4
  calc 4 = (List.range 4).countP r.endByte := hlast.symm
    _ ≤ r.endBytes length := hsub.countP_le

theorem endBytes_le (length : Nat) (r : ReadBuffer) : r.endBytes length ≤ length :=
  Nat.le_trans List.countP_le_length (Nat.le_of_eq List.length_range)

/-- **When a message ends.** `read_complete` tells whether the last four bytes are `0xFF`, except
for an end that is split over two chunks and for four such bytes elsewhere in the last chunk. -/
theorem readComplete_iff_ends (length : Nat) (r : ReadBuffer) (_ : length ≤ r.length)
    (h5 : 5 ≤ r.length) :
    (readComplete length r = true ↔ r.EndsMessage) ↔
      (length < 4 → ¬r.EndsMessage) ∧ (4 ≤ r.endBytes length → r.EndsMessage) := by
  rw [readComplete_iff_endBytes h5]
  constructor
  · intro h
    refine ⟨fun hshort hends => ?_, h.mp⟩
    have := h.mpr hends
    have := endBytes_le length r
    omega
  · rintro ⟨hsplit, hscattered⟩
    refine ⟨hscattered, fun hends => endBytes_of_endsMessage ?_ hends⟩
    exact Nat.le_of_not_lt fun hshort => hsplit hshort hends

/-- A message `data` that is read at once. -/
def dataRead : ReadBuffer :=
  { bytes := [0x64, 0x61, 0x74, 0x61, 0xFF, 0xFF, 0xFF, 0xFF], length := 8 }

theorem readComplete_dataRead :
    (readComplete 8 dataRead = true ↔ dataRead.EndsMessage) ↔
      (8 < 4 → ¬dataRead.EndsMessage) ∧ (4 ≤ dataRead.endBytes 8 → dataRead.EndsMessage) :=
  readComplete_iff_ends 8 dataRead (by decide) (by decide)

/-- Four bytes `0xFF` in front of another are taken for the end. -/
theorem readComplete_not_ends : ¬ ∀ (length : Nat) (r : ReadBuffer), length ≤ r.length →
    5 ≤ r.length → (readComplete length r = true ↔ r.EndsMessage) := fun h =>
  absurd ((h 5 ⟨[0xFF, 0xFF, 0xFF, 0xFF, 0], 5⟩ (by decide) (by decide)).mp (by decide) 0
    (by decide)) (by decide)

/-! ## A request in several chunks -/

/-- A session that stops reading after a chunk that does not complete the request handles the
request as if it had come in one chunk exactly when it has come in one chunk and is not empty. -/
theorem processed_iff {σ ρ : Type} (deliver : List UInt8 → σ → σ)
    (handled : σ → List (List UInt8)) (response : σ → ρ) (Stopped : σ → Prop) {s : σ}
    {r : ReadBuffer} (h : r.length = 0)
    (hdone : ∀ c, readComplete c.length ((r.overwrite c).count c.length) = true →
      handled (deliver c s) = handled s ++ [c])
    (hmore : ∀ c, readComplete c.length ((r.overwrite c).count c.length) = false →
      handled (deliver c s) = handled s ∧ Stopped (deliver c s))
    (hstop : ∀ c t, Stopped t → deliver c t = t)
    {payload : List UInt8} (hpay : 0xFF ∉ payload) {chunks : List (List UInt8)}
    (hmsg : chunks.flatten = payload ++ endSymbols) (hne : ∀ c ∈ chunks, c ≠ []) :
    (handled (chunks.foldl (fun t c => deliver c t) s) = handled s ++ [payload ++ endSymbols] ∧
        response (chunks.foldl (fun t c => deliver c t) s) =
          response (deliver (payload ++ endSymbols) s)) ↔
      chunks.length = 1 ∧ payload ≠ [] := by
  cases chunks with
  | nil => exact absurd hmsg.symm (by simp [endSymbols])
  | cons c rest =>
    have hcomplete := first_complete_iff h hpay hmsg hne
    have hall : ∀ (cs : List (List UInt8)) t, Stopped t →
        cs.foldl (fun t c => deliver c t) t = t := by
      intro cs t ht
      induction cs with
      | nil => rfl
      | cons c cs ih => rw [List.foldl_cons, hstop c t ht, ih]
    have hone : (c :: rest).length = 1 ↔ rest = [] := by simp
    rw [hone, ← hcomplete, List.foldl_cons]
    constructor
    · rintro ⟨hh, -⟩
      by_contra hno
      obtain ⟨hsame, hstopped⟩ := hmore c (Bool.eq_false_iff.mpr hno)
      rw [hall rest _ hstopped, hsame] at hh
      simp at hh
    · intro hyes
      obtain ⟨rfl, -⟩ := hcomplete.mp hyes
      have hc : c = payload ++ endSymbols := by simpa using hmsg
      rw [List.foldl_nil, hdone c hyes, hc]
      exact ⟨rfl, rfl⟩

end ReadBuffer

end GameAP
