import Mathlib.Data.List.Basic
import Mathlib.Data.List.Infix

/-!
# Frames that end with a delimiter

`firstEnd d xs` is the length of `xs` up to and including the first occurrence of `d`. A message
`m` is sent as `m ++ d`; a receiver collects chunks until `d` is among what it has collected. If
the delimiter occurs in a frame only at its end (`OnlyAtEnd`), the frame is complete exactly when
all of it has arrived.
-/

namespace Lib

variable {α : Type*}

/-- The delimiter is at the end of the frame of `m` and nowhere before. -/
def OnlyAtEnd (d m : List α) : Prop := ∀ a b, m ++ d = a ++ d ++ b → b = []

variable {d m xs : List α}

/-- It is enough that the first symbol of the delimiter does not occur in the message. -/
theorem onlyAtEnd_of_notMem {x : α} {d' : List α} (h : x ∉ m) : OnlyAtEnd (x :: d') m := by
  intro a b hab
  have hlen := congrArg List.length hab
  simp only [List.length_append] at hlen
  by_contra hb
  have hpos := List.length_pos_iff.mpr hb
  have hlt : a.length < m.length := by omega
  have hx : (m ++ x :: d')[a.length]? = some x := by
    rw [hab, List.append_assoc, List.getElem?_append_right (Nat.le_refl _), Nat.sub_self]
    rfl
  rw [List.getElem?_append_left hlt] at hx
  exact h (List.mem_of_getElem? hx)

variable [DecidableEq α]

def firstEnd (d : List α) : List α → Option Nat
  | [] => if d = [] then some 0 else none
  | x :: xs => if d.isPrefixOf (x :: xs) then some d.length else (firstEnd d xs).map (· + 1)

theorem firstEnd_some {n : Nat} (h : firstEnd d xs = some n) :
    ∃ a b, xs = a ++ d ++ b ∧ n = (a ++ d).length := by
  induction xs generalizing n with
  | nil =>
    unfold firstEnd at h
    split at h
    · next hd =>
      cases h
      exact ⟨[], [], by simp [hd], by simp [hd]⟩
    · cases h
  | cons x xs ih =>
    unfold firstEnd at h
    split at h
    · next hp =>
      cases h
      obtain ⟨b, hb⟩ := List.isPrefixOf_iff_prefix.mp hp
      exact ⟨[], b, hb.symm, rfl⟩
    · obtain ⟨k, hk, rfl⟩ := Option.map_eq_some_iff.mp h
      obtain ⟨a, b, rfl, rfl⟩ := ih hk
      exact ⟨x :: a, b, rfl, rfl⟩

theorem firstEnd_none (h : firstEnd d xs = none) (a b : List α) : xs ≠ a ++ d ++ b := by
  induction xs generalizing a with
  | nil =>
    unfold firstEnd at h
    split at h
    · cases h
    · next hd =>
      intro he
      have hnil := (List.append_eq_nil_iff.mp he.symm).1
      exact hd (List.append_eq_nil_iff.mp hnil).2
  | cons x xs ih =>
    unfold firstEnd at h
    split at h
    · cases h
    · next hp =>
      rw [Option.map_eq_none_iff] at h
      intro he
      cases a with
      | nil => exact hp (List.isPrefixOf_iff_prefix.mpr ⟨b, he.symm⟩)
      | cons y a =>
        obtain ⟨-, htail⟩ := List.cons.inj he
        exact ih h a htail

/-- The whole of a frame. -/
theorem firstEnd_frame (h : OnlyAtEnd d m) : firstEnd d (m ++ d) = some (m ++ d).length := by
  cases hf : firstEnd d (m ++ d) with
  | none => exact absurd (List.append_nil _).symm (firstEnd_none hf m [])
  | some n =>
    obtain ⟨a, b, hab, rfl⟩ := firstEnd_some hf
    obtain rfl := h a b hab
    rw [hab, List.append_nil]

/-- A part of a frame. -/
theorem firstEnd_part (h : OnlyAtEnd d m) {rest : List α} (hr : rest ≠ [])
    (hx : xs ++ rest = m ++ d) : firstEnd d xs = none := by
  cases hf : firstEnd d xs with
  | none => rfl
  | some n =>
    obtain ⟨a, b, rfl, -⟩ := firstEnd_some hf
    have hb := h a (b ++ rest) (by rw [← hx, List.append_assoc])
    exact absurd (List.append_eq_nil_iff.mp hb).2 hr

/-! ## Receiving frames in chunks -/

/-- The receiver: the messages it has handed on, and what it has collected since. -/
structure Receiver (α : Type*) where
  handed : List (List α)
  buffer : List α
  deriving DecidableEq, Repr

namespace Receiver

/-- When the buffer holds the delimiter, all of it but the last bytes, as many as the delimiter
has, is handed on; what is behind the first delimiter stays in the buffer. -/
def feed (d : List α) (r : Receiver α) (chunk : List α) : Receiver α :=
  let buffer := r.buffer ++ chunk
  match firstEnd d buffer with
  | some n =>
    { handed := r.handed ++ [buffer.take (buffer.length - d.length)], buffer := buffer.drop n }
  | none => { r with buffer }

variable {handed : List (List α)} {buffer : List α}

theorem feed_none {chunk : List α} (h : firstEnd d (buffer ++ chunk) = none) :
    feed d { handed, buffer } chunk = { handed, buffer := buffer ++ chunk } := by
  unfold feed
  simp only [h]

theorem feed_some {chunk : List α} {n : Nat} (h : firstEnd d (buffer ++ chunk) = some n) :
    feed d { handed, buffer } chunk =
      { handed := handed ++ [(buffer ++ chunk).take ((buffer ++ chunk).length - d.length)]
        buffer := (buffer ++ chunk).drop n } := by
  unfold feed
  simp only [h]

theorem feed_frame {chunk : List α} (h : OnlyAtEnd d m) (hb : buffer ++ chunk = m ++ d) :
    feed d { handed, buffer } chunk = { handed := handed ++ [m], buffer := [] } := by
  have hlen : (m ++ d).length - d.length = m.length := by
    rw [List.length_append]
    omega
  rw [feed_some (hb ▸ firstEnd_frame h), hb, hlen, List.take_left, List.drop_length]

/-- Chunks without bytes change nothing behind a frame. -/
theorem feed_empty (hd : d ≠ []) (chunks : List (List α)) (h : chunks.flatten = []) :
    chunks.foldl (feed d) { handed, buffer := [] } = { handed, buffer := [] } := by
  induction chunks with
  | nil => rfl
  | cons c cs ih =>
    obtain ⟨rfl, hcs⟩ := List.append_eq_nil_iff.mp (List.flatten_cons ▸ h)
    have hnone : firstEnd d ([] ++ []) = none := if_neg hd
    rw [List.foldl_cons, feed_none hnone]
    exact ih hcs

/-- The chunks of one frame, of which some may have arrived. -/
theorem feed_chunks (hd : d ≠ []) (h : OnlyAtEnd d m) (chunks : List (List α))
    (hne : buffer ≠ m ++ d) (hm : buffer ++ chunks.flatten = m ++ d) :
    chunks.foldl (feed d) { handed, buffer } = { handed := handed ++ [m], buffer := [] } := by
  induction chunks generalizing buffer with
  | nil => exact absurd (by simpa using hm) hne
  | cons c cs ih =>
    rw [List.flatten_cons, ← List.append_assoc] at hm
    rw [List.foldl_cons]
    by_cases hc : buffer ++ c = m ++ d
    · rw [feed_frame h hc]
      apply feed_empty hd
      exact List.append_right_eq_self.mp (hm.trans hc.symm)
    · have hr : cs.flatten ≠ [] := fun hnil => hc (by simpa [hnil] using hm)
      rw [feed_none (firstEnd_part h hr hm)]
      exact ih hc hm

/-- Some of the chunks of a frame: either it is complete, or nothing is handed on. -/
theorem feed_part (hd : d ≠ []) (h : OnlyAtEnd d m) {chunks rest : List (List α)}
    (hm : (chunks ++ rest).flatten = m ++ d) :
    (chunks.foldl (feed d) { handed, buffer := [] }).handed <+: handed ++ [m] := by
  by_cases hc : chunks.flatten = m ++ d
  · have hne : [] ≠ m ++ d := fun hnil => hd (List.append_eq_nil_iff.mp hnil.symm).2
    rw [feed_chunks hd h chunks hne hc]
  · suffices hpart : ∀ (cs : List (List α)) buffer, buffer ++ cs.flatten ++ rest.flatten = m ++ d →
        buffer ++ cs.flatten ≠ m ++ d →
        (cs.foldl (feed d) { handed, buffer }).handed = handed by
      rw [hpart chunks [] (by simpa using hm) (by simpa using hc)]
      exact List.prefix_append _ _
    intro cs
    induction cs with
    | nil => exact fun _ _ _ => rfl
    | cons c cs ih =>
      intro buffer hall hne
      rw [List.flatten_cons] at hall hne
      have hall' : buffer ++ c ++ cs.flatten ++ rest.flatten = m ++ d := by simpa using hall
      have hne' : buffer ++ c ++ cs.flatten ≠ m ++ d := by simpa using hne
      have hr : cs.flatten ++ rest.flatten ≠ [] := fun hnil => hne' (by
        obtain ⟨hcs, hrest⟩ := List.append_eq_nil_iff.mp hnil
        simpa [hcs, hrest] using hall')
      have hnone : firstEnd d (buffer ++ c) = none :=
        firstEnd_part h hr (by simpa using hall')
      rw [List.foldl_cons, feed_none hnone]
      exact ih _ hall' hne'

/-- The chunks of several frames, none of which has bytes of two of them. -/
theorem feed_frames (hd : d ≠ []) {messages : List (List α)} {groups : List (List (List α))}
    (h : ∀ m ∈ messages, OnlyAtEnd d m)
    (hg : groups.map List.flatten = messages.map (· ++ d)) :
    groups.flatten.foldl (feed d) { handed, buffer := [] } =
      { handed := handed ++ messages, buffer := [] } := by
  induction messages generalizing groups handed with
  | nil =>
    obtain rfl := List.map_eq_nil_iff.mp hg
    simp
  | cons m ms ih =>
    obtain ⟨g, gs, rfl, hgm, hgs⟩ := List.map_eq_cons_iff.mp hg
    have hne : [] ≠ m ++ d := fun hnil => hd (List.append_eq_nil_iff.mp hnil.symm).2
    rw [List.flatten_cons, List.foldl_append, feed_chunks hd (h m (by simp)) g hne hgm,
      ih (fun m' hm' => h m' (by simp [hm'])) hgs, List.append_assoc]
    rfl

/-- Some of them. -/
theorem feed_prefix (hd : d ≠ []) {messages : List (List α)} {groups : List (List (List α))}
    (h : ∀ m ∈ messages, OnlyAtEnd d m)
    (hg : groups.map List.flatten = messages.map (· ++ d)) {chunks : List (List α)}
    (hc : chunks <+: groups.flatten) :
    (chunks.foldl (feed d) { handed, buffer := [] }).handed <+: handed ++ messages := by
  induction messages generalizing groups handed chunks with
  | nil =>
    obtain rfl := List.map_eq_nil_iff.mp hg
    obtain rfl := List.prefix_nil.mp hc
    simp
  | cons m ms ih =>
    obtain ⟨g, gs, rfl, hgm, hgs⟩ := List.map_eq_cons_iff.mp hg
    have hm := h m (by simp)
    have hms : ∀ m' ∈ ms, OnlyAtEnd d m' := fun m' hm' => h m' (by simp [hm'])
    have happ : handed ++ m :: ms = handed ++ [m] ++ ms := by simp
    rw [List.flatten_cons] at hc
    rcases Nat.le_total chunks.length g.length with hle | hle
    · obtain ⟨rest, rfl⟩ := List.prefix_of_prefix_length_le hc (List.prefix_append g _) hle
      rw [happ]
      exact (feed_part hd hm hgm).trans (List.prefix_append _ _)
    · obtain ⟨more, rfl⟩ := List.prefix_of_prefix_length_le (List.prefix_append g _) hc hle
      have hmore := (List.prefix_append_right_inj g).mp hc
      have hne : [] ≠ m ++ d := fun hnil => hd (List.append_eq_nil_iff.mp hnil.symm).2
      rw [List.foldl_append, feed_chunks hd hm g hne hgm, happ]
      exact ih hms hgs hmore

end Receiver

end Lib
