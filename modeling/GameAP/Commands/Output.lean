import GameAP.Lib.Ring
import Mathlib.Data.List.DropRight
import Mathlib.Data.List.Infix

/-!
# The output of a command

`CmdOutput` collects the lines in a string. `IpcCmdOutput`, which lies in memory that the daemon
shares with the child, keeps them in a ring of `size` (`IPC_OUTPUT_BUFFER_SIZE`) characters: where
more are appended, the oldest are overwritten. `gets_agree`: as long as what is appended between
two clears fits into the ring, both give the same. Where it does not, the position that is read
from stays behind, and `get` begins in the middle of what the ring has kept
(`get_last_iff`).
-/

namespace GameAP

open Lib

/-- `BaseOutput`, by its three operations. -/
structure BaseOutput (σ : Type) where
  init : σ
  append : String → σ → σ
  get : σ → String
  clear : σ → σ

namespace BaseOutput

inductive Op where
  | append (line : String)
  | get
  | clear
  deriving DecidableEq, Repr

variable {σ : Type} (b : BaseOutput σ)

def perform (o : σ) : Op → σ
  | .append line => b.append line o
  | .get => o
  | .clear => b.clear o

/-- The output after some operations. -/
def after (ops : List Op) : σ := ops.foldl b.perform b.init

/-- What an operation appends: a line and the newline behind it. -/
def Op.chars : Op → List Char
  | .append line => line.toList ++ ['\n']
  | _ => []

/-- The operations behind the last clear. -/
def sinceClear (ops : List Op) : List Op := ops.rtakeWhile (· ≠ .clear)

/-- At most `size` characters are appended between two clears. -/
def Fits (size : Nat) (ops : List Op) : Prop :=
  ∀ mid, mid <:+: ops → Op.clear ∉ mid → (mid.flatMap Op.chars).length ≤ size

instance (size : Nat) (ops : List Op) : Decidable (Fits size ops) :=
  decidable_of_iff (∀ mid ∈ ops.tails.flatMap List.inits,
      Op.clear ∉ mid → (mid.flatMap Op.chars).length ≤ size) <| by
    refine forall_congr' fun mid => imp_congr_left ?_
    simp only [List.mem_flatMap, List.mem_tails, List.mem_inits, List.infix_iff_prefix_suffix,
      and_comm]

end BaseOutput

open BaseOutput

/-! ## `CmdOutput` -/

structure CmdOutput where
  output : String
  deriving DecidableEq, Repr

namespace CmdOutput

def append (line : String) (o : CmdOutput) : CmdOutput :=
  let o := { o with output := o.output ++ line }
  { o with output := o.output ++ "\n" }

def get (o : CmdOutput) : String := o.output

def clear (o : CmdOutput) : CmdOutput := { o with output := "" }

def base : BaseOutput CmdOutput := { init := { output := "" }, append, get, clear }

end CmdOutput

/-! ## `IpcCmdOutput` -/

/-- `m_buf` is a memory here; `indices_lt` shows that no index leaves the array. -/
structure IpcCmdOutput where
  buf : Nat → Char
  readPos : Nat
  writePos : Nat
  readable : Nat

namespace IpcCmdOutput

variable (size : Nat)

def init : IpcCmdOutput := { buf := fun _ => '\x00', readPos := 0, writePos := 0, readable := 0 }

/-- One round of the loop in `append`. -/
def put (o : IpcCmdOutput) (c : Char) : IpcCmdOutput :=
  { o with
    buf := Function.update o.buf o.writePos c
    readable := if o.readable < size then o.readable + 1 else o.readable
    writePos := if o.writePos + 1 ≥ size then 0 else o.writePos + 1 }

def append (line : String) (o : IpcCmdOutput) : IpcCmdOutput :=
  (line.toList ++ ['\n']).foldl (put size) o

/-- The indices that the loop in `get` reads. -/
def readIndices : Nat → Nat → List Nat
  | 0, _ => []
  | readable + 1, readPos =>
    let readPos := if readPos ≥ size then 0 else readPos
    readPos :: readIndices readable (readPos + 1)

def get (o : IpcCmdOutput) : String :=
  String.ofList ((readIndices size o.readable o.readPos).map o.buf)

def clear (o : IpcCmdOutput) : IpcCmdOutput := { o with readable := 0, readPos := o.writePos }

def base : BaseOutput IpcCmdOutput :=
  { init, append := append size, get := get size, clear }

/-- The indices that the loop in `append` writes to. -/
def writeIndices : List Char → IpcCmdOutput → List Nat
  | [], _ => []
  | c :: cs, o => o.writePos :: writeIndices cs (put size o c)

/-- The indices that an operation uses. -/
def indices (o : IpcCmdOutput) : Op → List Nat
  | .append line => writeIndices size (line.toList ++ ['\n']) o
  | .get => readIndices size o.readable o.readPos
  | .clear => []

end IpcCmdOutput

/-! ## What the ring holds -/

namespace IpcCmdOutput

/-- The positions are in the ring. -/
structure Bounded (size : Nat) (o : IpcCmdOutput) : Prop where
  read : o.readPos < size
  write : o.writePos < size

/-- `text` has been appended since the last clear. -/
structure Holds (size : Nat) (o : IpcCmdOutput) (text : List Char) : Prop extends
    Bounded size o where
  fits : text.length ≤ size
  readable : o.readable = text.length
  behind : o.writePos = (o.readPos + text.length) % size
  content : Ring.Holds size o.buf o.readPos text

/-- `text` has been appended since the last clear, and its last `size` characters are kept. -/
structure HoldsLast (size : Nat) (o : IpcCmdOutput) (text : List Char) : Prop extends
    Bounded size o where
  readable : o.readable = min text.length size
  behind : o.writePos = (o.readPos + text.length) % size
  content : Ring.HoldsLast size o.buf o.readPos text

variable {size : Nat} {o : IpcCmdOutput} {text : List Char}

theorem init_holdsLast (hsize : 1 ≤ size) : HoldsLast size init [] where
  read := hsize
  write := hsize
  readable := (Nat.zero_min _).symm
  behind := (Nat.zero_mod _).symm
  content := Ring.holdsLast_nil

theorem Bounded.put (h : Bounded size o) (c : Char) :
    Bounded size (IpcCmdOutput.put size o c) := by
  refine ⟨h.read, ?_⟩
  have hnext : (IpcCmdOutput.put size o c).writePos = Ring.next size o.writePos := rfl
  rw [hnext, Ring.next_eq h.write]
  exact Nat.mod_lt _ (Nat.zero_lt_of_lt h.write)

theorem HoldsLast.put (h : HoldsLast size o text) (c : Char) :
    HoldsLast size (put size o c) (text ++ [c]) := by
  have hwrite : (IpcCmdOutput.put size o c).writePos = Ring.next size o.writePos := rfl
  refine ⟨h.toBounded.put c, ?_, ?_, ?_⟩
  · have hput : (IpcCmdOutput.put size o c).readable =
        if o.readable < size then o.readable + 1 else o.readable := rfl
    rw [hput, h.readable, List.length_append, List.length_singleton]
    split <;> omega
  · rw [hwrite, Ring.next_eq h.write, h.behind, Nat.mod_add_mod, List.length_append,
      List.length_singleton, Nat.add_assoc]
    rfl
  · show Ring.HoldsLast size (Function.update o.buf o.writePos c) o.readPos (text ++ [c])
    rw [h.behind]
    exact h.content.push c

/-- **Appending.** -/
theorem HoldsLast.append (h : HoldsLast size o text) (line : String) :
    HoldsLast size (append size line o) (text ++ (line.toList ++ ['\n'])) := by
  unfold IpcCmdOutput.append
  generalize line.toList ++ ['\n'] = cs
  induction cs generalizing o text with
  | nil => rwa [List.append_nil]
  | cons c cs ih =>
    rw [List.append_cons]
    exact ih (h.put c)

theorem Bounded.append (h : Bounded size o) (cs : List Char) :
    Bounded size (cs.foldl (IpcCmdOutput.put size) o) := by
  induction cs generalizing o with
  | nil => exact h
  | cons c cs ih => exact ih (h.put c)

theorem Bounded.clear (h : Bounded size o) : Bounded size (clear o) := ⟨h.write, h.write⟩

theorem HoldsLast.clear (h : HoldsLast size o text) : HoldsLast size (clear o) [] where
  toBounded := h.toBounded.clear
  readable := (Nat.zero_min _).symm
  behind := (Nat.mod_eq_of_lt h.write).symm
  content := Ring.holdsLast_nil

/-- As long as it fits, all that has been appended is kept. -/
theorem HoldsLast.holds (h : HoldsLast size o text) (hfit : text.length ≤ size) :
    Holds size o text where
  toBounded := h.toBounded
  fits := hfit
  readable := h.readable.trans (Nat.min_eq_left hfit)
  behind := h.behind
  content := h.content.holds hfit

theorem Holds.holdsLast (h : Holds size o text) : HoldsLast size o text where
  toBounded := h.toBounded
  readable := h.readable.trans (Nat.min_eq_left h.fits).symm
  behind := h.behind
  content := h.content.holdsLast

theorem init_holds (hsize : 1 ≤ size) : Holds size init [] :=
  (init_holdsLast hsize).holds (Nat.zero_le _)

theorem Holds.append (h : Holds size o text) {line : String}
    (hfit : (text ++ (line.toList ++ ['\n'])).length ≤ size) :
    Holds size (append size line o) (text ++ (line.toList ++ ['\n'])) :=
  (h.holdsLast.append line).holds hfit

theorem Holds.clear (h : Holds size o text) : Holds size (clear o) [] :=
  h.holdsLast.clear.holds (Nat.zero_le _)

/-- The loop of `get` goes round the ring. -/
theorem readIndices_eq {readPos : Nat} (hsize : 1 ≤ size) (len : Nat) (h : readPos ≤ size) :
    readIndices size len readPos = Ring.indices size readPos len := by
  induction len generalizing readPos with
  | zero => rfl
  | succ len ih =>
    have hwrap : (if readPos ≥ size then 0 else readPos) = readPos % size := by
      split
      · next hge =>
        obtain rfl : readPos = size := by omega
        rw [Nat.mod_self]
      · next hlt => rw [Nat.mod_eq_of_lt (by omega)]
    rw [Ring.indices_succ, readIndices, hwrap]
    rw [ih (Nat.mod_lt _ hsize)]

theorem Holds.get (h : Holds size o text) : get size o = String.ofList text := by
  unfold IpcCmdOutput.get
  rw [readIndices_eq (Nat.one_le_of_lt h.read) _ h.read.le, h.readable, h.content.read]

/-- **What a full ring gives.** It is what the ring keeps, its end first. -/
theorem HoldsLast.rotate_get (h : HoldsLast size o text) (hfull : size ≤ text.length) :
    (get size o).toList.rotate text.length = text.drop (text.length - size) := by
  have hread : o.readable = size := h.readable.trans (Nat.min_eq_right hfull)
  unfold IpcCmdOutput.get
  rw [String.toList_ofList, readIndices_eq (Nat.one_le_of_lt h.read) _ h.read.le, hread]
  exact h.content.rotate_read hfull

theorem Bounded.writeIndices_lt (h : Bounded size o) {cs : List Char} {i : Nat}
    (hi : i ∈ writeIndices size cs o) : i < size := by
  induction cs generalizing o with
  | nil => cases hi
  | cons c cs ih =>
    rcases List.mem_cons.mp hi with rfl | hi
    · exact h.write
    · exact ih (h.put c) hi

/-- Whatever has been appended, no operation leaves the ring. -/
theorem Bounded.indices_lt (h : Bounded size o) {op : Op} {i : Nat}
    (hi : i ∈ indices size o op) : i < size := by
  cases op with
  | append line => exact h.writeIndices_lt hi
  | get =>
    have hsize : 1 ≤ size := Nat.one_le_of_lt h.read
    unfold indices at hi
    rw [readIndices_eq hsize _ h.read.le] at hi
    exact Ring.indices_lt hsize hi
  | clear => cases hi

end IpcCmdOutput

/-! ## The two outputs -/

namespace BaseOutput

variable {size : Nat} {ops : List Op}

theorem Fits.init {op : Op} (h : Fits size (ops ++ [op])) : Fits size ops := fun mid hm hc =>
  h mid (hm.trans (List.prefix_append _ _).isInfix) hc

theorem not_mem_sinceClear : Op.clear ∉ sinceClear ops := fun h => by
  have := List.mem_rtakeWhile_imp h
  simp at this

theorem Fits.sinceClear (h : Fits size ops) :
    ((sinceClear ops).flatMap Op.chars).length ≤ size :=
  h _ (List.rtakeWhile_suffix _ _).isInfix not_mem_sinceClear

theorem sinceClear_append {op : Op} (h : op ≠ .clear) :
    BaseOutput.sinceClear (ops ++ [op]) = BaseOutput.sinceClear ops ++ [op] :=
  List.rtakeWhile_concat_pos _ _ _ (by simpa using h)

theorem sinceClear_clear : BaseOutput.sinceClear (ops ++ [.clear]) = [] :=
  List.rtakeWhile_concat_neg _ _ _ (by simp)

/-- What an operation adds to what has been appended since the last clear. -/
theorem flatMap_sinceClear (ops : List Op) {op : Op} (h : op ≠ .clear) :
    (BaseOutput.sinceClear (ops ++ [op])).flatMap Op.chars =
      (BaseOutput.sinceClear ops).flatMap Op.chars ++ op.chars := by
  rw [sinceClear_append h, List.flatMap_append, List.flatMap_singleton]

/-- The ring keeps the end of what has been appended since the last clear. -/
theorem holdsLast_after (hsize : 1 ≤ size) (ops : List Op) :
    IpcCmdOutput.HoldsLast size ((IpcCmdOutput.base size).after ops)
      ((BaseOutput.sinceClear ops).flatMap Op.chars) := by
  induction ops using List.reverseRecOn with
  | nil => exact IpcCmdOutput.init_holdsLast hsize
  | append_singleton ops op ih =>
    unfold after at ih ⊢
    rw [List.foldl_append]
    cases op with
    | append line =>
      rw [flatMap_sinceClear ops (by simp)]
      exact ih.append line
    | get =>
      rw [flatMap_sinceClear ops (by simp)]
      exact (List.append_nil _).symm ▸ ih
    | clear =>
      rw [sinceClear_clear]
      exact ih.clear

/-- No more is counted as readable than fits. -/
theorem readable_after_le (size : Nat) (ops : List Op) :
    ((IpcCmdOutput.base size).after ops).readable ≤ size := by
  have hput (o : IpcCmdOutput) (c : Char) (h : o.readable ≤ size) :
      (IpcCmdOutput.put size o c).readable ≤ size := by
    unfold IpcCmdOutput.put
    simp only
    split <;> omega
  have hputs (cs : List Char) (o : IpcCmdOutput) (h : o.readable ≤ size) :
      (cs.foldl (IpcCmdOutput.put size) o).readable ≤ size := by
    induction cs generalizing o with
    | nil => exact h
    | cons c cs ih => exact ih _ (hput o c h)
  induction ops using List.reverseRecOn with
  | nil => exact Nat.zero_le size
  | append_singleton ops op ih =>
    unfold after at ih ⊢
    rw [List.foldl_append]
    cases op with
    | append line => exact hputs _ _ ih
    | get => exact ih
    | clear => exact Nat.zero_le size

/-- The string is what has been appended since the last clear. -/
theorem output_after (ops : List Op) : (CmdOutput.base.after ops).output =
    String.ofList ((BaseOutput.sinceClear ops).flatMap Op.chars) := by
  induction ops using List.reverseRecOn with
  | nil => rfl
  | append_singleton ops op ih =>
    unfold after at ih ⊢
    rw [List.foldl_append]
    cases op with
    | append line =>
      rw [flatMap_sinceClear ops (by simp)]
      show _ ++ line ++ "\n" = _
      rw [ih]
      simp [Op.chars, String.ofList_append, String.append_assoc]
    | get =>
      rw [flatMap_sinceClear ops (by simp)]
      exact (List.append_nil _).symm ▸ ih
    | clear =>
      rw [sinceClear_clear]
      rfl

/-- **The ring is as good as the string.** When at most `size` characters are appended between
two clears, every `get` of `IpcCmdOutput` returns what `CmdOutput` returns, the lines appended
since the last clear, each with its newline; and no index is `size` or more. -/
theorem gets_agree (hsize : 1 ≤ size) (h : Fits size ops) :
    (∀ pre post, ops = pre ++ .get :: post →
      IpcCmdOutput.get size ((IpcCmdOutput.base size).after pre) =
          CmdOutput.get (CmdOutput.base.after pre) ∧
        CmdOutput.get (CmdOutput.base.after pre) =
          String.ofList ((BaseOutput.sinceClear pre).flatMap Op.chars)) ∧
    ∀ pre op post, ops = pre ++ op :: post →
      ∀ i ∈ IpcCmdOutput.indices size ((IpcCmdOutput.base size).after pre) op, i < size := by
  constructor
  · rintro pre post rfl
    have hpre : Fits size pre := fun mid hm hc =>
      h mid (hm.trans (List.prefix_append _ _).isInfix) hc
    have hipc := (holdsLast_after hsize pre).holds hpre.sinceClear
    have hcmd := output_after pre
    exact ⟨hipc.get.trans hcmd.symm, hcmd⟩
  · intro pre op post _ i hi
    exact (holdsLast_after hsize pre).indices_lt hi

/-- A ring that is filled to the last cell twice. -/
theorem gets_agree_full : IpcCmdOutput.get 3
    ((IpcCmdOutput.base 3).after [.append "ab", .clear, .append "cd"]) = "cd\n" := by
  have hfit : Fits 3 [.append "ab", .clear, .append "cd", .get] := by decide
  obtain ⟨hget, htext⟩ := (gets_agree (by decide) hfit).1
    [.append "ab", .clear, .append "cd"] [] rfl
  exact (hget.trans htext).trans rfl

/-! ## A ring that overflows -/

/-- The last `size` of the characters appended since the last clear. -/
def lastChars (size : Nat) (ops : List Op) : List Char :=
  let text := (BaseOutput.sinceClear ops).flatMap Op.chars
  text.drop (text.length - size)

theorem length_lastChars (hover : size ≤ ((BaseOutput.sinceClear ops).flatMap Op.chars).length) :
    (lastChars size ops).length = size := by
  show (List.drop _ _).length = size
  rw [List.length_drop]
  omega

/-- What `get` gives must be moved on by as many characters as have been appended. -/
theorem rotate_get (ops : List Op) (hsize : 1 ≤ size)
    (hover : size ≤ ((BaseOutput.sinceClear ops).flatMap Op.chars).length) :
    (IpcCmdOutput.get size ((IpcCmdOutput.base size).after ops)).toList.rotate
      (((BaseOutput.sinceClear ops).flatMap Op.chars).length % size) = lastChars size ops := by
  have hrot := (holdsLast_after hsize ops).rotate_get hover
  have hlen :
      (IpcCmdOutput.get size ((IpcCmdOutput.base size).after ops)).toList.length = size := by
    rw [← List.length_rotate, hrot]
    exact length_lastChars hover
  have hmod := List.rotate_mod
    (IpcCmdOutput.get size ((IpcCmdOutput.base size).after ops)).toList
    ((BaseOutput.sinceClear ops).flatMap Op.chars).length
  rw [hlen] at hmod
  exact hmod.trans hrot

/-- **What an overflowing ring gives.** It is the last `size` characters in their order exactly if
moving the first `n` modulo `size` of them behind the others changes nothing. -/
theorem get_last_iff (size : Nat) (ops : List Op)
    (hover : size < ((BaseOutput.sinceClear ops).flatMap Op.chars).length) :
    (IpcCmdOutput.get size ((IpcCmdOutput.base size).after ops)).toList = lastChars size ops ↔
      (lastChars size ops).rotate (((BaseOutput.sinceClear ops).flatMap Op.chars).length % size) =
        lastChars size ops := by
  rcases Nat.eq_zero_or_pos size with rfl | hsize
  · have hnil : lastChars 0 ops = [] := List.length_eq_zero_iff.mp (length_lastChars hover.le)
    have hget : IpcCmdOutput.get 0 ((IpcCmdOutput.base 0).after ops) = "" := by
      unfold IpcCmdOutput.get
      rw [Nat.le_zero.mp (readable_after_le 0 ops)]
      rfl
    rw [hget, hnil, List.rotate_nil]
    exact iff_of_true rfl rfl
  · have hrot := rotate_get ops hsize hover.le
    constructor
    · intro h
      rwa [h] at hrot
    · intro h
      exact List.rotate_injective _ (hrot.trans h.symm)

/-- A ring that is filled twice. -/
theorem get_last_twice : (IpcCmdOutput.get 3
    ((IpcCmdOutput.base 3).after [.append "ab", .append "cd"])).toList = ['c', 'd', '\n'] :=
  (get_last_iff 3 [.append "ab", .append "cd"] (by decide)).mpr (by decide)

/-- One line that fills the ring, but for its newline. -/
def fullLine (size : Nat) : List Op := [.append (String.ofList (List.replicate size 'a'))]

theorem text_fullLine (size : Nat) : (BaseOutput.sinceClear (fullLine size)).flatMap Op.chars =
    List.replicate size 'a' ++ ['\n'] := by
  show (BaseOutput.sinceClear ([] ++ [.append _])).flatMap Op.chars = _
  rw [flatMap_sinceClear [] (by simp)]
  show [] ++ ((String.ofList (List.replicate size 'a')).toList ++ ['\n']) = _
  rw [String.toList_ofList, List.nil_append]

theorem fullLine_rotated (size : Nat) : (IpcCmdOutput.get (size + 2)
    ((IpcCmdOutput.base (size + 2)).after (fullLine (size + 2)))).toList ≠
      lastChars (size + 2) (fullLine (size + 2)) := by
  intro h
  have htext := text_fullLine (size + 2)
  have hlength : (List.replicate (size + 2) 'a' ++ ['\n']).length = size + 3 := by simp
  have hrot := rotate_get (fullLine (size + 2)) (show 1 ≤ size + 2 by omega)
    (by rw [htext, hlength]; omega)
  have hlast : lastChars (size + 2) (fullLine (size + 2)) =
      'a' :: (List.replicate size 'a' ++ ['\n']) := by
    unfold lastChars
    simp only [htext, hlength]
    simp [List.replicate_succ]
  have hone : (size + 3) % (size + 2) = 1 := by
    rw [Nat.add_mod_left (size + 2) 1, Nat.mod_eq_of_lt (by omega)]
  rw [h, htext, hlength, hone, hlast, List.rotate_cons_succ, List.rotate_zero] at hrot
  -- the newline is in front of the last character
  have hend := congrArg List.getLast? hrot
  rw [List.getLast?_concat, ← List.cons_append, List.getLast?_concat] at hend
  exact absurd (Option.some.inj hend) (by decide)

/-- The newline of a line of 2000000 characters comes out in front of the line's end. -/
theorem get_last_full : ¬ ∀ ops : List Op,
    2000000 < ((BaseOutput.sinceClear ops).flatMap Op.chars).length →
      (IpcCmdOutput.get 2000000 ((IpcCmdOutput.base 2000000).after ops)).toList =
        lastChars 2000000 ops := by
  intro h
  refine fullLine_rotated 1999998 (h (fullLine 2000000) ?_)
  rw [text_fullLine, List.length_append, List.length_replicate]
  exact Nat.lt_succ_self _

end BaseOutput

end GameAP
