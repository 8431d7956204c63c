import GameAP.Functions.GString
import GameAP.Lib.Table

/-!
# The counters of the processors

`get_cpu_load` reads `128` bytes for each processor, as an `unsigned short`, into a buffer of
`10240` bytes, and takes what is in the buffer up to the first NUL for the text of `/proc/stat`.
`cpuLoadRight_iff`: the counters of all processors are stored if their lines fit into these bytes,
and if what stands behind them in the buffer can be read as well.
-/

namespace GameAP

open Lib

structure CpuCounters where
  user : UInt64
  nice : UInt64
  system : UInt64
  idle : UInt64
  deriving DecidableEq, Repr

namespace CpuLoad

/-! ## `get_cpu_load` -/

/-- The buffer, with what was there before. -/
structure Buffer where
  bytes : List Char
  size : bytes.length = 10240

/-- What the code does not check. -/
inductive Fault where
  /-- more is read than the buffer holds -/
  | overflow
  /-- there is no NUL in the buffer -/
  | unterminated
  /-- a line has fewer than five fields -/
  | outOfRange
  deriving DecidableEq, Repr

def readSize (cpuCount : Nat) : Nat := 128 * cpuCount % 2 ^ 16

def isBreak (c : Char) : Bool := c == '\n' || c == '\r'

def splitLines (text : List Char) : List (List Char) := text.splitOnP isBreak

/-- In base 10; what is too large is cut to `ULONG_MAX`. -/
def strtoul (field : List Char) : UInt64 :=
  let (neg, ds) := readSign (field.dropWhile isSpace)
  let v := digitsVal (ds.takeWhile Char.isDigit)
  if v < 2 ^ 64 then if neg then -UInt64.ofNat v else UInt64.ofNat v
  else UInt64.ofNat (2 ^ 64 - 1)

def readLine (line : List Char) : Except Fault CpuCounters :=
  match line.splitOn ' ' with
  | _ :: user :: nice :: system :: idle :: _ =>
    .ok
      { user := strtoul user, nice := strtoul nice, system := strtoul system
        idle := strtoul idle }
  | _ => .error .outOfRange

/-- The loop over the lines. -/
def readLines (cpuCount : Nat) : List (List Char) → Nat → Table Nat CpuCounters →
    Except Fault (Table Nat CpuCounters)
  | [], _, cpuload => .ok cpuload
  | line :: lines, cpuid, cpuload =>
    if cpuid > cpuCount then .ok cpuload
    else if line.head? ≠ some 'c' then .ok cpuload
    else
      match readLine line with
      | .error e => .error e
      | .ok counters =>
        readLines cpuCount lines ((cpuid + 1) % 2 ^ 16) (cpuload.insert cpuid counters)

/-- The buffer when `text` has been read into it. -/
def fill (cpuCount : Nat) (text : List Char) (buf : Buffer) : List Char :=
  text.take (readSize cpuCount) ++ buf.bytes.drop (text.take (readSize cpuCount)).length

/-- The counters that are stored for the processors below `cpu_count`. -/
def getCpuLoad (cpuCount : Nat) (text : List Char) (buf : Buffer) :
    Except Fault (List CpuCounters) :=
  if (text.take (readSize cpuCount)).length > 10240 then .error .overflow
  else if '\x00' ∉ fill cpuCount text buf then .error .unterminated
  else
    let lines := splitLines ((fill cpuCount text buf).takeWhile (· ≠ '\x00'))
    match readLines cpuCount (lines.drop 1) 0 ∅ with
    | .error e => .error e
    | .ok cpuload =>
      .ok ((List.range cpuCount).map fun i => (cpuload.lookup i).getD ⟨0, 0, 0, 0⟩)

/-! ## `/proc/stat` -/

/-- A character within a line. -/
def isPlain (c : Char) : Bool := !isBreak c && c != '\x00'

def digits (n : Nat) : List Char := Nat.toDigits 10 n

/-- The line of a processor, with what follows the four counters. -/
structure CpuLine where
  counters : CpuCounters
  more : List Char
  plain : ∀ c ∈ more, isPlain c = true
  separate : ∀ c, more.head? = some c → c = ' '

def CpuLine.text (l : CpuLine) (i : Nat) : List Char :=
  'c' :: 'p' :: 'u' :: digits i ++ ' ' :: (digits l.counters.user.toNat ++
    ' ' :: (digits l.counters.nice.toNat ++ ' ' :: (digits l.counters.system.toNat ++
      ' ' :: (digits l.counters.idle.toNat ++ l.more))))

structure ProcStat where
  /-- The first line, behind `cpu`. -/
  aggregate : List Char
  cpus : List CpuLine
  rest : List Char
  plain : ∀ c ∈ aggregate, isPlain c = true
  count : 0 < cpus.length ∧ cpus.length < 2 ^ 16

def lineTexts : Nat → List CpuLine → List (List Char)
  | _, [] => []
  | i, l :: ls => l.text i :: lineTexts (i + 1) ls

/-- The lines up to those of the processors, each with its end. -/
def ProcStat.head (s : ProcStat) : List Char :=
  (('c' :: 'p' :: 'u' :: s.aggregate) :: lineTexts 0 s.cpus).flatMap fun l => l ++ ['\n']

def ProcStat.text (s : ProcStat) : List Char := s.head ++ s.rest

variable {l : CpuLine} {ls : List CpuLine} {stat : ProcStat} {buf : Buffer} {n i k : Nat}
  {cpuload load : Table Nat CpuCounters} {tail : List Char} {lines : List (List Char)}

/-! ## One line -/

theorem digits_spec (n : Nat) : (∀ c ∈ digits n, c.isDigit = true) ∧ digits n ≠ [] ∧
    digitsVal (digits n) = n := toDigits_spec n

theorem isPlain_of_isDigit {c : Char} (h : c.isDigit = true) : isPlain c = true := by
  by_contra hc
  simp only [isPlain, isBreak, Bool.and_eq_true, Bool.not_eq_true', Bool.or_eq_false_iff,
    beq_eq_false_iff_ne, bne_iff_ne, not_and_or, not_not] at hc
  rcases hc with (rfl | rfl) | rfl <;> exact absurd h (by decide)

theorem space_notMem_digits (n : Nat) : ' ' ∉ digits n := fun h =>
  absurd ((digits_spec n).1 ' ' h) (by decide)

/-- A counter reads back. -/
theorem strtoul_digits (v : UInt64) : strtoul (digits v.toNat) = v := by
  obtain ⟨hd, hne, hval⟩ := digits_spec v.toNat
  have hspace := dropWhile_isSpace_digits hd hne []
  rw [List.append_nil] at hspace
  have hsign : readSign (digits v.toNat) = (false, digits v.toNat) := by
    unfold readSign
    split
    · next h => exact absurd (hd '-' (h ▸ List.mem_cons_self)) (by decide)
    · next h => exact absurd (hd '+' (h ▸ List.mem_cons_self)) (by decide)
    · rfl
  unfold strtoul
  simp only [hspace, hsign, List.takeWhile_eq_self_iff.mpr hd, hval, if_pos v.toNat_lt,
    Bool.false_eq_true, if_false, UInt64.ofNat_toNat]

/-- The field of the last counter, with the fields behind it. -/
theorem splitOn_idle (v : Nat) (hseparate : ∀ c, tail.head? = some c → c = ' ') :
    ∃ fields, (digits v ++ tail).splitOn ' ' = digits v :: fields := by
  cases tail with
  | nil =>
    rw [List.append_nil]
    exact ⟨[], List.splitOn_eq_singleton (space_notMem_digits v)⟩
  | cons c tail =>
    obtain rfl := hseparate c rfl
    exact ⟨_, List.splitOn_append_cons_self_of_not_mem (space_notMem_digits v) _⟩

theorem readLine_text (l : CpuLine) (i : Nat) : readLine (l.text i) = .ok l.counters := by
  obtain ⟨fields, hidle⟩ := splitOn_idle l.counters.idle.toNat l.separate
  have hname : ' ' ∉ 'c' :: 'p' :: 'u' :: digits i := by
    simp [space_notMem_digits i]
  have hsplit : (l.text i).splitOn ' ' = ('c' :: 'p' :: 'u' :: digits i) ::
      digits l.counters.user.toNat :: digits l.counters.nice.toNat ::
        digits l.counters.system.toNat :: digits l.counters.idle.toNat :: fields := by
    unfold CpuLine.text
    rw [List.splitOn_append_cons_self_of_not_mem hname,
      List.splitOn_append_cons_self_of_not_mem (space_notMem_digits _),
      List.splitOn_append_cons_self_of_not_mem (space_notMem_digits _),
      List.splitOn_append_cons_self_of_not_mem (space_notMem_digits _), hidle]
  unfold readLine
  rw [hsplit]
  simp only [strtoul_digits]

theorem isPlain_text (l : CpuLine) (i : Nat) : ∀ c ∈ l.text i, isPlain c = true := by
  have hdigits : ∀ n, ∀ c ∈ digits n, isPlain c = true := fun n c hc =>
    isPlain_of_isDigit ((digits_spec n).1 c hc)
  intro c hc
  simp only [CpuLine.text, List.mem_cons, List.mem_append] at hc
  rcases hc with (rfl | rfl | rfl | hc) | rfl | hc | rfl | hc | rfl | hc | rfl | hc | hc
  all_goals first
    | decide
    | exact hdigits _ c hc
    | exact l.plain c hc

/-! ## All lines -/

theorem splitLines_cons {line : List Char} (h : ∀ c ∈ line, isPlain c = true) :
    splitLines (line ++ '\n' :: tail) = line :: splitLines tail := by
  refine List.splitOnP_append_cons_of_forall_mem (fun c hc => ?_) '\n' rfl _
  have hplain := h c hc
  rw [isPlain, Bool.and_eq_true, Bool.not_eq_true'] at hplain
  exact hplain.1

theorem isPlain_lineTexts (ls : List CpuLine) (k : Nat) :
    ∀ line ∈ lineTexts k ls, ∀ c ∈ line, isPlain c = true := by
  induction ls generalizing k with
  | nil => exact fun _ h => nomatch h
  | cons l ls ih =>
    rw [lineTexts, List.forall_mem_cons]
    exact ⟨isPlain_text l k, ih (k + 1)⟩

theorem splitLines_append (h : ∀ line ∈ lines, ∀ c ∈ line, isPlain c = true) :
    splitLines (lines.flatMap (fun line => line ++ ['\n']) ++ tail) =
      lines ++ splitLines tail := by
  induction lines with
  | nil => rfl
  | cons line lines ih =>
    obtain ⟨hline, hlines⟩ := List.forall_mem_cons.mp h
    rw [List.flatMap_cons, List.append_assoc, List.append_assoc, List.singleton_append,
      splitLines_cons hline, ih hlines, List.cons_append]

def insertAll : Nat → List CpuLine → Table Nat CpuCounters → Table Nat CpuCounters
  | _, [], cpuload => cpuload
  | k, l :: ls, cpuload => insertAll (k + 1) ls (cpuload.insert k l.counters)

theorem lookup_insertAll_lt (h : i < k) :
    (insertAll k ls cpuload).lookup i = cpuload.lookup i := by
  induction ls generalizing k cpuload with
  | nil => rfl
  | cons l ls ih =>
    rw [insertAll, ih (Nat.lt_succ_of_lt h), AList.lookup_insert_ne (Nat.ne_of_lt h)]

theorem lookup_insertAll (h : i < ls.length) :
    (insertAll k ls cpuload).lookup (k + i) = some ls[i].counters := by
  induction ls generalizing k cpuload i with
  | nil => exact absurd h (Nat.not_lt_zero i)
  | cons l ls ih =>
    rw [insertAll]
    cases i with
    | zero =>
      rw [Nat.add_zero, lookup_insertAll_lt (Nat.lt_succ_self k), AList.lookup_insert]
      rfl
    | succ i =>
      rw [← Nat.succ_add_eq_add_succ]
      exact ih (Nat.lt_of_succ_lt_succ h)

/-- The lines of the processors are all taken. -/
theorem readLines_lineTexts (k : Nat) (ls : List CpuLine) (cpuload : Table Nat CpuCounters)
    (lines : List (List Char)) (hcount : k + ls.length ≤ n) (hn : n < 2 ^ 16) :
    readLines n (lineTexts k ls ++ lines) k cpuload =
      readLines n lines (k + ls.length) (insertAll k ls cpuload) := by
  induction ls generalizing k cpuload with
  | nil => rfl
  | cons l ls ih =>
    rw [List.length_cons] at hcount
    have hid : (k + 1) % 2 ^ 16 = k + 1 := Nat.mod_eq_of_lt (by omega)
    rw [lineTexts, List.cons_append, readLines, if_neg (by omega),
      if_neg (fun h => h rfl), readLine_text]
    simp only [hid]
    rw [ih (k + 1) _ (by omega), List.length_cons, insertAll]
    congr 1
    omega

/-- The first line behind those of the processors does not begin with `c`, or it has the fields that
are read. -/
def NextLineRead (behind : List Char) : Prop :=
  ∀ line, (splitLines (behind.takeWhile (· ≠ '\x00'))).head? = some line →
    line.head? = some 'c' → (readLine line).toBool = true

/-- Behind the lines of the processors at most one other line is taken. -/
theorem readLines_behind (behind : List Char) (cpuload : Table Nat CpuCounters)
    (hn : n + 1 < 2 ^ 16) :
    (NextLineRead behind → ∃ load, (∀ i < n, load.lookup i = cpuload.lookup i) ∧
        readLines n (splitLines (behind.takeWhile (· ≠ '\x00'))) n cpuload = .ok load) ∧
      (¬NextLineRead behind → ∃ e,
        readLines n (splitLines (behind.takeWhile (· ≠ '\x00'))) n cpuload = .error e) := by
  unfold NextLineRead
  obtain ⟨line, lines, hlines⟩ := List.exists_cons_of_ne_nil
    (List.splitOnP_ne_nil isBreak (behind.takeWhile (· ≠ '\x00')))
  rw [splitLines, hlines, readLines, if_neg (Nat.lt_irrefl n)]
  by_cases hc : line.head? = some 'c'
  · rw [if_neg (not_not.mpr hc)]
    cases hread : readLine line with
    | error e =>
      refine ⟨fun h => ?_, fun _ => ⟨e, rfl⟩⟩
      have htrue := h line rfl hc
      rw [hread] at htrue
      cases htrue
    | ok counters =>
      have hid : (n + 1) % 2 ^ 16 = n + 1 := Nat.mod_eq_of_lt hn
      refine ⟨fun _ => ⟨cpuload.insert n counters, fun i hi => ?_, ?_⟩, fun h => ?_⟩
      · exact AList.lookup_insert_ne (Nat.ne_of_lt hi)
      · simp only [hid]
        cases lines with
        | nil => rfl
        | cons line' lines => exact if_pos (Nat.lt_succ_self n)
      · refine absurd (fun line' hline' _ => ?_) h
        obtain rfl := Option.some.inj hline'
        rw [hread]
        rfl
  · rw [if_pos hc]
    refine ⟨fun _ => ⟨cpuload, fun _ _ => rfl, rfl⟩, fun h => ?_⟩
    refine absurd (fun line' hline' hc' => ?_) h
    obtain rfl := Option.some.inj hline'
    exact absurd hc' hc

/-! ## The buffer -/

def ProcStat.cpuCount (s : ProcStat) : Nat := s.cpus.length

/-- What stands in the buffer behind the lines of the processors. -/
def behind (stat : ProcStat) (buf : Buffer) : List Char :=
  stat.rest.take (readSize stat.cpuCount - stat.head.length) ++
    buf.bytes.drop (min (readSize stat.cpuCount) stat.text.length)

/-- The lines are read whole into the buffer, which ends them, and what follows can be read. -/
structure Fits (stat : ProcStat) (buf : Buffer) : Prop where
  covers : stat.head.length ≤ readSize stat.cpuCount
  within : min (readSize stat.cpuCount) stat.text.length ≤ 10240
  terminated : '\x00' ∈ behind stat buf
  next : NextLineRead (behind stat buf)

/-- What should be read and stored. -/
structure CpuLoadRight (stat : ProcStat) (buf : Buffer) : Prop where
  within : (stat.text.take (readSize stat.cpuCount)).length ≤ 10240
  covers : stat.head.length ≤ (stat.text.take (readSize stat.cpuCount)).length
  stored : getCpuLoad stat.cpuCount stat.text buf = .ok (stat.cpus.map CpuLine.counters)

theorem fill_eq (hcovers : stat.head.length ≤ readSize stat.cpuCount) :
    fill stat.cpuCount stat.text buf = stat.head ++ behind stat buf := by
  unfold fill behind
  rw [List.length_take]
  have htake : stat.text.take (readSize stat.cpuCount) =
      stat.head ++ stat.rest.take (readSize stat.cpuCount - stat.head.length) := by
    unfold ProcStat.text
    rw [List.take_append, List.take_of_length_le hcovers]
  rw [htake, List.append_assoc]

theorem isPlain_lines (stat : ProcStat) : ∀ line ∈ ('c' :: 'p' :: 'u' :: stat.aggregate) ::
    lineTexts 0 stat.cpus, ∀ c ∈ line, isPlain c = true := by
  refine List.forall_mem_cons.mpr ⟨fun c hc => ?_, isPlain_lineTexts _ _⟩
  simp only [List.mem_cons] at hc
  rcases hc with rfl | rfl | rfl | hc
  · decide
  · decide
  · decide
  · exact stat.plain c hc

theorem nul_notMem_head (stat : ProcStat) : ∀ c ∈ stat.head, c ≠ '\x00' := by
  intro c hc
  obtain ⟨line, hline, hc⟩ := List.mem_flatMap.mp hc
  rcases List.mem_append.mp hc with hc | hc
  · have hplain := isPlain_lines stat line hline c hc
    rw [isPlain, Bool.and_eq_true, bne_iff_ne] at hplain
    exact hplain.2
  · obtain rfl := List.mem_singleton.mp hc
    decide

theorem splitLines_head (stat : ProcStat) (tail : List Char) :
    splitLines (stat.head ++ tail) =
      ('c' :: 'p' :: 'u' :: stat.aggregate) :: lineTexts 0 stat.cpus ++ splitLines tail :=
  splitLines_append (isPlain_lines stat)

theorem length_lineTexts (ls : List CpuLine) (k : Nat) : (lineTexts k ls).length = ls.length := by
  induction ls generalizing k with
  | nil => rfl
  | cons l ls ih => rw [lineTexts, List.length_cons, List.length_cons, ih]

theorem cpuCount_lt_head (stat : ProcStat) : stat.cpuCount < stat.head.length := by
  have hlines : ∀ lines : List (List Char),
      lines.length ≤ (lines.flatMap fun line => line ++ ['\n']).length := by
    intro lines
    induction lines with
    | nil => exact Nat.le_refl 0
    | cons line lines ih =>
      rw [List.flatMap_cons, List.length_append, List.length_append, List.length_cons,
        List.length_singleton]
      omega
  have hle := hlines (('c' :: 'p' :: 'u' :: stat.aggregate) :: lineTexts 0 stat.cpus)
  rw [List.length_cons, length_lineTexts] at hle
  exact hle

/-- The counters of the lines, as they are stored. -/
theorem map_lookup_insertAll (h : ∀ i < ls.length, load.lookup i = (insertAll 0 ls ∅).lookup i) :
    (List.range ls.length).map (fun i => (load.lookup i).getD ⟨0, 0, 0, 0⟩) =
      ls.map CpuLine.counters := by
  refine List.ext_getElem (by simp) fun i hi hi' => ?_
  rw [List.length_map] at hi'
  have hlookup : (insertAll 0 ls ∅).lookup (0 + i) = some ls[i].counters := lookup_insertAll hi'
  rw [Nat.zero_add, ← h i hi'] at hlookup
  rw [List.getElem_map, List.getElem_range, hlookup, List.getElem_map]
  rfl

theorem drop_splitLines (hcovers : stat.head.length ≤ readSize stat.cpuCount) :
    (splitLines ((fill stat.cpuCount stat.text buf).takeWhile (· ≠ '\x00'))).drop 1 =
      lineTexts 0 stat.cpus ++
        splitLines ((behind stat buf).takeWhile (· ≠ '\x00')) := by
  have hhead : ∀ c ∈ stat.head, decide (c ≠ '\x00') = true := fun c hc =>
    decide_eq_true (nul_notMem_head stat c hc)
  rw [fill_eq hcovers, List.takeWhile_append_of_pos hhead, splitLines_head]
  rfl

/-- The loop over what is in the buffer. -/
theorem readLines_fill (buf : Buffer) (hcovers : stat.head.length ≤ readSize stat.cpuCount)
    (hfew : stat.cpuCount + 1 < 2 ^ 16) :
    (NextLineRead (behind stat buf) → ∃ load, readLines stat.cpuCount
        ((splitLines ((fill stat.cpuCount stat.text buf).takeWhile (· ≠ '\x00'))).drop 1) 0 ∅ =
          .ok load ∧
        (List.range stat.cpuCount).map (fun i => (load.lookup i).getD ⟨0, 0, 0, 0⟩) =
          stat.cpus.map CpuLine.counters) ∧
      (¬NextLineRead (behind stat buf) → ∃ e, readLines stat.cpuCount
        ((splitLines ((fill stat.cpuCount stat.text buf).takeWhile (· ≠ '\x00'))).drop 1) 0 ∅ =
          .error e) := by
  have hlines := readLines_lineTexts 0 stat.cpus ∅
    (splitLines ((behind stat buf).takeWhile (· ≠ '\x00')))
    (Nat.le_of_eq (Nat.zero_add _)) stat.count.2
  rw [Nat.zero_add] at hlines
  rw [drop_splitLines hcovers]
  unfold ProcStat.cpuCount at hfew ⊢
  rw [hlines]
  obtain ⟨hread, hfault⟩ := readLines_behind (behind stat buf)
    (insertAll 0 stat.cpus ∅) hfew
  refine ⟨fun hnext => ?_, hfault⟩
  obtain ⟨load, hsame, hload⟩ := hread hnext
  exact ⟨load, hload, map_lookup_insertAll hsame⟩

/-- **The counters of the processors.** For every number of processors that fits `cpu_count`, all
counters and whatever was in the buffer before. -/
theorem cpuLoadRight_iff (stat : ProcStat) (buf : Buffer) :
    CpuLoadRight stat buf ↔ Fits stat buf := by
  have hcount := cpuCount_lt_head stat
  constructor
  · rintro ⟨hwithin, hcovers, hstored⟩
    rw [List.length_take] at hwithin hcovers
    have hsize : stat.head.length ≤ readSize stat.cpuCount := by omega
    unfold getCpuLoad at hstored
    rw [if_neg (by rw [List.length_take]; omega)] at hstored
    have hnul : '\x00' ∈ fill stat.cpuCount stat.text buf := by
      by_contra hnot
      rw [if_pos hnot] at hstored
      cases hstored
    rw [if_neg (not_not.mpr hnul)] at hstored
    refine ⟨hsize, hwithin, ?_, ?_⟩
    · rw [fill_eq hsize] at hnul
      exact (List.mem_append.mp hnul).resolve_left fun hmem => nul_notMem_head stat _ hmem rfl
    · by_contra hnext
      obtain ⟨e, he⟩ := (readLines_fill buf hsize (by omega)).2 hnext
      simp only [he] at hstored
      cases hstored
  · rintro ⟨hsize, hwithin, hterminated, hnext⟩
    have htext : stat.head.length ≤ stat.text.length := by
      rw [ProcStat.text, List.length_append]
      omega
    refine ⟨by rwa [List.length_take], by rw [List.length_take]; omega, ?_⟩
    obtain ⟨load, hload, hstored⟩ := (readLines_fill buf hsize (by omega)).1 hnext
    have hnul : '\x00' ∈ fill stat.cpuCount stat.text buf := by
      rw [fill_eq hsize]
      exact List.mem_append_right _ hterminated
    unfold getCpuLoad
    rw [if_neg (by rw [List.length_take]; omega), if_neg (not_not.mpr hnul)]
    simp only [hload, hstored]

def zeroBuffer : Buffer where
  bytes := List.replicate 10240 '\x00'
  size := List.length_replicate

def maxCounters : CpuCounters := ⟨-1, -1, -1, -1⟩

/-- One processor, with counters of twenty digits. -/
def wideStat : ProcStat where
  aggregate := (" 18446744073709551615 18446744073709551615" ++
    " 18446744073709551615 18446744073709551615").toList
  cpus := [{ counters := maxCounters, more := [], plain := by simp, separate := by simp }]
  rest := "intr 0\n".toList
  plain := List.all_eq_true.mp (by decide +kernel)
  count := by decide

/-- The lines need more than the 128 bytes that are read. -/
theorem wide_not_right : ¬ ∀ (stat : ProcStat) (buf : Buffer), CpuLoadRight stat buf := by
  intro h
  have hcovers := (h wideStat zeroBuffer).covers
  rw [List.length_take] at hcovers
  have hsize : readSize wideStat.cpuCount = 128 := by decide
  have hhead : wideStat.head.length = 177 := by decide +kernel
  omega

end CpuLoad

end GameAP
