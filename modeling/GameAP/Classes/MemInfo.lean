import GameAP.Classes.CpuLoad
import GameAP.Classes.StatsPeriods
import Mathlib.Data.Finset.Card
import Mathlib.Data.Fintype.Card

/-!
# The memory of the host

`stats_process` reads `1024` bytes of `/proc/meminfo` into a buffer that it neither clears nor
terminates, and splits what it finds up to the next NUL into lines. It stops at the third item it
looks for: `getMemInfo_eq` says that the items are right whatever stands behind their lines, in the
file or in memory. Used and cached memory are kept in the sample, the total in a member that the
next sample overwrites: `sent_ram` says what the requests of a run have of them.
-/

namespace GameAP

open Lib CpuLoad

/-- The items that are looked for. -/
inductive MemKey where
  | memTotal
  | memFree
  | cached
  deriving DecidableEq, Repr

instance : Fintype MemKey where
  elems := {.memTotal, .memFree, .cached}
  complete key := by cases key <;> decide

def MemKey.text : MemKey → List Char
  | .memTotal => "MemTotal:".toList
  | .memFree => "MemFree:".toList
  | .cached => "Cached:".toList

structure MemInfo where
  ramTotal : UInt64
  ramFree : UInt64
  ramCache : UInt64
  itmCount : Nat
  deriving DecidableEq, Repr

namespace MemInfo

def set (value : UInt64) (m : MemInfo) : MemKey → MemInfo
  | .memTotal => { m with ramTotal := value, itmCount := m.itmCount + 1 }
  | .memFree => { m with ramFree := value, itmCount := m.itmCount + 1 }
  | .cached => { m with ramCache := value, itmCount := m.itmCount + 1 }

def get (m : MemInfo) : MemKey → UInt64
  | .memTotal => m.ramTotal
  | .memFree => m.ramFree
  | .cached => m.ramCache

/-- The first item behind the name of the line, if that is the key. -/
def field (key : MemKey) (line : List Char) : Option UInt64 :=
  match line.splitOn ' ' with
  | name :: items => if name = key.text then (items.find? (· ≠ [])).map CpuLoad.strtoul else none
  | [] => none

def readLine (line : List Char) (m : MemInfo) : MemInfo :=
  [MemKey.memTotal, .memFree, .cached].foldl (fun m key =>
    match field key line with
    | some value => m.set value key
    | none => m) m

/-- The loop over the lines. -/
def readLines : List (List Char) → MemInfo → MemInfo
  | [], m => m
  | line :: lines, m =>
    let m := readLine line m
    if m.itmCount ≥ 3 then m else readLines lines m

/-- What is read of the file, if the buffer is followed by `behind`; `ramTotal` is the one of the
last sample, and `ramCache` is what the new one happens to have. -/
def getMemInfo (ramTotal ramCache : UInt64) (text behind : List Char) : MemInfo :=
  readLines (splitLines ((text.take 1024 ++ behind).takeWhile (· ≠ '\x00')))
    { ramTotal, ramFree := 0, ramCache, itmCount := 0 }

/-! ## `/proc/meminfo` -/

/-- A line: a name, blanks, a number and perhaps its unit. -/
structure Entry where
  name : List Char
  blanks : Nat
  value : UInt64
  unit : List Char
  namePlain : ∀ c ∈ name, isPlain c = true ∧ c ≠ ' '
  unitPlain : ∀ c ∈ unit, isPlain c = true
  separate : ∀ c, unit.head? = some c → c = ' '

/-- There is at least one blank. -/
def Entry.text (e : Entry) : List Char :=
  e.name ++ ' ' :: (List.replicate e.blanks ' ' ++ (digits e.value.toNat ++ e.unit))

/-- The lines up to the last one that is looked for, and what follows. -/
structure ProcMeminfo where
  entries : List Entry
  rest : List Char
  nodup : (entries.map Entry.name).Nodup
  keys : ∀ key : MemKey, key.text ∈ entries.map Entry.name

def ProcMeminfo.head (f : ProcMeminfo) : List Char :=
  (f.entries.map Entry.text).flatMap fun line => line ++ ['\n']

def ProcMeminfo.text (f : ProcMeminfo) : List Char := f.head ++ f.rest

def ProcMeminfo.value (f : ProcMeminfo) (key : MemKey) : UInt64 :=
  ((f.entries.find? fun e => e.name = key.text).map Entry.value).getD 0

variable {e : Entry} {es : List Entry} {key : MemKey} {m : MemInfo} {f : ProcMeminfo}

/-! ## One line -/

theorem splitOn_blanks (n v : Nat) {unit : List Char}
    (hseparate : ∀ c, unit.head? = some c → c = ' ') : ∃ fields,
    (List.replicate n ' ' ++ (digits v ++ unit)).splitOn ' ' =
      List.replicate n [] ++ digits v :: fields := by
  induction n with
  | zero => exact splitOn_idle v hseparate
  | succ n ih =>
    obtain ⟨fields, hfields⟩ := ih
    refine ⟨fields, ?_⟩
    rw [List.replicate_succ, List.replicate_succ, List.cons_append, List.cons_append, ← hfields]
    exact List.splitOn_append_cons_self_of_not_mem List.not_mem_nil _

theorem field_text (e : Entry) (key : MemKey) :
    field key e.text = if e.name = key.text then some e.value else none := by
  obtain ⟨fields, hfields⟩ := splitOn_blanks e.blanks e.value.toNat e.separate
  have hname : ' ' ∉ e.name := fun h => (e.namePlain _ h).2 rfl
  have hdigits : digits e.value.toNat ≠ [] := (digits_spec _).2.1
  have hfind : (List.replicate e.blanks [] ++ digits e.value.toNat :: fields).find? (· ≠ []) =
      some (digits e.value.toNat) := by
    rw [List.find?_append, List.find?_replicate]
    simp [hdigits]
  unfold field Entry.text
  rw [List.splitOn_append_cons_self_of_not_mem hname, hfields]
  simp only [hfind, Option.map_some, CpuLoad.strtoul_digits]

theorem MemKey.text_injective {key key' : MemKey} (h : key.text = key'.text) : key = key' := by
  cases key <;> cases key' <;> first | rfl | exact absurd h (by decide)

/-- A line that is looked for. -/
theorem readLine_key (h : e.name = key.text) (m : MemInfo) :
    readLine e.text m = m.set e.value key := by
  have hkey : ∀ key', (e.name = key'.text) = (key = key') := by
    intro key'
    rw [h]
    exact propext ⟨MemKey.text_injective, congrArg MemKey.text⟩
  unfold readLine
  simp only [List.foldl_cons, List.foldl_nil, field_text, hkey]
  cases key <;> rfl

/-- Another line. -/
theorem readLine_other (h : ∀ key : MemKey, e.name ≠ key.text) (m : MemInfo) :
    readLine e.text m = m := by
  unfold readLine
  simp only [List.foldl_cons, List.foldl_nil, field_text, if_neg (h _)]

/-! ## All lines -/

/-- The keys that are still to be found. -/
def missing (es : List Entry) : Finset MemKey :=
  Finset.univ.filter fun key => key.text ∈ es.map Entry.name

theorem mem_missing : key ∈ missing es ↔ key.text ∈ es.map Entry.name := by simp [missing]

theorem missing_cons_key (h : e.name = key.text) (hnot : e.name ∉ es.map Entry.name) :
    missing (e :: es) = insert key (missing es) ∧ key ∉ missing es := by
  refine ⟨?_, fun hmem => hnot (h ▸ mem_missing.mp hmem)⟩
  ext key'
  rw [mem_missing, Finset.mem_insert, mem_missing, List.map_cons, List.mem_cons, h]
  exact or_congr_left ⟨MemKey.text_injective, congrArg MemKey.text⟩

theorem missing_cons_other (h : ∀ key : MemKey, e.name ≠ key.text) :
    missing (e :: es) = missing es := by
  ext key'
  rw [mem_missing, mem_missing, List.map_cons, List.mem_cons]
  exact or_iff_right fun heq => h key' heq.symm

theorem itmCount_set (m : MemInfo) (value : UInt64) (key : MemKey) :
    (m.set value key).itmCount = m.itmCount + 1 := by cases key <;> rfl

theorem get_set (m : MemInfo) (value : UInt64) (key key' : MemKey) :
    (m.set value key).get key' = if key' = key then value else m.get key' := by
  cases key <;> cases key' <;> rfl

/-- By induction over the lines: as many items have been found as are not missing. -/
theorem readLines_entries {value : MemKey → UInt64} (lines : List (List Char))
    (hnodup : (es.map Entry.name).Nodup)
    (hvalue : ∀ e ∈ es, ∀ key : MemKey, e.name = key.text → e.value = value key)
    (hcount : m.itmCount + (missing es).card = 3) (hmore : m.itmCount < 3)
    (hfound : ∀ key, key ∉ missing es → m.get key = value key) :
    ∀ key, (readLines (es.map Entry.text ++ lines) m).get key = value key := by
  induction es generalizing m with
  | nil =>
    have hnone : missing [] = ∅ := rfl
    rw [hnone, Finset.card_empty] at hcount
    omega
  | cons e es ih =>
    obtain ⟨hnot, hnodup⟩ := List.nodup_cons.mp hnodup
    have hrest := fun e' he' => hvalue e' (List.mem_cons_of_mem e he')
    rw [List.map_cons, List.cons_append]
    unfold readLines
    dsimp only
    by_cases hkey : ∃ key : MemKey, e.name = key.text
    · obtain ⟨key, hkey⟩ := hkey
      obtain ⟨hmissing, hnew⟩ := missing_cons_key hkey hnot
      rw [hmissing, Finset.card_insert_of_notMem hnew] at hcount
      have hfound' : ∀ key', key' ∉ missing es → (m.set e.value key).get key' = value key' := by
        intro key' hkey'
        rw [get_set]
        split
        · next heq =>
          rw [heq]
          exact hvalue e List.mem_cons_self key hkey
        · next hne =>
          refine hfound key' ?_
          rw [hmissing, Finset.mem_insert]
          exact not_or.mpr ⟨hne, hkey'⟩
      rw [readLine_key hkey, itmCount_set]
      split
      · next hdone =>
        have hnone : missing es = ∅ := Finset.card_eq_zero.mp (by omega)
        exact fun key' => hfound' key' (by rw [hnone]; exact Finset.notMem_empty key')
      · next hless =>
        exact ih hnodup hrest (by rw [itmCount_set]; omega) (by rw [itmCount_set]; omega) hfound'
    · have hother : ∀ key : MemKey, e.name ≠ key.text := fun key h => hkey ⟨key, h⟩
      rw [missing_cons_other hother] at hcount hfound
      rw [readLine_other hother, if_neg (by omega)]
      exact ih hnodup hrest hcount hmore hfound

/-! ## The file -/

theorem isPlain_text (e : Entry) : ∀ c ∈ e.text, isPlain c = true := by
  intro c hc
  unfold Entry.text at hc
  rw [List.mem_append, List.mem_cons, List.mem_append, List.mem_append] at hc
  rcases hc with hc | rfl | hc | hc | hc
  · exact (e.namePlain c hc).1
  · decide
  · rw [List.eq_of_mem_replicate hc]
    decide
  · exact isPlain_of_isDigit ((digits_spec _).1 c hc)
  · exact e.unitPlain c hc

theorem value_of_mem (he : e ∈ f.entries) (h : e.name = key.text) : e.value = f.value key := by
  have hfind : f.entries.find? (fun e => e.name = key.text) = some e := by
    cases hfound : f.entries.find? (fun e => e.name = key.text) with
    | none => exact absurd (decide_eq_true h) (List.find?_eq_none.mp hfound e he)
    | some e' =>
      have hname : e'.name = key.text := of_decide_eq_true (List.find?_some hfound :)
      rw [List.inj_on_of_nodup_map f.nodup (List.mem_of_find?_eq_some hfound) he
        (hname.trans h.symm)]
  unfold ProcMeminfo.value
  rw [hfind]
  rfl

/-- The items are those of the file, whatever stands behind their lines. -/
theorem getMemInfo_eq (ramTotal ramCache : UInt64) (behind : List Char)
    (hfits : f.head.length ≤ 1024) (key : MemKey) :
    (getMemInfo ramTotal ramCache f.text behind).get key = f.value key := by
  have hplain : ∀ line ∈ f.entries.map Entry.text, ∀ c ∈ line, isPlain c = true := by
    intro line hline
    obtain ⟨e, -, rfl⟩ := List.mem_map.mp hline
    exact isPlain_text e
  have hnul : ∀ c ∈ f.head, decide (c ≠ '\x00') = true := by
    intro c hc
    obtain ⟨line, hline, hc⟩ := List.mem_flatMap.mp hc
    rcases List.mem_append.mp hc with hc | hc
    · have hchar := hplain line hline c hc
      rw [isPlain, Bool.and_eq_true, bne_iff_ne] at hchar
      exact decide_eq_true hchar.2
    · obtain rfl := List.mem_singleton.mp hc
      decide
  have hall : missing f.entries = Finset.univ :=
    Finset.eq_univ_of_forall fun key => mem_missing.mpr (f.keys key)
  unfold getMemInfo ProcMeminfo.text
  rw [List.take_append, List.take_of_length_le hfits, List.append_assoc,
    List.takeWhile_append_of_pos hnul]
  unfold ProcMeminfo.head
  rw [splitLines_append hplain]
  refine readLines_entries _ f.nodup (fun e he key h => value_of_mem he h) ?_
    (Nat.zero_lt_succ 2) ?_ key
  · rw [hall]
    rfl
  · intro key hkey
    rw [hall] at hkey
    exact absurd (Finset.mem_univ key) hkey

/-! ## The samples -/

open DedicatedServer

/-- What `stats_process` reads, with the memory. -/
def measure (m : MemInfo) (i : Measure) : Measure :=
  { i with
    ramTotal := m.ramTotal.toNat
    ramFree := m.ramFree.toNat
    ramCache := m.ramCache.toNat }

/-- The statistics and, not part of the daemon, the files that were read. -/
structure Sampling where
  world : World
  /-- for each sample that was taken its own -/
  files : List ProcMeminfo
  /-- the last one, which also a sample that was given up has read -/
  last : Option ProcMeminfo

inductive Input where
  | statsProcess (f : ProcMeminfo) (ramCache : UInt64) (behind : List Char) (i : Measure)
  | updateDb (i : DbInput)
  | token (r : Rest.TokenReply)

def Sampling.step (s : Sampling) : Input → Sampling
  | .statsProcess f ramCache behind i =>
    let m := getMemInfo (UInt64.ofNat s.world.ds.ramTotal) ramCache f.text behind
    let w := endState (statsProcess (measure m i)) s.world
    if i.now < s.world.ds.lastStatsUpdate + s.world.ds.statsUpdatePeriod then { s with world := w }
    else
      { world := w
        files := s.files ++ if s.world.taken.length < w.taken.length then [f] else []
        last := some f }
  | .updateDb i => { s with world := endState (updateDb i) s.world }
  | .token r => { s with world := endState (onRest (Rest.getToken r)) s.world }

/-- The three lines are within the first `1024` bytes. -/
structure Fits (f : ProcMeminfo) : Prop where
  length : f.head.length ≤ 1024
  free : f.value .memFree ≤ f.value .memTotal

def ReadsFitting (_ : Sampling) : Input → Prop
  | .statsProcess f _ _ _ => Fits f
  | _ => True

/-- The memory in the sample is that of the file. -/
structure Says (f : ProcMeminfo) (sample : DsStats) : Prop where
  ramUs : sample.ramUs = (f.value .memTotal).toNat - (f.value .memFree).toNat
  ramCache : sample.ramCache = (f.value .cached).toNat

/-- What the panel gets of a sample that has read `f`, if `last` was the last file. -/
def ramText (last f : ProcMeminfo) : String :=
  toString ((f.value .memTotal).toNat - (f.value .memFree).toNat) ++ " " ++
    toString (f.value .cached).toNat ++ " " ++ toString (last.value .memTotal).toNat

/-- Each sample has its file, and `ramTotal` is that of the last one. -/
structure Remembered (s : Sampling) : Prop where
  files : List.Forall₂ Says s.files s.world.taken
  kept : s.world.ds.stats <:+ s.world.taken
  read : s.world.taken ≠ [] → ∃ f, s.last = some f
  total : ∀ f, s.last = some f → s.world.ds.ramTotal = (f.value .memTotal).toNat

variable {s : Sampling} {w : World} {i : Measure} {sample : DsStats} {last : ProcMeminfo}

theorem took_measure (hf : Fits f) (ramTotal ramCache : UInt64) (behind : List Char)
    (h : (measure (getMemInfo ramTotal ramCache f.text behind) i).Took sample) : Says f sample := by
  have hmem := getMemInfo_eq ramTotal ramCache behind hf.length
  generalize getMemInfo ramTotal ramCache f.text behind = m at hmem h
  have htotal : m.ramTotal = f.value .memTotal := hmem .memTotal
  have hfree : m.ramFree = f.value .memFree := hmem .memFree
  have hcached : m.ramCache = f.value .cached := hmem .cached
  constructor
  · have hle : (f.value .memFree).toNat ≤ (f.value .memTotal).toNat :=
      UInt64.le_iff_toNat_le.mp hf.free
    have hlt := (f.value .memTotal).toNat_lt
    have hus : sample.ramUs = (m.ramTotal.toNat + 2 ^ 64 - m.ramFree.toNat) % 2 ^ 64 := h.ramUs
    rw [hus, htotal, hfree]
    omega
  · have hcache : sample.ramCache = m.ramCache.toNat := h.ramCache
    rw [hcache, hcached]

/-- A step that takes no sample and reads no file. -/
theorem Remembered.of_eq (h : Remembered s) (htaken : w.taken = s.world.taken)
    (htotal : w.ds.ramTotal = s.world.ds.ramTotal) (hkept : w.ds.stats <:+ s.world.taken) :
    Remembered { s with world := w } where
  files := htaken.symm ▸ h.files
  kept := htaken.symm ▸ hkept
  read hne := h.read (htaken ▸ hne)
  total f hf := htotal.trans (h.total f hf)

theorem remembered_statsProcess (h : Remembered s) (hf : Fits f) (ramCache : UInt64)
    (behind : List Char) (i : Measure) :
    Remembered (s.step (.statsProcess f ramCache behind i)) := by
  have htotal := congrArg UInt64.toNat (getMemInfo_eq (UInt64.ofNat s.world.ds.ramTotal) ramCache
    behind hf.length .memTotal)
  unfold Sampling.step
  dsimp only
  rcases statsProcess_cases (measure (getMemInfo (UInt64.ofNat s.world.ds.ramTotal) ramCache f.text
    behind) i) s.world with ⟨hearly, heq⟩ | ⟨hdue, heq | ⟨sample, htook, heq⟩⟩
  · rw [heq, if_pos (show i.now < _ from hearly)]
    exact h
  · -- the drives could not be asked: only `ramTotal` is new
    rw [heq, if_neg (show ¬ i.now < _ from Int.not_lt.mpr hdue)]
    refine ⟨?_, h.kept, fun _ => ⟨f, rfl⟩, ?_⟩
    · simpa [setRamTotal] using h.files
    · rintro _ ⟨⟩
      exact htotal
  · rw [heq, if_neg (show ¬ i.now < _ from Int.not_lt.mpr hdue)]
    refine ⟨?_, ?_, fun _ => ⟨f, rfl⟩, ?_⟩
    · have hone : List.Forall₂ Says [f] [sample] := .cons (took_measure hf _ _ _ htook) .nil
      simpa [insertStats, setRamTotal] using List.rel_append h.files hone
    · obtain ⟨before, hbefore⟩ := h.kept
      refine ⟨before, ?_⟩
      show before ++ (s.world.ds.stats ++ [sample]) = s.world.taken ++ [sample]
      rw [← List.append_assoc, hbefore]
    · rintro _ ⟨⟩
      exact htotal

theorem remembered_step (h : Remembered s) {i : Input} (hok : ReadsFitting s i) :
    Remembered (s.step i) := by
  cases i with
  | statsProcess f ramCache behind i => exact remembered_statsProcess h hok ramCache behind i
  | token r =>
    obtain ⟨rest, heq⟩ := token_cases r s.world
    have hstep : endState (onRest (Rest.getToken r)) s.world = { s.world with rest } := heq
    show Remembered { s with world := endState (onRest (Rest.getToken r)) s.world }
    rw [hstep]
    exact h.of_eq rfl rfl h.kept
  | updateDb i =>
    show Remembered { s with world := endState (updateDb i) s.world }
    rcases updateDb_cases i s.world with heq | ⟨-, -, timeDiff, rest, ⟨-, heq⟩ | heq⟩
    · rw [heq]
      exact h
    · rw [heq]
      exact h.of_eq rfl rfl h.kept
    · rw [heq]
      exact h.of_eq rfl rfl List.nil_suffix

/-- The body of a request, entry by entry. -/
theorem ram_entries (timeDiff : Int) (ds : DedicatedServer) {files : List ProcMeminfo}
    {samples : List DsStats} (h : List.Forall₂ Says files samples)
    (htotal : ds.ramTotal = (last.value .memTotal).toNat) :
    (samples.map (statsEntry ds timeDiff)).map DsStatsEntry.ram = files.map (ramText last) := by
  induction h with
  | nil => rfl
  | cons hsays _ ih =>
    rw [List.map_cons, List.map_cons, List.map_cons, ih]
    unfold ramText statsEntry
    rw [← hsays.ramUs, ← hsays.ramCache, ← htotal]

/-- **The memory that is sent.** In every run in which the three lines are within the first `1024`
bytes of each file that is read: a request says of each of its samples how much memory was used and
cached by the file that this sample has read, and how much there is by the last file that was
read, whatever else is in the files, and whatever the buffer and the memory behind it held. -/
theorem sent_ram {ds : DedicatedServer} {rest : Rest} (hds : ds.stats = [])
    (h : Run (fun s i t => t = s.step i) ReadsFitting
      { world := { ds, rest, taken := [], posts := [] }, files := [], last := none } s)
    (i : DbInput) {p : StatsPost}
    (hp : (endState (updateDb i) s.world).posts = s.world.posts ++ [p]) :
    List.Forall₂ Says s.files s.world.taken ∧ ∃ files last, files <:+ s.files ∧
      s.last = some last ∧ List.Forall₂ Says files p.samples ∧
        p.body.map DsStatsEntry.ram = files.map (ramText last) := by
  have hs : Remembered s := by
    apply h.invariant (I := Remembered)
    · exact ⟨.nil, hds ▸ List.suffix_rfl, fun hne => absurd rfl hne, fun f hf => nomatch hf⟩
    · rintro s i t hs hok rfl
      exact remembered_step hs hok
  refine ⟨hs.files, ?_⟩
  obtain ⟨hstats, timeDiff, hpost⟩ : s.world.ds.stats ≠ [] ∧ ∃ timeDiff, p =
      { samples := s.world.ds.stats, body := s.world.ds.stats.map (statsEntry s.world.ds timeDiff),
        code := i.reply.code } := by
    rcases updateDb_cases i s.world with heq | ⟨-, hstats, timeDiff, rest, ⟨-, heq⟩ | heq⟩
    · rw [heq] at hp
      simp at hp
    · rw [heq] at hp
      refine ⟨hstats, timeDiff, ?_⟩
      simpa [sent] using hp.symm
    · rw [heq] at hp
      refine ⟨hstats, timeDiff, ?_⟩
      simpa [sent, cleared] using hp.symm
  obtain ⟨before, hbefore⟩ := hs.kept
  have hsaid := List.forall₂_drop_append s.files before _ (hbefore ▸ hs.files)
  obtain ⟨last, hlast⟩ := hs.read fun htaken => hstats (List.append_eq_nil_iff.mp
    (hbefore.trans htaken)).2
  rw [hpost]
  exact ⟨_, last, List.drop_suffix _ _, hlast, hsaid,
    ram_entries timeDiff s.world.ds hsaid (hs.total last hlast)⟩

/-! ## Two samples -/

/-- A line with a number of one digit. -/
def plainEntry (key : MemKey) (value : Fin 10) : Entry where
  name := key.text
  blanks := 7
  value := UInt64.ofNat value
  unit := " kB".toList
  namePlain := by
    have hplain : key.text.all isPlain = true := by cases key <;> decide
    have hblank : ' ' ∉ key.text := by cases key <;> decide
    exact fun c hc => ⟨List.all_eq_true.mp hplain c hc, fun h => hblank (h ▸ hc)⟩
  unitPlain := List.all_eq_true.mp (by decide)
  separate := by
    rintro c ⟨⟩
    rfl

/-- There is another number behind the third line. -/
def smallMeminfo : ProcMeminfo where
  entries := [plainEntry .memTotal 8, plainEntry .memFree 3, plainEntry .cached 2]
  rest := "MemTotal: 0 kB".toList
  nodup := by decide
  keys := by
    intro key
    cases key <;> decide

def otherMeminfo : ProcMeminfo where
  entries := [plainEntry .cached 1, plainEntry .memFree 4, plainEntry .memTotal 9]
  rest := []
  nodup := by decide
  keys := by
    intro key
    cases key <;> decide

def noSamples : Sampling :=
  { world := { ds := idleHost, rest := sameTime, taken := [], posts := [] }
    files := []
    last := none }

/-- Two samples are taken, and between them the memory changes. -/
def twoSampled : Sampling :=
  (noSamples.step (.statsProcess smallMeminfo 7 "Cached: 9".toList idleMeasure)).step
    (.statsProcess otherMeminfo 0 [] idleMeasure)

example : twoSampled.files.map (ramText otherMeminfo) = ["5 2 9", "5 1 9"] := by decide

theorem sent_ram_twoSampled : List.Forall₂ Says twoSampled.files twoSampled.world.taken ∧
    ∃ files last, files <:+ twoSampled.files ∧ twoSampled.last = some last ∧
      List.Forall₂ Says files twoSampled.world.ds.stats ∧
      (twoSampled.world.ds.stats.map (statsEntry twoSampled.world.ds 0)).map DsStatsEntry.ram =
        files.map (ramText last) := by
  have hrun : Run (fun s i t => t = Sampling.step s i) ReadsFitting noSamples twoSampled :=
    .step (i := .statsProcess otherMeminfo 0 [] idleMeasure)
      (.step (i := .statsProcess smallMeminfo 7 "Cached: 9".toList idleMeasure) (.refl _)
        ⟨by decide, by decide⟩ rfl) ⟨by decide, by decide⟩ rfl
  exact sent_ram rfl hrun { now := 0, reply := replyOf 201, later := 0 } (p := {
    samples := twoSampled.world.ds.stats
    body := twoSampled.world.ds.stats.map (statsEntry twoSampled.world.ds 0)
    code := 201 }) rfl

end MemInfo

end GameAP
