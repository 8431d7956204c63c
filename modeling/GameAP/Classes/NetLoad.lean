import GameAP.Classes.DedicatedServer

/-!
# The load of the network

`get_net_load` reads four counters of each interface and reports by how much each has grown in a
second since the last reading. The difference is taken modulo `2 ^ 64`, whichever of the two is
greater. `rates_right_iff`: in a run over any readings, all that is reported is right exactly if no
counter goes backwards between two readings that are compared.
-/

namespace GameAP

open Lib

/-- `netstats`, as it is read. -/
structure IfCounters where
  rxb : UInt64
  txb : UInt64
  rxp : UInt64
  txp : UInt64
  deriving DecidableEq, Repr

/-- The four counters of an interface. -/
inductive Counter where
  | rxb
  | txb
  | rxp
  | txp
  deriving DecidableEq, Repr

def IfCounters.get (i : IfCounters) : Counter → UInt64
  | .rxb => i.rxb
  | .txb => i.txb
  | .rxp => i.rxp
  | .txp => i.txp

def NetStats.get (n : NetStats) : Counter → Nat
  | .rxb => n.rxb
  | .txb => n.txb
  | .rxp => n.rxp
  | .txp => n.txp

/-- What `get_net_load` keeps. -/
structure NetLoad where
  interfaces : List String
  lastIfstatTime : Int
  lastIfstats : Table String IfCounters

/-- What it reads: the counters, the clock behind them, and the clock when it returns. -/
structure NetReading where
  counters : String → IfCounters
  currentTime : Int
  later : Int

namespace NetLoad

def init (interfaces : List String) : NetLoad :=
  { interfaces, lastIfstatTime := 0, lastIfstats := ∅ }

/-- The quotient of two `uint64_t`. -/
def rate (current last : UInt64) (timeDiff : Int) : Nat := (current - last).toNat / timeDiff.toNat

def rates (current last : IfCounters) (timeDiff : Int) : NetStats :=
  { rxb := rate current.rxb last.rxb timeDiff
    txb := rate current.txb last.txb timeDiff
    rxp := rate current.rxp last.rxp timeDiff
    txp := rate current.txp last.txp timeDiff }

def currentIfstats (r : NetReading) (interfaces : List String) : Table String IfCounters :=
  interfaces.foldl (fun t it => t.insert it (r.counters it)) ∅

/-- The loop over the interfaces. -/
def ifstats (current last : Table String IfCounters) (timeDiff : Int) (interfaces : List String) :
    Table String NetStats :=
  interfaces.foldl (fun t it =>
    match current.lookup it, last.lookup it with
    | some c, some l => t.insert it (rates c l timeDiff)
    | _, _ => t) ∅

/-- What is reported, and what is kept. -/
def getNetLoad (r : NetReading) (s : NetLoad) : Table String NetStats × NetLoad :=
  let current := currentIfstats r s.interfaces
  let report :=
    if s.lastIfstatTime ≠ 0 ∧ s.lastIfstatTime < r.currentTime then
      ifstats current s.lastIfstats (r.currentTime - s.lastIfstatTime) s.interfaces
    else ∅
  (report, { s with lastIfstats := current, lastIfstatTime := r.later })

def after (s : NetLoad) (readings : List NetReading) : NetLoad :=
  readings.foldl (fun s r => (getNetLoad r s).2) s

/-! ## One rate -/

/-- What is reported is the quotient of a difference that has wrapped around. -/
def Wrapped (a b : UInt64) (t : Int) (r : Nat) : Prop :=
  b < a ∧ r = (2 ^ 64 + b.toNat - a.toNat) / t.toNat

/-- The rate `r` for a counter with the values `a` and then `b`, in the time `t`. -/
structure RateRight (a b : UInt64) (t : Int) (r : Nat) : Prop where
  grown : a ≤ b → r = (b.toNat - a.toNat) / t.toNat
  reset : b < a → r ≤ b.toNat
  noWrap : ¬ Wrapped a b t r

theorem toNat_sub_of_lt {a b : UInt64} (h : b < a) :
    (b - a).toNat = 2 ^ 64 + b.toNat - a.toNat := by
  have hlt := UInt64.lt_iff_toNat_lt.mp h
  have ha := a.toNat_lt
  rw [UInt64.toNat_sub]
  omega

theorem rateRight_iff {a b : UInt64} {t : Int} : RateRight a b t (rate b a t) ↔ a ≤ b := by
  constructor
  · intro h
    refine UInt64.not_lt.mp fun hlt => h.noWrap ⟨hlt, ?_⟩
    unfold rate
    rw [toNat_sub_of_lt hlt]
  · intro hle
    have hnot : ¬ b < a := UInt64.not_lt.mpr hle
    refine ⟨fun _ => ?_, fun hlt => absurd hlt hnot, fun h => hnot h.1⟩
    unfold rate
    rw [UInt64.toNat_sub_of_le _ _ hle]

theorem get_rates (current last : IfCounters) (t : Int) (c : Counter) :
    (rates current last t).get c = rate (current.get c) (last.get c) t := by
  cases c <;> rfl

/-! ## One report -/

variable {interfaces : List String} {name : String} {prev cur : NetReading}
  {before readings : List NetReading}

theorem lookup_foldl_insert {β : Type} (f : String → β) (names : List String) (t : Table String β) :
    (names.foldl (fun t it => t.insert it (f it)) t).lookup name =
      if name ∈ names then some (f name) else t.lookup name := by
  induction names generalizing t with
  | nil => rfl
  | cons it names ih =>
    rw [List.foldl_cons, ih]
    by_cases hmem : name ∈ names
    · rw [if_pos hmem, if_pos (List.mem_cons_of_mem it hmem)]
    · rw [if_neg hmem]
      by_cases hit : name = it
      · subst hit
        rw [if_pos List.mem_cons_self, AList.lookup_insert]
      · rw [if_neg (by simp [hit, hmem]), AList.lookup_insert_ne hit]

theorem lookup_currentIfstats : (currentIfstats cur interfaces).lookup name =
    if name ∈ interfaces then some (cur.counters name) else none :=
  lookup_foldl_insert cur.counters interfaces ∅

theorem lookup_ifstats (t : Int) :
    (ifstats (currentIfstats cur interfaces) (currentIfstats prev interfaces) t interfaces).lookup
        name =
      if name ∈ interfaces then some (rates (cur.counters name) (prev.counters name) t)
      else none := by
  have h : ifstats (currentIfstats cur interfaces) (currentIfstats prev interfaces) t interfaces =
      interfaces.foldl (fun s it => s.insert it (rates (cur.counters it) (prev.counters it) t))
        ∅ := by
    refine List.foldl_ext _ _ _ fun s it hit => ?_
    rw [lookup_currentIfstats, lookup_currentIfstats, if_pos hit, if_pos hit]
  rw [h, lookup_foldl_insert fun it => rates (cur.counters it) (prev.counters it) t]
  rfl

theorem after_interfaces (before : List NetReading) (s : NetLoad) :
    (s.after before).interfaces = s.interfaces := by
  induction before generalizing s with
  | nil => rfl
  | cons r before ih => exact ih (getNetLoad r s).2

/-- What the reading `prev` leaves. -/
theorem after_snoc : after (init interfaces) (before ++ [prev]) =
    { interfaces, lastIfstatTime := prev.later,
      lastIfstats := currentIfstats prev interfaces } := by
  unfold after
  rw [List.foldl_append]
  have h := after_interfaces before (init interfaces)
  unfold after at h
  show NetLoad.mk _ _ _ = _
  rw [h]
  rfl

/-- What the reading `cur` reports behind the reading `prev`. -/
theorem lookup_getNetLoad :
    (getNetLoad cur (after (init interfaces) (before ++ [prev]))).1.lookup name =
      if (prev.later ≠ 0 ∧ prev.later < cur.currentTime) ∧ name ∈ interfaces then
        some (rates (cur.counters name) (prev.counters name) (cur.currentTime - prev.later))
      else none := by
  rw [after_snoc]
  unfold getNetLoad
  by_cases htime : prev.later ≠ 0 ∧ prev.later < cur.currentTime
  · simp only [if_pos htime]
    rw [lookup_ifstats]
    simp only [htime, ne_eq, not_false_eq_true, and_self, true_and]
  · simp only [if_neg htime]
    rw [if_neg fun h => htime h.1]
    rfl

/-! ## All readings -/

/-- All that is reported at `cur` is right against the reading before it. -/
def ReportRight (last : Option NetReading) (cur : NetReading) (report : Table String NetStats) :
    Prop :=
  ∀ name stats, report.lookup name = some stats → ∃ prev, last = some prev ∧
    prev.later < cur.currentTime ∧
    ∀ c, RateRight ((prev.counters name).get c) ((cur.counters name).get c)
      (cur.currentTime - prev.later) (stats.get c)

/-- None of the counters that are compared at `cur` goes backwards. -/
def NoReset (interfaces : List String) (prev cur : NetReading) : Prop :=
  prev.later ≠ 0 → prev.later < cur.currentTime → ∀ name ∈ interfaces, ∀ c,
    (prev.counters name).get c ≤ (cur.counters name).get c

theorem reportRight_iff :
    ReportRight (some prev) cur
        (getNetLoad cur (after (init interfaces) (before ++ [prev]))).1 ↔
      NoReset interfaces prev cur := by
  unfold ReportRight NoReset
  constructor
  · intro h hzero hlt name hname c
    obtain ⟨p, hp, -, hright⟩ := h name _ (by
      rw [lookup_getNetLoad, if_pos ⟨⟨hzero, hlt⟩, hname⟩])
    obtain rfl := Option.some.inj hp
    have hc := hright c
    rw [get_rates] at hc
    exact rateRight_iff.mp hc
  · intro h name stats hstats
    rw [lookup_getNetLoad] at hstats
    by_cases hif : (prev.later ≠ 0 ∧ prev.later < cur.currentTime) ∧ name ∈ interfaces
    · rw [if_pos hif] at hstats
      obtain rfl := Option.some.inj hstats
      refine ⟨prev, rfl, hif.1.2, fun c => ?_⟩
      rw [get_rates]
      exact rateRight_iff.mpr (h hif.1.1 hif.1.2 name hif.2 c)
    · rw [if_neg hif] at hstats
      cases hstats

/-- The first reading reports nothing. -/
theorem reportRight_first : ReportRight none cur (getNetLoad cur (init interfaces)).1 :=
  fun _ _ h => nomatch h

/-- **The reported rates.** In every run all that is reported is right exactly if no counter that
is compared goes backwards. The clock may do what it likes. -/
theorem rates_right_iff (interfaces : List String) (readings : List NetReading) :
    (∀ before cur rest, readings = before ++ cur :: rest →
        ReportRight before.getLast? cur (getNetLoad cur (after (init interfaces) before)).1) ↔
      ∀ before prev cur rest, readings = before ++ prev :: cur :: rest →
        NoReset interfaces prev cur := by
  constructor
  · intro h before prev cur rest hreadings
    have hcur := h (before ++ [prev]) cur rest (by simp [hreadings])
    rw [List.getLast?_concat] at hcur
    exact reportRight_iff.mp hcur
  · intro h before cur rest hreadings
    obtain rfl | ⟨before, prev, rfl⟩ := before.eq_nil_or_concat
    · exact reportRight_first
    · rw [List.concat_eq_append] at hreadings ⊢
      rw [List.getLast?_concat]
      exact reportRight_iff.mpr (h before prev cur rest (by simp [hreadings]))

/-- `eth0` has received 100 bytes, is reset, and has received none a second later. -/
theorem reset_not_right : ¬ ∀ (interfaces : List String) (readings : List NetReading) before cur
    rest, readings = before ++ cur :: rest →
      ReportRight before.getLast? cur (getNetLoad cur (after (init interfaces) before)).1 := by
  intro h
  obtain ⟨prev, hprev, -, hright⟩ := h ["eth0"] [⟨fun _ => ⟨100, 0, 1, 0⟩, 10, 10⟩,
    ⟨fun _ => ⟨0, 0, 0, 0⟩, 11, 11⟩] [_] _ [] rfl "eth0" ⟨2 ^ 64 - 100, 0, 2 ^ 64 - 1, 0⟩
    (by decide)
  obtain rfl := Option.some.inj hprev
  exact absurd ((hright .rxb).reset (by decide)) (by decide)

end NetLoad

end GameAP
