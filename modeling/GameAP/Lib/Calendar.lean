import Mathlib.Tactic.Common

/-!
# The Gregorian calendar

Days are counted from 1970-01-01. `Date.toDays` numbers a date; a month or a day outside its
range counts on into the next one. `ofDays` is the date of a day: years begin in March, so that
the leap day ends the year, and a day is split into its 400-year era, century, 4-year cycle and
year. `toDays_ofDays` says the date of a day has that day's number.
-/

namespace Lib.Calendar

structure Date where
  year : Int
  month : Int
  day : Int
  deriving DecidableEq, Repr

/-- The days before the March-based year `y`, from the start of an era. -/
def yearStart (y : Int) : Int := 365 * y + y / 4 - y / 100

/-- The days before the month `mp` (0 is March) in a March-based year. -/
def monthStart (mp : Int) : Int := (153 * mp + 2) / 5

/-- The days from the start of year 0, March 1st, to 1970-01-01. -/
def epoch : Int := 719468

def Date.toDays (d : Date) : Int :=
  let y := if d.month ≤ 2 then d.year - 1 else d.year
  y / 400 * 146097 + yearStart (y % 400) + monthStart ((d.month + 9) % 12) + (d.day - 1) - epoch

/-- The March-based year (in its era) of a day of the era, and the day in that year. -/
def splitEra (doe : Int) : Int × Int :=
  let c := min (doe / 36524) 3
  let r := doe - 36524 * c
  let q := r / 1461
  let s := r - 1461 * q
  let y := min (s / 365) 3
  (100 * c + 4 * q + y, s - 365 * y)

/-- The civil month of the month `mp` that counts from March. -/
def civilMonth (mp : Int) : Int := if mp < 10 then mp + 3 else mp - 9

/-- The date of a day of the month `mp` of the March-based year `y`. -/
def marchDate (y mp day : Int) : Date :=
  { year := if civilMonth mp ≤ 2 then y + 1 else y, month := civilMonth mp, day := day }

def ofDays (n : Int) : Date :=
  let z := n + epoch
  let (yoe, doy) := splitEra (z % 146097)
  let mp := (5 * doy + 2) / 153
  marchDate (z / 146097 * 400 + yoe) mp (doy - monthStart mp + 1)

/-- The start of the year `y` of the cycle `q` of the century `c`. -/
theorem yearStart_parts {c q y : Int} (hq0 : 0 ≤ q) (hq1 : q ≤ 24) (hy0 : 0 ≤ y)
    (hy1 : y ≤ 3) : yearStart (100 * c + 4 * q + y) = 36524 * c + 1461 * q + 365 * y := by
  have h4 : (100 * c + 4 * q + y) / 4 = 25 * c + q := by omega
  have h100 : (100 * c + 4 * q + y) / 100 = c := by omega
  rw [yearStart, h4, h100]
  omega

theorem splitEra_spec (doe : Int) (h0 : 0 ≤ doe) (h1 : doe < 146097) :
    0 ≤ (splitEra doe).1 ∧ (splitEra doe).1 < 400 ∧ 0 ≤ (splitEra doe).2 ∧
      (splitEra doe).2 ≤ 365 ∧ yearStart (splitEra doe).1 + (splitEra doe).2 = doe := by
  simp only [splitEra]
  have hc : 0 ≤ min (doe / 36524) 3 ∧ min (doe / 36524) 3 ≤ 3 ∧
      0 ≤ doe - 36524 * min (doe / 36524) 3 ∧ doe - 36524 * min (doe / 36524) 3 ≤ 36524 := by
    omega
  generalize min (doe / 36524) 3 = c at hc ⊢
  obtain ⟨hc0, hc1, hr0, hr1⟩ := hc
  generalize hr : doe - 36524 * c = r at hr0 hr1 ⊢
  have hq : 0 ≤ r / 1461 ∧ r / 1461 ≤ 24 ∧ 0 ≤ r - 1461 * (r / 1461) ∧
      r - 1461 * (r / 1461) ≤ 1460 := by omega
  generalize r / 1461 = q at hq ⊢
  obtain ⟨hq0, hq1, hs0, hs1⟩ := hq
  generalize hs : r - 1461 * q = s at hs0 hs1 ⊢
  have hy : 0 ≤ min (s / 365) 3 ∧ min (s / 365) 3 ≤ 3 ∧ 0 ≤ s - 365 * min (s / 365) 3 ∧
      s - 365 * min (s / 365) 3 ≤ 365 := by omega
  generalize min (s / 365) 3 = y at hy ⊢
  rw [yearStart_parts hq0 hq1 hy.1 hy.2.1]
  omega

/-- The month of a day of the year is in range, and so is the day in it. -/
theorem month_spec {doy : Int} (h0 : 0 ≤ doy) (h1 : doy ≤ 365) :
    0 ≤ (5 * doy + 2) / 153 ∧ (5 * doy + 2) / 153 ≤ 11 ∧
      0 ≤ doy - monthStart ((5 * doy + 2) / 153) ∧
      doy - monthStart ((5 * doy + 2) / 153) ≤ 30 := by
  unfold monthStart
  omega

theorem civilMonth_range {mp : Int} (h0 : 0 ≤ mp) (h1 : mp ≤ 11) :
    1 ≤ civilMonth mp ∧ civilMonth mp ≤ 12 := by
  unfold civilMonth; omega

theorem toDays_marchDate {y mp day : Int} (h0 : 0 ≤ mp) (h1 : mp ≤ 11) :
    (marchDate y mp day).toDays =
      y / 400 * 146097 + yearStart (y % 400) + monthStart mp + (day - 1) - epoch := by
  have hm : (civilMonth mp + 9) % 12 = mp := by unfold civilMonth; omega
  unfold Date.toDays marchDate
  by_cases h : civilMonth mp ≤ 2
  · simp only [h, if_true, hm, Int.add_sub_cancel]
  · simp only [h, if_false, hm]

theorem ofDays_month (n : Int) : 1 ≤ (ofDays n).month ∧ (ofDays n).month ≤ 12 := by
  have hs := splitEra_spec ((n + epoch) % 146097) (by omega) (by omega)
  have hm := month_spec hs.2.2.1 hs.2.2.2.1
  exact civilMonth_range hm.1 hm.2.1

theorem ofDays_day (n : Int) : 1 ≤ (ofDays n).day ∧ (ofDays n).day ≤ 31 := by
  have hs := splitEra_spec ((n + epoch) % 146097) (by omega) (by omega)
  have hm := month_spec hs.2.2.1 hs.2.2.2.1
  simp only [ofDays, marchDate]
  omega

/-- **The date of a day has that day's number.** -/
theorem toDays_ofDays (n : Int) : (ofDays n).toDays = n := by
  have hs := splitEra_spec ((n + epoch) % 146097) (by omega) (by omega)
  have hm := month_spec hs.2.2.1 hs.2.2.2.1
  obtain ⟨hy0, hy1, -, -, hdoe⟩ := hs
  simp only [ofDays]
  rw [toDays_marchDate hm.1 hm.2.1]
  generalize (splitEra ((n + epoch) % 146097)).1 = yoe at hy0 hy1 hdoe ⊢
  have he : ((n + epoch) / 146097 * 400 + yoe) / 400 = (n + epoch) / 146097 := by omega
  have hr : ((n + epoch) / 146097 * 400 + yoe) % 400 = yoe := by omega
  rw [he, hr]
  omega

/-- The year of a day is the March-based year it is in, or the next. -/
theorem ofDays_year_spec (n : Int) : ∃ y, ((ofDays n).year = y ∨ (ofDays n).year = y + 1) ∧
    y / 400 * 146097 + yearStart (y % 400) ≤ n + epoch ∧
      n + epoch ≤ y / 400 * 146097 + yearStart (y % 400) + 365 := by
  have hs := splitEra_spec ((n + epoch) % 146097) (by omega) (by omega)
  obtain ⟨hy0, hy1, hd0, hd1, hdoe⟩ := hs
  refine ⟨(n + epoch) / 146097 * 400 + (splitEra ((n + epoch) % 146097)).1, ?_, ?_⟩
  · simp only [ofDays, marchDate]
    split
    · exact .inr rfl
    · exact .inl rfl
  · generalize (splitEra ((n + epoch) % 146097)).1 = yoe at hy0 hy1 hdoe ⊢
    have he : ((n + epoch) / 146097 * 400 + yoe) / 400 = (n + epoch) / 146097 := by omega
    have hr : ((n + epoch) / 146097 * 400 + yoe) % 400 = yoe := by omega
    rw [he, hr]
    omega

/-- The days from 1970-01-01 to 9999-01-01 have years of four digits. -/
theorem ofDays_year {n : Int} (h0 : 0 ≤ n) (h1 : n ≤ 2932532) :
    1000 ≤ (ofDays n).year ∧ (ofDays n).year ≤ 9999 := by
  obtain ⟨y, hy, hlo, hhi⟩ := ofDays_year_spec n
  simp only [yearStart, epoch] at hlo hhi
  omega

/-- A century before 1970 and a century after it. -/
theorem ofDays_year_near {n : Int} (h0 : -36525 ≤ n) (h1 : n ≤ 36525) :
    0 ≤ (ofDays n).year ∧ (ofDays n).year ≤ 9999 := by
  obtain ⟨y, hy, hlo, hhi⟩ := ofDays_year_spec n
  simp only [yearStart, epoch] at hlo hhi
  omega

end Lib.Calendar
