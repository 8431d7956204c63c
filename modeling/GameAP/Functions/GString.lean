import GameAP.Functions.Json
import GameAP.Lib.Calendar
import GameAP.Lib.Substitution
import Mathlib.Data.List.TakeWhile

/-!
# String and date helpers

`getJsonUInt` decodes an id the panel sends as a number or as a string. `humanToTimestamp` reads
the panel's dates (`get_time`, then `mktime` on a host whose standard time is `tz` seconds ahead
of UTC: the zeroed `tm_isdst` excludes daylight saving) and `formatTime` is
`gmtime` and `strftime("%F %T")`, which the daemon writes dates with.
`humanToTimestamp_formatTime_year` is the round trip.

An id from `2 ^ 32` on is 0 when it is sent as a number, and cut to 32 bits when it is sent as a
string: `idsDecoded_iff` says for which ids this makes no difference and no two of them collide.
-/

namespace GameAP

open Lib.Calendar

def isSpace (c : Char) : Bool :=
  c == ' ' || c == '\t' || c == '\n' || c == '\r' || c.toNat == 11 || c.toNat == 12

/-- The value of a run of digits. -/
def digitsVal (cs : List Char) : Nat := cs.foldl (fun v c => 10 * v + (c.toNat - 48)) 0

/-- `strtoul` in base 10 on a 64-bit `unsigned long`. -/
def strtoul (s : String) : Nat :=
  let cs := (s.toList.takeWhile (· != '\x00')).dropWhile isSpace
  let (neg, ds) := match cs with
    | '-' :: r => (true, r)
    | '+' :: r => (false, r)
    | r => (false, r)
  let v := digitsVal (ds.takeWhile Char.isDigit)
  if 2 ^ 64 ≤ v then 2 ^ 64 - 1 else if neg then (2 ^ 64 - v) % 2 ^ 64 else v

def getJsonUInt (json : Json) : Nat :=
  match json with
  | .str s => strtoul s % 2 ^ 32
  | j => if j.isUInt then j.toInt.toNat else 0

/-- `getJsonUInt(json[key])`. -/
def Json.getUInt (j : Json) (key : String) : Except Exn Nat := do
  return getJsonUInt (← j.get key)

/-! ## Dates -/

/-- The broken-down time, with the civil year and month. -/
structure Tm where
  date : Date
  hour : Int
  min : Int
  sec : Int
  deriving DecidableEq, Repr

def timegm (t : Tm) : Int := 86400 * t.date.toDays + 3600 * t.hour + 60 * t.min + t.sec

def mktime (tz : Int) (t : Tm) : Int := timegm t - tz

def gmtime (t : Int) : Tm :=
  let s := t % 86400
  { date := ofDays (t / 86400), hour := s / 3600, min := s / 60 % 60, sec := s % 60 }

theorem timegm_gmtime (t : Int) : timegm (gmtime t) = t := by
  simp only [timegm, gmtime, toDays_ofDays]
  omega

/-- A number of at most `n` digits between `lo` and `hi`. -/
def readNum (lo hi n : Nat) (cs : List Char) : Option (Nat × List Char) :=
  let ds := (cs.take n).takeWhile Char.isDigit
  let v := digitsVal ds
  if ds ≠ [] ∧ lo ≤ v ∧ v ≤ hi then some (v, cs.drop ds.length) else none

def readChar (c : Char) : List Char → Option (List Char)
  | d :: cs => if d = c then some cs else none
  | [] => none

/-- `get_time` with the format `"%Y-%m-%d %H:%M:%S"`, into a `tm` of zeros. A text that ends with
one of the numbers is read up to there. -/
def getTime (cs : List Char) : Option Tm := do
  let (year, cs) ← readNum 0 9999 4 (cs.dropWhile isSpace)
  let t : Tm := { date := { year, month := 1, day := 0 }, hour := 0, min := 0, sec := 0 }
  if cs.isEmpty then return t
  let cs ← readChar '-' cs
  let (mon, cs) ← readNum 1 12 2 cs
  let t := { t with date.month := mon }
  if cs.isEmpty then return t
  let cs ← readChar '-' cs
  let (mday, cs) ← readNum 1 31 2 cs
  let t := { t with date.day := mday }
  if cs.isEmpty then return t
  let (hour, cs) ← readNum 0 23 2 (cs.dropWhile isSpace)
  let t := { t with hour }
  if cs.isEmpty then return t
  let cs ← readChar ':' cs
  let (min, cs) ← readNum 0 59 2 cs
  let t := { t with min }
  if cs.isEmpty then return t
  let cs ← readChar ':' cs
  let (sec, _) ← readNum 0 60 2 cs
  return { t with sec }

def humanToTimestamp (tz : Int) (str : String) : Int :=
  match getTime str.toList with
  | none => 0
  | some t => mktime tz t

def digit (n : Nat) : Char := Char.ofNat (48 + n % 10)

def twoDigits (n : Nat) : List Char := [digit (n / 10), digit n]

/-- `%Y`; four digits are written out as such. -/
def yearText (y : Int) : List Char :=
  if 1000 ≤ y ∧ y ≤ 9999 then
    [digit (y.toNat / 1000), digit (y.toNat / 100), digit (y.toNat / 10), digit y.toNat]
  else (toString y).toList

/-- `strftime("%F %T")`. -/
def strftimeFT (t : Tm) : List Char :=
  yearText t.date.year ++ '-' :: twoDigits t.date.month.toNat ++ '-' :: twoDigits t.date.day.toNat ++
    ' ' :: twoDigits t.hour.toNat ++ ':' :: twoDigits t.min.toNat ++ ':' :: twoDigits t.sec.toNat

def formatTime (t : Int) : String := String.ofList (strftimeFT (gmtime t))

/-! ## The round trip of dates -/

theorem digit_spec (n : Nat) :
    (digit n).isDigit = true ∧ (digit n).toNat - 48 = n % 10 ∧ isSpace (digit n) = false := by
  have key : ∀ k < 10, (Char.ofNat (48 + k)).isDigit = true ∧
      (Char.ofNat (48 + k)).toNat - 48 = k ∧ isSpace (Char.ofNat (48 + k)) = false := by decide
  exact key (n % 10) (by omega)

theorem readNum_twoDigits {lo hi n : Nat} (hlo : lo ≤ n) (hhi : n ≤ hi) (h : n < 100)
    (rest : List Char) : readNum lo hi 2 (twoDigits n ++ rest) = some (n, rest) := by
  obtain ⟨d1, v1, -⟩ := digit_spec (n / 10)
  obtain ⟨d2, v2, -⟩ := digit_spec n
  have hv : 10 * (n / 10 % 10) + n % 10 = n := by omega
  simp [readNum, twoDigits, digitsVal, d1, d2, v1, v2, hv, hlo, hhi]

theorem isSpace_of_isDigit {c : Char} (h : c.isDigit = true) : isSpace c = false := by
  by_contra hs
  simp only [isSpace, Bool.not_eq_false, Bool.or_eq_true, beq_iff_eq] at hs
  have hge : 48 ≤ c.toNat := by
    simp only [Char.isDigit, Bool.and_eq_true, decide_eq_true_eq] at h
    exact h.1
  rcases hs with ((((rfl | rfl) | rfl) | rfl) | h11) | h12
  · exact absurd hge (by decide)
  · exact absurd hge (by decide)
  · exact absurd hge (by decide)
  · exact absurd hge (by decide)
  · omega
  · omega

/-- A number is read up to the character after its digits. -/
theorem readNum_digits {lo hi n : Nat} {ds rest : List Char} (hd : ∀ c ∈ ds, c.isDigit = true)
    (hne : ds ≠ []) (hlen : ds.length ≤ n) (hlo : lo ≤ digitsVal ds) (hhi : digitsVal ds ≤ hi)
    (hrest : ∀ c, rest.head? = some c → c.isDigit = false) :
    readNum lo hi n (ds ++ rest) = some (digitsVal ds, rest) := by
  have hstop : (rest.take (n - ds.length)).takeWhile Char.isDigit = [] := by
    cases rest with
    | nil => rw [List.take_nil, List.takeWhile_nil]
    | cons c cs =>
      cases n - ds.length with
      | zero => rfl
      | succ k =>
        rw [List.take_succ_cons]
        refine List.takeWhile_cons_of_neg ?_
        rw [hrest c rfl]
        decide
  have hread : ((ds ++ rest).take n).takeWhile Char.isDigit = ds := by
    rw [List.take_append, List.take_of_length_le hlen, List.takeWhile_append_of_pos hd, hstop,
      List.append_nil]
  unfold readNum
  simp only [hread]
  rw [if_pos ⟨hne, hlo, hhi⟩, List.drop_left]

/-- The text of a year is its number. -/
theorem toList_toString {y : Int} (h : 0 ≤ y) : (toString y).toList = Nat.toDigits 10 y.toNat := by
  rw [Int.toString_eq_repr, Int.repr_eq_if, if_pos h, Nat.toList_repr]

theorem toDigits_spec (n : Nat) : (∀ c ∈ Nat.toDigits 10 n, c.isDigit = true) ∧
    Nat.toDigits 10 n ≠ [] ∧ digitsVal (Nat.toDigits 10 n) = n :=
  ⟨fun _ hc => Nat.isDigit_of_mem_toDigits (by decide) (by decide) hc, Nat.toDigits_ne_nil,
    Nat.ofDigitChars_ten_toDigits⟩

/-- Up to four digits. -/
theorem yearText_spec {y : Int} (h0 : 0 ≤ y) (h1 : y ≤ 9999) :
    (∀ c ∈ yearText y, c.isDigit = true) ∧ yearText y ≠ [] ∧ (yearText y).length ≤ 4 ∧
      digitsVal (yearText y) = y.toNat := by
  by_cases hy : 1000 ≤ y
  · obtain ⟨n, rfl⟩ : ∃ n : Nat, y = n := ⟨y.toNat, by omega⟩
    obtain ⟨d1, v1, -⟩ := digit_spec (n / 1000)
    obtain ⟨d2, v2, -⟩ := digit_spec (n / 100)
    obtain ⟨d3, v3, -⟩ := digit_spec (n / 10)
    obtain ⟨d4, v4, -⟩ := digit_spec n
    have hv : 10 * (10 * (10 * (n / 1000 % 10) + n / 100 % 10) + n / 10 % 10) + n % 10 = n := by
      omega
    simp [yearText, digitsVal, hy, h1, d1, d2, d3, d4, v1, v2, v3, v4, hv]
  · have htext : yearText y = Nat.toDigits 10 y.toNat := by
      rw [yearText, if_neg (by omega), toList_toString h0]
    obtain ⟨hd, hne, hval⟩ := toDigits_spec y.toNat
    rw [htext]
    refine ⟨hd, hne, ?_, hval⟩
    exact (Nat.length_toDigits_le_iff (by decide) (by decide)).mpr (by omega)

theorem readNum_yearText {y : Int} (h0 : 0 ≤ y) (h1 : y ≤ 9999) (rest : List Char) :
    readNum 0 9999 4 (yearText y ++ '-' :: rest) = some (y.toNat, '-' :: rest) := by
  obtain ⟨hd, hne, hlen, hval⟩ := yearText_spec h0 h1
  rw [← hval]
  refine readNum_digits hd hne hlen (Nat.zero_le _) (by omega) ?_
  rintro c hc
  obtain rfl := Option.some.inj hc
  decide

theorem dropWhile_isSpace_twoDigits (n : Nat) (rest : List Char) :
    (twoDigits n ++ rest).dropWhile isSpace = twoDigits n ++ rest := by
  simp [twoDigits, (digit_spec (n / 10)).2.2]

theorem dropWhile_isSpace_digits {ds : List Char} (hd : ∀ c ∈ ds, c.isDigit = true)
    (hne : ds ≠ []) (rest : List Char) : (ds ++ rest).dropWhile isSpace = ds ++ rest := by
  cases ds with
  | nil => exact absurd rfl hne
  | cons c cs =>
    refine List.dropWhile_cons_of_neg ?_
    rw [isSpace_of_isDigit (hd c List.mem_cons_self)]
    decide

/-- Reading a date back, as long as its year has at most four digits. -/
theorem getTime_strftimeFT {t : Tm} (hy0 : 0 ≤ t.date.year) (hy1 : t.date.year ≤ 9999)
    (hm : 1 ≤ t.date.month ∧ t.date.month ≤ 12) (hd : 1 ≤ t.date.day ∧ t.date.day ≤ 31)
    (hh : 0 ≤ t.hour ∧ t.hour < 24) (hmin : 0 ≤ t.min ∧ t.min < 60)
    (hs : 0 ≤ t.sec ∧ t.sec < 60) : getTime (strftimeFT t) = some t := by
  obtain ⟨hdigits, hne, -, -⟩ := yearText_spec hy0 hy1
  have e0 := dropWhile_isSpace_digits hdigits hne
  have e1 := readNum_yearText hy0 hy1
  have e2 := @readNum_twoDigits 1 12 t.date.month.toNat (by omega) (by omega) (by omega)
  have e3 := @readNum_twoDigits 1 31 t.date.day.toNat (by omega) (by omega) (by omega)
  have e4 := @readNum_twoDigits 0 23 t.hour.toNat (by omega) (by omega) (by omega)
  have e5 := @readNum_twoDigits 0 59 t.min.toNat (by omega) (by omega) (by omega)
  have e6 := @readNum_twoDigits 0 60 t.sec.toNat (by omega) (by omega) (by omega) []
  rw [List.append_nil] at e6
  have hsp : isSpace ' ' = true := by decide
  simp only [getTime, strftimeFT, List.append_assoc, List.cons_append,
    e0, e1, e2, e3, e4, e5, e6, readChar, if_true, List.isEmpty_cons, Bool.false_eq_true, if_false,
    Option.bind_eq_bind, Option.bind_some, Option.pure_def,
    List.dropWhile_cons_of_pos hsp, dropWhile_isSpace_twoDigits, Option.some.injEq]
  obtain ⟨⟨y, m, d⟩, h, mi, s⟩ := t
  simp only [Tm.mk.injEq, Date.mk.injEq] at *
  omega

/-- Five digits are not read as a year. -/
theorem getTime_long {ds rest : List Char} (hd : ∀ c ∈ ds, c.isDigit = true)
    (hlen : 5 ≤ ds.length) : getTime (ds ++ rest) = none := by
  obtain ⟨c, hc⟩ : ∃ c, ds.drop 4 = c :: ds.drop 5 :=
    ⟨ds[4], List.drop_eq_getElem_cons (by omega)⟩
  have hne : c ≠ '-' := by
    rintro rfl
    have hmem : '-' ∈ ds := List.mem_of_mem_drop (hc ▸ List.mem_cons_self)
    exact absurd (hd _ hmem) (by decide)
  have hall : ∀ x ∈ ds.take 4, x.isDigit = true := fun x hx => hd x (List.mem_of_mem_take hx)
  have hread : ((ds ++ rest).take 4).takeWhile Char.isDigit = ds.take 4 := by
    rw [List.take_append_of_le_length (by omega), List.takeWhile_eq_self_iff.mpr hall]
  have hrest : (ds ++ rest).drop 4 = c :: (ds.drop 5 ++ rest) := by
    rw [List.drop_append_of_le_length (by omega), hc]
    rfl
  have hfour : (ds.take 4).length = 4 := by
    rw [List.length_take]
    omega
  have hyear : readNum 0 9999 4 (ds ++ rest) = none ∨
      ∃ v, readNum 0 9999 4 (ds ++ rest) = some (v, c :: (ds.drop 5 ++ rest)) := by
    unfold readNum
    simp only [hread, hfour, hrest]
    split
    · exact .inr ⟨_, rfl⟩
    · exact .inl rfl
  have hnil : ds ≠ [] := fun h => by rw [h] at hlen; exact absurd hlen (by decide)
  unfold getTime
  rw [dropWhile_isSpace_digits hd hnil]
  rcases hyear with h | ⟨v, h⟩
  · rw [h]
    rfl
  · simp only [h, readChar, if_neg hne, List.isEmpty_cons, Bool.false_eq_true, if_false,
      Option.bind_eq_bind, Option.bind_some, Option.bind_none]

/-- Nor is a number below zero. -/
theorem getTime_negative (rest : List Char) : getTime ('-' :: rest) = none := rfl

/-- **Reading back a date the daemon writes** gives the time it was written for, less the host's
offset from UTC, if its year has at most four digits, and fails for all others. -/
theorem humanToTimestamp_formatTime_year (tz t : Int) : humanToTimestamp tz (formatTime t) =
    if 0 ≤ (gmtime t).date.year ∧ (gmtime t).date.year ≤ 9999 then t - tz else 0 := by
  rw [humanToTimestamp, formatTime, String.toList_ofList]
  by_cases hy : 0 ≤ (gmtime t).date.year ∧ (gmtime t).date.year ≤ 9999
  · have hg : getTime (strftimeFT (gmtime t)) = some (gmtime t) := by
      refine getTime_strftimeFT hy.1 hy.2 (ofDays_month _) (ofDays_day _) ?_ ?_ ?_ <;>
        simp only [gmtime] <;> omega
    rw [hg, if_pos hy]
    simp only [mktime, timegm_gmtime]
  · have hnone : getTime (strftimeFT (gmtime t)) = none := by
      unfold strftimeFT yearText
      generalize (gmtime t).date.year = y at hy ⊢
      rw [if_neg (by omega)]
      by_cases hneg : y < 0
      · rw [Int.toString_eq_repr, Int.repr_eq_if, if_neg (by omega), String.toList_append]
        exact getTime_negative _
      · have hlen : ¬ (Nat.toDigits 10 y.toNat).length ≤ 4 := by
          rw [Nat.length_toDigits_le_iff (by decide) (by decide)]
          omega
        rw [toList_toString (by omega)]
        simp only [List.append_assoc]
        exact getTime_long (toDigits_spec _).1 (by omega)
    rw [hnone, if_neg hy]

/-- A date the daemon writes reads back, from 1970 up to 9999. -/
theorem humanToTimestamp_formatTime (tz : Int) {t : Int} (h0 : 0 ≤ t) (h1 : t < 253370764800) :
    humanToTimestamp tz (formatTime t) = t - tz := by
  have hy : 1000 ≤ (gmtime t).date.year ∧ (gmtime t).date.year ≤ 9999 :=
    ofDays_year (by omega) (by omega)
  rw [humanToTimestamp_formatTime_year, if_pos ⟨by omega, hy.2⟩]

/-! ## Numbers that are kept as texts -/

/-- The sign in front of the digits. -/
def readSign : List Char → Bool × List Char
  | '-' :: r => (true, r)
  | '+' :: r => (false, r)
  | r => (false, r)

/-- What `strtol` reads in base 10, before it is cut to a `long`; `none` if there is no digit. -/
def strtolValue (s : String) : Option Int :=
  let cs := (s.toList.takeWhile (· != '\x00')).dropWhile isSpace
  let (neg, ds) := readSign cs
  let ds := ds.takeWhile Char.isDigit
  if ds = [] then none else some (if neg then -(digitsVal ds : Int) else digitsVal ds)

/-- The value has to fit into `bits` bits. -/
def stringToInt (bits : Nat) (s : String) : Except Exn Int :=
  match strtolValue s with
  | none => .error .invalidArgument
  | some v => if -2 ^ (bits - 1) ≤ v ∧ v < 2 ^ (bits - 1) then .ok v else .error .outOfRange

def stoi (s : String) : Except Exn Int := stringToInt 32 s

def stol (s : String) : Except Exn Int := stringToInt 64 s

/-- There is no NUL among digits. -/
theorem takeWhile_ne_nul_digits {ds : List Char} (hd : ∀ c ∈ ds, c.isDigit = true) :
    ds.takeWhile (· != '\x00') = ds := by
  rw [List.takeWhile_eq_self_iff]
  intro c hc
  rw [bne_iff_ne]
  rintro rfl
  exact absurd (hd _ hc) (by decide)

theorem readSign_digits {ds : List Char} (hd : ∀ c ∈ ds, c.isDigit = true) :
    readSign ds = (false, ds) := by
  unfold readSign
  split
  · exact absurd (hd '-' List.mem_cons_self) (by decide)
  · exact absurd (hd '+' List.mem_cons_self) (by decide)
  · rfl

/-- Digits alone are read as they are, and after a minus as a number below zero. -/
theorem strtolValue_digits {s : String} {ds : List Char} (hd : ∀ c ∈ ds, c.isDigit = true)
    (hne : ds ≠ []) :
    (s.toList = ds → strtolValue s = some (digitsVal ds : Int)) ∧
      (s.toList = '-' :: ds → strtolValue s = some (-(digitsVal ds : Int))) := by
  have hnul := takeWhile_ne_nul_digits hd
  have hdigits : ds.takeWhile Char.isDigit = ds := List.takeWhile_eq_self_iff.mpr hd
  have hspace := dropWhile_isSpace_digits hd hne []
  rw [List.append_nil] at hspace
  constructor
  · intro hs
    unfold strtolValue
    simp only [hs, hnul, hspace, readSign_digits hd, hdigits, if_neg hne, Bool.false_eq_true, if_false]
  · intro hs
    have hall : ('-' :: ds).takeWhile (· != '\x00') = '-' :: ds := by
      rw [List.takeWhile_cons_of_pos (by decide), hnul]
    have hdrop : ('-' :: ds).dropWhile isSpace = '-' :: ds :=
      List.dropWhile_cons_of_neg (by decide)
    unfold strtolValue
    have hsign : readSign ('-' :: ds) = (true, ds) := rfl
    simp only [hs, hall, hdrop, hsign, hdigits, if_neg hne, if_true]

/-- The text of a number reads back. -/
theorem strtolValue_toString (d : Int) : strtolValue (toString d) = some d := by
  by_cases h : 0 ≤ d
  · obtain ⟨hd, hne, hval⟩ := toDigits_spec d.toNat
    rw [(strtolValue_digits hd hne).1 (toList_toString h), hval, Int.toNat_of_nonneg h]
  · obtain ⟨hd, hne, hval⟩ := toDigits_spec (-d).toNat
    have htext : (toString d).toList = '-' :: Nat.toDigits 10 (-d).toNat := by
      rw [Int.toString_eq_repr, Int.repr_eq_if, if_neg h, String.toList_append, Nat.toList_repr]
      rfl
    rw [(strtolValue_digits hd hne).2 htext, hval, Int.toNat_of_nonneg (by omega), Int.neg_neg]

theorem stringToInt_toString (bits : Nat) (d : Int) : stringToInt bits (toString d) =
    if -2 ^ (bits - 1) ≤ d ∧ d < 2 ^ (bits - 1) then .ok d else .error .outOfRange := by
  unfold stringToInt
  rw [strtolValue_toString]

theorem toString_ne_empty (d : Int) : toString d ≠ "" := by
  intro h
  have hread := strtolValue_toString d
  rw [h] at hread
  cases hread

/-! ## Ids -/

/-- The JSON values that stand for the number `n`: an integer of 64 bits, or a double, which from
`2 ^ 64` on need not be exact. -/
inductive IsNumber (n : Nat) : Json → Prop
  | int : n < 2 ^ 64 → IsNumber n (.int n)
  | real (q : Rat) (text : String) : q = n ∨ 2 ^ 64 ≤ n ∧ 2 ^ 64 ≤ q → IsNumber n (.real q text)

/-- The string of the digits of `n`. -/
def digitString (n : Nat) : Json := .str (toString n)

/-- How the panel sends the id `n`. -/
def SentAs (n : Nat) (j : Json) : Prop := IsNumber n j ∨ j = digitString n

/-- Each of these ids is decoded to the same value from both forms, and no two of them to the same
value but 0. -/
structure IdsDecoded (ids : Set Nat) : Prop where
  same : ∀ n ∈ ids, ∀ j, IsNumber n j → getJsonUInt j = getJsonUInt (digitString n)
  distinct : ∀ m ∈ ids, ∀ n ∈ ids, m ≠ n → ∀ j k, SentAs m j → SentAs n k →
    getJsonUInt j = getJsonUInt k → getJsonUInt j = 0

/-- What is read from digits alone. -/
theorem strtoul_digits {s : String} (hd : ∀ c ∈ s.toList, c.isDigit = true)
    (hne : s.toList ≠ []) :
    strtoul s = if 2 ^ 64 ≤ digitsVal s.toList then 2 ^ 64 - 1 else digitsVal s.toList := by
  have hspace := dropWhile_isSpace_digits hd hne []
  rw [List.append_nil] at hspace
  have hdigits : s.toList.takeWhile Char.isDigit = s.toList := List.takeWhile_eq_self_iff.mpr hd
  have hread : strtoul s =
      let (neg, ds) := readSign ((s.toList.takeWhile (· != '\x00')).dropWhile isSpace)
      let v := digitsVal (ds.takeWhile Char.isDigit)
      if 2 ^ 64 ≤ v then 2 ^ 64 - 1 else if neg then (2 ^ 64 - v) % 2 ^ 64 else v := rfl
  rw [hread, takeWhile_ne_nul_digits hd, hspace, readSign_digits hd]
  simp only [hdigits, Bool.false_eq_true, if_false]

theorem getJsonUInt_digitString (n : Nat) :
    getJsonUInt (digitString n) = (if 2 ^ 64 ≤ n then 2 ^ 64 - 1 else n) % 2 ^ 32 := by
  obtain ⟨hd, hne, hval⟩ := toDigits_spec n
  have htext : (toString n).toList = Nat.toDigits 10 n := Nat.toList_repr
  rw [← htext] at hd hne hval
  show strtoul (toString n) % 2 ^ 32 = _
  rw [strtoul_digits hd hne, hval]

theorem IsNumber.getJsonUInt_eq {n : Nat} {j : Json} (h : IsNumber n j) :
    getJsonUInt j = if n < 2 ^ 32 then n else 0 := by
  cases h with
  | int _ =>
    have hu : Json.isUInt (.int n) = decide (n < 2 ^ 32) := by
      rw [Json.isUInt, decide_eq_decide]
      omega
    unfold getJsonUInt
    simp only [hu, decide_eq_true_eq]
    rfl
  | real q text h =>
    unfold getJsonUInt
    rcases h with rfl | ⟨hn, hq⟩
    · have hlt : ((n : Rat) < 2 ^ 32) ↔ n < 2 ^ 32 := by exact_mod_cast Iff.rfl
      simp only [Json.isUInt, Json.toInt, decide_eq_true_eq, hlt, Nat.cast_nonneg, true_and,
        Rat.den_natCast, and_true, Rat.num_natCast, Nat.cast_one, Int.tdiv_one, Int.toNat_natCast]
    · have hu : Json.isUInt (.real q text) = false := by
        rw [Json.isUInt, decide_eq_false_iff_not]
        rintro ⟨-, hlt, -⟩
        have hlarge : (2 : Rat) ^ 32 < 2 ^ 64 := by norm_num
        exact absurd (hlt.trans hlarge) (not_lt.mpr hq)
      have hn32 : ¬ n < 2 ^ 32 := by omega
      simp only [hu, Bool.false_eq_true, if_false, if_neg hn32]

/-- An `unsigned int`, or a multiple of `2 ^ 32` that fits an `unsigned long`. -/
def FormsAgree (n : Nat) : Prop := n < 2 ^ 32 ∨ n < 2 ^ 64 ∧ 2 ^ 32 ∣ n

theorem getJsonUInt_digitString_eq_iff (n : Nat) :
    getJsonUInt (digitString n) = (if n < 2 ^ 32 then n else 0) ↔ FormsAgree n := by
  have hmax : (2 ^ 64 - 1) % 2 ^ 32 = 4294967295 := by decide
  rw [getJsonUInt_digitString]
  unfold FormsAgree
  by_cases hlarge : 2 ^ 64 ≤ n
  · have hn32 : ¬ n < 2 ^ 32 := by omega
    rw [if_pos hlarge, hmax, if_neg hn32]
    exact iff_of_false (by decide) (by omega)
  · rw [if_neg hlarge]
    split_ifs <;> omega

theorem exists_isNumber (n : Nat) : ∃ j, IsNumber n j := by
  by_cases h : n < 2 ^ 64
  · exact ⟨.int n, .int h⟩
  · exact ⟨.real n (toString n), .real _ _ (.inl rfl)⟩

/-- An id whose two forms agree is decoded to itself or to 0. -/
theorem SentAs.getJsonUInt_eq {n : Nat} {j : Json} (h : SentAs n j) (hn : FormsAgree n) :
    getJsonUInt j = if n < 2 ^ 32 then n else 0 := by
  rcases h with h | rfl
  · exact h.getJsonUInt_eq
  · exact (getJsonUInt_digitString_eq_iff n).mpr hn

/-- **Ids.** A set of ids is decoded faithfully exactly if each of them is below `2 ^ 32`, or a
multiple of `2 ^ 32` below `2 ^ 64`. -/
theorem idsDecoded_iff (ids : Set Nat) :
    IdsDecoded ids ↔ ∀ n ∈ ids, n < 2 ^ 32 ∨ n < 2 ^ 64 ∧ 2 ^ 32 ∣ n := by
  constructor
  · intro h n hn
    obtain ⟨j, hj⟩ := exists_isNumber n
    have hsame := h.same n hn j hj
    rw [hj.getJsonUInt_eq] at hsame
    exact (getJsonUInt_digitString_eq_iff n).mp hsame.symm
  · intro h
    refine ⟨fun n hn j hj => ?_, fun m hm n hn hne j k hj hk he => ?_⟩
    · rw [hj.getJsonUInt_eq, (getJsonUInt_digitString_eq_iff n).mpr (h n hn)]
    · have hj' := hj.getJsonUInt_eq (h m hm)
      have hk' := hk.getJsonUInt_eq (h n hn)
      by_cases hm32 : m < 2 ^ 32
      · by_cases hn32 : n < 2 ^ 32
        · rw [if_pos hm32] at hj'
          rw [if_pos hn32] at hk'
          exact absurd (hj'.symm.trans (he.trans hk')) hne
        · rw [he, hk', if_neg hn32]
      · rw [hj', if_neg hm32]

/-- The string of `2 ^ 32 + 1` is decoded to 1, the number to 0. -/
theorem ids_not_decoded : ¬ ∀ ids : Set Nat, IdsDecoded ids := by
  intro h
  have hone := (h {1, 4294967297}).distinct 1 (.inl rfl) 4294967297 (.inr rfl) (by decide)
    (.int 1) (digitString 4294967297) (.inl (.int (by decide))) (.inr rfl) (by decide +kernel)
  revert hone
  decide +kernel

/-! ## Replacing -/

/-- `str_replace`; `search` is not empty. -/
def strReplace (search replace subject : String) : String :=
  String.ofList (Lib.Substitution.replace search.toList replace.toList subject.toList)

theorem toList_strReplace (search replace subject : String) :
    (strReplace search replace subject).toList =
      Lib.Substitution.replace search.toList replace.toList subject.toList :=
  String.toList_ofList

end GameAP
