import FieldDiscovery.Lib.Str

/-!
# Aware datetimes

An aware `datetime` is its local clock reading, as microseconds since `0001-01-01T00:00`, and its
UTC offset in microseconds. The calendar fields are read off the day number the way
`datetime._ord2ymd` does.
-/

namespace Py

/-- Microseconds of one day. -/
def microsPerDay : Nat := 86400000000

/-- Days from `0001-01-01` to `9999-12-31`, both included. -/
def maxDays : Nat := 3652059

/-- The day number of `1970-01-01`. -/
def epochDay : Nat := 719162

/-- An aware `datetime`. -/
structure Datetime where
  /-- The local reading, in microseconds since `0001-01-01T00:00`. -/
  micros : Nat
  /-- `utcoffset()`, in microseconds. -/
  offset : Int
  micros_lt : micros < maxDays * microsPerDay
  offset_lt : offset.natAbs < microsPerDay
  deriving DecidableEq

/-! Bounds of the instants that are written as literals. -/

theorem zero_offset : Int.natAbs 0 < microsPerDay := by decide

theorem zero_inCalendar : 0 < maxDays * microsPerDay := by decide

theorem epoch_inCalendar : epochDay * microsPerDay < maxDays * microsPerDay := by decide

theorem later_inCalendar {seconds : Nat} (h : seconds ≤ 3600) :
    epochDay * microsPerDay + seconds * 1000000 < maxDays * microsPerDay :=
  (Nat.add_le_add_left (Nat.mul_le_mul_right _ h) _).trans_lt (by decide)

theorem zero_le_hour : 0 ≤ 3600 := Nat.zero_le _

theorem ten_le_hour : 10 ≤ 3600 := by decide

/-- An instant of the year 1997, which several samples share. -/
theorem sample_inCalendar : 63000000000000000 < maxDays * microsPerDay := by decide

namespace Datetime

/-- Days before month `m` in a year that is not a leap year. -/
def daysBeforeMonth (m : Nat) : Nat :=
  [0, 0, 31, 59, 90, 120, 151, 181, 212, 243, 273, 304, 334].getD m 0

/-- Days of month `m` in a year that is not a leap year. -/
def daysInMonth (m : Nat) : Nat := [0, 31, 28, 31, 30, 31, 30, 31, 31, 30, 31, 30, 31].getD m 0

/-- The month and the day of a day of the year, counted from zero. -/
def monthDay (leap : Prop) [Decidable leap] (n : Nat) : Nat × Nat :=
  let month := (n + 50) / 32
  let preceding := daysBeforeMonth month + if month > 2 ∧ leap then 1 else 0
  if preceding > n then
    let month := month - 1
    let preceding := preceding - (daysInMonth month + if month = 2 ∧ leap then 1 else 0)
    (month, n - preceding + 1)
  else (month, n - preceding + 1)

/-- `datetime._ord2ymd` of the day number `n`, counted from zero. -/
def ord2ymd (n : Nat) : Nat × Nat × Nat :=
  let n400 := n / 146097
  let n := n % 146097
  let n100 := n / 36524
  let n := n % 36524
  let n4 := n / 1461
  let n := n % 1461
  let n1 := n / 365
  let n := n % 365
  let year := n400 * 400 + 1 + n100 * 100 + n4 * 4 + n1
  if n1 = 4 ∨ n100 = 4 then (year - 1, 12, 31)
  else (year, monthDay (n1 = 3 ∧ (n4 ≠ 24 ∨ n100 = 3)) n)

/-- `(year, month, day)`. -/
def ymd (d : Datetime) : Nat × Nat × Nat := ord2ymd (d.micros / microsPerDay)

/-- The instant, in microseconds since `0001-01-01T00:00` UTC; aware datetimes compare by it. -/
def instant (d : Datetime) : Int := d.micros - d.offset

/-- `f"{d:%Y%m%d}"`. -/
def compactDate (d : Datetime) : Str :=
  padNat 4 d.ymd.1 ++ padNat 2 d.ymd.2.1 ++ padNat 2 d.ymd.2.2

/-- The offset suffix of `isoformat`: `+HH:MM[:SS[.ffffff]]`. -/
def isoOffset (offset : Int) : Str :=
  let off := offset.natAbs
  let sign := if offset < 0 then str "-" else str "+"
  let seconds := off / 1000000
  let us := off % 1000000
  let ss := seconds % 60
  sign ++ padNat 2 (seconds / 3600) ++ str ":" ++ padNat 2 (seconds / 60 % 60) ++
    (if ss ≠ 0 ∨ us ≠ 0 then str ":" ++ padNat 2 ss else []) ++
    (if us ≠ 0 then str "." ++ padNat 6 us else [])

/-- `d.isoformat()`. -/
def isoformat (d : Datetime) : Str :=
  let seconds := d.micros % microsPerDay / 1000000
  let us := d.micros % 1000000
  padNat 4 d.ymd.1 ++ str "-" ++ padNat 2 d.ymd.2.1 ++ str "-" ++ padNat 2 d.ymd.2.2 ++
    str "T" ++ padNat 2 (seconds / 3600) ++ str ":" ++ padNat 2 (seconds / 60 % 60) ++ str ":" ++
    padNat 2 (seconds % 60) ++ (if us ≠ 0 then str "." ++ padNat 6 us else []) ++
    isoOffset d.offset

/-- The instant `us` microseconds after the Unix epoch as a UTC datetime, when the calendar has
it. -/
def ofEpochMicros (us : Int) : Option Datetime :=
  let m := us + (epochDay * microsPerDay : Nat)
  if h : 0 ≤ m ∧ m.toNat < maxDays * microsPerDay then
    some ⟨m.toNat, 0, h.2, zero_offset⟩
  else none

/-- `datetime.strptime(s, "%Y%m%d")` of eight digits; `none` is `ValueError`. -/
def parseCompactDate (s : Str) : Option (Nat × Nat × Nat) :=
  let year := decimal (s.take 4)
  let month := decimal ((s.drop 4).take 2)
  let day := decimal (s.drop 6)
  let leap := year % 4 = 0 ∧ (year % 100 ≠ 0 ∨ year % 400 = 0)
  if 1 ≤ year ∧ 1 ≤ month ∧ month ≤ 12 ∧ 1 ≤ day ∧
      day ≤ daysInMonth month + (if month = 2 ∧ leap then 1 else 0) then some (year, month, day)
  else none

/-! ## The calendar -/

/-- A date of the calendar. -/
structure IsDate (year month day : Nat) : Prop where
  year_pos : 1 ≤ year
  year_le : year ≤ 9999
  month_pos : 1 ≤ month
  month_le : month ≤ 12
  day_pos : 1 ≤ day
  day_le : day ≤ daysInMonth month +
    if month = 2 ∧ year % 4 = 0 ∧ (year % 100 ≠ 0 ∨ year % 400 = 0) then 1 else 0

theorem monthDay_spec (leap : Bool) : ∀ n < 365,
    1 ≤ (monthDay (leap = true) n).1 ∧ (monthDay (leap = true) n).1 ≤ 12 ∧
      1 ≤ (monthDay (leap = true) n).2 ∧ (monthDay (leap = true) n).2 ≤
        daysInMonth (monthDay (leap = true) n).1 +
          if (monthDay (leap = true) n).1 = 2 ∧ leap = true then 1 else 0 := by
  cases leap <;> decide +kernel

/-- `_ord2ymd` gives a date of the calendar. -/
theorem ord2ymd_isDate {n : Nat} (h : n < maxDays) :
    IsDate (ord2ymd n).1 (ord2ymd n).2.1 (ord2ymd n).2.2 := by
  unfold maxDays at h
  unfold ord2ymd
  simp only
  split
  · next hlast =>
    exact
      { year_pos := by dsimp only; omega
        year_le := by dsimp only; omega
        month_pos := by dsimp only; omega
        month_le := le_rfl
        day_pos := by dsimp only; omega
        day_le := le_rfl }
  · next hlast =>
    obtain ⟨h1, h2, h3, h4⟩ := monthDay_spec
      (decide (n % 146097 % 36524 % 1461 / 365 = 3 ∧ (n % 146097 % 36524 / 1461 ≠ 24 ∨
        n % 146097 / 36524 = 3))) (n % 146097 % 36524 % 1461 % 365) (Nat.mod_lt _ (by norm_num))
    simp only [decide_eq_true_eq] at h1 h2 h3 h4
    refine ⟨by dsimp only; omega, by dsimp only; omega, h1, h2, h3, h4.trans ?_⟩
    refine Nat.add_le_add_left ?_ _
    split
    · next hleap =>
      rw [if_pos]
      refine ⟨hleap.1, ?_⟩
      dsimp only
      omega
    · exact Nat.zero_le _

theorem ymd_isDate (d : Datetime) : IsDate d.ymd.1 d.ymd.2.1 d.ymd.2.2 := by
  refine ord2ymd_isDate ?_
  have := d.micros_lt
  unfold microsPerDay at *
  omega

theorem IsDate.day_lt {year month day : Nat} (h : IsDate year month day) : day < 100 := by
  have hle := h.day_le
  have hmonth : ∀ m ≤ 12, daysInMonth m ≤ 31 := by decide
  have := hmonth month h.month_le
  split at hle <;> omega

/-- `f"{d:%Y%m%d}"` is eight digits, and reads back as the date. -/
theorem compactDate_spec (d : Datetime) : d.compactDate.length = 8 ∧
    d.compactDate.all isDigit = true ∧ parseCompactDate d.compactDate = some d.ymd := by
  have hdate := d.ymd_isDate
  have hy := padNat_length (n := d.ymd.1) (w := 4) (by norm_num) (by have := hdate.year_le; omega)
  have hm := padNat_length (n := d.ymd.2.1) (w := 2) (by norm_num)
    (by have := hdate.month_le; omega)
  have hd := padNat_length (n := d.ymd.2.2) (w := 2) (by norm_num) (by have := hdate.day_lt; omega)
  unfold compactDate
  refine ⟨by simp [hy, hm, hd], by simp [padNat_digits], ?_⟩
  have h4 : (padNat 4 d.ymd.1 ++ padNat 2 d.ymd.2.1 ++ padNat 2 d.ymd.2.2).take 4 =
      padNat 4 d.ymd.1 := by
    rw [List.append_assoc, List.take_left' hy]
  have h2 : ((padNat 4 d.ymd.1 ++ padNat 2 d.ymd.2.1 ++ padNat 2 d.ymd.2.2).drop 4).take 2 =
      padNat 2 d.ymd.2.1 := by
    rw [List.append_assoc, List.drop_left' hy, List.take_left' hm]
  have h6 : (padNat 4 d.ymd.1 ++ padNat 2 d.ymd.2.1 ++ padNat 2 d.ymd.2.2).drop 6 =
      padNat 2 d.ymd.2.2 := by
    rw [List.drop_left' (by rw [List.length_append, hy, hm])]
  unfold parseCompactDate
  simp only [h4, h2, h6, decimal_padNat]
  rw [if_pos ⟨hdate.year_pos, hdate.month_pos, hdate.month_le, hdate.day_pos, hdate.day_le⟩]

end Datetime

end Py
