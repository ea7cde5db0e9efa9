import FieldDiscovery.Lib.Iso

/-!
# Reading an ISO text

`datetime.fromisoformat` on the texts that `isoformat` writes for UTC times. It reads other forms too;
what it makes of those is a parameter. Reading a written time gives the time (`fromisoformat_isoformat`).
-/

open List

namespace Py

namespace Datetime

/-! ## Day numbers -/

/-- `datetime._days_before_year(year)` -/
def daysBeforeYear (year : Nat) : Nat :=
  (year - 1) * 365 + (year - 1) / 4 - (year - 1) / 100 + (year - 1) / 400

/-- `datetime._ymd2ord`, counted from zero. -/
def ymd2ord (year month day : Nat) : Nat :=
  daysBeforeYear year + (daysBeforeMonth month +
    if month > 2 ∧ year % 4 = 0 ∧ (year % 100 ≠ 0 ∨ year % 400 = 0) then 1 else 0) + (day - 1)

theorem monthDay_days (leap : Bool) : ∀ n < 365,
    daysBeforeMonth (monthDay (leap = true) n).1 +
      (if (monthDay (leap = true) n).1 > 2 ∧ leap = true then 1 else 0) +
        ((monthDay (leap = true) n).2 - 1) = n := by
  cases leap <;> decide +kernel

/-- The last day of a leap year, or of a cycle. -/
theorem ymd2ord_last {a b c d : Nat} (hc : c ≤ 24) (h : b = 4 ∧ c = 0 ∧ d = 0 ∨ b ≤ 3 ∧ d = 4 ∧
    (c ≠ 24 ∨ b = 3)) : ymd2ord (a * 400 + 1 + b * 100 + c * 4 + d - 1) 12 31 =
      146097 * a + 36524 * b + 1461 * c + 365 * d := by
  unfold ymd2ord daysBeforeYear
  have hdays : daysBeforeMonth 12 = 334 := rfl
  rw [hdays, if_pos (by omega)]
  omega

theorem ymd2ord_inner {a b c d e : Nat} (hb : b ≤ 3) (hc : c ≤ 24) (hd : d ≤ 3) (he : e < 365) :
    ymd2ord (a * 400 + 1 + b * 100 + c * 4 + d) (monthDay (d = 3 ∧ (c ≠ 24 ∨ b = 3)) e).1
      (monthDay (d = 3 ∧ (c ≠ 24 ∨ b = 3)) e).2 =
      146097 * a + 36524 * b + 1461 * c + 365 * d + e := by
  have hmonth := monthDay_days (decide (d = 3 ∧ (c ≠ 24 ∨ b = 3))) e he
  simp only [decide_eq_true_eq] at hmonth
  have hleap : ((a * 400 + 1 + b * 100 + c * 4 + d) % 4 = 0 ∧
      ((a * 400 + 1 + b * 100 + c * 4 + d) % 100 ≠ 0 ∨
        (a * 400 + 1 + b * 100 + c * 4 + d) % 400 = 0)) ↔ d = 3 ∧ (c ≠ 24 ∨ b = 3) := by omega
  unfold ymd2ord
  simp only [hleap]
  have hyear : daysBeforeYear (a * 400 + 1 + b * 100 + c * 4 + d) =
      146097 * a + 36524 * b + 1461 * c + 365 * d := by
    unfold daysBeforeYear
    omega
  omega

/-- Days before the year of a day, its month and its place in the month make the day again. -/
theorem ymd2ord_ord2ymd (n : Nat) :
    ymd2ord (ord2ymd n).1 (ord2ymd n).2.1 (ord2ymd n).2.2 = n := by
  have hn : n = 146097 * (n / 146097) + 36524 * (n % 146097 / 36524) +
      1461 * (n % 146097 % 36524 / 1461) + 365 * (n % 146097 % 36524 % 1461 / 365) +
        n % 146097 % 36524 % 1461 % 365 := by omega
  unfold ord2ymd
  simp only
  split
  · next hlast =>
    have hzero : n % 146097 % 36524 % 1461 % 365 = 0 := by omega
    rw [ymd2ord_last (by omega) (by omega)]
    omega
  · next hlast =>
    rw [ymd2ord_inner (by omega) (by omega) (by omega) (by omega)]
    exact hn.symm

/-! ## Fields -/

/-- The number in the first `n` characters, all of them digits. -/
def readDigits (n : Nat) (s : Str) : Option (Nat × Str) :=
  if (s.take n).length = n ∧ (s.take n).all isDigit then some (decimal (s.take n), s.drop n)
  else none

/-- What follows `lit`. -/
def readLit (lit : Str) (s : Str) : Option Str :=
  if lit <+: s then some (s.drop lit.length) else none

/-- The fraction of the seconds and the zone. -/
def readFraction (s : Str) : Option Nat :=
  if s = str "+00:00" then some 0
  else do
    let s ← readLit (str ".") s
    let (us, s) ← readDigits 6 s
    if s = str "+00:00" then some us else none

/-- The fields of an ISO text in the form `isoformat` gives it for UTC. -/
structure IsoFields where
  year : Nat
  month : Nat
  day : Nat
  hour : Nat
  minute : Nat
  second : Nat
  microsecond : Nat

def isoFields (s : Str) : Option IsoFields := do
  let (year, s) ← readDigits 4 s
  let s ← readLit (str "-") s
  let (month, s) ← readDigits 2 s
  let s ← readLit (str "-") s
  let (day, s) ← readDigits 2 s
  let s ← readLit (str "T") s
  let (hour, s) ← readDigits 2 s
  let s ← readLit (str ":") s
  let (minute, s) ← readDigits 2 s
  let s ← readLit (str ":") s
  let (second, s) ← readDigits 2 s
  let microsecond ← readFraction s
  some ⟨year, month, day, hour, minute, second, microsecond⟩

instance (year month day : Nat) : Decidable (IsDate year month day) :=
  decidable_of_iff (1 ≤ year ∧ year ≤ 9999 ∧ 1 ≤ month ∧ month ≤ 12 ∧ 1 ≤ day ∧
    day ≤ daysInMonth month +
      if month = 2 ∧ year % 4 = 0 ∧ (year % 100 ≠ 0 ∨ year % 400 = 0) then 1 else 0)
    ⟨fun ⟨h₁, h₂, h₃, h₄, h₅, h₆⟩ => ⟨h₁, h₂, h₃, h₄, h₅, h₆⟩,
      fun ⟨h₁, h₂, h₃, h₄, h₅, h₆⟩ => ⟨h₁, h₂, h₃, h₄, h₅, h₆⟩⟩

/-- The time with these fields; `none` is `ValueError`. -/
def IsoFields.toUtc (f : IsoFields) : Option Utc :=
  let micros := ymd2ord f.year f.month f.day * microsPerDay + f.hour * 3600000000 +
    f.minute * 60000000 + f.second * 1000000 + f.microsecond
  if h : IsDate f.year f.month f.day ∧ f.hour < 24 ∧ f.minute < 60 ∧ f.second < 60 ∧
      micros < maxDays * microsPerDay then some ⟨micros, h.2.2.2.2⟩
  else none

/-- `datetime.fromisoformat(text)`; `none` is `ValueError`. -/
def fromisoformat (other : Str → Option Stamp) (s : Str) : Option Stamp :=
  match isoFields s with
  | some f => f.toUtc.map Utc.stamp
  | none => other s

theorem readDigits_padNat {n w : Nat} (hw : 0 < w) (h : n < 10 ^ w) (s : Str) :
    readDigits w (padNat w n ++ s) = some (n, s) := by
  have hlength := padNat_length hw h
  unfold readDigits
  rw [take_left' hlength, drop_left' hlength, if_pos ⟨hlength, padNat_digits w n⟩, decimal_padNat]

theorem readLit_append (lit s : Str) : readLit lit (lit ++ s) = some s := by
  unfold readLit
  rw [if_pos (prefix_append lit s), drop_left]

theorem readFraction_fraction {us : Nat} (h : us < 1000000) :
    readFraction (fraction us ++ str "+00:00") = some us := by
  unfold fraction readFraction
  by_cases hus : us = 0
  · subst hus
    rfl
  · have hne : (str "." ++ padNat 6 us) ++ str "+00:00" ≠ str "+00:00" := by
      intro heq
      have hhead : some (cp '.') = some (cp '+') := congrArg List.head? heq
      exact absurd hhead (by decide)
    rw [if_pos hus, if_neg hne, append_assoc, readLit_append]
    simp [readDigits_padNat (show 0 < 6 by norm_num) (show us < 10 ^ 6 by omega)]

theorem isoFields_text {f : IsoFields} (hyear : f.year < 10 ^ 4) (hmonth : f.month < 10 ^ 2)
    (hday : f.day < 10 ^ 2) (hhour : f.hour < 10 ^ 2) (hminute : f.minute < 10 ^ 2)
    (hsecond : f.second < 10 ^ 2) (hmicrosecond : f.microsecond < 1000000) :
    isoFields (padNat 4 f.year ++ (str "-" ++ (padNat 2 f.month ++ (str "-" ++ (padNat 2 f.day ++
      (str "T" ++ (padNat 2 f.hour ++ (str ":" ++ (padNat 2 f.minute ++ (str ":" ++
        (padNat 2 f.second ++ (fraction f.microsecond ++ str "+00:00")))))))))))) = some f := by
  have htwo : 0 < 2 := by norm_num
  unfold isoFields
  rw [readDigits_padNat (by norm_num) hyear]
  simp only [Option.bind_eq_bind, Option.bind_some, readLit_append, readDigits_padNat htwo hmonth,
    readDigits_padNat htwo hday, readDigits_padNat htwo hhour, readDigits_padNat htwo hminute,
    readDigits_padNat htwo hsecond, readFraction_fraction hmicrosecond]

/-- The fields of a UTC time. -/
def fieldsOf (t : Utc) : IsoFields where
  year := (ord2ymd (t.val / microsPerDay)).1
  month := (ord2ymd (t.val / microsPerDay)).2.1
  day := (ord2ymd (t.val / microsPerDay)).2.2
  hour := t.val / 3600000000 % 24
  minute := t.val / 60000000 % 60
  second := t.val / 1000000 % 60
  microsecond := t.val % 1000000

theorem fieldsOf_isDate (t : Utc) :
    IsDate (fieldsOf t).year (fieldsOf t).month (fieldsOf t).day :=
  ymd_isDate ⟨t.val, 0, t.isLt, by decide⟩

theorem isoFields_isoformat (t : Utc) : isoFields t.isoformat = some (fieldsOf t) := by
  have hdate := fieldsOf_isDate t
  have hday := hdate.day_lt
  have hyear := hdate.year_le
  have hmonth := hdate.month_le
  have htext := isoFields_text (f := fieldsOf t) (by omega) (by omega) (by omega)
    (by simp only [fieldsOf]; omega) (by simp only [fieldsOf]; omega)
    (by simp only [fieldsOf]; omega) (by simp only [fieldsOf]; omega)
  unfold Utc.isoformat
  rw [isoformat_utc rfl]
  exact htext

theorem toUtc_fieldsOf (t : Utc) : (fieldsOf t).toUtc = some t := by
  have hlt := t.isLt
  have hday := ymd2ord_ord2ymd (t.val / microsPerDay)
  have hmicros : ymd2ord (fieldsOf t).year (fieldsOf t).month (fieldsOf t).day * microsPerDay +
      (fieldsOf t).hour * 3600000000 + (fieldsOf t).minute * 60000000 +
        (fieldsOf t).second * 1000000 + (fieldsOf t).microsecond = t.val := by
    simp only [fieldsOf, hday]
    unfold microsPerDay
    omega
  unfold IsoFields.toUtc
  simp only
  rw [dif_pos]
  · exact congrArg some (Fin.ext hmicros)
  · refine ⟨fieldsOf_isDate t, ?_, ?_, ?_, hmicros ▸ hlt⟩ <;> exact Nat.mod_lt _ (by norm_num)

/-- Reading a written time gives the time. -/
theorem fromisoformat_isoformat (other : Str → Option Stamp) (t : Utc) :
    fromisoformat other t.isoformat = some t.stamp := by
  unfold fromisoformat
  rw [isoFields_isoformat]
  simp only
  rw [toUtc_fieldsOf, Option.map_some]

end Datetime

end Py
