import FieldDiscovery.Lib.Datetime

/-!
# UTC times

An aware `datetime` whose zone is UTC is its number of microseconds since `0001-01-01T00:00`.
-/

namespace Py

/-- An aware `datetime` in UTC. -/
abbrev Utc := Fin (maxDays * microsPerDay)

namespace Utc

/-- `datetime.max.replace(tzinfo=UTC)` -/
def max : Utc := ⟨maxDays * microsPerDay - 1, by decide⟩

/-- `t.isoformat()` -/
def isoformat (t : Utc) : Str := Datetime.isoformat ⟨t.val, 0, t.isLt, zero_offset⟩

/-- `t + timedelta(microseconds=us)`; `none` is `OverflowError`. -/
def add (t : Utc) (us : Nat) : Option Utc :=
  if h : t.val + us < maxDays * microsPerDay then some ⟨t.val + us, h⟩ else none

theorem le_max (t : Utc) : t ≤ max := by
  have := t.isLt
  change t.val ≤ maxDays * microsPerDay - 1
  omega

end Utc

/-- A `datetime`. Nothing is read off one without a time zone. -/
inductive Stamp where
  | naive
  | aware (d : Datetime)

/-- `d.astimezone(UTC)`; `none` is `OverflowError`. -/
def Datetime.astimezone (d : Datetime) : Option Utc :=
  if h : 0 ≤ d.instant ∧ d.instant.toNat < maxDays * microsPerDay then
    some ⟨d.instant.toNat, h.2⟩
  else none

/-- A UTC time as a `datetime`. -/
def Utc.stamp (t : Utc) : Stamp := .aware ⟨t.val, 0, t.isLt, zero_offset⟩

theorem Utc.astimezone (t : Utc) :
    Datetime.astimezone ⟨t.val, 0, t.isLt, zero_offset⟩ = some t := by
  have := t.isLt
  unfold Datetime.astimezone Datetime.instant
  simp

end Py
