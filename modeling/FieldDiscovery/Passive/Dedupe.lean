import FieldDiscovery.Passive.Observation

/-!
# Duplicate suppression

The table of `_is_duplicate`: fingerprints with the time until which each suppresses an observation.
Times are the readings of a monotonic clock; adding the window is monotone.
-/

namespace FieldDiscovery.Passive

open Py

/-- `OrderedDict[str, float]`, oldest first. -/
abbrev DedupeTable (T : Type) := Dict Str T

namespace DedupeTable

variable {T : Type} [LinearOrder T]

/-- Expired entries leave from the front. -/
def purge (table : DedupeTable T) (now : T) : DedupeTable T := table.dropWhile fun e => e.2 ≤ now

/-- `d[fingerprint] = expiry; d.move_to_end(fingerprint)` -/
def putLast (table : DedupeTable T) (fingerprint : Str) (expiry : T) : DedupeTable T :=
  table.filter (fun e => e.1 ≠ fingerprint) ++ [(fingerprint, expiry)]

/-- The verdict of `_is_duplicate`. -/
structure Verdict (T : Type) where
  table : DedupeTable T
  duplicate : Bool
  evicted : Bool

/-- A window of thirty seconds, with a clock that counts seconds. -/
theorem halfMinute_mono : Monotone fun t : ℕ => t + 30 := fun _ _ h => Nat.add_le_add_right h 30

/-- The fingerprint enters the table. -/
def enter (window : T →o T) (capacity : Nat) (table : DedupeTable T) (now : T)
    (fingerprint : Str) : Verdict T :=
  let table := putLast table fingerprint (window now)
  if capacity < table.length then ⟨table.tail, false, true⟩ else ⟨table, false, false⟩

/-- The entry that still suppresses the fingerprint. -/
def live (table : DedupeTable T) (now : T) (fingerprint : Str) : Option T :=
  ((purge table now).get fingerprint).filter fun expiry => now < expiry

/-- `_is_duplicate`, once the fingerprint is known. -/
def check (window : T →o T) (capacity : Nat) (table : DedupeTable T) (now : T)
    (fingerprint : Str) : Verdict T :=
  match live table now fingerprint with
  | some expiry => ⟨putLast (purge table now) fingerprint expiry, true, false⟩
  | none => enter window capacity (purge table now) now fingerprint

variable {window : T →o T} {capacity : Nat} {table : DedupeTable T} {now : T} {fingerprint : Str}

theorem mem_of_mem_purge {e : Str × T} (h : e ∈ purge table now) : e ∈ table :=
  (List.dropWhile_sublist _).subset h

omit [LinearOrder T] in
theorem mem_putLast {e : Str × T} {expiry : T} : e ∈ putLast table fingerprint expiry ↔
    (e ∈ table ∧ e.1 ≠ fingerprint) ∨ e = (fingerprint, expiry) := by
  simp [putLast]

theorem mem_of_live {expiry : T} (h : live table now fingerprint = some expiry) :
    (fingerprint, expiry) ∈ table ∧ now < expiry := by
  obtain ⟨hget, hlt⟩ := Option.filter_eq_some_iff.mp h
  exact ⟨mem_of_mem_purge (Dict.mem_of_get hget), of_decide_eq_true hlt⟩

/-- A duplicate changes no entry. -/
theorem mem_check_duplicate {e : Str × T}
    (hdup : (check window capacity table now fingerprint).duplicate = true)
    (he : e ∈ (check window capacity table now fingerprint).table) : e ∈ table := by
  unfold check at hdup he
  cases hlive : live table now fingerprint with
  | none =>
    rw [hlive] at hdup
    unfold enter at hdup
    simp only at hdup
    split at hdup <;> cases hdup
  | some expiry =>
    rw [hlive] at he
    rcases mem_putLast.mp he with ⟨he, -⟩ | rfl
    · exact mem_of_mem_purge he
    · exact (mem_of_live hlive).1

theorem duplicate_iff : (check window capacity table now fingerprint).duplicate = true ↔
    ∃ expiry, live table now fingerprint = some expiry := by
  unfold check
  cases live table now fingerprint with
  | none =>
    unfold enter
    simp only
    split <;> simp
  | some expiry => simp

/-- Else the entry of the fingerprint is new, and the others were there. -/
theorem mem_check_admitted {e : Str × T}
    (hdup : (check window capacity table now fingerprint).duplicate = false)
    (he : e ∈ (check window capacity table now fingerprint).table) :
    (e ∈ table ∧ e.1 ≠ fingerprint) ∨ e = (fingerprint, window now) := by
  unfold check at hdup he
  cases hlive : live table now fingerprint with
  | some expiry =>
    rw [hlive] at hdup
    cases hdup
  | none =>
    rw [hlive] at he
    have hmem : e ∈ putLast (purge table now) fingerprint (window now) := by
      unfold enter at he
      simp only at he
      split at he
      · exact List.mem_of_mem_tail he
      · exact he
    rcases mem_putLast.mp hmem with ⟨he, hne⟩ | rfl
    · exact Or.inl ⟨mem_of_mem_purge he, hne⟩
    · exact Or.inr rfl

end DedupeTable

end FieldDiscovery.Passive
