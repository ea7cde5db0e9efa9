import FieldDiscovery.Lib.Replay
import FieldDiscovery.Repository.Facts

/-!
# The inventory tables

The rows of `devices` and `device_aliases`, which every collector writes, and the statement pair by
which a collector gets the id of a row: `INSERT OR IGNORE`, then `SELECT id` under the key.
-/

namespace FieldDiscovery.Repository

open Py Correlation

/-- A row of `devices`. -/
structure DeviceRow where
  deploymentId : Nat
  canonicalKey : Str
  createdAt : Str

def DeviceRow.key (r : DeviceRow) : Option (Nat × Str) := some (r.deploymentId, r.canonicalKey)

/-- A row of `device_aliases`. -/
structure AliasRow where
  deviceId : Nat
  kind : Str
  value : Str
  confidence : Confidence
  source : Str
  observedAt : Str

def AliasRow.key (r : AliasRow) : Option (Nat × Str × Str × Str × Str) :=
  some (r.deviceId, r.kind, r.value, r.source, r.observedAt)

/-- `INSERT OR IGNORE` of a row, and the `SELECT id` under its key. `checks` says that the `CHECK`
constraints accept the row. -/
def insertSelect {α κ : Type} [DecidableEq κ] {key : α → Option κ} (t : Sql.Table key) (a : α)
    (checks : Bool := true) : Except Exc (Sql.Table key × Nat) :=
  let t := if checks then t.insertOrIgnore a else t
  match (key a).bind t.find with
  | some id => .ok (t, id)
  | none => .error .type

section

variable {α κ : Type} [DecidableEq κ] {key : α → Option κ} {t t' d : Sql.Table key} {a : α}
  {checks : Bool} {id : Nat}

theorem insertSelect_spec (h : insertSelect t a checks = .ok (t', id)) :
    Sql.Table.Extends t t' ∧ ∃ k, key a = some k ∧ t'.find k = some id := by
  unfold insertSelect at h
  simp only at h
  split at h
  · next id' hid =>
    cases h
    obtain ⟨k, hk, hfind⟩ := Option.bind_eq_some_iff.mp hid
    refine ⟨?_, k, hk, hfind⟩
    split
    · exact Sql.Table.extends_insertOrIgnore t a
    · exact .refl t
  · cases h

theorem mem_of_insertSelect (h : insertSelect t a checks = .ok (t', id)) {row : Nat × α}
    (hrow : row ∈ t'.rows) : row ∈ t.rows ∨ row.2 = a := by
  unfold insertSelect at h
  simp only at h
  split at h
  · cases h
    cases checks with
    | true => exact (Sql.Table.mem_insertOrIgnore hrow).imp_right (congrArg Prod.snd)
    | false => exact .inl hrow
  · cases h

/-- A row that was found is found again, under whatever else a row of its key says. -/
theorem insertSelect_of_le (h : insertSelect t a checks = .ok (t', id)) (hd : t' ≤ d) {b : α}
    (hkey : key b = key a) (checks' : Bool) : insertSelect d b checks' = .ok (d, id) := by
  obtain ⟨-, k, hk, hfind⟩ := insertSelect_spec h
  rw [← hkey] at hk
  have hfound := Sql.Table.Extends.find hd hfind
  have hsame : (if checks' then d.insertOrIgnore b else d) = d := by
    rw [Sql.Table.insertOrIgnore_eq_self hk hfound, ite_self]
  unfold insertSelect
  simp only [hsame, hk, Option.bind_some, hfound]

/-- A row that was there is the one that is selected. -/
theorem insertSelect_find (h : insertSelect t a checks = .ok (t', id)) {k : κ} (hk : key a = some k)
    {id' : Nat} (hid' : t.find k = some id') : id' = id := by
  obtain ⟨hext, k', hk', hfind⟩ := insertSelect_spec h
  obtain rfl := Option.some.inj (hk.symm.trans hk')
  exact Option.some.inj ((hext.find hid').symm.trans hfind)

/-- A table stays as it is exactly when it held the row that is selected. -/
theorem insertSelect_quiet_iff (h : insertSelect t a checks = .ok (t', id)) {k : κ}
    (hk : key a = some k) : t' = t ↔ t.find k = some id := by
  obtain ⟨-, k', hk', hfind⟩ := insertSelect_spec h
  obtain rfl := Option.some.inj (hk.symm.trans hk')
  constructor
  · rintro rfl
    exact hfind
  · intro hfound
    unfold insertSelect at h
    rw [Sql.Table.insertOrIgnore_eq_self hk hfound, ite_self] at h
    simp only [hk, Option.bind_some, hfound, Except.ok.injEq, Prod.mk.injEq] at h
    exact h.1.symm

end

end FieldDiscovery.Repository
