import Mathlib

/-!
# Tables with a unique key

A table of a relational database: rows under an `INTEGER PRIMARY KEY`, and one `UNIQUE` constraint
that is a field of the structure. A row whose key has a `NULL` column has no key (`none`) and
conflicts with nothing. SQLite gives a new row the greatest id plus one.

A table only grows by `insert` and `insertOrIgnore` (`Extends`), and the id under a key is then
fixed for good (`Extends.find`). A row whose key is taken is ignored without a trace
(`insertOrIgnore_eq_self`), which is what makes a repeated write idempotent.
-/

open List

namespace Py.Sql

variable {α κ : Type*}

/-- A table with the constraint `UNIQUE(key)`. -/
structure Table (key : α → Option κ) where
  /-- The rows under their ids, in the order of the ids. -/
  rows : List (Nat × α)
  ordered : (rows.map Prod.fst).Pairwise (· < ·)
  unique : rows.Pairwise fun a b => key a.2 = key b.2 → key a.2 = none

namespace Table

variable {key : α → Option κ}

theorem eq_of_rows {t t' : Table key} (h : t.rows = t'.rows) : t = t' := by
  cases t
  cases t'
  simpa using h

/-- The table without rows. -/
def empty : Table key := ⟨[], .nil, .nil⟩

instance : Inhabited (Table key) := ⟨empty⟩

/-- The id of the next row. -/
def nextId (t : Table key) : Nat := (t.rows.getLast?.map fun row => row.1 + 1).getD 1

theorem lt_nextId {t : Table key} {row : Nat × α} (h : row ∈ t.rows) : row.1 < t.nextId := by
  have hordered := t.ordered
  unfold nextId
  cases hlast : t.rows.getLast? with
  | none =>
    rw [getLast?_eq_none_iff.mp hlast] at h
    cases h
  | some last =>
    obtain ⟨front, hrows⟩ := getLast?_eq_some_iff.mp hlast
    rw [hrows] at h hordered
    rw [map_append, map_singleton, pairwise_append] at hordered
    rw [Option.map_some, Option.getD_some, Nat.lt_succ_iff]
    rcases mem_append.mp h with h | h
    · exact (hordered.2.2 _ (mem_map_of_mem h) _ (mem_singleton_self _)).le
    · exact (congrArg Prod.fst (mem_singleton.mp h)).le

/-- An id stands for one row. -/
theorem row_eq_of_id {t : Table key} {row row' : Nat × α} (h : row ∈ t.rows) (h' : row' ∈ t.rows)
    (hid : row.1 = row'.1) : row = row' :=
  inj_on_of_nodup_map (t.ordered.imp fun hlt => hlt.ne) h h' hid

/-- A key stands for one row. -/
theorem row_eq_of_key {t : Table key} {row row' : Nat × α} (h : row ∈ t.rows) (h' : row' ∈ t.rows)
    {k : κ} (hk : key row.2 = some k) (hk' : key row'.2 = some k) : row = row' := by
  have : Std.Symm fun a b : Nat × α => key a.2 = key b.2 → key a.2 = none :=
    ⟨fun _ _ hab heq => heq.trans (hab heq.symm)⟩
  by_contra hne
  have hnone := t.unique.forall h h' hne (hk.trans hk'.symm)
  rw [hk] at hnone
  cases hnone

variable [DecidableEq κ]

/-- A row holds the key of `a`. -/
def Taken (t : Table key) (a : α) : Prop := ∃ row ∈ t.rows, key row.2 = key a ∧ key a ≠ none

instance (t : Table key) (a : α) : Decidable (t.Taken a) :=
  inferInstanceAs (Decidable (∃ row ∈ t.rows, _))

/-- The table with one more row. -/
def push (t : Table key) (a : α) (h : ¬ t.Taken a) : Table key where
  rows := t.rows ++ [(t.nextId, a)]
  ordered := by
    rw [map_append, map_singleton]
    refine pairwise_append.mpr ⟨t.ordered, pairwise_singleton _ _, ?_⟩
    intro id hid new hnew
    obtain ⟨row, hrow, rfl⟩ := mem_map.mp hid
    rw [mem_singleton.mp hnew]
    exact lt_nextId hrow
  unique := by
    refine pairwise_append.mpr ⟨t.unique, pairwise_singleton _ _, ?_⟩
    intro row hrow new hnew hkey
    rw [mem_singleton.mp hnew] at hkey
    by_contra hne
    exact h ⟨row, hrow, hkey, hkey ▸ hne⟩

/-- `INSERT OR IGNORE`, and `INSERT … ON CONFLICT(key) DO NOTHING`. -/
def insertOrIgnore (t : Table key) (a : α) : Table key :=
  if h : t.Taken a then t else t.push a h

/-- `INSERT`; `none` is a violated constraint. -/
def insert (t : Table key) (a : α) : Option (Table key) :=
  if h : t.Taken a then none else some (t.push a h)

/-- `SELECT id … WHERE` every column of the key is given. -/
def find (t : Table key) (k : κ) : Option Nat :=
  (t.rows.find? fun row => key row.2 = some k).map Prod.fst

theorem find_eq_some {t : Table key} {k : κ} {id : Nat} :
    t.find k = some id ↔ ∃ a, (id, a) ∈ t.rows ∧ key a = some k := by
  unfold find
  constructor
  · intro h
    obtain ⟨row, hrow, rfl⟩ := Option.map_eq_some_iff.mp h
    exact ⟨row.2, mem_of_find?_eq_some hrow, by simpa using find?_some hrow⟩
  · rintro ⟨a, ha, hkey⟩
    cases hfind : t.rows.find? fun row => key row.2 = some k with
    | none => exact absurd hkey (by simpa using find?_eq_none.mp hfind _ ha)
    | some row =>
      have hkey' : key row.2 = some k := by simpa using find?_some hfind
      rw [row_eq_of_key (mem_of_find?_eq_some hfind) ha hkey' hkey]
      rfl

/-- An id stands under one key. -/
theorem find_inj {t : Table key} {k k' : κ} {id : Nat} (h : t.find k = some id)
    (h' : t.find k' = some id) : k = k' := by
  obtain ⟨a, ha, hkey⟩ := find_eq_some.mp h
  obtain ⟨a', ha', hkey'⟩ := find_eq_some.mp h'
  cases row_eq_of_id ha ha' rfl
  exact Option.some.inj (hkey.symm.trans hkey')

theorem taken_iff {t : Table key} {a : α} {k : κ} (hk : key a = some k) :
    t.Taken a ↔ ∃ id, t.find k = some id := by
  unfold Taken
  simp only [find_eq_some, hk, ne_eq, reduceCtorEq, not_false_eq_true, and_true, Prod.exists]

omit [DecidableEq κ] in
theorem taken_push {t : Table key} {a b : α} (h : ¬ t.Taken a) :
    (t.push a h).Taken b ↔ t.Taken b ∨ key a = key b ∧ key b ≠ none := by
  unfold Taken push
  simp only [mem_append, mem_singleton]
  constructor
  · rintro ⟨row, hrow | rfl, hkey, hne⟩
    · exact Or.inl ⟨row, hrow, hkey, hne⟩
    · exact Or.inr ⟨hkey, hne⟩
  · rintro (⟨row, hrow, hkey, hne⟩ | ⟨hkey, hne⟩)
    · exact ⟨row, Or.inl hrow, hkey, hne⟩
    · exact ⟨_, Or.inr rfl, hkey, hne⟩

/-! ## Changing rows in place -/

/-- `UPDATE` of columns outside the key. -/
def mapRows (t : Table key) (f : Nat × α → α) (h : ∀ row, key (f row) = key row.2) :
    Table key where
  rows := t.rows.map fun row => (row.1, f row)
  ordered := by
    rw [map_map]
    exact t.ordered
  unique := by
    rw [pairwise_map]
    exact t.unique.imp fun hab => by simpa only [h] using hab

/-! ## What a write leaves -/

/-- `t'` holds every row of `t` as it was. -/
def Extends (t t' : Table key) : Prop := t.rows <+: t'.rows

omit [DecidableEq κ] in
theorem Extends.refl (t : Table key) : Extends t t := prefix_rfl

omit [DecidableEq κ] in
theorem Extends.trans {t t' t'' : Table key} (h : Extends t t') (h' : Extends t' t'') :
    Extends t t'' := IsPrefix.trans h h'

theorem Extends.find {t t' : Table key} (h : Extends t t') {k : κ} {id : Nat}
    (hk : t.find k = some id) : t'.find k = some id := by
  obtain ⟨a, ha, hkey⟩ := find_eq_some.mp hk
  exact find_eq_some.mpr ⟨a, h.subset ha, hkey⟩

theorem extends_insertOrIgnore (t : Table key) (a : α) : Extends t (t.insertOrIgnore a) := by
  unfold insertOrIgnore
  split
  · exact .refl t
  · exact prefix_append _ _

theorem mem_insertOrIgnore {t : Table key} {a : α} {row : Nat × α}
    (h : row ∈ (t.insertOrIgnore a).rows) : row ∈ t.rows ∨ row = (t.nextId, a) := by
  unfold insertOrIgnore at h
  split at h
  · exact Or.inl h
  · exact (mem_append.mp h).imp id mem_singleton.mp

/-- Afterwards a row stands under the key. -/
theorem exists_find_insertOrIgnore (t : Table key) {a : α} {k : κ} (hk : key a = some k) :
    ∃ id, (t.insertOrIgnore a).find k = some id := by
  unfold insertOrIgnore
  split
  · next h => exact (taken_iff hk).mp h
  · exact ⟨_, find_eq_some.mpr ⟨a, mem_append_right _ (mem_singleton_self _), hk⟩⟩

/-- A row whose key is taken is ignored. -/
theorem insertOrIgnore_eq_self {t : Table key} {a : α} {k : κ} {id : Nat} (hk : key a = some k)
    (h : t.find k = some id) : t.insertOrIgnore a = t :=
  dif_pos ((taken_iff hk).mpr ⟨id, h⟩)

end Table

/-! ## Many rows -/

/-- Rows go in one after the other exactly when each of them alone would, and no two of them
conflict. -/
theorem foldlM_insert_iff {D R ε : Type*} {insert : D → R → Except ε D}
    {Conflict : R → R → Prop}
    (hkeep : ∀ d r d', insert d r = .ok d' → ∀ r', (∃ d'', insert d' r' = .ok d'') ↔
      (∃ d'', insert d r' = .ok d'') ∧ ¬ Conflict r r')
    (rows : List R) (d : D) : (∃ d', rows.foldlM insert d = .ok d') ↔
      (∀ r ∈ rows, ∃ d', insert d r = .ok d') ∧ rows.Pairwise fun r r' => ¬ Conflict r r' := by
  induction rows generalizing d with
  | nil => exact iff_of_true ⟨d, rfl⟩ ⟨fun _ hmem => absurd hmem not_mem_nil, .nil⟩
  | cons r rows ih =>
    rw [foldlM_cons, forall_mem_cons, pairwise_cons]
    constructor
    · rintro ⟨d', h⟩
      cases hr : insert d r with
      | error e =>
        rw [hr] at h
        cases h
      | ok d₁ =>
        rw [hr] at h
        obtain ⟨hfree, hpairwise⟩ := (ih d₁).mp ⟨d', h⟩
        exact ⟨⟨⟨d₁, rfl⟩, fun r' hr' => ((hkeep d r d₁ hr r').mp (hfree r' hr')).1⟩,
          fun r' hr' => ((hkeep d r d₁ hr r').mp (hfree r' hr')).2, hpairwise⟩
    · rintro ⟨⟨⟨d₁, hr⟩, hfree⟩, hconflict, hpairwise⟩
      rw [hr]
      exact (ih d₁).mpr ⟨fun r' hr' => (hkeep d r d₁ hr r').mpr ⟨hfree r' hr', hconflict r' hr'⟩,
        hpairwise⟩

/-- A table without a `UNIQUE` constraint. -/
abbrev PlainTable (α : Type*) := Table fun _ : α => (none : Option Empty)

@[simp] theorem PlainTable.rows_insertOrIgnore (t : PlainTable α) (a : α) :
    (t.insertOrIgnore a).rows = t.rows ++ [(t.nextId, a)] := by
  have hfree : ¬ t.Taken a := by
    rintro ⟨-, -, -, hne⟩
    exact hne rfl
  unfold Table.insertOrIgnore
  rw [dif_neg hfree]
  rfl

end Py.Sql
