import FieldDiscovery.Infrastructure.Model

/-!
# The cells of the model

A cell is addressed by its section, target, key and field. The entries of a model are regrouped into
cells without loss (`Regrouped`): a cell holds the evidence of the entries at its address and of no
other, and no two cells have one address. The device in the key of a group does not split an
address, since the target decides it (`Attached`).
-/

open List

namespace FieldDiscovery.Infrastructure

open Py

/-! ## Addresses -/

/-- Where a piece of evidence stands. -/
structure Address where
  place : Section
  target : Str
  key : Str
  field : Str
  deriving DecidableEq

def GroupKey.address (group : GroupKey) (field : Str) : Address :=
  ⟨group.place, group.target, group.key, field⟩

def Entry.address (e : Entry) : Address := e.group.address e.name

/-- The cells of a row. -/
def rowCells (place : Section) (row : ReportRow) : List (Address × Cell) :=
  row.fields.map fun field => (⟨place, row.target, row.key, field.1⟩, field.2)

/-- The cells of a model under their addresses. -/
def InfrastructureModel.cells (m : InfrastructureModel) : List (Address × Cell) :=
  m.sections.flatMap fun part => part.2.flatMap (rowCells part.1)

/-- The entry of `conflicts` for a cell. -/
def conflictAt (cell : Address × Cell) : Conflict :=
  ⟨cell.1.target, cell.1.place, cell.1.key, cell.1.field, cell.2.evidence⟩

/-- The target of an entry decides its device. -/
def Attached (aliases : Dict Str (List Str)) (entries : List Entry) : Prop :=
  ∀ e ∈ entries, e.group.device = deviceKey aliases e.group.target

/-- What it is for a model to hold the evidence of the entries and no other. -/
structure Regrouped (entries : List Entry) (m : InfrastructureModel) : Prop where
  /-- No two cells have one address. -/
  addresses : (m.cells.map Prod.fst).Nodup
  /-- Every entry has a cell. -/
  placed : ∀ e ∈ entries, e.address ∈ m.cells.map Prod.fst
  /-- A cell holds the evidence at its address, each piece once. -/
  evidence : ∀ cell ∈ m.cells, cell.2.evidence.Perm
    ((entries.filter fun e => decide (e.address = cell.1)).map Entry.field)
  /-- The evidence is in order. -/
  ordered : ∀ cell ∈ m.cells, cell.2.evidence.Pairwise fun f g => f.rank ≤ g.rank
  /-- The value is that of the latest evidence. -/
  latest : ∀ cell ∈ m.cells, cell.2.evidence.getLast?.map Field.value = some cell.2.value
  /-- A cell is in conflict when its evidence has two values with distinct JSON texts. -/
  conflict : ∀ cell ∈ m.cells, cell.2.conflict = true ↔
    ∃ f ∈ cell.2.evidence, ∃ g ∈ cell.2.evidence, f.valueText ≠ g.valueText
  /-- The conflicts are these cells, each once. -/
  conflicts : m.conflicts.Perm ((m.cells.filter fun cell => cell.2.conflict).map conflictAt)

/-! ## One cell -/

theorem one_lt_dedup_length_iff {α : Type} [DecidableEq α] {l : List α} :
    1 < l.dedup.length ↔ ∃ a ∈ l, ∃ b ∈ l, a ≠ b := by
  constructor
  · intro h
    obtain ⟨a, b, t, heq⟩ : ∃ a b t, l.dedup = a :: b :: t := by
      cases hl : l.dedup with
      | nil => simp [hl] at h
      | cons a t =>
        cases t with
        | nil => simp [hl] at h
        | cons b t => exact ⟨a, b, t, rfl⟩
    have hnodup := nodup_dedup l
    rw [heq] at hnodup
    refine ⟨a, mem_dedup.mp (by rw [heq]; simp), b, mem_dedup.mp (by rw [heq]; simp), ?_⟩
    rintro rfl
    exact (nodup_cons.mp hnodup).1 mem_cons_self
  · rintro ⟨a, ha, b, hb, hne⟩
    by_contra hlength
    have hshort : l.dedup.length ≤ 1 := Nat.le_of_not_lt hlength
    obtain ⟨c, hc⟩ : ∃ c, ∀ x ∈ l.dedup, x = c := by
      cases hl : l.dedup with
      | nil => exact ⟨a, fun x hx => absurd hx not_mem_nil⟩
      | cons c t =>
        rw [hl, length_cons] at hshort
        have ht : t = [] := length_eq_zero_iff.mp (by omega)
        exact ⟨c, fun x hx => by rw [ht] at hx; exact mem_singleton.mp hx⟩
    exact hne ((hc a (mem_dedup.mpr ha)).trans (hc b (mem_dedup.mpr hb)).symm)

section

variable {evidence : List Field}

theorem renderCell_evidence (evidence : List Field) :
    (renderCell evidence).evidence = sortedBy Field.rank evidence := rfl

theorem renderCell_latest (h : evidence ≠ []) :
    (renderCell evidence).evidence.getLast?.map Field.value = some (renderCell evidence).value := by
  have hne : sortedBy Field.rank evidence ≠ [] := by
    intro hnil
    have hlength := length_sortedBy Field.rank evidence
    rw [hnil] at hlength
    exact h (length_eq_zero_iff.mp hlength.symm)
  rw [renderCell_evidence, getLast?_eq_some_getLast hne]
  unfold renderCell
  simp only [getLast?_eq_some_getLast hne, Option.map_some, Option.getD_some]

theorem renderCell_conflict : (renderCell evidence).conflict = true ↔
    ∃ f ∈ (renderCell evidence).evidence, ∃ g ∈ (renderCell evidence).evidence,
      f.valueText ≠ g.valueText := by
  have htexts : (renderCell evidence).conflict = true ↔
      1 < ((sortedBy Field.rank evidence).map Field.valueText).dedup.length := decide_eq_true_iff
  rw [htexts, one_lt_dedup_length_iff, renderCell_evidence]
  constructor
  · rintro ⟨a, ha, b, hb, hne⟩
    obtain ⟨f, hf, rfl⟩ := mem_map.mp ha
    obtain ⟨g, hg, rfl⟩ := mem_map.mp hb
    exact ⟨f, hf, g, hg, hne⟩
  · rintro ⟨f, hf, g, hg, hne⟩
    exact ⟨_, mem_map_of_mem hf, _, mem_map_of_mem hg, hne⟩

end

/-! ## The cells of the groups -/

/-- The cells of a group. -/
def groupCells (group : GroupKey × List Entry) : List (Address × Cell) :=
  rowCells group.1.place (reportRow group)

section

variable {entries : List Entry} {aliases : Dict Str (List Str)}

theorem cells_perm (entries : List Entry) (quality : List Quality) (staleAfterDays : ℚ) :
    (assemble entries quality staleAfterDays).cells.Perm ((groups entries).flatMap groupCells) := by
  have hcells : (assemble entries quality staleAfterDays).cells =
      (Section.all.flatMap fun place => (groups entries).filter fun group =>
        decide (group.1.place = place)).flatMap groupCells := by
    unfold InfrastructureModel.cells assemble
    simp only
    rw [flatMap_map, flatMap_assoc]
    refine flatMap_congr fun place _ => ?_
    rw [flatMap_map]
    refine flatMap_congr fun group hgroup => ?_
    rw [← of_decide_eq_true (mem_filter.mp hgroup).2]
    rfl
  rw [hcells]
  refine (flatMap_filter_perm (fun group : GroupKey × List Entry => group.1.place)
    (by decide) fun group _ => ?_).flatMap_right groupCells
  cases group.1.place <;> decide

theorem mem_groups {group : GroupKey × List Entry} : group ∈ groups entries ↔
    group.1 ∈ entries.map Entry.group ∧
      group.2 = entries.filter fun e => decide (e.group = group.1) := by
  unfold groups
  rw [mem_sortedBy, mem_groupBy]

/-- A group is told by its section, target and key. -/
theorem group_eq_of_address (hattached : Attached aliases entries) {g g' : GroupKey}
    (hg : g ∈ entries.map Entry.group) (hg' : g' ∈ entries.map Entry.group) {f f' : Str}
    (h : g.address f = g'.address f') : g = g' := by
  obtain ⟨e, he, rfl⟩ := mem_map.mp hg
  obtain ⟨e', he', rfl⟩ := mem_map.mp hg'
  have hdevice := hattached e he
  have hdevice' := hattached e' he'
  obtain ⟨⟨place, target, key, device⟩, name, field⟩ := e
  obtain ⟨⟨place', target', key', device'⟩, name', field'⟩ := e'
  simp only [GroupKey.address, Address.mk.injEq] at h hdevice hdevice'
  obtain ⟨rfl, rfl, rfl, -⟩ := h
  rw [hdevice, hdevice']

theorem Section.name_injective : Function.Injective Section.name := by
  intro place place' h
  cases place <;> cases place' <;> first | rfl | exact absurd h (by decide)

theorem GroupKey.address_eq_of_rank {g g' : GroupKey} (h : g.rank = g'.rank) (f : Str) :
    g.address f = g'.address f := by
  obtain ⟨hplace, hrest⟩ := Prod.mk.inj (toLex.injective h)
  obtain ⟨htarget, hkey⟩ := Prod.mk.inj (toLex.injective hrest)
  unfold GroupKey.address
  rw [Section.name_injective hplace, htarget, hkey]

theorem mem_groupCells {group : GroupKey × List Entry} {cell : Address × Cell} :
    cell ∈ groupCells group ↔ ∃ name ∈ group.2.map Entry.name, cell = (group.1.address name,
      renderCell ((group.2.filter fun e => decide (e.name = name)).map Entry.field)) := by
  unfold groupCells rowCells reportRow
  simp only [map_map, mem_map, mem_sortedBy, Function.comp_apply]
  constructor
  · rintro ⟨part, hpart, rfl⟩
    obtain ⟨hname, hgroup⟩ := mem_groupBy.mp hpart
    exact ⟨part.1, mem_map.mp hname, by rw [hgroup]; rfl⟩
  · rintro ⟨name, hname, rfl⟩
    exact ⟨(name, _), mem_groupBy.mpr ⟨mem_map.mpr hname, rfl⟩, rfl⟩

/-- The cell of a group and a field holds what is at its address. -/
theorem mem_cells (hattached : Attached aliases entries) {cell : Address × Cell} :
    cell ∈ (groups entries).flatMap groupCells ↔ ∃ e ∈ entries, cell = (e.address,
      renderCell ((entries.filter fun e' => decide (e'.address = e.address)).map Entry.field)) := by
  have hfilter : ∀ e ∈ entries, ((entries.filter fun e' => decide (e'.group = e.group)).filter
      fun e' => decide (e'.name = e.name)) =
        entries.filter fun e' => decide (e'.address = e.address) := by
    intro e he
    rw [filter_filter]
    refine filter_congr fun e' he' => ?_
    rw [← Bool.decide_and, decide_eq_decide]
    constructor
    · rintro ⟨hname, hgroup⟩
      unfold Entry.address
      rw [hgroup, hname]
    · intro h
      exact ⟨(Address.mk.injEq .. ▸ h).2.2.2,
        group_eq_of_address hattached (mem_map_of_mem he') (mem_map_of_mem he) h⟩
  rw [mem_flatMap]
  constructor
  · rintro ⟨group, hgroup, hcell⟩
    obtain ⟨-, hentries⟩ := mem_groups.mp hgroup
    obtain ⟨name, hname, rfl⟩ := mem_groupCells.mp hcell
    obtain ⟨e, he, rfl⟩ := mem_map.mp hname
    rw [hentries, mem_filter] at he
    obtain ⟨he, heq⟩ := he
    have heq := of_decide_eq_true heq
    refine ⟨e, he, ?_⟩
    rw [hentries, ← heq, hfilter e he]
    rfl
  · rintro ⟨e, he, rfl⟩
    refine ⟨(e.group, entries.filter fun e' => decide (e'.group = e.group)),
      mem_groups.mpr ⟨mem_map_of_mem he, rfl⟩, mem_groupCells.mpr ⟨e.name, ?_, ?_⟩⟩
    · exact mem_map_of_mem (mem_filter.mpr ⟨he, decide_eq_true rfl⟩)
    · rw [hfilter e he]
      rfl

theorem addresses_nodup (hattached : Attached aliases entries) :
    (((groups entries).flatMap groupCells).map Prod.fst).Nodup := by
  rw [map_flatMap, nodup_flatMap]
  constructor
  · intro group _
    have hnames : ((reportRow group).fields.map Prod.fst).Nodup := by
      unfold reportRow
      rw [map_map]
      exact ((sortedBy_perm _ _).map _).nodup_iff.mpr (groupBy_keys_nodup _ _)
    unfold groupCells rowCells
    rw [map_map]
    exact (nodup_map_iff_inj_on hnames.of_map).mpr fun f hf f' hf' h =>
      inj_on_of_nodup_map hnames hf hf' (Address.mk.injEq .. ▸ h).2.2.2
  · have hkeys : ((groups entries).map Prod.fst).Nodup :=
      ((sortedBy_perm _ _).map _).nodup_iff.mpr (groupBy_keys_nodup _ _)
    rw [nodup_iff_pairwise_ne, pairwise_map] at hkeys
    refine hkeys.imp_of_mem fun {g g'} hg hg' hne => ?_
    rw [Function.onFun, disjoint_left]
    intro address hmem hmem'
    obtain ⟨cell, hcell, rfl⟩ := mem_map.mp hmem
    obtain ⟨cell', hcell', heq⟩ := mem_map.mp hmem'
    obtain ⟨name, -, rfl⟩ := mem_groupCells.mp hcell
    obtain ⟨name', -, rfl⟩ := mem_groupCells.mp hcell'
    exact hne (group_eq_of_address hattached (mem_groups.mp hg).1 (mem_groups.mp hg').1 heq.symm)

theorem rowConflicts_eq (group : GroupKey × List Entry) :
    rowConflicts group.1.place (reportRow group) =
      ((groupCells group).filter fun cell => cell.2.conflict).map conflictAt := by
  unfold rowConflicts groupCells rowCells
  rw [filter_map, map_map]
  rfl

/-- The entries whose targets decide their devices are regrouped without loss. -/
theorem regrouped (hattached : Attached aliases entries) (quality : List Quality)
    (staleAfterDays : ℚ) : Regrouped entries (assemble entries quality staleAfterDays) := by
  have hperm := cells_perm entries quality staleAfterDays
  have hcell : ∀ cell ∈ (assemble entries quality staleAfterDays).cells, ∃ e ∈ entries,
      cell = (e.address, renderCell
        ((entries.filter fun e' => decide (e'.address = e.address)).map Entry.field)) :=
    fun cell hmem => (mem_cells hattached).mp (hperm.mem_iff.mp hmem)
  have hne : ∀ e ∈ entries,
      (entries.filter fun e' => decide (e'.address = e.address)).map Entry.field ≠ [] := by
    intro e he hnil
    have hmem : e ∈ entries.filter fun e' => decide (e'.address = e.address) :=
      mem_filter.mpr ⟨he, decide_eq_true rfl⟩
    rw [map_eq_nil_iff.mp hnil] at hmem
    exact absurd hmem not_mem_nil
  constructor
  case addresses => exact (hperm.map Prod.fst).nodup_iff.mpr (addresses_nodup hattached)
  case placed =>
    intro e he
    exact mem_map.mpr ⟨_, hperm.mem_iff.mpr ((mem_cells hattached).mpr ⟨e, he, rfl⟩), rfl⟩
  case evidence =>
    intro cell hmem
    obtain ⟨e, he, rfl⟩ := hcell cell hmem
    exact sortedBy_perm Field.rank _
  case ordered =>
    intro cell hmem
    obtain ⟨e, he, rfl⟩ := hcell cell hmem
    exact pairwise_sortedBy Field.rank _
  case latest =>
    intro cell hmem
    obtain ⟨e, he, rfl⟩ := hcell cell hmem
    exact renderCell_latest (hne e he)
  case conflict =>
    intro cell hmem
    obtain ⟨e, he, rfl⟩ := hcell cell hmem
    exact renderCell_conflict
  case conflicts =>
    have heq : (assemble entries quality staleAfterDays).conflicts =
        (((groups entries).flatMap groupCells).filter fun cell => cell.2.conflict).map
          conflictAt := by
      rw [filter_flatMap, map_flatMap]
      exact flatMap_congr fun group _ => rowConflicts_eq group
    rw [heq]
    exact ((hperm.filter _).map _).symm

end

end FieldDiscovery.Infrastructure
