import FieldDiscovery.Database.Advance
import FieldDiscovery.Redaction.Value

/-!
# Migrations compose

A database that stands at `k` migrations is advanced by the rest of the list: `migrate` either ends at
the last migration or stops at one that fails, with the ones before it committed. Where it stops does
not depend on how the database came to stand where it does, so migrating in two goes is migrating in
one.
-/

namespace FieldDiscovery.Database

open Py Repository

variable {σ : Type} {rt : Runtime} {engine : Engine σ} {fresh : σ} {migrations : List Migration}

/-! ## Valid lists -/

theorem validateMigrationSet_eq_ok (h : validateMigrationSet migrations = .ok ()) :
    migrations.map Migration.version = versionsTo migrations.length := by
  unfold validateMigrationSet at h
  split at h
  · cases h
  · next hversions => exact not_not.mp hversions

theorem version_getElem (h : validateMigrationSet migrations = .ok ()) {i : Nat}
    (hi : i < migrations.length) : migrations[i].version = (i : Int) + 1 := by
  have hi' : i < (migrations.map Migration.version).length := by simpa using hi
  have hget : (migrations.map Migration.version)[i] = migrations[i].version := by simp
  rw [← hget]
  simp only [validateMigrationSet_eq_ok h, versionsTo, List.getElem_map, List.getElem_range]

theorem validateMigrationSet_take (h : validateMigrationSet migrations = .ok ()) (n : Nat) :
    validateMigrationSet (migrations.take n) = .ok () := by
  have hversions := validateMigrationSet_eq_ok h
  unfold validateMigrationSet at h ⊢
  rw [if_neg (not_not.mpr hversions)] at h
  split at h
  · cases h
  · next hnames =>
    have htake : (migrations.take n).map Migration.version = versionsTo (migrations.take n).length := by
      rw [List.map_take, hversions]
      unfold versionsTo
      rw [← List.map_take, List.take_range, List.length_take]
    rw [if_neg (not_not.mpr htake), if_neg]
    intro hany
    obtain ⟨m, hm, hbad⟩ := List.any_eq_true.mp hany
    exact hnames (List.any_eq_true.mpr ⟨m, List.mem_of_mem_take hm, hbad⟩)

theorem lastVersion_eq (h : validateMigrationSet migrations = .ok ()) :
    lastVersion migrations = migrations.length := by
  unfold lastVersion
  cases hlast : migrations.getLast? with
  | none => rw [List.getLast?_eq_none_iff.mp hlast]; rfl
  | some m =>
    rw [List.getLast?_eq_getElem?] at hlast
    obtain ⟨hi, rfl⟩ := List.getElem?_eq_some_iff.mp hlast
    rw [Option.map_some, Option.getD_some, version_getElem h hi]
    omega

theorem Stands.userVersion (hvalid : validateMigrationSet migrations = .ok ())
    (hspared : ∀ m ∈ migrations, engine.SparedBy m) {k : Nat} {c : Content σ}
    (h : Stands rt engine fresh migrations k c) : c.userVersion = k := by
  obtain ⟨hk, clock, c', hadvance, hc⟩ := h
  have hversion := advance_userVersion (fun m hm => hspared m (List.mem_of_mem_take hm)) hadvance
  have hlast := lastVersion_eq (validateMigrationSet_take hvalid k)
  rw [List.length_take, Nat.min_eq_left hk] at hlast
  have hsame : c.userVersion = c'.userVersion := (Prod.ext_iff.mp (Prod.ext_iff.mp hc).2).1
  rw [hsame, hversion]
  exact hlast

/-! ## Reading the history -/

theorem readHistory_run (faults : MigrateFaults) (hbootstrap : faults.bootstrap = none)
    (hselect : faults.select = none) {c : Content σ} {history : History}
    (hhistory : c.bootstrapped.history = some history) :
    readHistory faults ⟨c, none⟩ = (.ok history.sorted, ⟨c.bootstrapped, none⟩) := by
  have hcreate : Sql.execute none createHistory (⟨c, none⟩ : MigrationConnection σ) =
      (.ok (), ⟨c.bootstrapped, none⟩) := rfl
  have hrows : Sql.execute none selectHistory (⟨c.bootstrapped, none⟩ : MigrationConnection σ) =
      (.ok history.sorted, ⟨c.bootstrapped, none⟩) := by
    simp [Sql.execute, Sql.Connection.view, selectHistory, hhistory, Sql.Connection.write]
  unfold readHistory
  rw [hbootstrap, hselect]
  exact Call.tryExcept_ok ((Call.bind_ok hcreate).trans hrows)

theorem Records.versions {rows : List HistoryRow} (h : Records rt rows migrations) :
    rows.map HistoryRow.version = migrations.map Migration.version := by
  have hentries : (rows.map HistoryRow.entry).map Prod.fst = migrations.map Migration.version := by
    refine List.Forall₂.map_eq h fun entry m hm => ?_
    obtain ⟨checksum, -, rfl⟩ := entry_eq_ok.mp hm
    rfl
  rwa [List.map_map] at hentries

theorem versionsTo_pairwise (n : Nat) : (versionsTo n).Pairwise (· < ·) := by
  unfold versionsTo
  rw [List.pairwise_map]
  exact List.pairwise_lt_range.imp fun h => by omega

theorem mem_versionsTo {version : Int} {n : Nat} :
    version ∈ versionsTo n ↔ 1 ≤ version ∧ version ≤ n := by
  unfold versionsTo
  simp only [List.mem_map, List.mem_range]
  constructor
  · rintro ⟨i, hi, rfl⟩
    omega
  · intro h
    exact ⟨(version - 1).toNat, by omega, by omega⟩

/-- A history that records the first migrations is in the order of their versions. -/
theorem Records.sorted (hvalid : validateMigrationSet migrations = .ok ()) {k : Nat}
    {history : History} (h : Records rt history.rows (migrations.take k)) :
    history.sorted = history.rows := by
  have hversions := validateMigrationSet_eq_ok (validateMigrationSet_take hvalid k)
  have hpairwise := versionsTo_pairwise (migrations.take k).length
  rw [← hversions, ← h.versions, List.pairwise_map] at hpairwise
  exact sortedBy_eq_self (hpairwise.imp le_of_lt)

theorem Records.checkHistory (hvalid : validateMigrationSet migrations = .ok ()) {k : Nat}
    {rows : List HistoryRow} (h : Records rt rows (migrations.take k)) :
    checkHistory migrations rows = .ok () := by
  have hlength : rows.length = (migrations.take k).length := by
    simpa using congrArg List.length h.versions
  have hknown : (rows.map HistoryRow.version).filter (fun version =>
      decide (version ∉ migrations.map Migration.version)) = [] := by
    rw [List.filter_eq_nil_iff, h.versions]
    intro version hversion
    obtain ⟨m, hm, rfl⟩ := List.mem_map.mp hversion
    simpa using ⟨m, List.mem_of_mem_take hm, rfl⟩
  unfold Database.checkHistory
  simp only [hknown]
  rw [if_neg]
  rw [h.versions, validateMigrationSet_eq_ok (validateMigrationSet_take hvalid k), hlength]
  exact not_not.mpr rfl

/-! ## The loop -/

theorem find_version {rows : List HistoryRow} (hunique : (rows.map HistoryRow.version).Nodup)
    {row : HistoryRow} (hrow : row ∈ rows) :
    rows.find? (fun r => r.version = row.version) = some row := by
  induction rows with
  | nil => cases hrow
  | cons r rows ih =>
    rw [List.map_cons, List.nodup_cons] at hunique
    rcases List.mem_cons.mp hrow with rfl | hrow
    · simp
    · have hne : r.version ≠ row.version := fun heq =>
        hunique.1 (heq ▸ List.mem_map_of_mem hrow)
      rw [List.find?_cons_of_neg (by simpa using hne)]
      exact ih hunique.2 hrow

theorem find_version_none {rows : List HistoryRow} {version : Int}
    (h : version ∉ rows.map HistoryRow.version) :
    rows.find? (fun row => row.version = version) = none := by
  rw [List.find?_eq_none]
  intro row hrow heq
  exact h (List.mem_map.mpr ⟨row, hrow, of_decide_eq_true heq⟩)

theorem checkApplied_of_entry {migration : Migration} {row : HistoryRow}
    (h : migration.entry rt = .ok row.entry) : checkApplied rt migration row = .ok () := by
  obtain ⟨checksum, hchecksum, hentry⟩ := entry_eq_ok.mp h
  simp only [HistoryRow.entry, Prod.mk.injEq] at hentry
  unfold checkApplied
  simp [hchecksum, ← hentry.2.1, ← hentry.2.2]

/-- The loop passes over the migrations that the history records. -/
theorem migrateEach_recorded (engine : Engine σ) (clock : Int → Str) (faults : Int → ApplyFaults)
    {applied : List HistoryRow} {ms : List Migration} (rest : List Migration)
    (h : ∀ m ∈ ms, ∃ row, applied.find? (fun row => row.version = m.version) = some row ∧
      m.entry rt = .ok row.entry) (d : MigrationConnection σ) :
    migrateEach rt engine clock faults applied (ms ++ rest) d =
      migrateEach rt engine clock faults applied rest d := by
  induction ms with
  | nil => rfl
  | cons m ms ih =>
    obtain ⟨row, hfind, hentry⟩ := h m List.mem_cons_self
    rw [List.cons_append, migrateEach, hfind]
    simp only [checkApplied_of_entry hentry]
    exact ih fun m' hm' => h m' (List.mem_cons_of_mem _ hm')

/-- Where a run stops: a statement of the next migration raised, or a fault did. -/
structure StoppedAt (rt : Runtime) (engine : Engine σ) (fresh : σ) (clock : Int → Str)
    (faults : Int → ApplyFaults) (migrations : List Migration) (j : Nat) (raised : Exc)
    (d : MigrationConnection σ) : Prop where
  stands : Stands rt engine fresh migrations j d.committed
  /-- The table of the history exists. -/
  bootstrapped : d.committed.bootstrapped = d.committed
  /-- After a `MigrationError` nothing is left open. -/
  closed : ∀ message, raised = .migration message → d.pending = none
  failed : ∃ migration e, migrations[j]? = some migration ∧ raised = failure migration e ∧
    (advanceOne rt engine (clock migration.version) migration d.committed = .error e ∨
      (faults migration.version).Raises e)

/-- The loop from where the database stands. -/
theorem migrateEach_stands (hspared : ∀ m ∈ migrations, engine.SparedBy m) (clock : Int → Str)
    (faults : Int → ApplyFaults) {applied : List HistoryRow} {k : Nat} {c : Content σ}
    (hc : Stands rt engine fresh migrations k c) (hboot : c.bootstrapped = c)
    (hnew : ∀ m ∈ migrations.drop k, m.version ∉ applied.map HistoryRow.version) :
    (∃ c', Stands rt engine fresh migrations migrations.length c' ∧ c'.bootstrapped = c' ∧
      migrateEach rt engine clock faults applied (migrations.drop k) ⟨c, none⟩ =
        (.ok (), ⟨c', none⟩)) ∨
    ∃ j raised d, k ≤ j ∧ migrateEach rt engine clock faults applied (migrations.drop k) ⟨c, none⟩ =
        (.error raised, d) ∧ StoppedAt rt engine fresh clock faults migrations j raised d := by
  obtain ⟨n, hn⟩ : ∃ n, n = migrations.length - k := ⟨_, rfl⟩
  induction n generalizing k c with
  | zero =>
    have hk : k = migrations.length := by
      have := hc.1
      omega
    subst hk
    left
    rw [List.drop_length]
    exact ⟨c, hc, hboot, rfl⟩
  | succ n ih =>
    have hk : k < migrations.length := by omega
    have hdrop := List.drop_eq_getElem_cons hk
    rw [hdrop] at hnew ⊢
    rw [migrateEach, find_version_none (hnew _ List.mem_cons_self)]
    simp only
    rcases applyOne_cases rt engine (clock migrations[k].version) (faults migrations[k].version)
      migrations[k] c with ⟨c', hadvance, hrun⟩ | ⟨e, d, hrun, hd, he, hclosed⟩
    · rw [Call.bind_ok hrun]
      rw [← hboot] at hadvance
      obtain ⟨_, _, _, -, -, hhistory, -⟩ :=
        advanceOne_eq_ok (hspared _ (List.getElem_mem hk)) hadvance
      have hrest := ih (hc.succ hspared hk hadvance) (bootstrapped_of_history hhistory)
        (fun m hm => hnew m (List.mem_cons_of_mem _ hm)) (by omega)
      rcases hrest with hok | ⟨j, raised, d, hj, hrest⟩
      · exact Or.inl hok
      · exact Or.inr ⟨j, raised, d, by omega, hrest⟩
    · right
      refine ⟨k, failure migrations[k] e, d, le_rfl, Call.bind_error hrun, ?_⟩
      subst hd
      exact ⟨hc, hboot, hclosed, migrations[k], e, List.getElem?_eq_getElem hk, rfl, he⟩

/-! ## `migrate` on a database that stands somewhere -/

theorem migrate_eq (hvalid : validateMigrationSet migrations = .ok ())
    (hspared : ∀ m ∈ migrations, engine.SparedBy m) (clock : Int → Str)
    (faults : Int → ApplyFaults) {k : Nat} {c : Content σ}
    (hc : Stands rt engine fresh migrations k c) : ∃ applied : List HistoryRow,
      (∀ m ∈ migrations.drop k, m.version ∉ applied.map HistoryRow.version) ∧
      migrate rt engine clock { apply := faults } migrations ⟨c, none⟩ =
        (migrateEach rt engine clock faults applied (migrations.drop k) >>= fun _ =>
          pure (migrations.length : Int)) ⟨c.bootstrapped, none⟩ := by
  obtain ⟨history, hhistory, hrecords⟩ := hc.records hspared
  refine ⟨history.rows, fun m hm hmem => ?_, ?_⟩
  · rw [hrecords.versions] at hmem
    have hpairwise := versionsTo_pairwise migrations.length
    rw [← validateMigrationSet_eq_ok hvalid, ← List.take_append_drop k migrations, List.map_append,
      List.pairwise_append] at hpairwise
    exact absurd rfl (hpairwise.2.2 _ hmem _ (List.mem_map_of_mem hm)).ne
  · have hvalidate : Call.ofExcept (validateMigrationSet migrations)
        (⟨c, none⟩ : MigrationConnection σ) = (.ok (), ⟨c, none⟩) := by rw [hvalid]; rfl
    have hread := readHistory_run { apply := faults } rfl rfl hhistory
    rw [hrecords.sorted hvalid] at hread
    have hcheck : Call.ofExcept (checkHistory migrations history.rows)
        (⟨c.bootstrapped, none⟩ : MigrationConnection σ) = (.ok (), ⟨c.bootstrapped, none⟩) := by
      rw [hrecords.checkHistory hvalid]
      rfl
    unfold migrate
    refine (Call.bind_ok hvalidate).trans ((Call.bind_ok hread).trans
      ((Call.bind_ok hcheck).trans ?_))
    rw [lastVersion_eq hvalid]
    have hrecorded : ∀ m ∈ migrations.take k, ∃ row,
        history.rows.find? (fun row => row.version = m.version) = some row ∧
          m.entry rt = .ok row.entry := by
      intro m hm
      obtain ⟨entry, hentry, hm'⟩ := hrecords.exists_of_mem_right hm
      obtain ⟨row, hrow, rfl⟩ := List.mem_map.mp hentry
      have hversion : row.version = m.version := by
        obtain ⟨checksum, -, hsame⟩ := entry_eq_ok.mp hm'
        exact (Prod.ext_iff.mp hsame).1.symm
      exact ⟨row, hversion ▸ find_version history.unique hrow, hm'⟩
    have hloop := migrateEach_recorded engine clock faults
      (migrations.drop k) hrecorded ⟨c.bootstrapped, none⟩
    rw [List.take_append_drop] at hloop
    exact Call.bind_run_congr hloop

/-- A call of `migrate` ends at the last migration, or where one fails. -/
theorem migrate_stands (hvalid : validateMigrationSet migrations = .ok ())
    (hspared : ∀ m ∈ migrations, engine.SparedBy m) (clock : Int → Str)
    (faults : Int → ApplyFaults) {k : Nat} {c : Content σ}
    (hc : Stands rt engine fresh migrations k c) :
    (∃ c', Stands rt engine fresh migrations migrations.length c' ∧ c'.bootstrapped = c' ∧
      migrate rt engine clock { apply := faults } migrations ⟨c, none⟩ =
        (.ok (migrations.length : Int), ⟨c', none⟩)) ∨
    ∃ j raised d, k ≤ j ∧ migrate rt engine clock { apply := faults } migrations ⟨c, none⟩ =
        (.error raised, d) ∧ StoppedAt rt engine fresh clock faults migrations j raised d := by
  obtain ⟨applied, hnew, hrun⟩ := migrate_eq hvalid hspared clock faults hc
  rw [hrun]
  rcases migrateEach_stands hspared clock faults hc.bootstrapped rfl hnew with
    ⟨c', hc', hboot, hok⟩ | ⟨j, raised, d, hj, herror, hstopped⟩
  · exact Or.inl ⟨c', hc', hboot, Call.bind_ok hok⟩
  · exact Or.inr ⟨j, raised, d, hj, Call.bind_error herror, hstopped⟩

theorem Stands.of_take {n k : Nat} {c : Content σ}
    (h : Stands rt engine fresh (migrations.take n) k c) : Stands rt engine fresh migrations k c := by
  obtain ⟨hk, clock, c', hadvance, hc⟩ := h
  rw [List.length_take] at hk
  rw [List.take_take, Nat.min_eq_left (hk.trans (Nat.min_le_left _ _))] at hadvance
  exact ⟨hk.trans (Nat.min_le_right _ _), clock, c', hadvance, hc⟩

/-- Without faults, only a migration that fails stops a run. -/
theorem StoppedAt.failed_of_none {clock : Int → Str} {j : Nat} {raised : Exc}
    {d : MigrationConnection σ}
    (h : StoppedAt rt engine fresh clock (fun _ => {}) migrations j raised d) :
    ∃ hj : j < migrations.length, ∃ e, raised = failure migrations[j] e ∧
      advanceOne rt engine (clock migrations[j].version) migrations[j] d.committed = .error e := by
  obtain ⟨migration, e, hget, hraised, he⟩ := h.failed
  obtain ⟨hj, rfl⟩ := List.getElem?_eq_some_iff.mp hget
  exact ⟨hj, e, hraised, he.resolve_right not_raises⟩

/-- A run cannot stop where another database has passed. -/
theorem StoppedAt.not_passed (hspared : ∀ m ∈ migrations, engine.SparedBy m) {clock : Int → Str}
    {j k : Nat} {raised : Exc} {d : MigrationConnection σ} {c : Content σ}
    (h : StoppedAt rt engine fresh clock (fun _ => {}) migrations j raised d)
    (hc : Stands rt engine fresh migrations k c) : ¬ j < k := by
  intro hjk
  obtain ⟨hj, e, -, he⟩ := h.failed_of_none
  obtain ⟨c', hc'⟩ := h.stands.next hspared hc hjk hj (clock migrations[j].version)
  rw [h.bootstrapped, he] at hc'
  cases hc'

/-- Two runs without faults, from databases that stand anywhere, end alike. -/
theorem migrate_agrees (hvalid : validateMigrationSet migrations = .ok ())
    (hspared : ∀ m ∈ migrations, engine.SparedBy m) (clock₁ clock₂ : Int → Str) {j k : Nat}
    {c d : Content σ} (hc : Stands rt engine fresh migrations j c)
    (hd : Stands rt engine fresh migrations k d) :
    (migrate rt engine clock₁ {} migrations ⟨c, none⟩).1 =
        (migrate rt engine clock₂ {} migrations ⟨d, none⟩).1 ∧
      Alike (migrate rt engine clock₁ {} migrations ⟨c, none⟩).2.committed
        (migrate rt engine clock₂ {} migrations ⟨d, none⟩).2.committed := by
  have h₁ := migrate_stands hvalid hspared clock₁ (fun _ => {}) hc
  have h₂ := migrate_stands hvalid hspared clock₂ (fun _ => {}) hd
  rcases h₁ with ⟨c', hc', hbootc, hrunc⟩ | ⟨i, raised, c', -, hrunc, hstopc⟩ <;>
    rcases h₂ with ⟨d', hd', hbootd, hrund⟩ | ⟨i', raised', d', -, hrund, hstopd⟩ <;>
    rw [hrunc, hrund]
  · have halike := hc'.alike hspared hd'
    rw [hbootc, hbootd] at halike
    exact ⟨rfl, halike⟩
  · exact absurd hstopd.failed_of_none.1 (hstopd.not_passed hspared hc')
  · exact absurd hstopc.failed_of_none.1 (hstopc.not_passed hspared hd')
  · have hle := hstopc.not_passed hspared hstopd.stands
    have hle' := hstopd.not_passed hspared hstopc.stands
    obtain rfl : i = i' := by omega
    have halike := hstopc.stands.alike hspared hstopd.stands
    rw [hstopc.bootstrapped, hstopd.bootstrapped] at halike
    obtain ⟨hi, e, hraised, he⟩ := hstopc.failed_of_none
    obtain ⟨_, e', hraised', he'⟩ := hstopd.failed_of_none
    have hrel := advanceOne_rel rt (hspared _ (List.getElem_mem hi))
      (clock₁ migrations[i].version) (clock₂ migrations[i].version) halike
    rw [he, he'] at hrel
    cases hrel
    exact ⟨by rw [hraised, hraised'], halike⟩

/-! ## Rejected histories -/

/-- The history has an unknown version, a gap, or a row that differs from its migration. -/
def Rejected (rt : Runtime) (migrations : List Migration) (history : History) : Prop :=
  (∃ row ∈ history.rows, row.version ∉ migrations.map Migration.version) ∨
  (∃ row ∈ history.rows, ∃ version, 1 ≤ version ∧ version < row.version ∧
    version ∉ history.rows.map HistoryRow.version) ∨
  ∃ row ∈ history.rows, ∃ migration ∈ migrations, migration.version = row.version ∧
    (row.name ≠ migration.name ∨ migration.checksum rt ≠ .ok row.checksum)

theorem checkHistory_eq_ok {rows : List HistoryRow}
    (h : checkHistory migrations rows = .ok ()) :
    (∀ row ∈ rows, row.version ∈ migrations.map Migration.version) ∧
      rows.map HistoryRow.version = versionsTo rows.length := by
  unfold checkHistory at h
  simp only at h
  split at h
  · cases h
  · next hunknown =>
    split at h
    · cases h
    · next hcontiguous =>
      refine ⟨fun row hrow => ?_, not_not.mp hcontiguous⟩
      have hnot := List.filter_eq_nil_iff.mp hunknown row.version (List.mem_map_of_mem hrow)
      simpa using hnot

theorem checkHistory_eq_error {rows : List HistoryRow} {e : Exc}
    (h : checkHistory migrations rows = .error e) : ∃ message, e = .migration message := by
  unfold checkHistory at h
  simp only at h
  split at h
  · exact ⟨_, (Except.error.inj h).symm⟩
  · split at h
    · exact ⟨_, (Except.error.inj h).symm⟩
    · cases h

theorem checkApplied_eq_error {migration : Migration} {row : HistoryRow}
    (h : row.name ≠ migration.name ∨ migration.checksum rt ≠ .ok row.checksum) :
    ∃ e, checkApplied rt migration row = .error e := by
  unfold checkApplied
  cases hchecksum : migration.checksum rt with
  | error e => exact ⟨e, rfl⟩
  | ok checksum =>
    rw [hchecksum] at h
    refine ⟨_, if_pos fun heq => ?_⟩
    simp only [Prod.mk.injEq] at heq
    exact h.elim (fun hname => hname heq.1) fun hsum => hsum (by rw [heq.2])

/-- A checksum that can be read makes every rejection a `MigrationError`. -/
theorem checkApplied_error_migration {migration : Migration} {row : HistoryRow} {e : Exc}
    (hencodable : Encodable migration.sql) (h : checkApplied rt migration row = .error e) :
    ∃ message, e = .migration message := by
  unfold checkApplied at h
  have hchecksum : migration.checksum rt = .ok (rt.sha256 (migration.sql.flatMap utf8Char)) := by
    unfold Migration.checksum
    rw [encodeUtf8_eq_some.mpr ⟨hencodable, rfl⟩]
  rw [hchecksum, Except.ok_bind] at h
  split at h
  · exact ⟨_, (Except.error.inj h).symm⟩
  · cases h

/-- The loop raises at a recorded migration that differs, before it applies any. -/
theorem migrateEach_mismatch (engine : Engine σ) (clock : Int → Str) (faults : Int → ApplyFaults)
    {applied : List HistoryRow} {ms : List Migration} (rest : List Migration)
    (hrecorded : ∀ m ∈ ms, m.version ∈ applied.map HistoryRow.version)
    (hbad : ∃ m ∈ ms, ∃ row, applied.find? (fun row => row.version = m.version) = some row ∧
      (row.name ≠ m.name ∨ m.checksum rt ≠ .ok row.checksum)) (d : MigrationConnection σ) :
    ∃ e, migrateEach rt engine clock faults applied (ms ++ rest) d = (.error e, d) ∧
      ((∀ m ∈ ms, Encodable m.sql) → ∃ message, e = .migration message) := by
  induction ms with
  | nil =>
    obtain ⟨m, hm, -⟩ := hbad
    cases hm
  | cons m ms ih =>
    obtain ⟨row, hrow, hversion⟩ := List.mem_map.mp (hrecorded m List.mem_cons_self)
    obtain ⟨row', hfind⟩ : ∃ row', applied.find? (fun row => row.version = m.version) = some row' := by
      rw [← Option.isSome_iff_exists, List.find?_isSome]
      exact ⟨row, hrow, decide_eq_true hversion⟩
    rw [List.cons_append, migrateEach, hfind]
    simp only
    cases hcheck : checkApplied rt m row' with
    | error e =>
      exact ⟨e, Call.bind_error rfl, fun hencodable =>
        checkApplied_error_migration (hencodable m List.mem_cons_self) hcheck⟩
    | ok u =>
      have hrest : ∃ m' ∈ ms, ∃ row, applied.find? (fun row => row.version = m'.version) = some row ∧
          (row.name ≠ m'.name ∨ m'.checksum rt ≠ .ok row.checksum) := by
        obtain ⟨m', hm', row'', hfind', hdiffers⟩ := hbad
        rcases List.mem_cons.mp hm' with rfl | hm'
        · cases hfind.symm.trans hfind'
          obtain ⟨e, he⟩ := checkApplied_eq_error hdiffers
          rw [hcheck] at he
          cases he
        · exact ⟨m', hm', row'', hfind', hdiffers⟩
      obtain ⟨e, hrun, hmigration⟩ :=
        ih (fun m' hm' => hrecorded m' (List.mem_cons_of_mem _ hm')) hrest
      exact ⟨e, (Call.bind_ok rfl).trans hrun, fun hencodable =>
        hmigration fun m' hm' => hencodable m' (List.mem_cons_of_mem _ hm')⟩

/-- A rejected history stops `migrate` before it changes anything. -/
theorem migrate_rejected (hvalid : validateMigrationSet migrations = .ok ()) (clock : Int → Str)
    (faults : Int → ApplyFaults) {c : Content σ} {history : History}
    (hhistory : c.history = some history) (hrejected : Rejected rt migrations history) :
    ∃ e, migrate rt engine clock { apply := faults } migrations ⟨c, none⟩ = (.error e, ⟨c, none⟩) ∧
      ((∀ m ∈ migrations, Encodable m.sql) → ∃ message, e = .migration message) := by
  have hboot := bootstrapped_of_history hhistory
  have hread := readHistory_run { apply := faults } rfl rfl (hboot ▸ hhistory)
  rw [hboot] at hread
  have hvalidate : Call.ofExcept (validateMigrationSet migrations)
      (⟨c, none⟩ : MigrationConnection σ) = (.ok (), ⟨c, none⟩) := by rw [hvalid]; rfl
  have hperm : history.sorted.Perm history.rows := sortedBy_perm _ _
  unfold migrate
  cases hcheck : checkHistory migrations history.sorted with
  | error e =>
    refine ⟨e, (Call.bind_ok hvalidate).trans ((Call.bind_ok hread).trans (Call.bind_error ?_)),
      fun _ => checkHistory_eq_error hcheck⟩
    rw [hcheck]
    rfl
  | ok u =>
    obtain ⟨hknown, hcontiguous⟩ := checkHistory_eq_ok hcheck
    have hvalidate' : Call.ofExcept (checkHistory migrations history.sorted)
        (⟨c, none⟩ : MigrationConnection σ) = (.ok (), ⟨c, none⟩) := by rw [hcheck]; rfl
    have hmem : ∀ version, version ∈ history.rows.map HistoryRow.version ↔
        1 ≤ version ∧ version ≤ history.sorted.length := by
      intro version
      rw [← (hperm.map HistoryRow.version).mem_iff, hcontiguous, mem_versionsTo]
    have hmatch : ∀ m ∈ migrations, m ∈ migrations.take history.sorted.length ↔
        m.version ∈ history.rows.map HistoryRow.version := by
      intro m hm
      obtain ⟨i, hi, rfl⟩ := List.getElem_of_mem hm
      rw [hmem, version_getElem hvalid hi, List.mem_take_iff_getElem]
      constructor
      · rintro ⟨j, hj, heq⟩
        have hversion := congrArg Migration.version heq
        rw [version_getElem hvalid (by omega), version_getElem hvalid hi] at hversion
        omega
      · exact fun h => ⟨i, by omega, rfl⟩
    have hbad : ∃ m ∈ migrations.take history.sorted.length, ∃ row,
        history.sorted.find? (fun row => row.version = m.version) = some row ∧
          (row.name ≠ m.name ∨ m.checksum rt ≠ .ok row.checksum) := by
      rcases hrejected with ⟨row, hrow, hunknown⟩ | ⟨row, hrow, version, hone, hlt, hgap⟩ |
        ⟨row, hrow, m, hm, hversion, hdiffers⟩
      · exact absurd (hknown row (hperm.mem_iff.mpr hrow)) hunknown
      · have hbound := (hmem row.version).mp (List.mem_map_of_mem hrow)
        exact absurd ((hmem version).mpr ⟨hone, by omega⟩) hgap
      · refine ⟨m, (hmatch m hm).mpr (hversion ▸ List.mem_map_of_mem hrow), row, ?_, hdiffers⟩
        rw [hversion]
        exact find_version ((hperm.map _).nodup_iff.mpr history.unique) (hperm.mem_iff.mpr hrow)
    have hrecorded : ∀ m ∈ migrations.take history.sorted.length,
        m.version ∈ history.sorted.map HistoryRow.version := by
      intro m hm
      rw [(hperm.map HistoryRow.version).mem_iff]
      exact (hmatch m (List.mem_of_mem_take hm)).mp hm
    obtain ⟨e, hrun, hmigration⟩ := migrateEach_mismatch engine clock faults
      (migrations.drop history.sorted.length) hrecorded hbad ⟨c, none⟩
    rw [List.take_append_drop] at hrun
    exact ⟨e, (Call.bind_ok hvalidate).trans ((Call.bind_ok hread).trans
      ((Call.bind_ok hvalidate').trans (Call.bind_error hrun))),
      fun hencodable => hmigration fun m hm => hencodable m (List.mem_of_mem_take hm)⟩

/-! ## Composition -/

/-- What a migration list and the databases it makes promise. -/
structure Composes (rt : Runtime) (engine : Engine σ) (fresh : σ) (migrations : List Migration) :
    Prop where
  /-- Migrating a prefix and then the list ends as migrating the list does. -/
  resumed : ∀ (n : Nat) (clock₁ clock₂ clock : Int → Str),
    let part := (migrate rt engine clock₁ {} (migrations.take n) ⟨.empty fresh, none⟩).2.committed
    let resumed := migrate rt engine clock₂ {} migrations ⟨part, none⟩
    let direct := migrate rt engine clock {} migrations ⟨.empty fresh, none⟩
    resumed.1 = direct.1 ∧ Alike resumed.2.committed direct.2.committed
  /-- A run that returns has applied the list, and another run changes nothing. -/
  repeated : ∀ (k : Nat) (c : Content σ), Stands rt engine fresh migrations k c →
    ∀ (clock clock' : Int → Str) (faults faults' : Int → ApplyFaults) (v : Int)
      (d : MigrationConnection σ),
      migrate rt engine clock { apply := faults } migrations ⟨c, none⟩ = (.ok v, d) →
      v = migrations.length ∧ Stands rt engine fresh migrations migrations.length d.committed ∧
        migrate rt engine clock' { apply := faults' } migrations d = (.ok v, d)
  /-- A run that raises stopped at a migration, and the ones before it are committed. -/
  stopped : ∀ (k : Nat) (c : Content σ), Stands rt engine fresh migrations k c →
    ∀ (clock : Int → Str) (faults : Int → ApplyFaults) (raised : Exc) (d : MigrationConnection σ),
      migrate rt engine clock { apply := faults } migrations ⟨c, none⟩ = (.error raised, d) →
      ∃ j history, k ≤ j ∧ StoppedAt rt engine fresh clock faults migrations j raised d ∧
        d.committed.history = some history ∧ history.rows.length = j ∧ d.committed.userVersion = j
  /-- A rejected history is left as it is. -/
  rejected : ∀ (c : Content σ) (history : History), c.history = some history →
    Rejected rt migrations history →
    ∀ (clock : Int → Str) (faults : Int → ApplyFaults), ∃ e,
      migrate rt engine clock { apply := faults } migrations ⟨c, none⟩ = (.error e, ⟨c, none⟩) ∧
        ((∀ m ∈ migrations, Encodable m.sql) → ∃ message, e = .migration message)

theorem migrate_composes (rt : Runtime) (engine : Engine σ) (fresh : σ)
    {migrations : List Migration} (hvalid : validateMigrationSet migrations = .ok ())
    (hspared : ∀ m ∈ migrations, engine.SparedBy m) : Composes rt engine fresh migrations where
  resumed n clock₁ clock₂ clock := by
    have hpart : ∃ k, Stands rt engine fresh migrations k
        (migrate rt engine clock₁ {} (migrations.take n) ⟨.empty fresh, none⟩).2.committed := by
      rcases migrate_stands (validateMigrationSet_take hvalid n)
        (fun m hm => hspared m (List.mem_of_mem_take hm)) clock₁ (fun _ => {})
        (stands_zero fresh (migrations.take n)) with ⟨c', hc', -, hrun⟩ | ⟨j, raised, d, -, hrun, hstop⟩
      · rw [hrun]
        exact ⟨_, hc'.of_take⟩
      · rw [hrun]
        exact ⟨_, hstop.stands.of_take⟩
    obtain ⟨k, hk⟩ := hpart
    exact migrate_agrees hvalid hspared clock₂ clock hk (stands_zero fresh migrations)
  repeated k c hc clock clock' faults faults' v d hrun := by
    rcases migrate_stands hvalid hspared clock faults hc with
      ⟨c', hc', hboot, hok⟩ | ⟨j, raised, d', -, herror, -⟩
    · rw [hok] at hrun
      cases hrun
      refine ⟨rfl, hc', ?_⟩
      obtain ⟨applied, -, hagain⟩ := migrate_eq hvalid hspared clock' faults' hc'
      rw [hagain, hboot, List.drop_length]
      rfl
    · rw [herror] at hrun
      cases hrun
  stopped k c hc clock faults raised d hrun := by
    rcases migrate_stands hvalid hspared clock faults hc with
      ⟨c', hc', hboot, hok⟩ | ⟨j, raised', d', hkj, herror, hstop⟩
    · rw [hok] at hrun
      cases hrun
    · rw [herror] at hrun
      cases hrun
      obtain ⟨history, hhistory, hrecords⟩ := hstop.stands.records hspared
      refine ⟨j, history, hkj, hstop, hstop.bootstrapped ▸ hhistory, ?_,
        hstop.stands.userVersion hvalid hspared⟩
      have hlength := congrArg List.length hrecords.versions
      simpa [Nat.min_eq_left hstop.stands.1] using hlength
  rejected c history hhistory hrejected clock faults :=
    migrate_rejected hvalid clock faults hhistory hrejected

namespace Sample

/-- `DELETE` of a row of the history. -/
def forget : Str := str "DELETE FROM schema_migrations WHERE version = 1;"

def forgetFirst (history : History) : History where
  rows := history.rows.filter fun row => row.version ≠ 1
  unique := history.unique.sublist (List.filter_sublist.map _)

/-- SQLite on scripts that create tables and delete from the history: the schema is the statements
that created a table, and no table is created twice. -/
def sqlite : Engine (List Str) where
  complete s := .ok ((strip s).getLast?.elim false (· = cp ';'))
  run s c :=
    if s = forget then .ok { c with history := c.history.map forgetFirst }
    else if s ∈ c.schema then .error .sqlite
    else .ok { c with schema := c.schema ++ [s] }

theorem sqlite_spares {s : Str} (hs : s ≠ forget) : sqlite.Spares s := by
  constructor
  · intro c c' h
    simp only [sqlite, if_neg hs] at h
    split at h
    · cases h
    · cases h
      rfl
  · intro c₁ c₂ hc
    obtain ⟨schema₁, version₁, history₁⟩ := c₁
    obtain ⟨schema₂, version₂, history₂⟩ := c₂
    simp only [Alike, Content.recorded, Prod.mk.injEq] at hc
    obtain ⟨rfl, rfl, hhistory⟩ := hc
    simp only [sqlite, if_neg hs]
    split
    · exact .error _
    · exact .ok (by simp [Alike, Content.recorded, hhistory])

def devices : Migration := ⟨1, str "devices", str "CREATE TABLE devices(id INTEGER);"⟩

def forgets : Migration := ⟨2, str "forget", forget⟩

def aliases (version : Int) : Migration :=
  ⟨version, str "aliases", str "CREATE TABLE device_aliases(id INTEGER);\n"⟩

/-- `migrate` on a file with this content. -/
def migrated (migrations : List Migration) (c : Content (List Str)) :=
  migrate Redaction.Sample.runtime sqlite (fun _ => []) {} migrations ⟨c, none⟩

end Sample

theorem migrate_composes_sample :
    Composes Redaction.Sample.runtime Sample.sqlite [] [Sample.devices, Sample.aliases 2] ∧
      (Sample.migrated [Sample.devices, Sample.aliases 2] (.empty [])).1 = .ok 2 := by
  refine ⟨migrate_composes _ _ _ (by decide) ?_, by decide +kernel⟩
  intro m hm s hs
  refine Sample.sqlite_spares fun heq => ?_
  subst heq
  revert m hm
  decide +kernel

/-- A migration that deletes from the history makes the next call refuse it. -/
theorem migrate_forgetting :
    let migrations := [Sample.devices, Sample.forgets, Sample.aliases 3]
    let part := (Sample.migrated (migrations.take 2) (.empty [])).2.committed
    validateMigrationSet migrations = .ok () ∧
      (Sample.migrated migrations part).1 =
        .error (.migration (str "database migration history is not contiguous")) ∧
      (Sample.migrated migrations (.empty [])).1 = .ok 3 ∧
      ¬ Composes Redaction.Sample.runtime Sample.sqlite [] migrations := by
  refine ⟨by decide, by decide +kernel, by decide +kernel, fun h => ?_⟩
  have hresumed := (h.resumed 2 (fun _ => []) (fun _ => []) fun _ => []).1
  exact absurd hresumed (by decide +kernel)

end FieldDiscovery.Database
