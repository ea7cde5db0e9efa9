import FieldDiscovery.Database.Migrate

/-!
# What migrations make of a database

`advanceOne` is one migration as a function of the content, and `Stands k c` says that `c` is what the
first `k` migrations make of an empty database, up to the times in the history. Two contents that
agree up to these times stay so under migrations that spare the history (`advanceOne_rel`), which makes
`k` a function of the content.
-/

namespace FieldDiscovery.Database

open Py Repository

variable {σ : Type}

/-! ## Contents without times -/

/-- What is recorded of a migration, without the time. -/
def HistoryRow.entry (row : HistoryRow) : Int × Str × Str := (row.version, row.name, row.checksum)

/-- The schema, `user_version`, and the entries of the history. -/
def Content.recorded (c : Content σ) : σ × Int × Option (List (Int × Str × Str)) :=
  (c.schema, c.userVersion, c.history.map fun history => history.rows.map HistoryRow.entry)

/-- Both contents are recorded alike. -/
def Alike (c₁ c₂ : Content σ) : Prop := c₁.recorded = c₂.recorded

/-- The statement does not write the history, and what it does is the same at all times. -/
def Engine.Spares (engine : Engine σ) (statement : Str) : Prop :=
  (∀ c c', engine.run statement c = .ok c' → c'.history = c.history) ∧
    ∀ c₁ c₂, Alike c₁ c₂ →
      Except.Rel Alike (engine.run statement c₁) (engine.run statement c₂)

/-- The content with a history table, empty if there was none. -/
def Content.bootstrapped (c : Content σ) : Content σ :=
  { c with history := some (c.history.getD ⟨[], List.nodup_nil⟩) }

theorem Alike.rows {c₁ c₂ : Content σ} (h : Alike c₁ c₂) {h₁ h₂ : History}
    (h₁' : c₁.history = some h₁) (h₂' : c₂.history = some h₂) :
    h₁.rows.map HistoryRow.entry = h₂.rows.map HistoryRow.entry := by
  unfold Alike Content.recorded at h
  rw [h₁', h₂'] at h
  simpa using (Prod.ext_iff.mp (Prod.ext_iff.mp h).2).2

theorem Alike.bootstrapped {c₁ c₂ : Content σ} (h : Alike c₁ c₂) :
    Alike c₁.bootstrapped c₂.bootstrapped := by
  unfold Alike Content.recorded at h ⊢
  unfold Content.bootstrapped
  obtain ⟨s₁, v₁, h₁⟩ := c₁
  obtain ⟨s₂, v₂, h₂⟩ := c₂
  cases h₁ <;> cases h₂ <;> simp_all

/-! ## One migration -/

section

variable (rt : Runtime) (engine : Engine σ)

/-- What one migration makes of a content. -/
def advanceOne (now : Str) (migration : Migration) (c : Content σ) : Except Exc (Content σ) := do
  let c ← (sqlStatements engine.complete migration.sql).1.foldlM (fun c s => engine.run s c) c
  match (sqlStatements engine.complete migration.sql).2 with
  | some e => .error e
  | none =>
    let checksum ← migration.checksum rt
    let inserted ← insertHistory ⟨migration.version, migration.name, checksum, now⟩ c
    .ok { inserted.2 with userVersion := migration.version }

theorem executeStatements_means {F : Exc → Prop} {faults : Nat → Option Exc}
    (hfaults : ∀ i e, faults i = some e → F e) (statements : List Str) (i : Nat) :
    Sql.Means F (executeStatements engine faults i statements) fun c =>
      (statements.foldlM (fun c s => engine.run s c) c).map ((), ·) := by
  induction statements generalizing i with
  | nil => exact Sql.Means.pure ()
  | cons statement rest ih =>
    have hstep := (Sql.Means.execute (hfaults i) fun c =>
      (engine.run statement c).map ((), ·)).bind fun _ => ih (i + 1)
    refine hstep.congr fun c => ?_
    rw [List.foldlM_cons]
    cases engine.run statement c <;> rfl

/-- The exceptions that the faults of a migration raise. -/
def ApplyFaults.Raises (faults : ApplyFaults) (e : Exc) : Prop :=
  faults.begin = some e ∨ (∃ i, faults.statement i = some e) ∨ faults.insert = some e ∨
    faults.pragma = some e ∨ faults.commit = some e

theorem not_raises {e : Exc} : ¬ ({} : ApplyFaults).Raises e := by
  simp [ApplyFaults.Raises]

theorem applyBody_means (now : Str) (faults : ApplyFaults) (migration : Migration) :
    Sql.Means faults.Raises (applyBody rt engine now faults migration) fun c =>
      (advanceOne rt engine now migration c).map ((), ·) := by
  have hinsert : ∀ e, faults.insert = some e → faults.Raises e :=
    fun e h => Or.inr (Or.inr (Or.inl h))
  have hpragma : ∀ e, faults.pragma = some e → faults.Raises e :=
    fun e h => Or.inr (Or.inr (Or.inr (Or.inl h)))
  have hloop := executeStatements_means engine (F := faults.Raises)
    (fun i e h => Or.inr (Or.inl ⟨i, h⟩)) (sqlStatements engine.complete migration.sql).1 0
  have hend : Sql.Means faults.Raises
      (Call.guardFault (sqlStatements engine.complete migration.sql).2 :
        Call (MigrationConnection σ) Exc Unit) fun c =>
      match (sqlStatements engine.complete migration.sql).2 with
      | some e => .error e
      | none => .ok ((), c) := by
    intro s₀ s
    cases (sqlStatements engine.complete migration.sql).2 with
    | some e => exact Or.inr ⟨e, s, rfl, Or.inl rfl⟩
    | none => exact Or.inl ⟨(), s, rfl, rfl⟩
  have hbody := hloop.bind fun _ => hend.bind fun _ =>
    (Sql.Means.ofExcept (migration.checksum rt)).bind fun checksum =>
      (Sql.Means.execute hinsert (insertHistory ⟨migration.version, migration.name, checksum,
        now⟩)).bind fun _ => Sql.Means.execute hpragma (setUserVersion migration.version)
  refine hbody.congr fun c => ?_
  unfold advanceOne
  cases (sqlStatements engine.complete migration.sql).1.foldlM (fun c s => engine.run s c) c with
  | error e => rfl
  | ok c₁ =>
    simp only [Except.ok_bind, Except.map]
    cases (sqlStatements engine.complete migration.sql).2 with
    | some e => rfl
    | none =>
      cases migration.checksum rt with
      | error e => rfl
      | ok checksum =>
        simp only [Except.ok_bind]
        cases insertHistory ⟨migration.version, migration.name, checksum, now⟩ c₁ <;> rfl

/-- What is left of an exception that a migration raises. -/
def failure (migration : Migration) (e : Exc) : Exc :=
  if isHandled e then migrationFailed migration else e

theorem undoMigration_run (migration : Migration) (e : Exc) (d : MigrationConnection σ) :
    ∃ d', undoMigration migration e d = (.error (failure migration e), d') ∧
      d'.committed = d.committed ∧
      ∀ message, failure migration e = .migration message → d'.pending = none := by
  unfold undoMigration failure
  split
  · exact ⟨⟨d.committed, none⟩, rfl, rfl, fun _ _ => rfl⟩
  · next hhandled =>
    refine ⟨d, rfl, rfl, fun message h => ?_⟩
    rw [h] at hhandled
    exact absurd rfl hhandled

/-- A migration is committed as a whole, or nothing of it is. -/
theorem applyOne_cases (rt : Runtime) (engine : Engine σ) (now : Str) (faults : ApplyFaults)
    (migration : Migration) (c : Content σ) :
    (∃ c', advanceOne rt engine now migration c = .ok c' ∧
      applyOne rt engine now faults migration ⟨c, none⟩ = (.ok (), ⟨c', none⟩)) ∨
    ∃ e d, applyOne rt engine now faults migration ⟨c, none⟩ = (.error (failure migration e), d) ∧
      d.committed = c ∧ (advanceOne rt engine now migration c = .error e ∨ faults.Raises e) ∧
      ∀ message, failure migration e = .migration message → d.pending = none := by
  have hbody := (applyBody_means rt engine now faults migration).delimited
    { begin := faults.begin, commit := faults.commit }
    (fun e h => Or.inl h) (fun e h => Or.inr (Or.inr (Or.inr (Or.inr h)))) c
  unfold applyOne
  rcases hbody with ⟨_, c', hadvance, hrun⟩ | ⟨e, d, hrun, hd, he⟩
  · left
    refine ⟨c', ?_, Call.tryExcept_ok hrun⟩
    cases h : advanceOne rt engine now migration c with
    | error e => rw [h] at hadvance; cases hadvance
    | ok c₁ => rw [h] at hadvance; cases hadvance; rfl
  · right
    obtain ⟨d', hundo, hcommitted, hpending⟩ := undoMigration_run migration e d
    refine ⟨e, d', (Call.tryExcept_error hrun).trans hundo, hcommitted.trans hd, ?_, hpending⟩
    refine he.imp_left fun h => ?_
    cases hadvance : advanceOne rt engine now migration c with
    | error e' => rw [hadvance] at h; cases h; rfl
    | ok c₁ => rw [hadvance] at h; cases h

/-! ## Migrations that spare the history -/

variable {rt engine}

/-- Every statement of the migration spares the history. -/
def Engine.SparedBy (engine : Engine σ) (migration : Migration) : Prop :=
  ∀ s ∈ (sqlStatements engine.complete migration.sql).1, engine.Spares s

theorem runStatements_history {statements : List Str} (h : ∀ s ∈ statements, engine.Spares s)
    {c c' : Content σ} (hrun : statements.foldlM (fun c s => engine.run s c) c = .ok c') :
    c'.history = c.history := by
  induction statements generalizing c with
  | nil =>
    cases hrun
    rfl
  | cons s rest ih =>
    rw [List.foldlM_cons] at hrun
    obtain ⟨c₁, hs, hrest⟩ := Except.bind_eq_ok.mp hrun
    rw [ih (fun t ht => h t (List.mem_cons_of_mem _ ht)) hrest]
    exact (h s List.mem_cons_self).1 c c₁ hs

theorem runStatements_rel {statements : List Str} (h : ∀ s ∈ statements, engine.Spares s)
    {c₁ c₂ : Content σ} (hc : Alike c₁ c₂) :
    Except.Rel Alike (statements.foldlM (fun c s => engine.run s c) c₁)
      (statements.foldlM (fun c s => engine.run s c) c₂) := by
  induction statements generalizing c₁ c₂ with
  | nil => exact .ok hc
  | cons s rest ih =>
    rw [List.foldlM_cons, List.foldlM_cons]
    exact ((h s List.mem_cons_self).2 c₁ c₂ hc).bind fun c₁' c₂' hc' =>
      ih (fun t ht => h t (List.mem_cons_of_mem _ ht)) hc'

theorem insertHistory_eq_ok {row : HistoryRow} {c : Content σ} {r : Unit × Content σ}
    (h : insertHistory row c = .ok r) : ∃ history hnew, c.history = some history ∧
      r.2 = { c with history := some (history.insert row hnew) } := by
  unfold insertHistory at h
  obtain ⟨-, -, h⟩ := Except.bind_eq_ok.mp h
  split at h
  · cases h
  · next history hhistory =>
    split at h
    · cases h
    · next hnew =>
      cases h
      exact ⟨history, (not_or.mp hnew).1, hhistory, rfl⟩

theorem versions_eq_of_entries {rows₁ rows₂ : List HistoryRow}
    (h : rows₁.map HistoryRow.entry = rows₂.map HistoryRow.entry) :
    rows₁.map HistoryRow.version = rows₂.map HistoryRow.version := by
  have hfst := congrArg (List.map Prod.fst) h
  rwa [List.map_map, List.map_map] at hfst

theorem insertHistory_rel {row₁ row₂ : HistoryRow} (hrow : row₁.entry = row₂.entry)
    {c₁ c₂ : Content σ} (hc : Alike c₁ c₂) :
    Except.Rel (fun r₁ r₂ : Unit × Content σ => Alike r₁.2 r₂.2) (insertHistory row₁ c₁)
      (insertHistory row₂ c₂) := by
  obtain ⟨v, name, checksum, t₁⟩ := row₁
  obtain ⟨v₂, name₂, checksum₂, t₂⟩ := row₂
  cases hrow
  unfold insertHistory
  simp only
  cases hbind : Repository.bind [Value.integer v, Value.text name, Value.text checksum] with
  | error e => exact .error e
  | ok u =>
    obtain ⟨s₁, n₁, history₁⟩ := c₁
    obtain ⟨s₂, n₂, history₂⟩ := c₂
    have hsame := hc
    simp only [Alike, Content.recorded, Prod.mk.injEq] at hsame
    obtain ⟨rfl, rfl, hhistory⟩ := hsame
    cases history₁ with
    | none =>
      cases history₂ with
      | none => exact .error _
      | some h₂ => cases hhistory
    | some h₁ =>
      cases history₂ with
      | none => cases hhistory
      | some h₂ =>
        have hentries : h₁.rows.map HistoryRow.entry = h₂.rows.map HistoryRow.entry :=
          Option.some.inj hhistory
        have hversions := versions_eq_of_entries hentries
        simp only [Except.ok_bind]
        by_cases hv : v ∈ h₁.rows.map HistoryRow.version ∨ checksum.length ≠ 64
        · rw [dif_pos hv, dif_pos (hversions ▸ hv)]
          exact .error _
        · rw [dif_neg hv, dif_neg (hversions ▸ hv)]
          refine .ok ?_
          simp [Alike, Content.recorded, History.insert, hentries, HistoryRow.entry]

theorem advanceOne_eq_ok {now : Str} {migration : Migration} (hspared : engine.SparedBy migration)
    {c c' : Content σ} (h : advanceOne rt engine now migration c = .ok c') :
    ∃ checksum history hnew, migration.checksum rt = .ok checksum ∧ c.history = some history ∧
      c'.history = some (history.insert ⟨migration.version, migration.name, checksum, now⟩ hnew) ∧
      c'.userVersion = migration.version := by
  unfold advanceOne at h
  obtain ⟨c₁, hrun, h⟩ := Except.bind_eq_ok.mp h
  split at h
  · cases h
  · obtain ⟨checksum, hchecksum, h⟩ := Except.bind_eq_ok.mp h
    obtain ⟨r, hinsert, h⟩ := Except.bind_eq_ok.mp h
    cases h
    obtain ⟨history, hnew, hhistory, hr⟩ := insertHistory_eq_ok hinsert
    refine ⟨checksum, history, hnew, hchecksum, ?_, by rw [hr], rfl⟩
    rw [← runStatements_history hspared hrun, hhistory]

theorem advanceOne_rel (rt : Runtime) {migration : Migration} (hspared : engine.SparedBy migration)
    (t₁ t₂ : Str) {c₁ c₂ : Content σ} (hc : Alike c₁ c₂) :
    Except.Rel Alike (advanceOne rt engine t₁ migration c₁)
      (advanceOne rt engine t₂ migration c₂) := by
  unfold advanceOne
  refine (runStatements_rel hspared hc).bind fun d₁ d₂ hd => ?_
  split
  · exact .error _
  · cases migration.checksum rt with
    | error e => exact .error e
    | ok checksum =>
      have hinsert : Except.Rel (fun r₁ r₂ : Unit × Content σ => Alike r₁.2 r₂.2)
          (insertHistory ⟨migration.version, migration.name, checksum, t₁⟩ d₁)
          (insertHistory ⟨migration.version, migration.name, checksum, t₂⟩ d₂) :=
        insertHistory_rel (by rfl) hd
      refine hinsert.bind fun r₁ r₂ hr => .ok ?_
      unfold Alike Content.recorded at hr ⊢
      simp only [Prod.mk.injEq] at hr ⊢
      exact ⟨hr.1, trivial, hr.2.2⟩

end

/-! ## Several migrations -/

section

variable (rt : Runtime) (engine : Engine σ)

/-- What migrations make of a content, inserted at the times of `clock`. -/
def advance (clock : Int → Str) (migrations : List Migration) (c : Content σ) :
    Except Exc (Content σ) :=
  migrations.foldlM (fun c migration => advanceOne rt engine (clock migration.version) migration c) c

/-- A database in which nothing was ever done, with the schema SQLite gives it. -/
def Content.empty (fresh : σ) : Content σ := ⟨fresh, 0, none⟩

/-- The database holds exactly the first `k` migrations. -/
def Stands (fresh : σ) (migrations : List Migration) (k : Nat) (c : Content σ) : Prop :=
  k ≤ migrations.length ∧ ∃ clock c', advance rt engine clock (migrations.take k)
    (Content.empty fresh).bootstrapped = .ok c' ∧ Alike c.bootstrapped c'

/-- What the history records of a migration. -/
def Migration.entry (migration : Migration) : Except Exc (Int × Str × Str) :=
  (migration.checksum rt).map fun checksum => (migration.version, migration.name, checksum)

/-- The rows record the migrations, in their order. -/
def Records (rows : List HistoryRow) (migrations : List Migration) : Prop :=
  List.Forall₂ (fun entry migration => migration.entry rt = .ok entry)
    (rows.map HistoryRow.entry) migrations

variable {rt engine} {fresh : σ} {migrations : List Migration}

theorem entry_eq_ok {migration : Migration} {entry : Int × Str × Str} :
    migration.entry rt = .ok entry ↔ ∃ checksum, migration.checksum rt = .ok checksum ∧
      (migration.version, migration.name, checksum) = entry := by
  unfold Migration.entry
  cases migration.checksum rt with
  | error e => exact iff_of_false (fun h => nomatch h) fun ⟨_, h, _⟩ => nomatch h
  | ok checksum => simp [Except.map]

theorem advance_rel (rt : Runtime) (hspared : ∀ m ∈ migrations, engine.SparedBy m)
    (t₁ t₂ : Int → Str) {c₁ c₂ : Content σ} (hc : Alike c₁ c₂) :
    Except.Rel Alike (advance rt engine t₁ migrations c₁) (advance rt engine t₂ migrations c₂) := by
  unfold advance
  induction migrations generalizing c₁ c₂ with
  | nil => exact .ok hc
  | cons m rest ih =>
    rw [List.foldlM_cons, List.foldlM_cons]
    exact (advanceOne_rel rt (hspared m List.mem_cons_self) _ _ hc).bind fun d₁ d₂ hd =>
      ih (fun m' hm' => hspared m' (List.mem_cons_of_mem _ hm')) hd

/-- The first migrations do to both contents what they do. -/
theorem advance_take_rel (rt : Runtime) (hspared : ∀ m ∈ migrations, engine.SparedBy m) (k : Nat)
    (t₁ t₂ : Int → Str) (c : Content σ) :
    Except.Rel Alike (advance rt engine t₁ (migrations.take k) c)
      (advance rt engine t₂ (migrations.take k) c) :=
  advance_rel rt (fun m hm => hspared m (List.mem_of_mem_take hm)) t₁ t₂ rfl

theorem advance_history (hspared : ∀ m ∈ migrations, engine.SparedBy m) {clock : Int → Str}
    {c c' : Content σ} (h : advance rt engine clock migrations c = .ok c') {history : History}
    (hhistory : c.history = some history) : ∃ history' added, c'.history = some history' ∧
      history'.rows = history.rows ++ added ∧ Records rt added migrations := by
  unfold advance at h
  induction migrations generalizing c history with
  | nil =>
    cases h
    exact ⟨history, [], hhistory, by simp, .nil⟩
  | cons m rest ih =>
    rw [List.foldlM_cons] at h
    obtain ⟨c₁, hm, hrest⟩ := Except.bind_eq_ok.mp h
    obtain ⟨checksum, history₀, hnew, hchecksum, hhistory₀, hhistory₁, -⟩ :=
      advanceOne_eq_ok (hspared m List.mem_cons_self) hm
    cases hhistory.symm.trans hhistory₀
    obtain ⟨history', added, hhistory', hadded, hrecords⟩ :=
      ih (fun m' hm' => hspared m' (List.mem_cons_of_mem _ hm')) hrest hhistory₁
    refine ⟨history', ⟨m.version, m.name, checksum, clock m.version⟩ :: added, hhistory', ?_,
      .cons ?_ hrecords⟩
    · rw [hadded]
      simp [History.insert]
    · exact entry_eq_ok.mpr ⟨checksum, hchecksum, rfl⟩

theorem advance_userVersion (hspared : ∀ m ∈ migrations, engine.SparedBy m) {clock : Int → Str}
    {c c' : Content σ} (h : advance rt engine clock migrations c = .ok c') :
    c'.userVersion = (migrations.getLast?.map Migration.version).getD c.userVersion := by
  unfold advance at h
  induction migrations generalizing c with
  | nil =>
    cases h
    rfl
  | cons m rest ih =>
    rw [List.foldlM_cons] at h
    obtain ⟨c₁, hm, hrest⟩ := Except.bind_eq_ok.mp h
    obtain ⟨-, -, -, -, -, -, hversion⟩ := advanceOne_eq_ok (hspared m List.mem_cons_self) hm
    rw [ih (fun m' hm' => hspared m' (List.mem_cons_of_mem _ hm')) hrest, hversion]
    cases rest with
    | nil => rfl
    | cons m' rest => simp [List.getLast?_cons]

/-! ## Standing at a number of migrations -/

theorem Alike.refl (c : Content σ) : Alike c c := rfl

theorem Alike.symm {c₁ c₂ : Content σ} (h : Alike c₁ c₂) : Alike c₂ c₁ := Eq.symm h

theorem Alike.trans {c₁ c₂ c₃ : Content σ} (h : Alike c₁ c₂) (h' : Alike c₂ c₃) : Alike c₁ c₃ :=
  Eq.trans h h'

theorem bootstrapped_of_history {c : Content σ} {history : History}
    (h : c.history = some history) : c.bootstrapped = c := by
  obtain ⟨schema, version, recorded⟩ := c
  cases h
  rfl

theorem stands_zero (fresh : σ) (migrations : List Migration) :
    Stands rt engine fresh migrations 0 (Content.empty fresh) :=
  ⟨Nat.zero_le _, fun _ => [], _, rfl, .refl _⟩

theorem Stands.bootstrapped {k : Nat} {c : Content σ} (h : Stands rt engine fresh migrations k c) :
    Stands rt engine fresh migrations k c.bootstrapped := by
  obtain ⟨hk, clock, c', hadvance, hc⟩ := h
  exact ⟨hk, clock, c', hadvance, hc⟩

/-- The history of a database that stands somewhere records what it holds. -/
theorem Stands.records (hspared : ∀ m ∈ migrations, engine.SparedBy m) {k : Nat} {c : Content σ}
    (h : Stands rt engine fresh migrations k c) : ∃ history, c.bootstrapped.history = some history ∧
      Records rt history.rows (migrations.take k) := by
  obtain ⟨hk, clock, c', hadvance, hc⟩ := h
  obtain ⟨history', added, hhistory', hrows, hrecords⟩ := advance_history
    (fun m hm => hspared m (List.mem_of_mem_take hm)) hadvance
    (rfl : (Content.empty fresh).bootstrapped.history = some ⟨[], List.nodup_nil⟩)
  refine ⟨c.history.getD ⟨[], List.nodup_nil⟩, rfl, ?_⟩
  have hentries := hc.rows rfl hhistory'
  rw [hrows] at hentries
  unfold Records
  rw [hentries]
  exact hrecords

/-- One more migration. -/
theorem Stands.succ (hspared : ∀ m ∈ migrations, engine.SparedBy m) {k : Nat} {c c' : Content σ}
    (h : Stands rt engine fresh migrations k c) (hk : k < migrations.length) {now : Str}
    (hadvance : advanceOne rt engine now migrations[k] c.bootstrapped = .ok c') :
    Stands rt engine fresh migrations (k + 1) c' := by
  obtain ⟨-, clock, d, hd, hc⟩ := h
  have hm := hspared _ (List.getElem_mem hk)
  obtain ⟨_, _, _, -, -, hhistory, -⟩ := advanceOne_eq_ok hm hadvance
  have hrel := advanceOne_rel rt hm now (clock migrations[k].version) hc
  rw [hadvance] at hrel
  cases hd' : advanceOne rt engine (clock migrations[k].version) migrations[k] d with
  | error e =>
    rw [hd'] at hrel
    cases hrel
  | ok d' =>
    rw [hd'] at hrel
    cases hrel with
    | ok hsame =>
      refine ⟨hk, clock, d', ?_, ?_⟩
      · unfold advance at hd ⊢
        rw [List.take_succ_eq_append_getElem hk, List.foldlM_append, hd]
        simp [hd']
      · rwa [bootstrapped_of_history hhistory]

/-- A database that stands further shows that the next migration applies. -/
theorem Stands.next (hspared : ∀ m ∈ migrations, engine.SparedBy m) {j k : Nat} {c d : Content σ}
    (hc : Stands rt engine fresh migrations k c) (hd : Stands rt engine fresh migrations j d)
    (hkj : k < j) (hk : k < migrations.length) (now : Str) :
    ∃ c', advanceOne rt engine now migrations[k] c.bootstrapped = .ok c' := by
  obtain ⟨-, clock, c₁, hc₁, hsame⟩ := hc
  obtain ⟨-, clock', d₁, hd₁, -⟩ := hd
  unfold advance at hd₁
  obtain ⟨n, rfl⟩ : ∃ n, j = k + (n + 1) := ⟨j - k - 1, by omega⟩
  have hrest : migrations.take (k + (n + 1)) =
      migrations.take k ++ migrations[k] :: (migrations.drop (k + 1)).take n := by
    rw [List.take_add, List.drop_eq_getElem_cons hk, List.take_succ_cons]
  rw [hrest, List.foldlM_append] at hd₁
  obtain ⟨c₂, hc₂, hd₁⟩ := Except.bind_eq_ok.mp hd₁
  rw [List.foldlM_cons] at hd₁
  obtain ⟨c₃, hc₃, -⟩ := Except.bind_eq_ok.mp hd₁
  have hrel := advance_take_rel rt hspared k clock clock' (Content.empty fresh).bootstrapped
  unfold advance at hrel hc₁
  rw [hc₁, hc₂] at hrel
  cases hrel with
  | ok hagree =>
    have hone := advanceOne_rel rt (hspared _ (List.getElem_mem hk)) now
      (clock' migrations[k].version) (hsame.trans hagree)
    rw [hc₃] at hone
    cases hadvance : advanceOne rt engine now migrations[k] c.bootstrapped with
    | error e =>
      rw [hadvance] at hone
      cases hone
    | ok c' => exact ⟨c', rfl⟩

/-- Two databases that stand at the same place are recorded alike. -/
theorem Stands.alike (hspared : ∀ m ∈ migrations, engine.SparedBy m) {k : Nat} {c d : Content σ}
    (hc : Stands rt engine fresh migrations k c) (hd : Stands rt engine fresh migrations k d) :
    Alike c.bootstrapped d.bootstrapped := by
  obtain ⟨-, clock, c₁, hc₁, hsame⟩ := hc
  obtain ⟨-, clock', d₁, hd₁, hsame'⟩ := hd
  have hrel := advance_take_rel rt hspared k clock clock' (Content.empty fresh).bootstrapped
  rw [hc₁, hd₁] at hrel
  cases hrel with
  | ok hagree => exact (hsame.trans hagree).trans hsame'.symm

end

end FieldDiscovery.Database
