import FieldDiscovery.Database.Compose
import FieldDiscovery.Lib.Machine

/-!
# Two calls of `migrate` on one file

The service and the command line may open the same file at the same time. A `World` is the file with
the one write transaction that SQLite admits, and where each call stands; a step is one SQL statement
of one call, or one turn of its loop that runs none. A call that needs the write lock waits while the
other holds it. The list has passed `_validate_migration_set` in both calls.
-/

namespace FieldDiscovery.Database

open Py Repository

variable {σ : Type}

/-! ## The statements of a transaction -/

/-- A statement between `BEGIN IMMEDIATE` and the commit. -/
inductive Op where
  | sql (statement : Str)
  /-- The generator of the statements raises. -/
  | stop (e : Exc)
  | insert (migration : Migration)
  | pragma (version : Int)
  deriving DecidableEq

section

variable (rt : Runtime) (engine : Engine σ)

def Op.run (now : Str) : Op → Content σ → Except Exc (Content σ)
  | sql statement, c => engine.run statement c
  | stop e, _ => .error e
  | insert migration, c => do
    let checksum ← migration.checksum rt
    let inserted ← insertHistory ⟨migration.version, migration.name, checksum, now⟩ c
    return inserted.2
  | pragma version, c => .ok { c with userVersion := version }

/-- The statements that `_apply_one` runs in its transaction. -/
def ops (migration : Migration) : List Op :=
  (sqlStatements engine.complete migration.sql).1.map .sql ++
    match (sqlStatements engine.complete migration.sql).2 with
    | some e => [.stop e]
    | none => [.insert migration, .pragma migration.version]

/-- One after the other they make what the migration makes. -/
theorem foldlM_ops (now : Str) (migration : Migration) (c : Content σ) :
    (ops engine migration).foldlM (fun c op => op.run rt engine now c) c =
      advanceOne rt engine now migration c := by
  have hsql : ∀ statements : List Str,
      (statements.map Op.sql).foldlM (fun c op => op.run rt engine now c) c =
        statements.foldlM (fun c s => engine.run s c) c := by
    intro statements
    induction statements generalizing c with
    | nil => rfl
    | cons s rest ih =>
      rw [List.map_cons, List.foldlM_cons, List.foldlM_cons]
      cases h : engine.run s c with
      | error e => simp [Op.run, h]
      | ok c' =>
        simp only [Op.run, h, Except.ok_bind]
        exact ih c'
  unfold ops advanceOne
  rw [List.foldlM_append, hsql]
  cases (sqlStatements engine.complete migration.sql).1.foldlM (fun c s => engine.run s c) c with
  | error e => rfl
  | ok c₁ =>
    rw [Except.ok_bind, Except.ok_bind]
    cases (sqlStatements engine.complete migration.sql).2 with
    | some e => rfl
    | none =>
      simp only [List.foldlM_cons, List.foldlM_nil, Op.run]
      cases migration.checksum rt with
      | error e => rfl
      | ok checksum =>
        simp only [Except.ok_bind]
        cases insertHistory ⟨migration.version, migration.name, checksum, now⟩ c₁ <;> rfl

end

/-! ## The machine -/

/-- Who calls `migrate`. -/
inductive Caller where
  | service
  | cli
  deriving DecidableEq

instance : Fintype Caller := ⟨{.service, .cli}, fun p => by cases p <;> simp⟩

/-- Where a call stands. -/
inductive Phase where
  /-- About to create the table of the history. -/
  | bootstrap
  /-- About to read the history. -/
  | select
  /-- In the loop, with the history it read and the migrations it has not looked at. -/
  | loop (applied : List HistoryRow) (rest : List Migration)
  /-- In the transaction of a migration, with the statements it has not run. -/
  | working (applied : List HistoryRow) (migration : Migration) (todo : List Op)
    (rest : List Migration)
  | returned (version : Int)
  | raised (e : Exc)
  deriving DecidableEq

/-- The file, its write transaction, and the two calls. -/
structure World (σ : Type) where
  committed : Content σ
  /-- The content as the transaction of its holder sees it. -/
  writer : Option (Caller × Content σ)
  phase : Caller → Phase

/-- The call moves on. -/
def World.go (w : World σ) (p : Caller) (phase : Phase) : World σ :=
  { w with phase := Function.update w.phase p phase }

/-- Both calls begin. -/
def World.start (c : Content σ) : World σ := ⟨c, none, fun _ => .bootstrap⟩

section

variable (rt : Runtime) (engine : Engine σ) (clock : Caller → Int → Str)
  (migrations : List Migration)

/-- `except (sqlite3.Error, MigrationError)` of `_apply_one`; any other exception leaves the
transaction open. -/
def World.fail (w : World σ) (p : Caller) (migration : Migration) (e : Exc) : World σ :=
  (if isHandled e then { w with writer := none } else w).go p (.raised (failure migration e))

/-- One statement of a call, if it does not have to wait. -/
def step (w : World σ) (p : Caller) : Option (World σ) :=
  match w.phase p with
  | .bootstrap =>
    -- the table exists already, or the write lock is needed to make it
    if w.committed.history.isNone ∧ w.writer.isSome then none
    else some (({ w with committed := w.committed.bootstrapped }).go p .select)
  | .select =>
    match selectHistory w.committed with
    | .error _ => some (w.go p (.raised (.migration (str "cannot read migration history"))))
    | .ok (applied, _) =>
      match checkHistory migrations applied with
      | .error e => some (w.go p (.raised e))
      | .ok () => some (w.go p (.loop applied migrations))
  | .loop _ [] => some (w.go p (.returned (lastVersion migrations)))
  | .loop applied (migration :: rest) =>
    match applied.find? fun row => row.version = migration.version with
    | some previous =>
      match checkApplied rt migration previous with
      | .error e => some (w.go p (.raised e))
      | .ok () => some (w.go p (.loop applied rest))
    | none =>
      if w.writer.isSome then none
      else some (({ w with writer := some (p, w.committed) }).go p
        (.working applied migration (ops engine migration) rest))
  | .working applied migration (op :: todo) rest =>
    match w.writer with
    | none => none
    | some (q, c) =>
      match op.run rt engine (clock p migration.version) c with
      | .error e => some (w.fail p migration e)
      | .ok c' => some (({ w with writer := some (q, c') }).go p
          (.working applied migration todo rest))
  | .working applied _ [] rest =>
    match w.writer with
    | none => none
    | some (_, c) => some (({ w with committed := c, writer := none }).go p (.loop applied rest))
  | .returned _ | .raised _ => none

end

@[simp] theorem go_phase_self (w : World σ) (p : Caller) (phase : Phase) :
    (w.go p phase).phase p = phase := Function.update_self ..

theorem go_phase_other (w : World σ) {p q : Caller} (phase : Phase) (h : q ≠ p) :
    (w.go p phase).phase q = w.phase q := Function.update_of_ne h ..

@[simp] theorem go_committed (w : World σ) (p : Caller) (phase : Phase) :
    (w.go p phase).committed = w.committed := rfl

@[simp] theorem go_writer (w : World σ) (p : Caller) (phase : Phase) :
    (w.go p phase).writer = w.writer := rfl

/-! ## One call alone -/

section

variable (rt : Runtime) (engine : Engine σ) (clock : Caller → Int → Str)
  (migrations : List Migration) (p : Caller)

/-- Some number of steps of one call. -/
def Reaches (w w' : World σ) : Prop :=
  ∃ n, Machine.run (step rt engine clock migrations) w (List.replicate n p) = some w'

/-- The call has ended as `migrate` does, on a file that holds what `migrate` leaves. -/
def EndsAs {α : Type} (result : α → Phase) (x : Except Exc α × MigrationConnection σ)
    (w : World σ) : Prop :=
  w.committed = x.2.committed ∧ w.phase p = match x.1 with
    | .ok a => result a
    | .error e => .raised e

variable {rt engine clock migrations p}

theorem Reaches.refl (w : World σ) : Reaches rt engine clock migrations p w w := ⟨0, rfl⟩

theorem Reaches.head {w w₁ w' : World σ} (hstep : step rt engine clock migrations w p = some w₁)
    (h : Reaches rt engine clock migrations p w₁ w') : Reaches rt engine clock migrations p w w' := by
  obtain ⟨n, hn⟩ := h
  exact ⟨n + 1, Machine.run_cons.mpr ⟨w₁, hstep, hn⟩⟩

theorem Reaches.trans {w w₁ w' : World σ} (h₁ : Reaches rt engine clock migrations p w w₁)
    (h : Reaches rt engine clock migrations p w₁ w') : Reaches rt engine clock migrations p w w' := by
  obtain ⟨n, hn⟩ := h₁
  obtain ⟨n', hn'⟩ := h
  exact ⟨n + n', by rw [List.replicate_add]; exact Machine.run_append.mpr ⟨w₁, hn, hn'⟩⟩

variable (rt engine clock migrations)

/-- The statements of a transaction, run one step at a time. -/
theorem reaches_working {applied rest migration} {todo : List Op} {w : World σ} {c : Content σ}
    (hphase : w.phase p = .working applied migration todo rest) (hwriter : w.writer = some (p, c)) :
    match todo.foldlM (fun c op => op.run rt engine (clock p migration.version) c) c with
    | .ok c' => ∃ w', Reaches rt engine clock migrations p w w' ∧ w'.committed = c' ∧
        w'.writer = none ∧ w'.phase p = .loop applied rest
    | .error e => ∃ w', Reaches rt engine clock migrations p w w' ∧ w'.committed = w.committed ∧
        w'.phase p = .raised (failure migration e) := by
  induction todo generalizing w c with
  | nil =>
    have hstep : step rt engine clock migrations w p =
        some (({ w with committed := c, writer := none } : World σ).go p (.loop applied rest)) := by
      simp [step, hphase, hwriter]
    exact ⟨_, .head hstep (.refl _), rfl, rfl, go_phase_self ..⟩
  | cons op todo ih =>
    rw [List.foldlM_cons]
    cases hop : op.run rt engine (clock p migration.version) c with
    | error e =>
      have hstep : step rt engine clock migrations w p = some (w.fail p migration e) := by
        simp [step, hphase, hwriter, hop]
      refine ⟨_, .head hstep (.refl _), ?_, go_phase_self ..⟩
      unfold World.fail
      split <;> rfl
    | ok c' =>
      have hstep : step rt engine clock migrations w p =
          some (({ w with writer := some (p, c') } : World σ).go p
            (.working applied migration todo rest)) := by
        simp [step, hphase, hwriter, hop]
      have hrest := ih (w := ({ w with writer := some (p, c') } : World σ).go p
        (.working applied migration todo rest)) (go_phase_self ..) rfl
      rw [Except.ok_bind]
      split
      · next c₁ hrun =>
        rw [hrun] at hrest
        obtain ⟨w', hreaches, hend⟩ := hrest
        exact ⟨w', .head hstep hreaches, hend⟩
      · next e hrun =>
        rw [hrun] at hrest
        obtain ⟨w', hreaches, hend⟩ := hrest
        exact ⟨w', .head hstep hreaches, hend⟩

/-- The loop of a call that is alone is the loop of `migrate`. -/
theorem reaches_loop {applied : List HistoryRow} {rest : List Migration} {w : World σ}
    (hphase : w.phase p = .loop applied rest) (hwriter : w.writer = none) :
    ∃ w', Reaches rt engine clock migrations p w w' ∧
      EndsAs p (fun _ : Unit => .returned (lastVersion migrations))
        (migrateEach rt engine (clock p) (fun _ => {}) applied rest ⟨w.committed, none⟩) w' := by
  induction rest generalizing w with
  | nil =>
    have hstep : step rt engine clock migrations w p =
        some (w.go p (.returned (lastVersion migrations))) := by simp [step, hphase]
    exact ⟨_, .head hstep (.refl _), rfl, go_phase_self ..⟩
  | cons migration rest ih =>
    rw [migrateEach]
    cases hfind : applied.find? fun row => row.version = migration.version with
    | some previous =>
      cases hcheck : checkApplied rt migration previous with
      | error e =>
        have hstep : step rt engine clock migrations w p = some (w.go p (.raised e)) := by
          simp [step, hphase, hfind, hcheck]
        have hrun : Call.ofExcept (checkApplied rt migration previous)
            (⟨w.committed, none⟩ : MigrationConnection σ) = (.error e, ⟨w.committed, none⟩) := by
          rw [hcheck]
          rfl
        refine ⟨_, .head hstep (.refl _), ?_⟩
        simp only
        rw [Call.bind_error hrun]
        exact ⟨rfl, go_phase_self ..⟩
      | ok u =>
        have hstep : step rt engine clock migrations w p = some (w.go p (.loop applied rest)) := by
          simp [step, hphase, hfind, hcheck]
        have hrun : Call.ofExcept (checkApplied rt migration previous)
            (⟨w.committed, none⟩ : MigrationConnection σ) = (.ok u, ⟨w.committed, none⟩) := by
          rw [hcheck]
          rfl
        obtain ⟨w', hreaches, hend⟩ := ih (w := w.go p (.loop applied rest)) (go_phase_self ..) hwriter
        refine ⟨w', .head hstep hreaches, ?_⟩
        simp only
        rw [Call.bind_ok hrun]
        exact hend
    | none =>
      have hstep : step rt engine clock migrations w p =
          some (({ w with writer := some (p, w.committed) } : World σ).go p
            (.working applied migration (ops engine migration) rest)) := by
        simp [step, hphase, hfind, hwriter]
      have hwork := reaches_working rt engine clock migrations (w := ({ w with writer := some (p, w.committed) } : World σ).go p
          (.working applied migration (ops engine migration) rest)) (go_phase_self ..) rfl
      rw [foldlM_ops] at hwork
      simp only
      rcases applyOne_cases rt engine (clock p migration.version) {} migration w.committed with
        ⟨c', hadvance, hrun⟩ | ⟨e, d, hrun, hd, he, -⟩
      · rw [hadvance] at hwork
        obtain ⟨w₁, hreaches, hcommitted, hfree, hloop⟩ := hwork
        obtain ⟨w', hreaches', hend⟩ := ih hloop hfree
        refine ⟨w', .head hstep (hreaches.trans hreaches'), ?_⟩
        rw [Call.bind_ok hrun, ← hcommitted]
        exact hend
      · rw [he.resolve_right not_raises] at hwork
        obtain ⟨w', hreaches, hcommitted, hraised⟩ := hwork
        refine ⟨w', .head hstep hreaches, ?_⟩
        rw [Call.bind_error hrun]
        exact ⟨hcommitted.trans hd.symm, hraised⟩

/-- A call that is alone ends as `migrate` does. -/
theorem reaches_migrate (hvalid : validateMigrationSet migrations = .ok ()) (c : Content σ) :
    ∃ w', Reaches rt engine clock migrations p (World.start c) w' ∧
      EndsAs p Phase.returned (migrate rt engine (clock p) {} migrations ⟨c, none⟩) w' := by
  have hvalidate : Call.ofExcept (validateMigrationSet migrations)
      (⟨c, none⟩ : MigrationConnection σ) = (.ok (), ⟨c, none⟩) := by rw [hvalid]; rfl
  have hread := readHistory_run {} rfl rfl (rfl : c.bootstrapped.history = some _)
  have hbootstrap : step rt engine clock migrations (World.start c) p =
      some (({ World.start c with committed := c.bootstrapped }).go p .select) := by
    simp [step, World.start]
  let w₁ : World σ := ({ World.start c with committed := c.bootstrapped }).go p .select
  have hselect : selectHistory c.bootstrapped =
      .ok ((c.history.getD ⟨[], List.nodup_nil⟩).sorted, c.bootstrapped) := rfl
  unfold migrate
  rw [Call.bind_ok hvalidate, Call.bind_ok hread]
  cases hcheck : checkHistory migrations (c.history.getD ⟨[], List.nodup_nil⟩).sorted with
  | error e =>
    have hstep : step rt engine clock migrations w₁ p = some (w₁.go p (.raised e)) := by
      simp [step, w₁, hselect, hcheck]
    exact ⟨_, .head hbootstrap (.head hstep (.refl _)), rfl, go_phase_self ..⟩
  | ok u =>
    have hstep : step rt engine clock migrations w₁ p =
        some (w₁.go p (.loop (c.history.getD ⟨[], List.nodup_nil⟩).sorted migrations)) := by
      simp [step, w₁, hselect, hcheck]
    obtain ⟨w', hreaches, hend⟩ := reaches_loop rt engine clock migrations (w := w₁.go p (.loop _ migrations))
      (go_phase_self ..) rfl
    refine ⟨w', .head hbootstrap (.head hstep hreaches), ?_⟩
    have hchecked : Call.ofExcept (.ok u : Except Exc Unit)
        (⟨c.bootstrapped, none⟩ : MigrationConnection σ) = (.ok u, ⟨c.bootstrapped, none⟩) := rfl
    rw [Call.bind_ok hchecked]
    cases hrun : migrateEach rt engine (clock p) (fun _ => {})
        (c.history.getD ⟨[], List.nodup_nil⟩).sorted migrations ⟨c.bootstrapped, none⟩ with
    | mk x d =>
      have hend' : EndsAs p (fun _ : Unit => .returned (lastVersion migrations)) (x, d) w' :=
        hrun ▸ hend
      change EndsAs p Phase.returned ((migrateEach rt engine (clock p) (fun _ => {})
        (c.history.getD ⟨[], List.nodup_nil⟩).sorted migrations >>= fun _ =>
          pure (lastVersion migrations)) ⟨c.bootstrapped, none⟩) w'
      cases x with
      | ok v =>
        rw [Call.bind_ok hrun]
        exact hend'
      | error e =>
        rw [Call.bind_error hrun]
        exact hend'

end

end FieldDiscovery.Database
