import FieldDiscovery.Database.Statements
import FieldDiscovery.Lib.Call
import FieldDiscovery.Lib.Json
import FieldDiscovery.Lib.Runtime
import FieldDiscovery.Lib.Sorted
import FieldDiscovery.Repository.Sqlite

/-!
# Schema migrations

`migrate` over a connection. What a statement of a migration does is SQLite's: an `Engine` says how
it changes the content of the database, which is the history table and everything else (`σ`, with
the header field `user_version` apart). Statements, the insertion into the history and the pragma
all write to the open transaction.
-/

namespace FieldDiscovery.Database

open Py Repository

/-! ## Migrations -/

/-- `Migration` -/
structure Migration where
  version : Int
  name : Str
  sql : Str
  deriving DecidableEq

/-- `Migration.checksum` -/
def Migration.checksum (rt : Runtime) (migration : Migration) : Except Exc Str :=
  match encodeUtf8 migration.sql with
  | some data => .ok (rt.sha256 data)
  | none => .error .unicodeEncode

/-- `list(range(1, n + 1))` -/
def versionsTo (n : Nat) : List Int := (List.range n).map fun (i : Nat) => (i : Int) + 1

/-- `_validate_migration_set(migrations)` -/
def validateMigrationSet (migrations : List Migration) : Except Exc Unit :=
  if migrations.map Migration.version ≠ versionsTo migrations.length then
    .error (.migration
      (str "migrations must be ordered, unique, and contiguous from version 1"))
  else if migrations.any fun migration => migration.name.isEmpty || (strip migration.sql).isEmpty
  then .error (.migration (str "migration name and SQL must not be empty"))
  else .ok ()

/-! ## The database -/

/-- A row of `schema_migrations`. -/
structure HistoryRow where
  version : Int
  name : Str
  checksum : Str
  appliedAt : Str
  deriving DecidableEq

/-- The rows of `schema_migrations`; `version` is its primary key. -/
structure History where
  rows : List HistoryRow
  unique : (rows.map HistoryRow.version).Nodup

/-- The rows with one more. -/
def History.insert (history : History) (row : HistoryRow)
    (h : row.version ∉ history.rows.map HistoryRow.version) : History where
  rows := history.rows ++ [row]
  unique := by
    rw [List.map_append, List.nodup_append]
    refine ⟨history.unique, by simp, fun version hversion other hother heq => h ?_⟩
    rw [List.map_singleton, List.mem_singleton] at hother
    rwa [← hother, ← heq]

/-- The rows in the order of their versions. -/
def History.sorted (history : History) : List HistoryRow :=
  sortedBy HistoryRow.version history.rows

/-- What a database holds. -/
structure Content (σ : Type) where
  schema : σ
  userVersion : Int
  /-- `none` when there is no table `schema_migrations`. -/
  history : Option History

/-- SQLite, as far as it decides about migrations. -/
structure Engine (σ : Type) where
  /-- `sqlite3.complete_statement` -/
  complete : Str → Except Exc Bool
  /-- `connection.execute(statement)` for a statement of a migration. -/
  run : Str → Content σ → Except Exc (Content σ)

abbrev MigrationConnection (σ : Type) := Sql.Connection (Content σ)

/-- Faults of the statements that apply one migration. -/
structure ApplyFaults where
  begin : Option Exc := none
  statement : Nat → Option Exc := fun _ => none
  insert : Option Exc := none
  pragma : Option Exc := none
  commit : Option Exc := none

/-- Faults of the statements of `migrate`. -/
structure MigrateFaults where
  bootstrap : Option Exc := none
  select : Option Exc := none
  apply : Int → ApplyFaults := fun _ => {}

variable {σ : Type}

/-- `CREATE TABLE IF NOT EXISTS schema_migrations (...)` -/
def createHistory (c : Content σ) : Except Exc (Unit × Content σ) :=
  .ok ((), { c with history := some (c.history.getD ⟨[], List.nodup_nil⟩) })

/-- `SELECT version, name, checksum FROM schema_migrations ORDER BY version` -/
def selectHistory (c : Content σ) : Except Exc (List HistoryRow × Content σ) :=
  match c.history with
  | none => .error .sqlite
  | some history => .ok (history.sorted, c)

/-- `INSERT INTO schema_migrations(...) VALUES (...)`, with the constraints of the table. The time is
SQLite's and is not bound. -/
def insertHistory (row : HistoryRow) (c : Content σ) : Except Exc (Unit × Content σ) := do
  bind [.integer row.version, .text row.name, .text row.checksum]
  match c.history with
  | none => .error .sqlite
  | some history =>
    if h : row.version ∈ history.rows.map HistoryRow.version ∨ row.checksum.length ≠ 64 then
      .error .sqlite
    else .ok ((), { c with history := some (history.insert row (not_or.mp h).1) })

/-- `PRAGMA user_version = {version}` -/
def setUserVersion (version : Int) (c : Content σ) : Except Exc (Unit × Content σ) :=
  .ok ((), { c with userVersion := version })

/-! ## One migration -/

section

variable (rt : Runtime) (engine : Engine σ)

/-- The loop of `_apply_one` from its `i`-th statement on. -/
def executeStatements (faults : Nat → Option Exc) (i : Nat) :
    List Str → Call (MigrationConnection σ) Exc Unit
  | [] => pure ()
  | statement :: rest => do
    Sql.execute (faults i) fun c => (engine.run statement c).map ((), ·)
    executeStatements faults (i + 1) rest

/-- The statements of `_apply_one` between `BEGIN IMMEDIATE` and the commit. -/
def applyBody (now : Str) (faults : ApplyFaults) (migration : Migration) :
    Call (MigrationConnection σ) Exc Unit := do
  executeStatements engine faults.statement 0 (sqlStatements engine.complete migration.sql).1
  Call.guardFault (sqlStatements engine.complete migration.sql).2
  let checksum ← Call.ofExcept (migration.checksum rt)
  Sql.execute faults.insert
    (insertHistory ⟨migration.version, migration.name, checksum, now⟩)
  Sql.execute faults.pragma (setUserVersion migration.version)

/-- `isinstance(exc, (sqlite3.Error, MigrationError))` -/
def isHandled : Exc → Bool
  | .sqlite | .migration _ => true
  | _ => false

/-- `MigrationError(f"migration {migration.version} ({migration.name}) failed")` -/
def migrationFailed (migration : Migration) : Exc :=
  .migration (str "migration " ++ intStr migration.version ++ str " (" ++ migration.name ++
    str ") failed")

/-- `except (sqlite3.Error, MigrationError)` of `_apply_one`. -/
def undoMigration (migration : Migration) (e : Exc) : Call (MigrationConnection σ) Exc Unit :=
  if isHandled e then do
    Sql.rollback
    Call.raise (migrationFailed migration)
  else Call.raise e

/-- `_apply_one(connection, migration)` -/
def applyOne (now : Str) (faults : ApplyFaults) (migration : Migration) :
    Call (MigrationConnection σ) Exc Unit :=
  Call.tryExcept
    (Sql.delimited { begin := faults.begin, commit := faults.commit }
      (applyBody rt engine now faults migration))
    (undoMigration migration)

/-! ## `migrate` -/

/-- `except sqlite3.Error` around the reading of the history. -/
def unreadableHistory : Exc → Call (MigrationConnection σ) Exc (List HistoryRow)
  | .sqlite => Call.raise (.migration (str "cannot read migration history"))
  | e => Call.raise e

/-- The rows that `migrate` reads, the table made first. -/
def readHistory (faults : MigrateFaults) : Call (MigrationConnection σ) Exc (List HistoryRow) :=
  Call.tryExcept
    (do
      Sql.execute faults.bootstrap createHistory
      Sql.execute faults.select selectHistory)
    unreadableHistory

/-- The recorded versions are known, and contiguous from 1. -/
def checkHistory (migrations : List Migration) (applied : List HistoryRow) : Except Exc Unit :=
  let versions := applied.map HistoryRow.version
  let unknown := versions.filter fun version =>
    decide (version ∉ migrations.map Migration.version)
  match unknown with
  | version :: _ => .error (.migration
      (str "database contains unknown migration version " ++ intStr version))
  | [] =>
    if versions ≠ versionsTo applied.length then
      .error (.migration (str "database migration history is not contiguous"))
    else .ok ()

/-- The check of a migration that the history has. -/
def checkApplied (migration : Migration) (previous : HistoryRow) : Except Exc Unit := do
  let checksum ← migration.checksum rt
  if (previous.name, previous.checksum) ≠ (migration.name, checksum) then
    .error (.migration (str "migration " ++ intStr migration.version ++
      str " checksum or name mismatch"))
  else .ok ()

/-- The loop of `migrate`; `clock` gives the time at which each version is inserted. -/
def migrateEach (clock : Int → Str) (faults : Int → ApplyFaults) (applied : List HistoryRow) :
    List Migration → Call (MigrationConnection σ) Exc Unit
  | [] => pure ()
  | migration :: rest => do
    match applied.find? fun row => row.version = migration.version with
    | some previous => Call.ofExcept (checkApplied rt migration previous)
    | none => applyOne rt engine (clock migration.version) (faults migration.version) migration
    migrateEach clock faults applied rest

/-- `selected[-1].version if selected else 0` -/
def lastVersion (migrations : List Migration) : Int :=
  (migrations.getLast?.map Migration.version).getD 0

/-- `migrate(connection, migrations)` on a connection without an open transaction. -/
def migrate (clock : Int → Str) (faults : MigrateFaults) (migrations : List Migration) :
    Call (MigrationConnection σ) Exc Int := do
  Call.ofExcept (validateMigrationSet migrations)
  let applied ← readHistory faults
  Call.ofExcept (checkHistory migrations applied)
  migrateEach rt engine clock faults.apply applied migrations
  return lastVersion migrations

end

end FieldDiscovery.Database
