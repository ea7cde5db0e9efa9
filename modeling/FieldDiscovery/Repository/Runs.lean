import FieldDiscovery.Lib.Iso
import FieldDiscovery.Lib.Machine
import FieldDiscovery.Lib.Table
import FieldDiscovery.Redaction.Redactor
import FieldDiscovery.Repository.Sqlite

/-!
# Collector runs and their recovery

The tables `collector_runs` and `collector_errors` with their constraints, the calls of `Repository`
that write to them, and `recover_interrupted_runs`.

Recovery is one transaction whose `UPDATE` reaches every running row, and the schema checks
`finished_at >= started_at`. So one row that was started after the time of the recovery undoes the
recovery of all (`recovery_completes_iff`).
-/

namespace FieldDiscovery.Repository

open Py Redaction

/-! ## Tables -/

/-- `status` of `collector_runs`. -/
inductive RunStatus where
  | running
  | succeeded
  /-- `partial` -/
  | partially
  | failed
  | cancelled
  deriving DecidableEq

/-- A row of `collector_runs`. -/
structure RunRow where
  deploymentId : Option Int
  collector : Str
  status : RunStatus
  interfaceName : Option Str
  targetCidr : Option Str
  startedAt : Str
  finishedAt : Option Str
  itemCount : Int
  deriving DecidableEq

/-- The `CHECK` constraints of `collector_runs`. -/
def RunRow.Checks (row : RunRow) : Prop :=
  0 ≤ row.itemCount ∧ ∀ finished ∈ row.finishedAt, row.startedAt ≤ finished

instance (row : RunRow) : Decidable row.Checks := inferInstanceAs (Decidable (_ ∧ _))

/-- A row of `collector_errors`. -/
structure ErrorRow where
  collectorRunId : Nat
  category : Str
  detail : Str
  retryable : Bool
  source : Str
  observedAt : Str
  deriving DecidableEq

/-- The part of the database that collector runs are kept in. -/
structure RunDb where
  /-- The ids of `deployments`. -/
  deployments : List Int
  runs : Sql.PlainTable RunRow
  errors : Sql.PlainTable ErrorRow
  checked : ∀ row ∈ runs.rows, row.2.Checks
  /-- Text that came out of the database can go back in. -/
  stored : ∀ row ∈ runs.rows, Encodable row.2.collector
  /-- `collector_run_id REFERENCES collector_runs(id)` -/
  owned : ∀ row ∈ errors.rows, ∃ run ∈ runs.rows, run.1 = row.2.collectorRunId

/-- A connection to the database. -/
abbrev RunConnection := Sql.Connection RunDb

namespace RunDb

/-- The database without runs. -/
def empty (deployments : List Int) : RunDb :=
  ⟨deployments, .empty, .empty, by simp [Sql.Table.empty], by simp [Sql.Table.empty],
    by simp [Sql.Table.empty]⟩

/-- The rows in status `running`, in the order of their ids. -/
def running (db : RunDb) : List (Nat × RunRow) :=
  db.runs.rows.filter fun row => row.2.status = .running

/-- The parameters of the `INSERT` of a run. -/
def runParameters (row : RunRow) : List Value :=
  [(row.deploymentId.map Value.integer).getD .null, .text row.collector,
    .ofText row.interfaceName, .ofText row.targetCidr, .text row.startedAt]

/-- `INSERT INTO collector_runs`, with the new row's id. -/
def insertRun (row : RunRow) (db : RunDb) : Except Exc (Nat × RunDb) := do
  bind (runParameters row)
  if h : (∀ id ∈ row.deploymentId, id ∈ db.deployments) ∧ row.Checks ∧ Encodable row.collector then
    .ok (db.runs.nextId,
      { db with
        runs := db.runs.insertOrIgnore row
        checked := by
          intro p hp
          rcases Sql.Table.mem_insertOrIgnore hp with hp | rfl
          · exact db.checked p hp
          · exact h.2.1
        stored := by
          intro p hp
          rcases Sql.Table.mem_insertOrIgnore hp with hp | rfl
          · exact db.stored p hp
          · exact h.2.2
        owned := by
          intro p hp
          obtain ⟨run, hrun, hid⟩ := db.owned p hp
          exact ⟨run, (Sql.Table.extends_insertOrIgnore _ _).subset hrun, hid⟩ })
  else .error .sqlite

/-- `INSERT INTO collector_errors`, with the new row's id. -/
def insertError (row : ErrorRow) (db : RunDb) : Except Exc (Nat × RunDb) := do
  bind [.text row.category, .text row.detail, .text row.source, .text row.observedAt]
  if h : ∃ run ∈ db.runs.rows, run.1 = row.collectorRunId then
    .ok (db.errors.nextId,
      { db with
        errors := db.errors.insertOrIgnore row
        owned := by
          intro p hp
          rcases Sql.Table.mem_insertOrIgnore hp with hp | rfl
          · exact db.owned p hp
          · exact h })
  else .error .sqlite

/-- `UPDATE collector_runs SET … WHERE …`, with the number of rows. A row that violates a `CHECK`
fails the statement. -/
def updateRuns (select : Nat × RunRow → Bool) (set : RunRow → RunRow)
    (hset : ∀ row, (set row).collector = row.collector) (db : RunDb) :
    Except Exc (Nat × RunDb) :=
  if h : ∀ row ∈ db.runs.rows, select row = true → (set row.2).Checks then
    .ok ((db.runs.rows.filter select).length,
      { db with
        runs := db.runs.mapRows (fun row => if select row then set row.2 else row.2) fun _ => rfl
        checked := by
          intro p hp
          obtain ⟨row, hrow, rfl⟩ := List.mem_map.mp hp
          cases hs : select row with
          | true => simpa [hs] using h row hrow hs
          | false => simpa [hs] using db.checked row hrow
        stored := by
          intro p hp
          obtain ⟨row, hrow, rfl⟩ := List.mem_map.mp hp
          have := db.stored row hrow
          cases hs : select row <;> simpa [hs, hset] using this
        owned := by
          intro p hp
          obtain ⟨run, hrun, hid⟩ := db.owned p hp
          exact ⟨_, List.mem_map_of_mem hrun, hid⟩ })
  else .error .sqlite

end RunDb

/-! ## The calls -/

section Calls

variable (rt : Runtime) (r : Redactor)

/-- `redactor.text` of an optional argument. -/
def optionalText : Option Str → Except Exc (Option Str)
  | none => .ok none
  | some s => do
    let s ← r.text rt s
    .ok (some s)

/-- `start_run` -/
def startRun (deploymentId : Option Int) (collector startedAt : Str)
    (interfaceName targetCidr : Option Str) : Call RunConnection Exc Nat := do
  let collector ← Call.ofExcept (r.text rt collector)
  let interfaceName ← Call.ofExcept (optionalText rt r interfaceName)
  let targetCidr ← Call.ofExcept (optionalText rt r targetCidr)
  transaction (Sql.execute none (RunDb.insertRun
    { deploymentId, collector, status := .running, interfaceName, targetCidr, startedAt
      finishedAt := none, itemCount := 0 }))

/-- The `UPDATE` of `finish_run`. -/
def finishRow (runId : Int) (status : RunStatus) (finishedAt : Str) (itemCount : Int) (db : RunDb) :
    Except Exc (Nat × RunDb) := do
  bind [.text finishedAt, .integer itemCount, .integer runId]
  db.updateRuns (fun row => (row.1 : Int) = runId && row.2.status = .running)
    (fun row => { row with status, finishedAt := some finishedAt, itemCount }) fun _ => rfl

/-- `if cursor.rowcount != 1: raise` -/
def requireOne (rowcount : Nat) : Call RunConnection Exc Unit :=
  if rowcount = 1 then pure ()
  else Call.raise (.repository (str "collector run is missing or already final"))

/-- `finish_run` -/
def finishRun (runId : Int) (status : RunStatus) (finishedAt : Str) (itemCount : Int) :
    Call RunConnection Exc Unit :=
  if status = .running then
    Call.raise (.repository (str "collector run final status is invalid"))
  else transaction do
    let rowcount ← Sql.execute none (finishRow runId status finishedAt itemCount)
    requireOne rowcount

/-- `record_collector_error` -/
def recordCollectorError (runId : Nat) (category detail : Str) (retryable : Bool)
    (source observedAt : Str) : Call RunConnection Exc Nat := do
  let category ← Call.ofExcept (r.text rt category)
  let detail ← Call.ofExcept (r.text rt detail)
  let source ← Call.ofExcept (r.text rt source)
  transaction (Sql.execute none (RunDb.insertError
    { collectorRunId := runId, category, detail, retryable, source, observedAt }))

end Calls

/-! ## Recovery -/

/-- `SELECT id, collector FROM collector_runs WHERE status = 'running' ORDER BY id` -/
def selectRunning (db : RunDb) : Except Exc (List (Nat × Str) × RunDb) :=
  .ok (db.running.map fun row => (row.1, row.2.collector), db)

/-- The error row of an interrupted run. -/
def interruption (observedAt : Str) (run : Nat × Str) : ErrorRow where
  collectorRunId := run.1
  category := str "interrupted"
  detail := str "run ended before completion"
  retryable := true
  source := run.2
  observedAt := observedAt

/-- `for row in running: …` -/
def recordInterruptions (observedAt : Str) : List (Nat × Str) → Call RunConnection Exc Unit
  | [] => pure ()
  | run :: rest => do
    let _ ← Sql.execute none (RunDb.insertError (interruption observedAt run))
    recordInterruptions observedAt rest

/-- The final `UPDATE`. -/
def failRunning (observedAt : Str) (db : RunDb) : Except Exc (Nat × RunDb) := do
  bind [.text observedAt]
  db.updateRuns (fun row => row.2.status = .running)
    (fun row => { row with status := .failed, finishedAt := some observedAt }) fun _ => rfl

/-- The body of `recover_interrupted_runs`. -/
def recovery (observedAt : Str) : Call RunConnection Exc Nat := do
  let running ← Sql.execute none selectRunning
  recordInterruptions observedAt running
  let _ ← Sql.execute none (failRunning observedAt)
  return running.length

/-- `recover_interrupted_runs` -/
def recoverInterruptedRuns (observedAt : Str) : Call RunConnection Exc Nat :=
  transaction (recovery observedAt)

end FieldDiscovery.Repository
