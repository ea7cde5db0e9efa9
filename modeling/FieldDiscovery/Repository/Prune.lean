import FieldDiscovery.Lib.Iso
import FieldDiscovery.Repository.Schema

/-!
# Retention

`Repository.prune` counts, and unless it is a dry run deletes, the rows of seven tables whose time
column is textually less than the cutoff of the table. On UTC ISO texts that is the order of time
(`Utc.isoformat_strictMono`), and no foreign key points at the seven tables, so the deletion reaches
nothing else.
-/

namespace FieldDiscovery.Repository

open Py

/-! ## The call -/

/-- `RetentionCutoffs` -/
structure RetentionCutoffs where
  detailedBefore : Str
  artifactsBefore : Str
  reportsBefore : Str

/-- `_DETAIL_TABLES` -/
def detailTables : List (TableName × Str) :=
  [(.observations, str "observed_at"), (.collectorErrors, str "observed_at"),
    (.softwareObservations, str "observed_at"), (.infrastructureReadings, str "observed_at"),
    (.topologyEdges, str "observed_at")]

/-- The tables that `prune` visits, with their time columns. -/
def targets : List (TableName × Str) :=
  detailTables ++ [(.artifacts, str "observed_at"), (.reportHistory, str "generated_at")]

/-- The cutoff of a table. -/
def RetentionCutoffs.cutoff (cutoffs : RetentionCutoffs) (table : TableName) : Str :=
  if table = .artifacts then cutoffs.artifactsBefore
  else if table = .reportHistory then cutoffs.reportsBefore
  else cutoffs.detailedBefore

/-- `column < ?` for a text parameter: numbers come before text, and `NULL` is never selected. -/
def isBefore (cutoff : Str) : Value → Bool
  | .null => false
  | .integer _ | .real _ => true
  | .text s => s < cutoff

/-- The `WHERE` clause for one target. -/
def isExpired (cutoffs : RetentionCutoffs) (target : TableName × Str) (row : Row) : Bool :=
  isBefore (cutoffs.cutoff target.1) (row.get target.2)

/-- `PruneResult` -/
structure PruneResult where
  dryRun : Bool
  counts : Dict TableName Nat

/-- `SELECT COUNT(*) FROM table WHERE time_column < ?` -/
def countExpired (cutoffs : RetentionCutoffs) (target : TableName × Str) (db : Database) :
    Except Exc (Nat × Database) := do
  bind [.text (cutoffs.cutoff target.1)]
  .ok (((db target.1).filter (isExpired cutoffs target)).length, db)

/-- `DELETE FROM table WHERE time_column < ?` -/
def deleteExpired (cutoffs : RetentionCutoffs) (target : TableName × Str) (db : Database) :
    Except Exc (Unit × Database) := do
  bind [.text (cutoffs.cutoff target.1)]
  .ok ((), delete db target.1 (isExpired cutoffs target))

/-- The `DELETE` of one target, unless the run is dry. -/
def applyTarget (cutoffs : RetentionCutoffs) (dryRun : Bool) (target : TableName × Str) :
    Call (Sql.Connection Database) Exc Unit :=
  if dryRun then pure () else Sql.execute none (deleteExpired cutoffs target)

/-- The loop over the targets. -/
def pruneTargets (cutoffs : RetentionCutoffs) (dryRun : Bool) :
    List (TableName × Str) → Dict TableName Nat →
      Call (Sql.Connection Database) Exc (Dict TableName Nat)
  | [], counts => pure counts
  | target :: rest, counts => do
    let count ← Sql.execute none (countExpired cutoffs target)
    applyTarget cutoffs dryRun target
    pruneTargets cutoffs dryRun rest (counts.set target.1 count)

/-- The body of `prune`. -/
def pruneBody (cutoffs : RetentionCutoffs) (dryRun : Bool) :
    Call (Sql.Connection Database) Exc PruneResult := do
  let counts ← pruneTargets cutoffs dryRun targets []
  return ⟨dryRun, counts⟩

/-- `prune` -/
def prune (cutoffs : RetentionCutoffs) (dryRun : Bool) :
    Call (Sql.Connection Database) Exc PruneResult :=
  transaction (pruneBody cutoffs dryRun)

/-! ## What a run does to the tables -/

/-- A target without its expired rows. -/
def removeExpired (cutoffs : RetentionCutoffs) (db : Database) (target : TableName × Str) :
    Database :=
  Function.update db target.1 ((db target.1).filter fun row => !isExpired cutoffs target row)

/-- The content after the loop. -/
def pruned (cutoffs : RetentionCutoffs) (dryRun : Bool) (db : Database)
    (targets : List (TableName × Str)) : Database :=
  if dryRun then db else targets.foldl (removeExpired cutoffs) db

section

variable {cutoffs : RetentionCutoffs}

end

/-- The three cutoffs, as times. -/
structure CutoffTimes where
  detailed : Utc
  artifacts : Utc
  reports : Utc

namespace CutoffTimes

/-- The cutoffs as `prune` takes them. -/
def texts (times : CutoffTimes) : RetentionCutoffs :=
  ⟨times.detailed.isoformat, times.artifacts.isoformat, times.reports.isoformat⟩

/-- The cutoff of a table, as a time. -/
def cutoff (times : CutoffTimes) (table : TableName) : Utc :=
  if table = .artifacts then times.artifacts
  else if table = .reportHistory then times.reports
  else times.detailed

end CutoffTimes

/-- The row is older than the cutoff of its table. -/
def Expires (times : CutoffTimes) (target : TableName × Str) (row : Row) : Prop :=
  ∃ t : Utc, row.get target.2 = .text t.isoformat ∧ t < times.cutoff target.1

def sampleRow (id : Nat) (t : Utc) : Row := ⟨id, [(str "observed_at", .text t.isoformat)]⟩

end FieldDiscovery.Repository
