import FieldDiscovery.Lib.Settles
import FieldDiscovery.Repository.Recovery

/-!
# What the calls of a run write

`start_run` adds a row, `record_collector_error` adds an error of the run, and `finish_run` changes the
one row of the run that is still running. A call that raises leaves the database as it was.
-/

namespace FieldDiscovery.Repository

open Py Redaction

/-! ## What is written -/

/-- One row was added to the runs. -/
structure Started (runId : Nat) (row : RunRow) (db db' : RunDb) : Prop where
  runs : db'.runs.rows = db.runs.rows ++ [(runId, row)]
  errors : db'.errors.rows = db.errors.rows

/-- `n` errors of the run were added. -/
structure Recorded (runId n : Nat) (db db' : RunDb) : Prop where
  runs : db'.runs.rows = db.runs.rows
  errors : ∃ added, db'.errors.rows = db.errors.rows ++ added ∧ added.length = n ∧
    ∀ row ∈ added, row.2.collectorRunId = runId

/-- The row that `finish_run` is to change. -/
def isUnfinished (runId : Nat) (row : Nat × RunRow) : Bool :=
  (row.1 : Int) = runId && row.2.status = .running

/-- The row with its final state. -/
def RunRow.withEnd (row : RunRow) (status : RunStatus) (finishedAt : Str) (itemCount : Int) :
    RunRow :=
  { row with status, finishedAt := some finishedAt, itemCount }

/-- The run was running, and has its final state. -/
structure Finalised (runId : Nat) (status : RunStatus) (itemCount : Nat) (db db' : RunDb) :
    Prop where
  once : (db.runs.rows.filter (isUnfinished runId)).length = 1
  runs : ∃ finishedAt, db'.runs.rows = db.runs.rows.map fun row =>
    (row.1, if isUnfinished runId row then row.2.withEnd status finishedAt itemCount else row.2)
  errors : db'.errors.rows = db.errors.rows

namespace Recorded

theorem refl (runId : Nat) (db : RunDb) : Recorded runId 0 db db :=
  ⟨rfl, [], (List.append_nil _).symm, rfl, fun _ h => absurd h List.not_mem_nil⟩

theorem trans {runId n m : Nat} {db db' db'' : RunDb} (h : Recorded runId n db db')
    (h' : Recorded runId m db' db'') : Recorded runId (n + m) db db'' := by
  obtain ⟨added, hadded, hlength, hmem⟩ := h.errors
  obtain ⟨added', hadded', hlength', hmem'⟩ := h'.errors
  refine ⟨h'.runs.trans h.runs, added ++ added', ?_, ?_, ?_⟩
  · rw [hadded', hadded, List.append_assoc]
  · rw [List.length_append, hlength, hlength']
  · exact List.forall_mem_append.mpr ⟨hmem, hmem'⟩

end Recorded

/-! ## The statements -/

theorem insertRun_started {row : RunRow} {db db' : RunDb} {runId : Nat}
    (h : db.insertRun row = .ok (runId, db')) : Started runId row db db' := by
  refine ⟨insertRun_eq_ok h, ?_⟩
  unfold RunDb.insertRun at h
  obtain ⟨-, -, h⟩ := Except.bind_eq_ok.mp h
  split at h
  · cases h
    rfl
  · cases h

theorem insertError_recorded {row : ErrorRow} {db db' : RunDb} {id : Nat}
    (h : db.insertError row = .ok (id, db')) : Recorded row.collectorRunId 1 db db' := by
  refine ⟨congrArg _ (insertError_eq_ok h), [(id, row)], ?_, rfl, ?_⟩
  · unfold RunDb.insertError at h
    obtain ⟨-, -, h⟩ := Except.bind_eq_ok.mp h
    split at h
    · cases h
      exact Sql.PlainTable.rows_insertOrIgnore _ _
    · cases h
  · intro added hadded
    rw [List.mem_singleton.mp hadded]

theorem finishRow_finalised {runId : Nat} {status : RunStatus} {finishedAt : Str} {itemCount : Nat}
    {db db' : RunDb} (h : finishRow runId status finishedAt itemCount db = .ok (1, db')) :
    Finalised runId status itemCount db db' := by
  unfold finishRow at h
  obtain ⟨-, -, hupdate⟩ := Except.bind_eq_ok.mp h
  have hrows := updateRuns_eq_ok hupdate
  unfold RunDb.updateRuns at hupdate
  split at hupdate
  · obtain ⟨hcount, hdb⟩ := Prod.mk.inj (Except.ok.inj hupdate)
    exact ⟨hcount, ⟨finishedAt, hrows⟩, hdb ▸ rfl⟩
  · cases hupdate

/-! ## The calls -/

section

variable (rt : Runtime) (r : Redactor)

theorem startRun_settles (deploymentId : Option Int) (collector startedAt : Str)
    (interfaceName targetCidr : Option Str) :
    Sql.Settles (startRun rt r deploymentId collector startedAt interfaceName targetCidr)
      (fun runId db db' => ∃ row : RunRow, row.status = .running ∧
        r.text rt collector = .ok row.collector ∧ optionalText rt r targetCidr = .ok row.targetCidr ∧
        Started runId row db db') Eq := by
  unfold startRun
  refine .ofExcept (fun _ => rfl) fun collector' hcollector => .ofExcept (fun _ => rfl)
    fun interfaceName' _ => .ofExcept (fun _ => rfl) fun targetCidr' htarget =>
    .transaction (.execute none _) fun db runId db' hbody => ?_
  exact ⟨_, rfl, hcollector, htarget, insertRun_started (execute_eq_ok hbody)⟩

theorem recordCollectorError_settles (runId : Nat) (category detail : Str) (retryable : Bool)
    (source observedAt : Str) :
    Sql.Settles (recordCollectorError rt r runId category detail retryable source observedAt)
      (fun _ => Recorded runId 1) Eq := by
  unfold recordCollectorError
  refine .ofExcept (fun _ => rfl) fun category' _ => .ofExcept (fun _ => rfl) fun detail' _ =>
    .ofExcept (fun _ => rfl) fun source' _ =>
    .transaction (.execute none _) fun db id db' hbody => ?_
  exact insertError_recorded (execute_eq_ok hbody)

theorem finishRun_settles (runId : Nat) (status : RunStatus) (finishedAt : Str) (itemCount : Nat) :
    Sql.Settles (finishRun runId status finishedAt itemCount)
      (fun _ => Finalised runId status itemCount) Eq := by
  unfold finishRun
  split
  · exact .raise fun _ => rfl
  · refine .transaction ?_ fun db _ db' hbody => ?_
    · refine .bind (.execute _ _) fun rowcount => ?_
      unfold requireOne
      split
      · exact .pure _
      · exact .raise _
    · obtain ⟨rowcount, c, hexecute, hrequire⟩ := Call.bind_eq_ok hbody
      unfold requireOne at hrequire
      split at hrequire
      · next hone =>
        cases hrequire
        rw [hone] at hexecute
        exact finishRow_finalised (execute_eq_ok hexecute)
      · cases hrequire

end

end FieldDiscovery.Repository
