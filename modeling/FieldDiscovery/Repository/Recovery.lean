import FieldDiscovery.Repository.Runs

/-!
# When recovery completes

`RunAction` is one call of the repository with a reading of the clock, and the databases reached are
those that any list of such calls leaves, raising calls included. `recovery_completes_iff` says which
of them can be recovered at a given time.
-/

namespace FieldDiscovery.Repository

open Py Redaction

/-! ## What recovery is for -/

/-- Recovery marked every running row failed, with one error for each, and left the rest alone. -/
structure Recovered (before after : RunDb) : Prop where
  none_running : ∀ row ∈ after.runs.rows, row.2.status ≠ .running
  /-- The rows are the same ones; the rows that were not running are unchanged. -/
  rows : List.Forall₂ (fun old new => new.1 = old.1 ∧ (old.2.status ≠ .running → new = old))
    before.runs.rows after.runs.rows
  /-- One error for each running row is added. -/
  errors : ∃ added, after.errors.rows = before.errors.rows ++ added ∧
    added.map (fun row => row.2.collectorRunId) = before.running.map Prod.fst ∧
    ∀ row ∈ added, row.2.category = str "interrupted"

/-! ## Reachable databases -/

/-- One call, with the clock reading it uses. -/
inductive RunAction where
  | start (deploymentId : Option Int) (collector : Str) (startedAt : Utc)
      (interfaceName targetCidr : Option Str)
  | finish (runId : Int) (status : RunStatus) (finishedAt : Utc) (itemCount : Int)
  | record (runId : Nat) (category detail : Str) (retryable : Bool) (source : Str)
      (observedAt : Utc)

section

variable (rt : Runtime) (r : Redactor)

/-- The connection after the call, whether it returns or raises. -/
def RunAction.after (c : RunConnection) : RunAction → RunConnection
  | start deploymentId collector startedAt interfaceName targetCidr =>
    (startRun rt r deploymentId collector startedAt.isoformat interfaceName targetCidr c).2
  | finish runId status finishedAt itemCount =>
    (finishRun runId status finishedAt.isoformat itemCount c).2
  | record runId category detail retryable source observedAt =>
    (recordCollectorError rt r runId category detail retryable source observedAt.isoformat c).2

/-- Every call can be made in every state. -/
def runStep (c : RunConnection) (action : RunAction) : Option RunConnection :=
  some (action.after rt r c)

/-- No transaction is open, and every run was started at a reading of the clock. -/
structure Timely (c : RunConnection) : Prop where
  idle : c.pending = none
  started : ∀ row ∈ c.committed.runs.rows, ∃ t : Utc, row.2.startedAt = t.isoformat

theorem timely_empty (deployments : List Int) : Timely ⟨.empty deployments, none⟩ :=
  ⟨rfl, fun row hrow => by cases hrow⟩

end

/-! ## Calls on an idle connection -/

/-- A transaction commits what its body made of the content, or leaves no trace. -/
theorem transaction_cases {σ α : Type} {body : Call (Sql.Connection σ) Exc α}
    (hbody : Sql.Inside body) (db : σ) :
    (transaction body ⟨db, none⟩).2 = ⟨db, none⟩ ∨ ∃ a db',
      body ⟨db, some db⟩ = (.ok a, ⟨db, some db'⟩) ∧
        (transaction body ⟨db, none⟩).2 = ⟨db', none⟩ := by
  cases h : transaction body ⟨db, none⟩ with
  | mk x c =>
    cases x with
    | error e => exact Or.inl (Sql.transaction_error hbody h)
    | ok a =>
      obtain ⟨db', hrun, hc⟩ := Sql.transaction_ok hbody h
      exact Or.inr ⟨a, db', hrun, hc⟩

theorem execute_eq_ok {σ α : Type} {statement : σ → Except Exc (α × σ)} {db₀ db db' : σ} {a : α}
    (h : Sql.execute none statement ⟨db₀, some db⟩ = (.ok a, ⟨db₀, some db'⟩)) :
    statement db = .ok (a, db') := by
  unfold Sql.execute Sql.Connection.view at h
  simp only [Option.getD_some] at h
  cases hs : statement db with
  | error e =>
    rw [hs] at h
    cases h
  | ok result =>
    rw [hs] at h
    cases h
    rfl

/-- What holds of the state whether or not an argument raises. -/
theorem ofExcept_after {σ α β : Type} {x : Except Exc α} {f : α → Call σ Exc β} {c : σ}
    {P : σ → Prop} (hc : P c) (hf : ∀ a, P (f a c).2) : P ((Call.ofExcept x >>= f) c).2 := by
  cases x with
  | error e => exact hc
  | ok a => exact hf a

theorem insertRun_eq_ok {row : RunRow} {db db' : RunDb} {id : Nat}
    (h : db.insertRun row = .ok (id, db')) : db'.runs.rows = db.runs.rows ++ [(id, row)] := by
  unfold RunDb.insertRun at h
  obtain ⟨-, -, h⟩ := Except.bind_eq_ok.mp h
  split at h
  · cases h
    exact Sql.PlainTable.rows_insertOrIgnore _ _
  · cases h

theorem insertError_eq_ok {row : ErrorRow} {db db' : RunDb} {id : Nat}
    (h : db.insertError row = .ok (id, db')) : db'.runs = db.runs := by
  unfold RunDb.insertError at h
  obtain ⟨-, -, h⟩ := Except.bind_eq_ok.mp h
  split at h
  · cases h
    rfl
  · cases h

theorem updateRuns_eq_ok {select : Nat × RunRow → Bool} {set : RunRow → RunRow}
    {hset : ∀ row, (set row).collector = row.collector} {db db' : RunDb} {n : Nat}
    (h : db.updateRuns select set hset = .ok (n, db')) :
    db'.runs.rows = db.runs.rows.map fun row => (row.1, if select row then set row.2 else row.2) := by
  unfold RunDb.updateRuns at h
  split at h
  · cases h
    rfl
  · cases h

section

variable (rt : Runtime) (r : Redactor)

/-- What one call leaves is timely again. -/
theorem Timely.step {c : RunConnection} (h : Timely c) (action : RunAction) :
    Timely (action.after rt r c) := by
  obtain ⟨db, pending⟩ := c
  obtain ⟨rfl, hstarted⟩ := h
  have hsame : Timely ⟨db, none⟩ := ⟨rfl, hstarted⟩
  cases action with
  | start deploymentId collector startedAt interfaceName targetCidr =>
    unfold RunAction.after startRun
    simp only
    refine ofExcept_after hsame fun collector => ?_
    refine ofExcept_after hsame fun interfaceName => ?_
    refine ofExcept_after hsame fun targetCidr => ?_
    rcases transaction_cases (Sql.Inside.execute none _) db with hafter | ⟨id, db', hbody, hafter⟩
    · rw [hafter]
      exact hsame
    · rw [hafter]
      refine ⟨rfl, fun row hrow => ?_⟩
      rw [insertRun_eq_ok (execute_eq_ok hbody)] at hrow
      rcases List.mem_append.mp hrow with hrow | hrow
      · exact hstarted row hrow
      · rw [List.mem_singleton.mp hrow]
        exact ⟨startedAt, rfl⟩
  | finish runId status finishedAt itemCount =>
    unfold RunAction.after finishRun
    simp only
    split
    · exact hsame
    · have hinside : Sql.Inside (do
          let rowcount ← Sql.execute none (finishRow runId status finishedAt.isoformat itemCount)
          requireOne rowcount) := by
        refine .bind (.execute _ _) fun rowcount => ?_
        unfold requireOne
        split
        · exact .pure _
        · exact .raise _
      rcases transaction_cases hinside db with hafter | ⟨u, db', hbody, hafter⟩
      · rw [hafter]
        exact hsame
      · rw [hafter]
        refine ⟨rfl, fun row hrow => ?_⟩
        obtain ⟨rowcount, c', hexecute, hrequire⟩ := Call.bind_eq_ok hbody
        unfold requireOne at hrequire
        split at hrequire
        · cases hrequire
          have hstatement := execute_eq_ok hexecute
          unfold finishRow at hstatement
          obtain ⟨-, -, hupdate⟩ := Except.bind_eq_ok.mp hstatement
          rw [updateRuns_eq_ok hupdate] at hrow
          obtain ⟨old, hold, rfl⟩ := List.mem_map.mp hrow
          obtain ⟨t, ht⟩ := hstarted old hold
          refine ⟨t, ?_⟩
          simp only
          split <;> exact ht
        · cases hrequire
  | record runId category detail retryable source observedAt =>
    unfold RunAction.after recordCollectorError
    simp only
    refine ofExcept_after hsame fun category => ?_
    refine ofExcept_after hsame fun detail => ?_
    refine ofExcept_after hsame fun source => ?_
    rcases transaction_cases (Sql.Inside.execute none _) db with hafter | ⟨id, db', hbody, hafter⟩
    · rw [hafter]
      exact hsame
    · rw [hafter]
      refine ⟨rfl, fun row hrow => ?_⟩
      rw [insertError_eq_ok (execute_eq_ok hbody)] at hrow
      exact hstarted row hrow

/-- Every database that the calls reach is timely. -/
theorem timely_run {deployments : List Int} {actions : List RunAction} {c : RunConnection}
    (h : Machine.run (runStep rt r) ⟨.empty deployments, none⟩ actions = some c) : Timely c := by
  refine Machine.run_invariant (P := fun _ _ => True) (I := Timely) ?_ (timely_empty deployments)
    (Machine.along_of_forall fun _ _ => trivial) h
  intro s action s' hs _ hstep
  cases hstep
  exact hs.step rt r action

end

/-! ## Recovery -/

theorem isoformat_check (t : Utc) : bind [.text t.isoformat] = .ok () := by
  rw [bind_eq_ok]
  intro v hv
  rw [List.mem_singleton.mp hv]
  exact check_text.mpr t.isoformat_encodable

/-- An interruption of an existing run is recorded. -/
theorem insertError_interruption (t : Utc) {db : RunDb} {run : Nat × RunRow}
    (hrun : run ∈ db.runs.rows) : ∃ db' : RunDb,
    db.insertError (interruption t.isoformat (run.1, run.2.collector)) =
      .ok (db.errors.nextId, db') ∧ db'.runs = db.runs ∧ db'.errors.rows = db.errors.rows ++
        [(db.errors.nextId, interruption t.isoformat (run.1, run.2.collector))] := by
  have hbind : bind [.text (str "interrupted"), .text (str "run ended before completion"),
      .text run.2.collector, .text t.isoformat] = .ok () := by
    rw [bind_eq_ok]
    simp only [List.forall_mem_cons, check_text]
    exact ⟨by decide, by decide, db.stored run hrun, t.isoformat_encodable, by simp⟩
  have howned : ∃ row ∈ db.runs.rows,
      row.1 = (interruption t.isoformat (run.1, run.2.collector)).collectorRunId :=
    ⟨run, hrun, rfl⟩
  unfold RunDb.insertError
  have hbound : bind [.text (interruption t.isoformat (run.1, run.2.collector)).category,
      .text (interruption t.isoformat (run.1, run.2.collector)).detail,
      .text (interruption t.isoformat (run.1, run.2.collector)).source,
      .text (interruption t.isoformat (run.1, run.2.collector)).observedAt] = .ok () := hbind
  rw [hbound, Except.ok_bind, dif_pos howned]
  exact ⟨_, rfl, rfl, Sql.PlainTable.rows_insertOrIgnore _ _⟩

/-- The loop adds one error for each running row and touches nothing else. -/
theorem recordInterruptions_run (t : Utc) {runs : List (Nat × RunRow)} {db₀ db : RunDb}
    (hruns : ∀ run ∈ runs, run ∈ db.runs.rows) : ∃ db' : RunDb,
    recordInterruptions t.isoformat (runs.map fun run => (run.1, run.2.collector))
      ⟨db₀, some db⟩ = (.ok (), ⟨db₀, some db'⟩) ∧ db'.runs = db.runs ∧
      ∃ added, db'.errors.rows = db.errors.rows ++ added ∧
        added.map (fun row => row.2.collectorRunId) = runs.map Prod.fst ∧
        ∀ row ∈ added, row.2.category = str "interrupted" := by
  induction runs generalizing db with
  | nil => exact ⟨db, rfl, rfl, [], by simp, rfl, by simp⟩
  | cons run runs ih =>
    obtain ⟨db₁, hinsert, hsame, herrors⟩ :=
      insertError_interruption t (hruns run List.mem_cons_self)
    have hkept : ∀ run' ∈ runs, run' ∈ db₁.runs.rows := by
      intro run' hrun'
      rw [hsame]
      exact hruns run' (List.mem_cons_of_mem _ hrun')
    obtain ⟨db', hrest, hruns', added, hadded, hids, hcategory⟩ := ih hkept
    have hexecute : Sql.execute none (RunDb.insertError (interruption t.isoformat
        (run.1, run.2.collector))) ⟨db₀, some db⟩ =
        (.ok db.errors.nextId, ⟨db₀, some db₁⟩) := by
      simp [Sql.execute, Sql.Connection.view, Sql.Connection.write, hinsert]
    refine ⟨db', (Call.bind_ok hexecute).trans hrest, hruns'.trans hsame,
      (db.errors.nextId, interruption t.isoformat (run.1, run.2.collector)) :: added, ?_, ?_, ?_⟩
    · rw [hadded, herrors, List.append_assoc, List.singleton_append]
    · rw [List.map_cons, List.map_cons, hids]
      rfl
    · intro row hrow
      rcases List.mem_cons.mp hrow with rfl | hrow
      · rfl
      · exact hcategory row hrow

/-- The last statement succeeds when no running row was started later. -/
theorem failRunning_cases (t : Utc) (db : RunDb) :
    ((∀ row ∈ db.running, row.2.startedAt ≤ t.isoformat) ∧ ∃ n db',
      failRunning t.isoformat db = .ok (n, db') ∧ db'.errors = db.errors ∧
        db'.runs.rows = db.runs.rows.map fun row => (row.1, if row.2.status = .running then
          { row.2 with status := .failed, finishedAt := some t.isoformat } else row.2)) ∨
    (¬ (∀ row ∈ db.running, row.2.startedAt ≤ t.isoformat) ∧
      failRunning t.isoformat db = .error .sqlite) := by
  have hchecks : (∀ row ∈ db.runs.rows, decide (row.2.status = .running) = true →
      RunRow.Checks { row.2 with status := .failed, finishedAt := some t.isoformat }) ↔
      ∀ row ∈ db.running, row.2.startedAt ≤ t.isoformat := by
    unfold RunDb.running RunRow.Checks
    simp only [List.mem_filter, decide_eq_true_eq, Option.mem_some_iff, forall_eq']
    constructor
    · exact fun h row hrow => (h row hrow.1 hrow.2).2
    · exact fun h row hrow hs => ⟨(db.checked row hrow).1, h row ⟨hrow, hs⟩⟩
  unfold failRunning RunDb.updateRuns
  rw [isoformat_check, Except.ok_bind]
  split
  · next h =>
    refine Or.inl ⟨hchecks.mp h, _, _, rfl, rfl, ?_⟩
    simp [Sql.Table.mapRows]
  · next h => exact Or.inr ⟨fun hall => h (hchecks.mpr hall), rfl⟩

/-- The recovery of an idle connection: it completes, or it raises and leaves no trace. -/
theorem recoverInterruptedRuns_cases (t : Utc) (db : RunDb) :
    ((∀ row ∈ db.running, row.2.startedAt ≤ t.isoformat) ∧ ∃ db',
      recoverInterruptedRuns t.isoformat ⟨db, none⟩ = (.ok db.running.length, ⟨db', none⟩) ∧
        Recovered db db') ∨
    (¬ (∀ row ∈ db.running, row.2.startedAt ≤ t.isoformat) ∧
      recoverInterruptedRuns t.isoformat ⟨db, none⟩ = (.error .sqlite, ⟨db, none⟩)) := by
  have hselect : Sql.execute none selectRunning ⟨db, some db⟩ =
      (.ok (db.running.map fun row => (row.1, row.2.collector)), ⟨db, some db⟩) := rfl
  obtain ⟨db₁, hrecord, hruns, added, hadded, hids, hcategory⟩ :=
    recordInterruptions_run t fun run (hrun : run ∈ db.running) =>
      (List.mem_filter.mp hrun).1
  have hrunning : db₁.running = db.running := by
    unfold RunDb.running
    rw [hruns]
  have hupTo := (Call.bind_ok (f := fun running => do
    recordInterruptions t.isoformat running
    let _ ← Sql.execute none (failRunning t.isoformat)
    return running.length) hselect).trans (Call.bind_ok hrecord)
  rcases failRunning_cases t db₁ with ⟨hle, n, db', hfail, herrors, hrows⟩ | ⟨hnle, hfail⟩
  · rw [hrunning] at hle
    refine Or.inl ⟨hle, db', ?_, ?_⟩
    · have hexecute : Sql.execute none (failRunning t.isoformat) ⟨db, some db₁⟩ =
          (.ok n, ⟨db, some db'⟩) := by
        simp [Sql.execute, Sql.Connection.view, Sql.Connection.write, hfail]
      have hbody : recovery t.isoformat ⟨db, some db⟩ =
          (.ok db.running.length, ⟨db, some db'⟩) := by
        refine hupTo.trans ((Call.bind_ok hexecute).trans ?_)
        simp
      unfold recoverInterruptedRuns transaction
      exact Sql.transaction_commits hbody
    · rw [hruns] at hrows
      refine ⟨?_, ?_, added, by rw [herrors, hadded], hids, hcategory⟩
      · intro row hrow
        rw [hrows] at hrow
        obtain ⟨old, -, rfl⟩ := List.mem_map.mp hrow
        simp only
        split
        · simp
        · next hs => exact hs
      · rw [hrows, List.forall₂_map_right_iff]
        refine List.forall₂_same.mpr fun row _ => ⟨rfl, fun hs => ?_⟩
        rw [if_neg hs]
  · rw [hrunning] at hnle
    have hexecute : Sql.execute none (failRunning t.isoformat) ⟨db, some db₁⟩ =
        (.error .sqlite, ⟨db, some db₁⟩) := by
      simp [Sql.execute, Sql.Connection.view, hfail]
    refine Or.inr ⟨hnle, ?_⟩
    unfold recoverInterruptedRuns transaction
    exact Sql.transaction_raises (hupTo.trans (Call.bind_error hexecute))

/-! ## Main theorem -/

section

variable (rt : Runtime) (r : Redactor)

/-- Recovery at the time `t` does all it is for exactly when no run that is still running was
started after `t`; otherwise it raises, and the database is as it was. -/
theorem recovery_completes_iff {deployments : List Int} {actions : List RunAction}
    {c : RunConnection}
    (h : Machine.run (runStep rt r) ⟨.empty deployments, none⟩ actions = some c) (t : Utc) :
    ((∃ c', recoverInterruptedRuns t.isoformat c = (.ok c.committed.running.length, c') ∧
        c'.pending = none ∧ Recovered c.committed c'.committed) ↔
      ∀ row ∈ c.committed.running, ∀ started : Utc, row.2.startedAt = started.isoformat →
        started ≤ t) ∧
    (¬ (∀ row ∈ c.committed.running, ∀ started : Utc, row.2.startedAt = started.isoformat →
        started ≤ t) →
      recoverInterruptedRuns t.isoformat c = (.error .sqlite, c)) := by
  have htimely := timely_run rt r h
  obtain ⟨db, pending⟩ := c
  obtain ⟨rfl, hstarted⟩ := htimely
  have htime : (∀ row ∈ db.running, row.2.startedAt ≤ t.isoformat) ↔
      ∀ row ∈ db.running, ∀ started : Utc, row.2.startedAt = started.isoformat → started ≤ t := by
    constructor
    · intro hle row hrow started heq
      have := hle row hrow
      rw [heq] at this
      exact Utc.isoformat_strictMono.le_iff_le.mp this
    · intro hle row hrow
      obtain ⟨started, heq⟩ := hstarted row (List.mem_filter.mp hrow).1
      rw [heq]
      exact Utc.isoformat_strictMono.le_iff_le.mpr (hle row hrow started heq)
  simp only [← htime]
  rcases recoverInterruptedRuns_cases t db with ⟨hle, db', hrun, hrecovered⟩ | ⟨hnle, hrun⟩
  · exact ⟨iff_of_true ⟨_, hrun, rfl, hrecovered⟩ hle, fun hnle => absurd hle hnle⟩
  · refine ⟨iff_of_false ?_ hnle, fun _ => hrun⟩
    rintro ⟨c', hok, -⟩
    rw [hrun] at hok
    cases hok

end

/-! ## A clock that stepped back

A run is started at the Unix epoch; the recovery reads the clock one microsecond earlier. -/

/-- `1970-01-01T00:00:00+00:00` -/
def sampleStart : Utc := ⟨epochDay * microsPerDay, epoch_inCalendar⟩

/-- `1969-12-31T23:59:59.999999+00:00` -/
def steppedBack : Utc := ⟨epochDay * microsPerDay - 1, by decide⟩

/-- A run that was started and never finished. -/
def sampleActions : List RunAction := [.start none (str "snmp") sampleStart none none]

/-- The connection after it. -/
def sampleConnection : RunConnection :=
  (startRun (Runtime.ofDigests []) ⟨[], []⟩ none (str "snmp") sampleStart.isoformat none none
    ⟨.empty [], none⟩).2

theorem sampleConnection_run : Machine.run (runStep (Runtime.ofDigests []) ⟨[], []⟩)
    ⟨.empty [], none⟩ sampleActions = some sampleConnection := rfl

theorem recovery_completes_iff_sample :
    ∃ c', recoverInterruptedRuns sampleStart.isoformat sampleConnection =
      (.ok sampleConnection.committed.running.length, c') ∧ c'.pending = none ∧
        Recovered sampleConnection.committed c'.committed := by
  have hrows : sampleConnection.committed.running.map (fun row => row.2.startedAt) =
      [sampleStart.isoformat] := by decide +kernel
  refine (recovery_completes_iff (Runtime.ofDigests []) ⟨[], []⟩ sampleConnection_run
    sampleStart).1.mpr ?_
  intro row hrow started heq
  have hmem := List.mem_map_of_mem (f := fun row : Nat × RunRow => row.2.startedAt) hrow
  rw [hrows, List.mem_singleton, heq] at hmem
  exact (Utc.isoformat_strictMono.injective hmem).le

/-- Nothing is recovered: the run stays in status `running`. -/
theorem steppedBack_not_recovered :
    Machine.run (runStep (Runtime.ofDigests []) ⟨[], []⟩) ⟨.empty [], none⟩ sampleActions =
        some sampleConnection ∧
      sampleConnection.committed.running.length = 1 ∧
      (recoverInterruptedRuns steppedBack.isoformat sampleConnection).1 = .error .sqlite ∧
      (recoverInterruptedRuns steppedBack.isoformat sampleConnection).2.committed.running.length =
        1 :=
  ⟨rfl, by decide +kernel⟩

end FieldDiscovery.Repository
