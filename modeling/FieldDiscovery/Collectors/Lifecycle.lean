import FieldDiscovery.Collectors.Moves

/-!
# The lifecycle of collector runs

Whatever the collectors, the clock, the repository's faults and the caller do, in every state that a
cycle reaches the database, the tasks and the calls of `collect` agree (`runs_accounted`): each task
has its own row, the row is running until the task has ended, and the errors of the row are those that
the task has counted. The ends of the calls say what a task comes to (`attemptLoop`).
-/

namespace FieldDiscovery.Collectors

open Py Repository Redaction

/-! ## The attempt loop -/

/-- What the attempt loop comes to when its calls of `collect` end so, after `n` repeated attempts. -/
def attemptLoop (retries : Nat) : Nat → List CollectEnd → Option Verdict
  | _, [] => none
  | n, e :: ends => (e.verdict retries (n + 1) n).or (attemptLoop retries (n + 1) ends)

/-- A failure after which the attempt may be repeated. -/
def CollectEnd.isRetried : CollectEnd → Bool
  | failed failure => failure.isRetried
  | _ => false

theorem CollectEnd.verdict_eq_none {retries attempts errors : Nat} {e : CollectEnd} :
    e.verdict retries attempts errors = none ↔ e.isRetried = true ∧ attempts ≤ retries := by
  cases e with
  | returned result => exact iff_of_false (fun h => by cases h) fun h => by cases h.1
  | cancelled => exact iff_of_false (fun h => by cases h) fun h => by cases h.1
  | failed failure =>
    unfold CollectEnd.verdict CollectEnd.isRetried
    rw [ite_eq_left_iff, Nat.lt_succ_iff]
    constructor
    · intro h
      by_contra hnot
      exact absurd (h hnot) (by simp)
    · intro h hnot
      exact absurd h hnot

/-- The loop goes on as long as every attempt may be repeated. -/
theorem attemptLoop_eq_none {retries n : Nat} {ends : List CollectEnd} :
    attemptLoop retries n ends = none ↔
      (∀ e ∈ ends, e.isRetried = true) ∧ (ends ≠ [] → n + ends.length ≤ retries) := by
  induction ends generalizing n with
  | nil => exact iff_of_true rfl ⟨fun _ h => absurd h List.not_mem_nil, fun h => absurd rfl h⟩
  | cons e ends ih =>
    rw [attemptLoop, Option.or_eq_none_iff, CollectEnd.verdict_eq_none, ih, List.forall_mem_cons,
      List.length_cons]
    constructor
    · rintro ⟨⟨hretried, hattempts⟩, hends, hlength⟩
      refine ⟨⟨hretried, hends⟩, fun _ => ?_⟩
      cases ends with
      | nil => exact hattempts
      | cons e' ends =>
        have := hlength (List.cons_ne_nil _ _)
        omega
    · rintro ⟨⟨hretried, hends⟩, hlength⟩
      have := hlength (List.cons_ne_nil _ _)
      exact ⟨⟨hretried, by omega⟩, hends, fun _ => by omega⟩

/-- One more call of a loop that goes on. -/
theorem attemptLoop_concat {retries n : Nat} {ends : List CollectEnd} {e : CollectEnd}
    (h : attemptLoop retries n ends = none) : attemptLoop retries n (ends ++ [e]) =
      e.verdict retries (n + ends.length + 1) (n + ends.length) := by
  induction ends generalizing n with
  | nil => exact Option.or_none
  | cons e' ends ih =>
    rw [attemptLoop, Option.or_eq_none_iff] at h
    rw [List.cons_append, attemptLoop, h.1, Option.none_or, ih h.2, List.length_cons]
    congr 1 <;> omega

/-! ## Runs in the database -/

/-- The run has a row that meets `P`, and `n` errors. -/
structure HasRun (db : RunDb) (runId : Nat) (P : RunRow → Prop) (n : Nat) : Prop where
  row : ∃ row, (runId, row) ∈ db.runs.rows ∧ P row
  errors : db.errors.rows.countP (fun row => row.2.collectorRunId = runId) = n

/-- The run is not final. -/
def IsRunning (row : RunRow) : Prop := row.status = .running

/-- The row has the final state that the summary gives. -/
structure Summary.IsFinal (summary : Summary) (row : RunRow) : Prop where
  status : row.status = summary.status
  itemCount : row.itemCount = summary.itemCount
  finished : row.finishedAt.isSome = true

section

variable {db db' : RunDb} {runId j n m : Nat} {P : RunRow → Prop}

theorem HasRun.started {row : RunRow} (h : HasRun db j P n) (hstarted : Started runId row db db') :
    HasRun db' j P n := by
  obtain ⟨row', hrow', hP⟩ := h.row
  exact ⟨⟨row', hstarted.runs ▸ List.mem_append_left _ hrow', hP⟩, hstarted.errors ▸ h.errors⟩

/-- A new run has an id of its own. -/
theorem fresh_of_started {row : RunRow} (hstarted : Started runId row db db') :
    ∀ row' ∈ db.runs.rows, row'.1 < runId := by
  intro row' hrow'
  have hordered := db'.runs.ordered
  rw [hstarted.runs, List.map_append, List.pairwise_append] at hordered
  exact hordered.2.2 _ (List.mem_map_of_mem hrow') _ (List.mem_singleton_self _)

/-- A new run has no errors. -/
theorem hasRun_of_started {row : RunRow} (hstarted : Started runId row db db') (hP : P row) :
    HasRun db' runId P 0 := by
  refine ⟨⟨row, hstarted.runs ▸ List.mem_append_right _ (List.mem_singleton_self _), hP⟩, ?_⟩
  rw [hstarted.errors, List.countP_eq_zero]
  intro error herror heq
  obtain ⟨run, hrun, hid⟩ := db.owned error herror
  exact absurd (fresh_of_started hstarted run hrun) (by rw [hid, of_decide_eq_true heq]; omega)

theorem HasRun.recorded (h : HasRun db runId P n) (hrecorded : Recorded runId m db db') :
    HasRun db' runId P (n + m) := by
  obtain ⟨added, hadded, hlength, hmem⟩ := hrecorded.errors
  refine ⟨hrecorded.runs ▸ h.row, ?_⟩
  rw [hadded, List.countP_append, h.errors, ← hlength]
  congr 1
  exact List.countP_eq_length.mpr fun row hrow => decide_eq_true (hmem row hrow)

theorem HasRun.recorded_other (h : HasRun db j P n) (hne : j ≠ runId)
    (hrecorded : Recorded runId m db db') : HasRun db' j P n := by
  obtain ⟨added, hadded, -, hmem⟩ := hrecorded.errors
  refine ⟨hrecorded.runs ▸ h.row, ?_⟩
  rw [hadded, List.countP_append, h.errors, Nat.add_eq_left, List.countP_eq_zero]
  intro row hrow heq
  exact hne ((of_decide_eq_true heq).symm.trans (hmem row hrow))

theorem isUnfinished_iff {row : Nat × RunRow} :
    isUnfinished runId row = true ↔ row.1 = runId ∧ row.2.status = .running := by
  unfold isUnfinished
  rw [Bool.and_eq_true, decide_eq_true_eq, decide_eq_true_eq, Int.natCast_inj]

theorem HasRun.finalised_other (h : HasRun db j P n) (hne : j ≠ runId) {status : RunStatus}
    {itemCount : Nat} (hfinal : Finalised runId status itemCount db db') : HasRun db' j P n := by
  obtain ⟨row, hrow, hP⟩ := h.row
  obtain ⟨finishedAt, hruns⟩ := hfinal.runs
  refine ⟨⟨row, ?_, hP⟩, hfinal.errors ▸ h.errors⟩
  rw [hruns]
  refine List.mem_map.mpr ⟨(j, row), hrow, ?_⟩
  rw [if_neg fun hopen => hne (isUnfinished_iff.mp hopen).1]

theorem HasRun.finalised (h : HasRun db runId IsRunning n) {summary : Summary}
    (hfinal : Finalised runId summary.status summary.itemCount db db') :
    HasRun db' runId summary.IsFinal n := by
  obtain ⟨row, hrow, hrunning⟩ := h.row
  obtain ⟨finishedAt, hruns⟩ := hfinal.runs
  refine ⟨⟨row.withEnd summary.status finishedAt summary.itemCount, ?_, rfl, rfl, rfl⟩,
    hfinal.errors ▸ h.errors⟩
  rw [hruns]
  have hopen : isUnfinished runId (runId, row) = true := isUnfinished_iff.mpr ⟨rfl, hrunning⟩
  refine List.mem_map.mpr ⟨(runId, row), hrow, ?_⟩
  rw [if_pos hopen]

end

/-! ## What a task has to show for itself -/

/-- A task agrees with the database and with the ends of its calls of `collect`. -/
def Task.Agrees (retries : Nat) (db : RunDb) (ends : List CollectEnd) : Task → Prop
  | .created => ends = []
  | .waiting runId => ends = [] ∧ HasRun db runId IsRunning 0
  | .collecting p =>
    attemptLoop retries 0 ends = none ∧ p.attempts = ends.length + 1 ∧ p.errors = ends.length ∧
      HasRun db p.runId IsRunning p.errors
  | .sleeping p =>
    attemptLoop retries 0 ends = none ∧ p.attempts = ends.length ∧ p.errors = ends.length ∧
      HasRun db p.runId IsRunning p.errors
  | .ended summary =>
    (attemptLoop retries 0 ends = some summary.verdict ∨
      -- the task was cancelled between two calls
      attemptLoop retries 0 ends = none ∧
        summary.verdict = ⟨.cancelled, ends.length, 0, ends.length⟩) ∧
      HasRun db summary.runId summary.IsFinal summary.errorCount
  | .raised run _ => ∀ runId ∈ run, ∃ n, HasRun db runId IsRunning n

section

variable {retries : Nat} {request : Request} {stop cancelled : Bool} {old new : Task}
  {e : Option CollectEnd} {db db' : RunDb} {ends : List CollectEnd}

/-- A task that has ended or raised stays as it is. -/
theorem TaskMove.alive (h : TaskMove retries request stop cancelled old e db new db') :
    old.isOver = false := by
  cases h with
  | started | slept | ended | unstarted => rfl
  | attempted hhead | stopped hhead =>
    cases old with
    | waiting | sleeping => rfl
    | created | collecting | ended | raised => cases hhead
  | raised halive => exact halive

/-- What a task at the head of the loop has to show. -/
theorem Task.Agrees.head {p : Progress} (h : old.Agrees retries db ends)
    (hhead : old.loopHead = some p) :
    old.run = some p.runId ∧ attemptLoop retries 0 ends = none ∧ p.attempts = ends.length ∧
      p.errors = ends.length ∧ HasRun db p.runId IsRunning p.errors := by
  cases old with
  | waiting runId =>
    cases hhead
    obtain ⟨rfl, hrun⟩ := h
    exact ⟨rfl, rfl, rfl, rfl, hrun⟩
  | sleeping p =>
    cases hhead
    obtain ⟨hloop, hattempts, herrors, hrun⟩ := h
    exact ⟨rfl, hloop, hattempts, herrors, hrun⟩
  | created | collecting | ended | raised => cases hhead

/-- A task that is not over has a running row, if it has one. -/
theorem Task.Agrees.running (h : old.Agrees retries db ends) (halive : old.isOver = false)
    {runId : Nat} (hrun : old.run = some runId) : ∃ n, HasRun db runId IsRunning n := by
  cases old with
  | created => cases hrun
  | waiting => cases hrun; exact ⟨0, h.2⟩
  | collecting p => cases hrun; exact ⟨p.errors, h.2.2.2⟩
  | sleeping p => cases hrun; exact ⟨p.errors, h.2.2.2⟩
  | ended | raised => cases halive

theorem Task.eq_ended {task : Task} {summary : Summary} (h : task.summary = some summary) :
    task = .ended summary := by
  cases task with
  | ended => exact congrArg Task.ended (Option.some.inj h)
  | created | waiting | collecting | sleeping | raised => cases h

/-- A step keeps the task in agreement. -/
theorem TaskMove.agrees (hmove : TaskMove retries request stop cancelled old e db new db')
    (h : old.Agrees retries db ends) : new.Agrees retries db' (ends ++ e.toList) := by
  cases hmove with
  | started hstatus hstarted =>
    rw [Option.toList_none, List.append_nil]
    exact ⟨h, hasRun_of_started hstarted hstatus⟩
  | attempted hhead hclear =>
    obtain ⟨-, hloop, hattempts, herrors, hrun⟩ := h.head hhead
    rw [Option.toList_none, List.append_nil]
    exact ⟨hloop, congrArg (· + 1) hattempts, herrors, hrun⟩
  | @stopped _ p _ _ hhead _ hfinal =>
    obtain ⟨-, hloop, hattempts, herrors, hrun⟩ := h.head hhead
    rw [Option.toList_none, List.append_nil]
    refine ⟨.inr ⟨hloop, ?_⟩, HasRun.finalised hrun hfinal⟩
    show (⟨.cancelled, p.attempts, 0, p.errors⟩ : Verdict) = _
    rw [hattempts, herrors]
  | slept hagain hrecorded =>
    obtain ⟨hloop, hattempts, herrors, hrun⟩ := h
    refine ⟨?_, ?_, ?_, hrun.recorded hrecorded⟩
    · rw [Option.toList_some, attemptLoop_concat hloop, Nat.zero_add, ← hattempts, ← herrors]
      exact hagain
    · rw [Option.toList_some, List.length_append]
      exact hattempts
    · rw [Option.toList_some, List.length_append]
      exact congrArg (· + 1) herrors
  | @ended p e v n _ d _ hverdict hcount hrecorded hfinal =>
    obtain ⟨hloop, hattempts, herrors, hrun⟩ := h
    refine ⟨.inl ?_, ?_⟩
    · rw [Option.toList_some, attemptLoop_concat hloop, Nat.zero_add, ← hattempts, ← herrors]
      exact hverdict
    · have hrecorded' := hrun.recorded hrecorded
      rw [← hcount] at hrecorded'
      exact HasRun.finalised hrecorded' hfinal
  | unstarted => exact fun runId hrun => by cases hrun
  | @raised _ _ runId n _ _ _ halive hrun _ hrecorded =>
    intro runId' hrunId'
    obtain rfl := Option.some.inj hrunId'
    obtain ⟨m, hrunning⟩ := h.running halive hrun
    exact ⟨m + n, hrunning.recorded hrecorded⟩

/-- A step leaves the runs of the other tasks alone. -/
theorem TaskMove.frame (hmove : TaskMove retries request stop cancelled old e db new db')
    (h : old.Agrees retries db ends) {j n : Nat} {P : RunRow → Prop} (hne : old.run ≠ some j)
    (hrun : HasRun db j P n) : HasRun db' j P n := by
  have hother : ∀ {runId}, old.run = some runId → j ≠ runId := by
    rintro runId hold rfl
    exact hne hold
  cases hmove with
  | started hstatus hstarted => exact hrun.started hstarted
  | attempted hhead hclear => exact hrun
  | stopped hhead _ hfinal => exact hrun.finalised_other (hother (h.head hhead).1) hfinal
  | slept hagain hrecorded => exact hrun.recorded_other (hother rfl) hrecorded
  | ended hverdict hcount hrecorded hfinal =>
    exact (hrun.recorded_other (hother rfl) hrecorded).finalised_other (hother rfl) hfinal
  | unstarted => exact hrun
  | raised halive hold _ hrecorded => exact hrun.recorded_other (hother hold) hrecorded

/-- A task agrees as long as its own run does not change. -/
theorem Task.Agrees.congr (h : old.Agrees retries db ends)
    (hruns : ∀ runId ∈ old.run, ∀ P n, HasRun db runId P n → HasRun db' runId P n) :
    old.Agrees retries db' ends := by
  cases old with
  | created => exact h
  | waiting runId => exact ⟨h.1, hruns runId rfl _ _ h.2⟩
  | collecting p => exact ⟨h.1, h.2.1, h.2.2.1, hruns _ rfl _ _ h.2.2.2⟩
  | sleeping p => exact ⟨h.1, h.2.1, h.2.2.1, hruns _ rfl _ _ h.2.2.2⟩
  | ended summary => exact ⟨h.1, hruns _ rfl _ _ h.2⟩
  | raised run exc =>
    intro runId hrunId
    obtain ⟨n, hrun⟩ := h runId hrunId
    exact ⟨n, hruns runId hrunId _ _ hrun⟩

end

/-! ## A cycle -/

/-- How the calls of `collect` of task `i` ended. -/
def System.endsOf (s : System) (i : Nat) : List CollectEnd :=
  s.ends.filterMap fun e => if e.1 = i then some e.2 else none

/-- The calls of `collect` of task `i`. -/
def System.callsOf (s : System) (i : Nat) : List CollectCall := s.calls.filter fun call => call.task = i

/-- The cycle that started with the database `db₀` is accounted for: every task has its own row, and
row, errors and calls agree with the task. -/
structure System.Accounted (retries : Nat) (db₀ : RunDb) (s : System) : Prop where
  tasks : ∀ (i : Nat) (task : Task), s.tasks[i]? = some task →
    task.Agrees retries s.db (s.endsOf i)
  /-- The rows from before are the same, and the new ones belong to one task each. -/
  runs : ∃ added, s.db.runs.rows = db₀.runs.rows ++ added ∧
    (added.map Prod.fst).Perm (s.tasks.filterMap Task.run)
  errors : ∃ added, s.db.errors.rows = db₀.errors.rows ++ added ∧
    ∀ row ∈ added, row.2.collectorRunId ∈ s.tasks.filterMap Task.run
  /-- The attempts are numbered, and only a task in `collect` has a call that has not ended. -/
  calls : ∀ (i : Nat) (task : Task), s.tasks[i]? = some task →
    (s.callsOf i).map CollectCall.attempt =
      List.range' 1 ((s.endsOf i).length + task.isCollecting.toNat)

section

variable {retries : Nat} {approved : List Request} {db₀ : RunDb} {s s' : System}

/-- No two tasks have one run. -/
theorem System.Accounted.nodup (h : s.Accounted retries db₀) :
    (s.tasks.filterMap Task.run).Nodup := by
  obtain ⟨added, hadded, hperm⟩ := h.runs
  have hordered := s.db.runs.ordered
  rw [hadded, List.map_append, List.pairwise_append] at hordered
  exact hperm.nodup_iff.mp (hordered.2.1.imp Nat.ne_of_lt)

/-- A run that the cycle has started is none of those from before. -/
theorem System.Accounted.fresh (h : s.Accounted retries db₀) {runId : Nat}
    (hrun : runId ∈ s.tasks.filterMap Task.run) : ∀ row ∈ db₀.runs.rows, row.1 ≠ runId := by
  obtain ⟨added, hadded, hperm⟩ := h.runs
  intro row hrow
  have hordered := s.db.runs.ordered
  rw [hadded, List.map_append, List.pairwise_append] at hordered
  exact Nat.ne_of_lt (hordered.2.2 _ (List.mem_map_of_mem hrow) _ (hperm.mem_iff.mpr hrun))

/-- What a step adds to the runs, or which run it changes. -/
theorem TaskMove.rows {request : Request} {stop cancelled : Bool} {old new : Task}
    {e : Option CollectEnd} {db db' : RunDb} {ends : List CollectEnd}
    (hmove : TaskMove retries request stop cancelled old e db new db')
    (h : old.Agrees retries db ends) :
    (∃ row, old.run = none ∧ new.run = some row.1 ∧ db'.runs.rows = db.runs.rows ++ [row]) ∨
      new.run = old.run ∧ ∃ f : Nat × RunRow → Nat × RunRow, db'.runs.rows = db.runs.rows.map f ∧
        (∀ row, (f row).1 = row.1) ∧ ∀ row, old.run ≠ some row.1 → f row = row := by
  have hsame : db'.runs.rows = db.runs.rows → ∃ f : Nat × RunRow → Nat × RunRow,
      db'.runs.rows = db.runs.rows.map f ∧ (∀ row, (f row).1 = row.1) ∧
        ∀ row, old.run ≠ some row.1 → f row = row :=
    fun heq => ⟨id, heq.trans (List.map_id _).symm, fun _ => rfl, fun _ _ => rfl⟩
  have hfinal : ∀ {d : RunDb} {runId itemCount : Nat} {status : RunStatus},
      d.runs.rows = db.runs.rows → old.run = some runId →
        Finalised runId status itemCount d db' → ∃ f : Nat × RunRow → Nat × RunRow,
          db'.runs.rows = db.runs.rows.map f ∧ (∀ row, (f row).1 = row.1) ∧
            ∀ row, old.run ≠ some row.1 → f row = row := by
    rintro d runId itemCount status hd hrun hfinal
    obtain ⟨finishedAt, hruns⟩ := hfinal.runs
    rw [hd] at hruns
    refine ⟨_, hruns, fun _ => rfl, fun row hne => ?_⟩
    rw [if_neg]
    exact fun hopen => hne (hrun.trans (congrArg some (isUnfinished_iff.mp hopen).1.symm))
  cases hmove with
  | @started runId row _ _ hstatus hstarted =>
    exact .inl ⟨(runId, row), rfl, rfl, hstarted.runs⟩
  | attempted hhead hclear => exact .inr ⟨(h.head hhead).1.symm, hsame rfl⟩
  | stopped hhead _ hfinalised =>
    exact .inr ⟨(h.head hhead).1.symm, hfinal rfl (h.head hhead).1 hfinalised⟩
  | slept hagain hrecorded => exact .inr ⟨rfl, hsame hrecorded.runs⟩
  | ended hverdict hcount hrecorded hfinalised =>
    exact .inr ⟨rfl, hfinal hrecorded.runs rfl hfinalised⟩
  | unstarted => exact .inr ⟨rfl, hsame rfl⟩
  | raised halive hold _ hrecorded => exact .inr ⟨hold.symm, hsame hrecorded.runs⟩

/-- What a step adds to the errors. -/
theorem TaskMove.errors {request : Request} {stop cancelled : Bool} {old new : Task}
    {e : Option CollectEnd} {db db' : RunDb}
    (hmove : TaskMove retries request stop cancelled old e db new db') :
    ∃ added, db'.errors.rows = db.errors.rows ++ added ∧
      ∀ row ∈ added, new.run = some row.2.collectorRunId := by
  have hnone : db'.errors.rows = db.errors.rows → ∃ added,
      db'.errors.rows = db.errors.rows ++ added ∧
        ∀ row ∈ added, new.run = some row.2.collectorRunId :=
    fun heq => ⟨[], heq.trans (List.append_nil _).symm, fun _ h => absurd h List.not_mem_nil⟩
  cases hmove with
  | started hstatus hstarted => exact hnone hstarted.errors
  | attempted | unstarted => exact hnone rfl
  | stopped hhead _ hfinal => exact hnone hfinal.errors
  | slept hagain hrecorded =>
    obtain ⟨added, hadded, -, hmem⟩ := hrecorded.errors
    exact ⟨added, hadded, fun row hrow => congrArg some (hmem row hrow).symm⟩
  | ended hverdict hcount hrecorded hfinal =>
    obtain ⟨added, hadded, -, hmem⟩ := hrecorded.errors
    exact ⟨added, hfinal.errors.trans hadded, fun row hrow => congrArg some (hmem row hrow).symm⟩
  | raised halive hold _ hrecorded =>
    obtain ⟨added, hadded, -, hmem⟩ := hrecorded.errors
    exact ⟨added, hadded, fun row hrow => congrArg some (hmem row hrow).symm⟩

/-- The attempts stay numbered. -/
theorem TaskMove.calls {request : Request} {stop cancelled : Bool} {old new : Task}
    {e : Option CollectEnd} {db db' : RunDb} {ends : List CollectEnd} (i : Nat)
    (hmove : TaskMove retries request stop cancelled old e db new db')
    (h : old.Agrees retries db ends) :
    List.range' 1 (ends.length + old.isCollecting.toNat) ++
        (newCalls i request new).map CollectCall.attempt =
      List.range' 1 ((ends ++ e.toList).length + new.isCollecting.toNat) := by
  cases hmove with
  | started | unstarted => simp [newCalls, Task.isCollecting]
  | @attempted _ p _ hhead hclear =>
    obtain ⟨-, -, hattempts, -, -⟩ := h.head hhead
    have hold := Task.isCollecting_of_head hhead
    rw [hold, Option.toList_none, List.append_nil]
    show _ ++ [p.attempts + 1] = List.range' 1 (ends.length + 1)
    rw [hattempts, List.range'_concat, Nat.one_mul, Nat.add_comm 1]
    rfl
  | stopped hhead =>
    have hold := Task.isCollecting_of_head hhead
    rw [hold]
    simp [newCalls, Task.isCollecting]
  | slept | ended => simp [newCalls, Task.isCollecting]
  | raised halive hold hended =>
    rw [← hended]
    cases e <;> simp [newCalls, Task.isCollecting]

end

/-! ## The invariant of a cycle -/

/-- What a step of task `i` adds to the ends of task `j`. -/
theorem filterMap_ends (i j : Nat) (e : Option CollectEnd) :
    ((e.map fun e => (i, e)).toList.filterMap fun e => if e.1 = j then some e.2 else none) =
      if i = j then e.toList else [] := by
  cases e with
  | none => exact (ite_self []).symm
  | some e =>
    show [(i, e)].filterMap _ = if i = j then [e] else []
    by_cases h : i = j
    · rw [List.filterMap_cons, if_pos h, if_pos h]
      rfl
    · rw [List.filterMap_cons, if_neg h, if_neg h]
      rfl

/-- What a step of task `i` adds to the calls of task `j`. -/
theorem filter_newCalls (i j : Nat) (request : Request) (task : Task) :
    (newCalls i request task).filter (fun call => call.task = j) =
      if i = j then newCalls i request task else [] := by
  unfold newCalls
  split
  · by_cases h : i = j
    · rw [if_pos h]
      exact List.filter_eq_self.mpr fun call hcall => by
        rw [List.mem_singleton.mp hcall]
        exact decide_eq_true h
    · rw [if_neg h]
      exact List.filter_eq_nil_iff.mpr fun call hcall => by
        rw [List.mem_singleton.mp hcall]
        exact fun heq => h (of_decide_eq_true heq)
  · rw [ite_self]
    rfl

section

variable {retries : Nat} {approved : List Request} {db₀ : RunDb} {s s' : System}

theorem System.Accounted.init (o : Orchestrator) (db : RunDb) (stop : Bool) (approved : List Request) :
    (System.init o db stop approved).Accounted retries db where
  tasks i task htask := by
    obtain ⟨request, -, rfl⟩ := List.mem_map.mp (List.mem_of_getElem? htask)
    rfl
  runs := by
    refine ⟨[], (List.append_nil _).symm, ?_⟩
    have hnone : (approved.map fun _ => Task.created).filterMap Task.run = [] :=
      List.filterMap_eq_nil_iff.mpr fun task htask => by
        obtain ⟨request, -, rfl⟩ := List.mem_map.mp htask
        rfl
    rw [List.map_nil]
    exact .of_eq hnone.symm
  errors := ⟨[], (List.append_nil _).symm, fun _ h => absurd h List.not_mem_nil⟩
  calls i task htask := by
    obtain ⟨request, -, rfl⟩ := List.mem_map.mp (List.mem_of_getElem? htask)
    rfl

/-- A step of a task touches its own row, its own errors and its own calls. -/
theorem System.Accounted.task {i : Nat} {request : Request} {old new : Task} {e : Option CollectEnd}
    (h : s.Accounted retries db₀) (hold : s.tasks[i]? = some old)
    (hmove : TaskMove retries request s.stop s.cancelled old e s.db new s'.db)
    (htasks : s'.tasks = s.tasks.set i new) (hcalls : s'.calls = s.calls ++ newCalls i request new)
    (hends : s'.ends = s.ends ++ (e.map fun e => (i, e)).toList) :
    s'.Accounted retries db₀ := by
  have hagrees := h.tasks i old hold
  have hget : s'.tasks[i]? = some new := by
    rw [htasks, List.getElem?_set_self (List.getElem?_eq_some_iff.mp hold).1]
  have hends' : ∀ j, s'.endsOf j = s.endsOf j ++ if i = j then e.toList else [] := by
    intro j
    unfold System.endsOf
    rw [hends, List.filterMap_append, filterMap_ends]
  have hcalls' : ∀ j, s'.callsOf j = s.callsOf j ++ if i = j then newCalls i request new else [] := by
    intro j
    unfold System.callsOf
    rw [hcalls, List.filter_append, filter_newCalls]
  have hruns := Py.filterMap_set (f := Task.run) hold new
  rw [← htasks] at hruns
  refine ⟨fun j task htask => ?_, ?_, ?_, fun j task htask => ?_⟩
  · by_cases hj : i = j
    · subst hj
      cases hget.symm.trans htask
      rw [hends', if_pos rfl]
      exact hmove.agrees hagrees
    · rw [htasks, List.getElem?_set_ne hj] at htask
      rw [hends', if_neg hj, List.append_nil]
      refine (h.tasks j task htask).congr fun runId hrun P n => hmove.frame hagrees fun hown => ?_
      exact hj (eq_of_nodup_filterMap h.nodup hold htask hown hrun)
  · obtain ⟨added, hadded, hperm⟩ := h.runs
    rcases hmove.rows hagrees with ⟨row, hnone, hrun, hrows⟩ | ⟨hrun, f, hrows, hid, hother⟩
    · refine ⟨added ++ [row], by rw [hrows, hadded, List.append_assoc], ?_⟩
      rw [hnone, hrun, Option.toList_none, List.append_nil, Option.toList_some] at hruns
      rw [List.map_append]
      exact (hperm.append_right _).trans hruns.symm
    · refine ⟨added.map f, ?_, ?_⟩
      · rw [hrows, hadded, List.map_append]
        congr 1
        refine List.map_congr_left (fun row hrow => hother row fun hown => ?_) |>.trans (List.map_id _)
        have hmem : row.1 ∈ s.tasks.filterMap Task.run :=
          List.mem_filterMap.mpr ⟨old, List.mem_of_getElem? hold, hown⟩
        exact h.fresh hmem row hrow rfl
      · rw [List.map_map, show Prod.fst ∘ f = Prod.fst from funext hid]
        rw [hrun] at hruns
        exact hperm.trans ((List.perm_append_right_iff _).mp hruns).symm
  · obtain ⟨added, hadded, howners⟩ := h.errors
    obtain ⟨more, hmore, hown⟩ := hmove.errors
    refine ⟨added ++ more, by rw [hmore, hadded, List.append_assoc], fun row hrow => ?_⟩
    rcases List.mem_append.mp hrow with hrow | hrow
    · have hmem : row.2.collectorRunId ∈ s'.tasks.filterMap Task.run ++ old.run.toList :=
        hruns.mem_iff.mpr (List.mem_append_left _ (howners row hrow))
      rcases List.mem_append.mp hmem with hmem | hmem
      · exact hmem
      · refine List.mem_filterMap.mpr ⟨new, List.mem_of_getElem? hget, ?_⟩
        have hold' : old.run = some row.2.collectorRunId := Option.mem_toList.mp hmem
        rcases hmove.rows hagrees with ⟨_, hnone, -, -⟩ | ⟨hrun, -⟩
        · rw [hnone] at hold'
          cases hold'
        · exact hrun.trans hold'
    · exact List.mem_filterMap.mpr ⟨new, List.mem_of_getElem? hget, hown row hrow⟩
  · by_cases hj : i = j
    · subst hj
      cases hget.symm.trans htask
      rw [hcalls', hends', if_pos rfl, if_pos rfl, List.map_append, h.calls i old hold]
      exact hmove.calls i hagrees
    · rw [htasks, List.getElem?_set_ne hj] at htask
      rw [hcalls', hends', if_neg hj, if_neg hj, List.append_nil, List.append_nil]
      exact h.calls j task htask

theorem System.Accounted.step (h : s.Accounted retries db₀) {a : Action}
    (hmove : Move retries approved s s' a) : s'.Accounted retries db₀ := by
  cases hmove with
  | run hs =>
    subst hs
    exact ⟨h.tasks, h.runs, h.errors, h.calls⟩
  | task hrequest hold hmove htasks hslots hstop hcancelled hphase hfailure hcalls hends =>
    exact h.task hold hmove htasks hcalls hends

end

/-! ## Every run -/

section

variable {rt : Runtime} {r : Redactor} {o : Orchestrator} {approved : List Request} {db : RunDb}
  {stop : Bool} {actions : List Action} {s : System}

/-- The database, the tasks and the calls of `collect` agree in every state of a cycle. -/
theorem accounted_run
    (hrun : Machine.run (System.step rt r o approved) (System.init o db stop approved) actions =
      some s) : s.Accounted o.retries db :=
  Machine.run_invariant (fun _ _ _ hs _ hstep => hs.step (step_move hstep))
    (System.Accounted.init o db stop approved) (Machine.along_of_forall fun _ _ => trivial) hrun

end

/-! ## A cycle of two collectors

SNMP times out and then comes back with an issue; AD's credential is rejected. -/

def sampleOrchestrator : Orchestrator where
  deploymentId := 1
  approvedRanges := [str "192.168.50.0/24"]
  collectors := [str "snmp", str "ad"]
  concurrency := 1
  concurrency_pos := Nat.zero_lt_one
  retries := 1

def sampleSnmp : Request := ⟨str "snmp", str "192.168.50.10", none⟩

def sampleAd : Request := ⟨str "ad", str "192.168.50.20", none⟩

/-- The clock stands, and no call of the repository fails. -/
def steady (_ : Nat) : Answer := ⟨sampleStart, false⟩

/-- Task `i` times out and then returns three items and an issue. -/
def snmpCourse (i : Nat) : List Action :=
  [.enter i steady, .collected i (.failed .timeout) steady, .wake i steady,
    .collected i (.returned ⟨3, [⟨str "snmp", str "no route", false⟩]⟩) steady]

/-- The actions up to the end of `run`. -/
def sampleCourse : List Action :=
  [.start 0 steady, .start 1 steady] ++ snmpCourse 0 ++
    [.enter 1 steady, .collected 1 (.failed .authentication) steady, .gather, .closed]

/-- The cycle after the actions. -/
def sampleAfter (approved : List Request) (actions : List Action) : Option System :=
  Machine.run (System.step (.ofDigests []) ⟨[], []⟩ sampleOrchestrator approved)
    (System.init sampleOrchestrator (.empty [1]) false approved) actions

/-- In every state of a cycle the database, the tasks and the calls of `collect` agree, and every task
has a row of its own that was not there before. -/
theorem runs_accounted {rt : Runtime} {r : Redactor} {o : Orchestrator} {approved : List Request}
    {db : RunDb} {stop : Bool} {actions : List Action} {s : System}
    (hrun : Machine.run (System.step rt r o approved) (System.init o db stop approved) actions =
      some s) : s.Accounted o.retries db ∧ (s.tasks.filterMap Task.run).Nodup ∧
      ∀ runId ∈ s.tasks.filterMap Task.run, ∀ row ∈ db.runs.rows, row.1 ≠ runId :=
  have haccounted := accounted_run hrun
  ⟨haccounted, haccounted.nodup, fun _ hrunId => haccounted.fresh hrunId⟩

theorem runs_accounted_sample : ∃ s, sampleAfter [sampleSnmp, sampleAd] sampleCourse = some s ∧
    s.tasks.map (fun task => task.summary.map Summary.verdict) =
      [some ⟨.partially, 2, 3, 2⟩, some ⟨.failed, 1, 0, 1⟩] ∧ s.Accounted 1 (.empty [1]) := by
  have hsummary : (sampleAfter [sampleSnmp, sampleAd] sampleCourse).map (fun s =>
      s.tasks.map fun task => task.summary.map Summary.verdict) =
        some [some ⟨.partially, 2, 3, 2⟩, some ⟨.failed, 1, 0, 1⟩] := by
    decide +kernel
  obtain ⟨s, hrun, hs⟩ := Option.map_eq_some_iff.mp hsummary
  exact ⟨s, hrun, hs, (runs_accounted hrun).1⟩

end FieldDiscovery.Collectors
