import FieldDiscovery.Collectors.Orchestrator

/-!
# What the steps of a cycle do

The calls of a task's step are taken apart once. A step of the system is then a `Move`: either `run`
goes on and leaves the tasks alone, or one task makes a `TaskMove` and leaves the others alone.
-/

namespace FieldDiscovery.Collectors

open Py Repository Redaction

/-! ## Verdicts -/

/-- What a run of `_run_one` comes to. -/
structure Verdict where
  status : RunStatus
  attempts : Nat
  itemCount : Nat
  errorCount : Nat
  deriving DecidableEq

def Summary.verdict (summary : Summary) : Verdict :=
  ⟨summary.status, summary.attempts, summary.itemCount, summary.errorCount⟩

/-- The verdict when a call of `collect` ends so; `none` when the attempt is repeated. -/
def CollectEnd.verdict (retries attempts errors : Nat) : CollectEnd → Option Verdict
  | .returned result =>
    some ⟨if result.issues = [] then .succeeded else .partially, attempts, result.itemCount,
      errors + result.issues.length⟩
  | .failed failure =>
    if failure.isRetried ∧ attempts < retries + 1 then none
    else some ⟨.failed, attempts, 0, errors + 1⟩
  | .cancelled => some ⟨.cancelled, attempts, 0, errors⟩

def Progress.summary (p : Progress) (request : Request) (v : Verdict) : Summary :=
  ⟨p.runId, request.collector, request.target, v.status, v.attempts, v.itemCount, v.errorCount⟩

/-- The task of a request that comes to the head of the attempt loop next. -/
def Task.loopHead : Task → Option Progress
  | .waiting runId => some { runId }
  | .sleeping p => some p
  | _ => none

theorem Task.isCollecting_of_head {task : Task} {p : Progress} (h : task.loopHead = some p) :
    task.isCollecting = false := by
  cases task with
  | waiting | sleeping => rfl
  | created | collecting | ended | raised => cases h

/-! ## Moves -/

/-- What a step does to its task and to the database, where `collect` may have ended. -/
inductive TaskMove (retries : Nat) (request : Request) (stop cancelled : Bool) :
    Task → Option CollectEnd → RunDb → Task → RunDb → Prop
  | started {runId : Nat} {row : RunRow} {db db' : RunDb} (status : row.status = .running)
      (h : Started runId row db db') :
      TaskMove retries request stop cancelled .created none db (.waiting runId) db'
  | attempted {old : Task} {p : Progress} {db : RunDb} (head : old.loopHead = some p)
      (clear : stop = false) :
      TaskMove retries request stop cancelled old none db
        (.collecting { p with attempts := p.attempts + 1 }) db
  | stopped {old : Task} {p : Progress} {db db' : RunDb} (head : old.loopHead = some p)
      (interruption : stop = true ∨ cancelled = true) (h : Finalised p.runId .cancelled 0 db db') :
      TaskMove retries request stop cancelled old none db
        (.ended (p.summary request ⟨.cancelled, p.attempts, 0, p.errors⟩)) db'
  | slept {p : Progress} {e : CollectEnd} {db db' : RunDb}
      (again : e.verdict retries p.attempts p.errors = none) (h : Recorded p.runId 1 db db') :
      TaskMove retries request stop cancelled (.collecting p) (some e) db
        (.sleeping { p with errors := p.errors + 1 }) db'
  | ended {p : Progress} {e : CollectEnd} {v : Verdict} {n : Nat} {db db' db'' : RunDb}
      (verdict : e.verdict retries p.attempts p.errors = some v)
      (errors : v.errorCount = p.errors + n) (h : Recorded p.runId n db db')
      (h' : Finalised p.runId v.status v.itemCount db' db'') :
      TaskMove retries request stop cancelled (.collecting p) (some e) db
        (.ended (p.summary request v)) db''
  | unstarted {exc : Exc} {db : RunDb} :
      TaskMove retries request stop cancelled .created none db (.raised none exc) db
  | raised {old : Task} {e : Option CollectEnd} {runId n : Nat} {exc : Exc} {db db' : RunDb}
      (alive : old.isOver = false) (run : old.run = some runId)
      (ended : e.isSome = old.isCollecting) (h : Recorded runId n db db') :
      TaskMove retries request stop cancelled old e db (.raised (some runId) exc) db'

/-- The exception of a task that raises. -/
def newFailure : Task → Option Exc
  | .raised _ exc => some exc
  | _ => none

/-- What the `try` statement of `run` may come to: what all tasks have come to, the first exception of
a task, or its own cancellation when all tasks are over. -/
def ComesTo (tasks : List Task) (failure : Option Exc) : Except Exc (List Summary) → Prop
  | .ok summaries => failure = none ∧ tasks.mapM Task.summary = some summaries
  | .error exc => failure = some exc ∨ exc = .cancelled ∧ ∀ task ∈ tasks, task.isOver = true

/-- `run` is in its `try` statement. -/
def Phase.waits : Phase → Bool
  | waiting | gathering _ | draining => true
  | closing _ _ | returned _ | raised _ => false

/-- Where `run` goes on. -/
inductive PhaseMove (s : System) (a : Action) : Phase → Prop
  | same : PhaseMove s a s.phase
  | waits {phase : Phase} (h : phase.waits = true) : PhaseMove s a phase
  | closes {outcome : Except Exc (List Summary)} (h : ComesTo s.tasks s.failure outcome) :
      PhaseMove s a (.closing outcome false)
  | interrupted {outcome : Except Exc (List Summary)} {requested : Bool}
      (h : s.phase = .closing outcome requested) (ha : a = .cancelRun) :
      PhaseMove s a (.closing outcome true)
  | closed {outcome : Except Exc (List Summary)} {requested : Bool}
      (h : s.phase = .closing outcome requested) : PhaseMove s a (Phase.closed outcome requested)

/-- How far `run` is from its end. -/
def Phase.rank : Phase → Nat
  | waiting => 4
  | gathering _ => 3
  | draining => 2
  | closing _ _ => 1
  | returned _ | raised _ => 0

theorem Phase.closed_rank (outcome : Except Exc (List Summary)) (requested : Bool) :
    (Phase.closed outcome requested).rank = 0 := by
  unfold Phase.closed
  cases requested with
  | true => rfl
  | false => cases outcome <;> rfl

/-- The action belongs to `run` or to a task, and not to the caller. -/
def Action.isOwn : Action → Bool
  | setStop | cancelRun => false
  | _ => true

/-- A step, of `run` or of a task. -/
inductive Move (retries : Nat) (approved : List Request) (s s' : System) (a : Action) : Prop
  | run {stop cancelled : Bool} {phase : Phase} (h : s' = { s with stop, cancelled, phase })
      (hphase : PhaseMove s a phase) (hstop : s.stop = true → stop = true)
      (hcancelled : cancelled = true → s.cancelled = true ∨ stop = true)
      (hrank : phase.rank + a.isOwn.toNat ≤ s.phase.rank) : Move retries approved s s' a
  | task {i : Nat} {request : Request} {old new : Task} {e : Option CollectEnd}
      (hrequest : approved[i]? = some request) (hold : s.tasks[i]? = some old)
      (hmove : TaskMove retries request s.stop s.cancelled old e s.db new s'.db)
      (htasks : s'.tasks = s.tasks.set i new)
      (hslots : s'.slots + new.held.toNat = s.slots + old.held.toNat)
      (hstop : s'.stop = (s.stop || e.any CollectEnd.isCancelled))
      (hcancelled : s'.cancelled = s.cancelled) (hphase : s'.phase = s.phase)
      (hfailure : s'.failure = s.failure.or (newFailure new))
      (hcalls : s'.calls = s.calls ++ newCalls i request new)
      (hends : s'.ends = s.ends ++ (e.map fun e => (i, e)).toList) : Move retries approved s s' a

/-! ## Calls -/

section

variable {rt : Runtime} {r : Redactor} {o : Orchestrator} {request : Request}

theorem finish_settles {p : Progress} {status : RunStatus} {itemCount : Nat} {answer : Answer} :
    Sql.Settles (finish request p status itemCount answer)
      (fun task db db' =>
        task = .ended (p.summary request ⟨status, p.attempts, itemCount, p.errors⟩) ∧
          Finalised p.runId status itemCount db db') Eq := by
  unfold finish
  refine .guardFault (fun _ => rfl) (((finishRun_settles _ _ _ _).map _).mono ?_ fun _ _ => id)
  rintro task db db' ⟨-, rfl, hfinal⟩
  exact ⟨rfl, hfinal⟩

theorem recordIssue_settles {runId : Nat} {answer : Answer} {issue : Issue} :
    Sql.Settles (recordIssue rt r request runId answer issue) (fun _ => Recorded runId 1) Eq := by
  unfold recordIssue
  refine .guardFault (fun _ => rfl)
    (((recordCollectorError_settles _ _ _ _ _ _ _ _).map _).mono ?_ fun _ _ => id)
  rintro _ db db' ⟨-, -, hrecorded⟩
  exact hrecorded

theorem recordIssues_settles {runId : Nat} {answers : Nat → Answer} {n : Nat} {issues : List Issue} :
    Sql.Settles (recordIssues rt r request runId answers n issues)
      (fun _ => Recorded runId issues.length) fun db db' => ∃ m, Recorded runId m db db' := by
  induction issues generalizing n with
  | nil => exact .pure fun db => .refl runId db
  | cons issue issues ih =>
    unfold recordIssues
    refine (recordIssue_settles.bind fun _ => ih).mono ?_ ?_
    · rintro _ db db' ⟨_, d, hfirst, hrest⟩
      rw [List.length_cons, Nat.add_comm]
      exact hfirst.trans hrest
    · rintro db db' (rfl | ⟨_, d, hfirst, m, hrest⟩)
      · exact ⟨0, .refl runId db⟩
      · exact ⟨1 + m, hfirst.trans hrest⟩

theorem startTask_settles {answers : Nat → Answer} :
    Sql.Settles (startTask rt r o request answers)
      (fun task db db' => ∃ runId row, task = .waiting runId ∧ row.status = .running ∧
        Started runId row db db') Eq := by
  unfold startTask
  refine .guardFault (fun _ => rfl)
    (((startRun_settles _ _ _ _ _ _ _).map _).mono ?_ fun _ _ => id)
  rintro task db db' ⟨runId, rfl, row, hstatus, -, -, hstarted⟩
  exact ⟨runId, row, rfl, hstatus, hstarted⟩

theorem afterCollect_settles (stop cancelled : Bool) {p : Progress} {answers : Nat → Answer}
    {e : CollectEnd} :
    Sql.Settles (afterCollect rt r o request p answers e)
      (fun task db db' =>
        TaskMove o.retries request stop cancelled (.collecting p) (some e) db task db' ∧
          newFailure task = none)
      fun db db' => ∃ n, Recorded p.runId n db db' := by
  cases e with
  | returned result =>
    refine (recordIssues_settles.bind fun _ => finish_settles).mono ?_ ?_
    · rintro task db db' ⟨_, d, hrecorded, rfl, hfinal⟩
      exact ⟨.ended (v := ⟨_, p.attempts, _, _⟩) rfl rfl hrecorded hfinal, rfl⟩
    · rintro db db' (hrecorded | ⟨_, d, hrecorded, rfl⟩)
      · exact hrecorded
      · exact ⟨_, hrecorded⟩
  | failed failure =>
    refine .ofExcept (fun db => ⟨0, .refl _ db⟩) fun issue _ => ?_
    have hrest : ∀ _ : Unit, Sql.Settles
        (if failure.isRetried ∧ p.attempts < o.retries + 1 then
            pure (Task.sleeping { p with errors := p.errors + 1 })
          else finish request { p with errors := p.errors + 1 } .failed 0 (answers 1))
        (fun task d db' => ∀ db, Recorded p.runId 1 db d →
          TaskMove o.retries request stop cancelled (.collecting p) (some (.failed failure)) db task
            db' ∧ newFailure task = none) Eq := by
      intro _
      by_cases hagain : failure.isRetried ∧ p.attempts < o.retries + 1
      · rw [if_pos hagain]
        refine .pure fun d db hrecorded => ⟨.slept ?_ hrecorded, rfl⟩
        exact if_pos hagain
      · rw [if_neg hagain]
        refine finish_settles.mono ?_ fun _ _ heq => heq
        rintro task d db' ⟨rfl, hfinal⟩ db hrecorded
        refine ⟨.ended (v := ⟨_, p.attempts, _, _⟩) ?_ rfl hrecorded hfinal, rfl⟩
        exact if_neg hagain
    refine (recordIssue_settles.bind hrest).mono ?_ ?_
    · rintro task db db' ⟨_, d, hrecorded, hmove⟩
      exact hmove db hrecorded
    · rintro db db' (rfl | ⟨_, d, hrecorded, rfl⟩)
      · exact ⟨0, .refl _ db⟩
      · exact ⟨1, hrecorded⟩
  | cancelled =>
    refine finish_settles.mono ?_ ?_
    · rintro task db db' ⟨rfl, hfinal⟩
      exact ⟨.ended (v := ⟨_, p.attempts, _, _⟩) rfl (Nat.add_zero _).symm (.refl _ db) hfinal, rfl⟩
    · rintro db db' rfl
      exact ⟨0, .refl _ db⟩

end

/-! ## Steps -/

section

variable {rt : Runtime} {r : Redactor} {o : Orchestrator} {approved : List Request}
  {s s' : System} {a : Action}

/-- The contract of a step's call. A task that calls `collect` has the semaphore or gets it. -/
def Contract (retries : Nat) (request : Request) (s : System) (old : Task) (e : Option CollectEnd)
    (call : Call RunConnection Exc Task) : Prop :=
  Sql.Settles call
    (fun task db db' =>
      TaskMove retries request s.stop s.cancelled old e db task db' ∧ newFailure task = none ∧
        (task.held = true → old.held = true ∨ 0 < s.slots))
    fun db db' => ∀ exc,
      TaskMove retries request s.stop s.cancelled old e db (.raised old.run exc) db'

/-- A task that raises where nothing has been recorded since its last await. -/
theorem raised_of_eq {request : Request} {old : Task} {p : Progress} {stop cancelled : Bool}
    (hhead : old.loopHead = some p) {db db' : RunDb} (h : db = db') (exc : Exc) :
    TaskMove o.retries request stop cancelled old none db (.raised old.run exc) db' := by
  subst h
  cases old with
  | waiting runId => exact .raised rfl rfl rfl (.refl _ db)
  | sleeping p => exact .raised rfl rfl rfl (.refl _ db)
  | created | collecting | ended | raised => cases hhead

namespace Contract

variable {request : Request} {old : Task} {p : Progress} {answers : Nat → Answer}

theorem start : Contract o.retries request s .created none (startTask rt r o request answers) := by
  refine startTask_settles.mono ?_ ?_
  · rintro task db db' ⟨runId, row, rfl, hstatus, hstarted⟩
    exact ⟨.started hstatus hstarted, rfl, fun h => by cases h⟩
  · rintro db db' rfl exc
    exact .unstarted

theorem unstarted : Contract o.retries request s .created none (Call.raise .cancelled) :=
  .raise fun _ _ => .unstarted

theorem stopped (hhead : old.loopHead = some p) (h : s.stop = true ∨ s.cancelled = true)
    {answer : Answer} :
    Contract o.retries request s old none (finish request p .cancelled 0 answer) := by
  refine finish_settles.mono ?_ fun _ _ => raised_of_eq hhead
  rintro task db db' ⟨rfl, hfinal⟩
  exact ⟨.stopped hhead h hfinal, rfl, fun h => by cases h⟩

theorem attempt (hhead : old.loopHead = some p) (hslots : old.held = true ∨ 0 < s.slots) :
    Contract o.retries request s old none (attempt request s.stop p answers) := by
  unfold Collectors.attempt
  split
  · next hstop => exact .stopped hhead (.inl hstop)
  · next hstop =>
    have hclear := Bool.eq_false_iff.mpr hstop
    exact .pure fun db => ⟨.attempted hhead hclear, rfl, fun _ => hslots⟩

theorem afterCollect {e : CollectEnd} : Contract o.retries request s (.collecting p) (some e)
    (afterCollect rt r o request p answers e) := by
  refine (afterCollect_settles s.stop s.cancelled).mono ?_ ?_
  · rintro task db db' ⟨hmove, hnone⟩
    exact ⟨hmove, hnone, fun _ => .inl rfl⟩
  · rintro db db' ⟨n, hrecorded⟩ exc
    exact .raised rfl rfl rfl hrecorded

/-- The step of a task whose call keeps its contract. -/
theorem move {i : Nat} {e : Option CollectEnd} {call : Call RunConnection Exc Task}
    (h : Contract o.retries request s old e call) (hrequest : approved[i]? = some request)
    (hold : s.tasks[i]? = some old) : Move o.retries approved s ({ s with
      stop := s.stop || e.any CollectEnd.isCancelled
      ends := s.ends ++ (e.map fun e => (i, e)).toList }.proceed i request old call) a := by
  unfold System.proceed
  rcases h s.db with ⟨task, db, hrun, hmove, hnone, hheld⟩ | ⟨exc, db, hrun, hmove⟩
  · rw [hrun]
    refine .task hrequest hold hmove rfl ?_ rfl rfl rfl ?_ rfl rfl
    · have hslots : task.held.toNat ≤ s.slots + old.held.toNat := by
        cases htask : task.held with
        | false => exact Nat.zero_le _
        | true =>
          rcases hheld htask with hold | hpos
          · rw [hold]
            exact Nat.le_add_left _ _
          · exact Nat.le_add_right_of_le hpos
      exact Nat.sub_add_cancel hslots
    · rw [hnone, Option.or_none]
  · rw [hrun]
    exact .task hrequest hold (hmove exc) rfl rfl rfl rfl rfl rfl (List.append_nil _).symm rfl

end Contract

/-- A step in which no call of `collect` ends. -/
theorem move_of_contract {i : Nat} {request : Request} {old : Task}
    {call : Call RunConnection Exc Task} (h : Contract o.retries request s old none call)
    (hrequest : approved[i]? = some request) (hold : s.tasks[i]? = some old) :
    Move o.retries approved s (s.proceed i request old call) a := by
  have hmove := h.move (a := a) hrequest hold
  simp only [Option.any_none, Bool.or_false, Option.map_none, Option.toList_none,
    List.append_nil] at hmove
  exact hmove

theorem taskStep_move {i : Nat} {request : Request} {old : Task}
    (hrequest : approved[i]? = some request) (hold : s.tasks[i]? = some old)
    (hstep : s.taskStep rt r o i request old a = some s') : Move o.retries approved s s' a := by
  unfold System.taskStep at hstep
  split at hstep
  · obtain rfl := Option.some.inj hstep
    exact move_of_contract .start hrequest hold
  · obtain ⟨hpos, hstep⟩ := Option.ite_none_right_eq_some.mp hstep
    obtain rfl := Option.some.inj hstep
    exact move_of_contract (.attempt rfl (.inr hpos)) hrequest hold
  · obtain rfl := Option.some.inj hstep
    exact Contract.afterCollect.move hrequest hold
  · obtain rfl := Option.some.inj hstep
    exact move_of_contract (.attempt rfl (.inl rfl)) hrequest hold
  · obtain ⟨-, hstep⟩ := Option.ite_none_right_eq_some.mp hstep
    obtain rfl := Option.some.inj hstep
    exact move_of_contract .unstarted hrequest hold
  · obtain ⟨hcancelled, hstep⟩ := Option.ite_none_right_eq_some.mp hstep
    obtain rfl := Option.some.inj hstep
    exact move_of_contract (.stopped rfl (.inr hcancelled)) hrequest hold
  · obtain ⟨hcancelled, hstep⟩ := Option.ite_none_right_eq_some.mp hstep
    obtain rfl := Option.some.inj hstep
    exact move_of_contract (.stopped rfl (.inr hcancelled)) hrequest hold
  · cases hstep

/-- Where `run` goes on with the result of `gather`. -/
theorem resume_move {requested : Bool} {result : Except Exc (List Summary)}
    (hrank : 3 ≤ s.phase.rank) (hgathered : s.gathered = some result) :
    Move o.retries approved s (s.resume requested result) .gather := by
  have hdrain : Move o.retries approved s s.drain .gather :=
    .run rfl (.waits rfl) (fun _ => rfl) (fun _ => .inr rfl) hrank
  have hcloses : 1 + Action.gather.isOwn.toNat ≤ s.phase.rank := (by decide : 2 ≤ 3).trans hrank
  unfold System.gathered at hgathered
  split at hgathered
  · next exc hfailure =>
    obtain rfl := Option.some.inj hgathered
    unfold System.resume
    split
    · next heq => cases heq
    · exact hdrain
    · next heq =>
      cases heq
      exact .run rfl (.closes (.inl hfailure)) id .inl hcloses
  · next hfailure =>
    obtain ⟨summaries, hsummaries, rfl⟩ := Option.map_eq_some_iff.mp hgathered
    unfold System.resume
    simp only
    split
    · exact hdrain
    · exact .run rfl (.closes ⟨hfailure, hsummaries⟩) id .inl hcloses

theorem step_move (hstep : s.step rt r o approved a = some s') :
    Move o.retries approved s s' a := by
  unfold System.step at hstep
  split at hstep
  · obtain rfl := Option.some.inj hstep
    exact .run rfl .same (fun _ => rfl) .inl le_rfl
  · split at hstep
    · next hphase =>
      obtain rfl := Option.some.inj hstep
      refine .run rfl (.waits rfl) (fun _ => rfl) (fun _ => .inr rfl) ?_
      rw [hphase]
      decide
    · next hphase =>
      split at hstep
      · obtain rfl := Option.some.inj hstep
        refine .run rfl (.waits rfl) (fun _ => rfl) (fun _ => .inr rfl) ?_
        rw [hphase]
        exact Nat.le_succ 2
      · obtain rfl := Option.some.inj hstep
        refine .run rfl (.waits rfl) id .inl ?_
        rw [hphase]
        rfl
    · obtain rfl := Option.some.inj hstep
      exact .run rfl .same id .inl le_rfl
    · next hphase =>
      obtain rfl := Option.some.inj hstep
      refine .run rfl (.interrupted hphase rfl) id .inl ?_
      rw [hphase]
      rfl
    · cases hstep
    · cases hstep
  · split at hstep
    · next hphase _ =>
      obtain ⟨hstop, hstep⟩ := Option.ite_none_right_eq_some.mp hstep
      obtain rfl := Option.some.inj hstep
      refine .run rfl (.waits rfl) id (fun _ => .inr hstop) ?_
      rw [hphase]
      rfl
    · cases hstep
  · split at hstep
    · next hphase hgathered =>
      obtain rfl := Option.some.inj hstep
      exact resume_move (by rw [hphase]; decide) hgathered
    · next hphase hgathered =>
      obtain rfl := Option.some.inj hstep
      exact resume_move (by rw [hphase]; rfl) hgathered
    · cases hstep
  · split at hstep
    · next hphase =>
      obtain ⟨hover, hstep⟩ := Option.ite_none_right_eq_some.mp hstep
      obtain rfl := Option.some.inj hstep
      have hall : ComesTo s.tasks s.failure (.error .cancelled) :=
        .inr ⟨rfl, fun task htask => List.all_eq_true.mp hover task htask⟩
      refine .run rfl (.closes hall) id .inl ?_
      rw [hphase]
      rfl
    · cases hstep
  · split at hstep
    · next hphase =>
      obtain rfl := Option.some.inj hstep
      refine .run rfl (.closed hphase) id .inl ?_
      rw [hphase, Phase.closed_rank]
      rfl
    · cases hstep
  all_goals
    split at hstep
    · next hrequest hold => exact taskStep_move hrequest hold hstep
    · cases hstep

end

end FieldDiscovery.Collectors
