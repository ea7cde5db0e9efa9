import FieldDiscovery.Collectors.Approve
import FieldDiscovery.Lib.Slots
import FieldDiscovery.Repository.RunCalls

/-!
# A cycle of the collectors

`CollectorOrchestrator.run` approves all requests, starts one task for each and gathers them; a task
is a call of `_run_one`. The tasks share the repository, the semaphore and the cancellation event. The
model takes the steps between which control may change hands. The collectors, the clock, the
repository's faults and the caller, who may set the event or cancel `run`, are the environment.
-/

namespace FieldDiscovery.Collectors

open Py Repository Redaction

/-! ## Requests -/

structure CredentialReference where
  provider : Str
  key : Str

/-- `CollectorRequest` -/
structure Request where
  collector : Str
  target : Str
  credentialRef : Option CredentialReference := none

/-- `CollectorContext` without the event, which all collectors share. -/
structure Context where
  target : Str
  credentialRef : Option CredentialReference

def Request.context (request : Request) : Context := ⟨request.target, request.credentialRef⟩

/-- `CollectorOrchestrator`, with what `__post_init__` checks. -/
structure Orchestrator where
  deploymentId : Int
  approvedRanges : List Str
  /-- The names that collectors are registered under. -/
  collectors : List Str
  concurrency : Nat
  concurrency_pos : 0 < concurrency
  retries : Nat
  interfaceName : Option Str := none

/-- Every target is approved before a collector is looked up. -/
def Orchestrator.approve (o : Orchestrator) (requests : List Request) :
    Except Exc (List Request) := do
  let approved ← requests.mapM fun request => do
    let target ← approveTarget o.approvedRanges request.target
    return { request with target }
  approved.forM fun request =>
    if request.collector ∈ o.collectors then return ()
    else throw (.unknownCollector
      (str "collector is not registered: " ++ request.collector))
  return approved

/-! ## What a collector does -/

/-- `CollectorIssue` -/
structure Issue where
  category : Str
  detail : Str
  retryable : Bool := false
  deriving DecidableEq

/-- `CollectorResult` -/
structure CollectorResult where
  itemCount : Nat := 0
  issues : List Issue := []
  deriving DecidableEq

/-- An exception of `collect` that is handled in the attempt loop, with `str(exc)`. -/
inductive Failure where
  /-- `TimeoutError`, of the collector or of `wait_for`. -/
  | timeout
  /-- `CollectorAuthenticationError` -/
  | authentication
  /-- `RetryableCollectorError` -/
  | transport (text : Str)
  /-- Any other `CollectorError`. -/
  | collector (text : Str)
  /-- Any other `Exception`, with the name of its class. -/
  | exception (name text : Str)
  deriving DecidableEq

/-- How `await asyncio.wait_for(collector.collect(…))` ends. -/
inductive CollectEnd where
  | returned (result : CollectorResult)
  | failed (failure : Failure)
  /-- `CancelledError`: the collector was cancelled, or raises it by itself. -/
  | cancelled
  deriving DecidableEq

def CollectEnd.isCancelled : CollectEnd → Bool
  | cancelled => true
  | _ => false

namespace Failure

/-- The attempt is repeated while there are retries left. -/
def isRetried : Failure → Bool
  | timeout | transport _ => true
  | authentication | collector _ | exception _ _ => false

/-- The issue that is recorded. -/
def issue (rt : Runtime) (r : Redactor) : Failure → Except Exc Issue
  | timeout => .ok ⟨str "timeout", str "collector timed out", true⟩
  | authentication =>
    .ok ⟨str "authentication", str "referenced credential was rejected", false⟩
  | transport text => .ok ⟨str "transport", text, true⟩
  | collector text => .ok ⟨str "collector", text, false⟩
  | exception name text => do
    let text ← r.text rt text
    return ⟨str "collector_failure", name ++ str ": " ++ text, false⟩

end Failure

/-! ## Tasks -/

/-- `CollectorRunSummary` -/
structure Summary where
  runId : Nat
  collector : Str
  target : Str
  status : RunStatus
  attempts : Nat
  itemCount : Nat
  errorCount : Nat
  deriving DecidableEq

/-- The locals of the attempt loop. -/
structure Progress where
  runId : Nat
  attempts : Nat := 0
  errors : Nat := 0

/-- Where a task of `_run_one` is. -/
inductive Task where
  | created
  /-- At the semaphore, with `run_id`. -/
  | waiting (runId : Nat)
  /-- In `collect`. -/
  | collecting (p : Progress)
  /-- In `retry_sleep(0)`. -/
  | sleeping (p : Progress)
  | ended (summary : Summary)
  /-- It raised, with the run that it had started. -/
  | raised (run : Option Nat) (exc : Exc)

namespace Task

/-- Whether the task is inside `async with semaphore`. -/
def held : Task → Bool
  | collecting _ | sleeping _ => true
  | _ => false

def isCollecting : Task → Bool
  | collecting _ => true
  | _ => false

/-- Nothing of the task is left to run. -/
def isOver : Task → Bool
  | ended _ | raised _ _ => true
  | _ => false

def run : Task → Option Nat
  | created => none
  | waiting runId => some runId
  | collecting p | sleeping p => some p.runId
  | ended summary => some summary.runId
  | raised run _ => run

def summary : Task → Option Summary
  | ended summary => some summary
  | _ => none

end Task

/-- What the clock and the database answer to one call of the repository. -/
structure Answer where
  now : Utc
  /-- The database raises a `sqlite3.Error`. -/
  fails : Bool := false

def Answer.fault (answer : Answer) : Option Exc := if answer.fails then some .sqlite else none

section Calls

variable (rt : Runtime) (r : Redactor) (o : Orchestrator) (request : Request)

/-- `_record_issue` -/
def recordIssue (runId : Nat) (answer : Answer) (issue : Issue) :
    Call RunConnection Exc Unit := do
  Call.guardFault answer.fault
  let _ ← recordCollectorError rt r runId issue.category issue.detail issue.retryable
    request.collector answer.now.isoformat
  return ()

/-- `for issue in result.issues: …` -/
def recordIssues (runId : Nat) (answers : Nat → Answer) :
    Nat → List Issue → Call RunConnection Exc Unit
  | _, [] => pure ()
  | n, issue :: issues => do
    recordIssue rt r request runId (answers n) issue
    recordIssues runId answers (n + 1) issues

/-- From the end of the attempt loop to the end of `_run_one`. -/
def finish (p : Progress) (status : RunStatus) (itemCount : Nat) (answer : Answer) :
    Call RunConnection Exc Task := do
  Call.guardFault answer.fault
  finishRun p.runId status answer.now.isoformat itemCount
  return .ended ⟨p.runId, request.collector, request.target, status, p.attempts, itemCount, p.errors⟩

/-- From the start of `_run_one` to the semaphore. -/
def startTask (answers : Nat → Answer) : Call RunConnection Exc Task := do
  Call.guardFault (answers 0).fault
  let runId ← startRun rt r (some o.deploymentId) request.collector (answers 0).now.isoformat
    o.interfaceName (some request.target)
  return .waiting runId

/-- The head of the attempt loop. -/
def attempt (stop : Bool) (p : Progress) (answers : Nat → Answer) : Call RunConnection Exc Task :=
  if stop then finish request p .cancelled 0 (answers 0)
  else pure (.collecting { p with attempts := p.attempts + 1 })

/-- From the end of `collect` to the next attempt, or to the end. -/
def afterCollect (p : Progress) (answers : Nat → Answer) :
    CollectEnd → Call RunConnection Exc Task
  | .returned result => do
    recordIssues rt r request p.runId answers 0 result.issues
    finish request { p with errors := p.errors + result.issues.length }
      (if result.issues = [] then .succeeded else .partially) result.itemCount
      (answers result.issues.length)
  | .failed failure => do
    let issue ← Call.ofExcept (failure.issue rt r)
    recordIssue rt r request p.runId (answers 0) issue
    let p := { p with errors := p.errors + 1 }
    if failure.isRetried ∧ p.attempts < o.retries + 1 then return .sleeping p
    else finish request p .failed 0 (answers 1)
  | .cancelled => finish request p .cancelled 0 (answers 0)

end Calls

/-! ## The cycle -/

/-- A call of `collect`. -/
structure CollectCall where
  task : Nat
  attempt : Nat
  context : Context

/-- The call of `collect` with which a task goes on. -/
def newCalls (i : Nat) (request : Request) : Task → List CollectCall
  | .collecting p => [⟨i, p.attempts, request.context⟩]
  | _ => []

/-- Where `run` is. -/
inductive Phase where
  /-- In `asyncio.wait`. -/
  | waiting
  /-- In `await gatherer`, with the tasks cancelled; and whether `run` has been cancelled since. -/
  | gathering (requested : Bool)
  /-- In the handler of `CancelledError`, until the tasks are over. -/
  | draining
  /-- In the `finally` clause, until the waiter for the event is over; with what the `try` statement
  came to, and whether `run` has been cancelled since. -/
  | closing (outcome : Except Exc (List Summary)) (requested : Bool)
  | returned (summaries : List Summary)
  | raised (exc : Exc)

def Phase.isOver : Phase → Bool
  | returned _ | raised _ => true
  | _ => false

/-- How `run` ends with its `finally` clause: a cancellation there replaces what it came to. -/
def Phase.closed (outcome : Except Exc (List Summary)) (requested : Bool) : Phase :=
  if requested then .raised .cancelled
  else
    match outcome with
    | .ok summaries => .returned summaries
    | .error exc => .raised exc

/-- What a call of `run` works on. -/
structure System where
  db : RunDb
  /-- The cancellation event. -/
  stop : Bool
  /-- `run` has cancelled its tasks. -/
  cancelled : Bool := false
  /-- The value of the semaphore. -/
  slots : Nat
  tasks : List Task
  /-- The first exception of a task, which `gather` lets through. -/
  failure : Option Exc := none
  phase : Phase
  calls : List CollectCall := []
  /-- How the calls of `collect` ended, with their tasks. -/
  ends : List (Nat × CollectEnd) := []

inductive Action where
  /-- The caller or a collector sets the event. -/
  | setStop
  /-- The task that runs `run` is cancelled. -/
  | cancelRun
  | start (i : Nat) (answers : Nat → Answer)
  /-- A task gets past the semaphore. -/
  | enter (i : Nat) (answers : Nat → Answer)
  | collected (i : Nat) (e : CollectEnd) (answers : Nat → Answer)
  /-- `retry_sleep` ends. -/
  | wake (i : Nat) (answers : Nat → Answer)
  /-- `CancelledError` reaches an await of `_run_one` other than `collect`. -/
  | cancel (i : Nat) (answers : Nat → Answer)
  /-- `run` sees the event while tasks are running. -/
  | watch
  /-- `run` gets the result of `gather`. -/
  | gather
  /-- The handler of `CancelledError` has waited for the tasks. -/
  | drained
  /-- The `finally` clause has waited for the waiter. -/
  | closed

namespace System

/-- The state in which `run` waits for the tasks that it has created. -/
def init (o : Orchestrator) (db : RunDb) (stop : Bool) (approved : List Request) : System where
  db := db
  stop := stop
  slots := o.concurrency
  tasks := approved.map fun _ => .created
  phase := if approved = [] then .returned [] else .waiting

/-- Task `i` goes from `old` to what the call makes of it. The semaphore is released where the task
leaves `async with`. -/
def proceed (s : System) (i : Nat) (request : Request) (old : Task)
    (call : Call RunConnection Exc Task) : System :=
  match call ⟨s.db, none⟩ with
  | (.ok task, c) =>
    { s with
      db := c.committed
      slots := s.slots + old.held.toNat - task.held.toNat
      tasks := s.tasks.set i task
      calls := s.calls ++ newCalls i request task }
  | (.error exc, c) =>
    { s with
      db := c.committed
      slots := s.slots + old.held.toNat
      tasks := s.tasks.set i (.raised old.run exc)
      failure := s.failure.or (some exc) }

section

variable (rt : Runtime) (r : Redactor) (o : Orchestrator)

/-- A step of task `i`. -/
def taskStep (s : System) (i : Nat) (request : Request) (task : Task) (action : Action) :
    Option System :=
  match task, action with
  | .created, .start _ answers => some (s.proceed i request task (startTask rt r o request answers))
  | .waiting runId, .enter _ answers =>
    if 0 < s.slots then
      some (s.proceed i request task (attempt request s.stop { runId } answers))
    else none
  | .collecting p, .collected _ e answers =>
    some ({ s with
      stop := s.stop || e.isCancelled
      ends := s.ends ++ [(i, e)] }.proceed i request task (afterCollect rt r o request p answers e))
  | .sleeping p, .wake _ answers =>
    some (s.proceed i request task (attempt request s.stop p answers))
  | .created, .cancel _ _ =>
    if s.cancelled then some (s.proceed i request task (Call.raise .cancelled)) else none
  | .waiting runId, .cancel _ answers =>
    if s.cancelled then
      some (s.proceed i request task (finish request { runId } .cancelled 0 (answers 0)))
    else none
  | .sleeping p, .cancel _ answers =>
    if s.cancelled then
      some (s.proceed i request task (finish request p .cancelled 0 (answers 0)))
    else none
  | _, _ => none

/-- `gather` has its result: all summaries, or the first exception. -/
def gathered (s : System) : Option (Except Exc (List Summary)) :=
  match s.failure with
  | some exc => some (.error exc)
  | none => (s.tasks.mapM Task.summary).map .ok

/-- `run` cancels its tasks and waits for them. -/
def drain (s : System) : System := { s with stop := true, cancelled := true, phase := .draining }

/-- `run` goes on with the result of `gather`. A cancelled `gather` raises when its tasks are done. -/
def resume (s : System) (requested : Bool) : Except Exc (List Summary) → System
  | .ok summaries =>
    if requested then s.drain else { s with phase := .closing (.ok summaries) false }
  | .error .cancelled => s.drain
  | .error exc => { s with phase := .closing (.error exc) false }

/-- One step of `run` or of a task. -/
def step (approved : List Request) (s : System) (action : Action) : Option System :=
  match action with
  | .setStop => some { s with stop := true }
  | .cancelRun =>
    match s.phase with
    | .waiting => some s.drain
    | .gathering _ =>
      -- a `gather` that is done can no longer be cancelled, so the exception reaches `run`
      if s.gathered.isSome then some s.drain else some { s with phase := .gathering true }
    | .draining => some s
    | .closing outcome _ => some { s with phase := .closing outcome true }
    | .returned _ | .raised _ => none
  | .watch =>
    match s.phase, s.gathered with
    | .waiting, none =>
      if s.stop then some { s with cancelled := true, phase := .gathering false } else none
    | _, _ => none
  | .gather =>
    match s.phase, s.gathered with
    | .waiting, some result => some (s.resume false result)
    | .gathering requested, some result => some (s.resume requested result)
    | _, _ => none
  | .drained =>
    match s.phase with
    | .draining =>
      if s.tasks.all Task.isOver then some { s with phase := .closing (.error .cancelled) false }
      else none
    | _ => none
  | .closed =>
    match s.phase with
    | .closing outcome requested => some { s with phase := Phase.closed outcome requested }
    | _ => none
  | .start i _ | .enter i _ | .collected i _ _ | .wake i _ | .cancel i _ =>
    match approved[i]?, s.tasks[i]? with
    | some request, some task => s.taskStep rt r o i request task action
    | _, _ => none

end

end System

end FieldDiscovery.Collectors
