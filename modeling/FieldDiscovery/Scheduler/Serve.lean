import FieldDiscovery.Errors
import FieldDiscovery.Lib.Machine
import FieldDiscovery.Lib.Slots
import FieldDiscovery.Scheduler.Invocations

/-!
# The cycles of the scheduler

`serve` runs one cycle after the other until it is stopped, and a cycle runs every invocation under a
semaphore and gathers the outcomes. The states of `serve`, its tasks and the stop event are a machine;
its actions are the points where control may change hands. `asyncio.gather` lets the first exception
through, so the scheduler keeps its promise exactly as long as no call of the runner raises
(`serve_unfailing_iff`).
-/

namespace FieldDiscovery.Scheduler

open Py

/-! ## The runner -/

structure SchedulerSettings where
  timeoutSeconds : Nat
  retries : Nat
  concurrency : Nat
  /-- `load_config` takes from 1 to 16. -/
  concurrency_pos : 0 < concurrency

structure Configuration where
  collectors : CollectorSettings
  scheduler : SchedulerSettings
  executable : Str
  configPath : Str

/-- What a call of the runner ends with. -/
inductive RunnerEnd where
  | returned (returncode : Int) (timedOut : Bool)
  | raised (exc : Exc)

/-- What becomes of a child process. -/
inductive ProcessCourse where
  /-- `create_subprocess_exec` raises. -/
  | startFails (exc : Exc)
  | exits (returncode : Int)
  /-- It is stopped when its time is over. -/
  | outlives

/-- `_run_process`. -/
def runProcess : ProcessCourse → RunnerEnd
  | .startFails exc => .raised exc
  | .exits returncode => .returned returncode false
  | .outlives => .returned 124 true

structure RunnerCall where
  arguments : List Str
  timeout : Nat

def Configuration.invocations (cfg : Configuration) : List ScheduledInvocation :=
  buildInvocations cfg.collectors

/-- The call of the runner for an invocation. -/
def runnerCall (cfg : Configuration) (invocation : ScheduledInvocation) : RunnerCall where
  arguments := [cfg.executable, str "--json", str "--config", cfg.configPath] ++
    invocation.arguments
  timeout := max 60 (cfg.scheduler.timeoutSeconds * (cfg.scheduler.retries + 1) * 4)

structure ScheduledOutcome where
  collector : Str
  returncode : Int
  timedOut : Bool

/-! ## A cycle -/

/-- A task of `run_one`. -/
inductive Task where
  /-- Before the semaphore. -/
  | waiting
  /-- In the call of the runner. -/
  | running
  | ended (outcome : ScheduledOutcome)
  /-- The call of the runner raised. -/
  | torn

namespace Task

def isRunning : Task → Bool
  | running => true
  | _ => false

def outcome : Task → Option ScheduledOutcome
  | ended o => some o
  | _ => none

end Task

/-- `run_cycle`, with the calls of its runner and what they returned. -/
structure Cycle where
  tasks : List Task
  /-- The value of the semaphore. -/
  slots : Nat
  calls : List RunnerCall := []
  returns : List (RunnerCall × Int × Bool) := []

section

variable (cfg : Configuration)

def Cycle.init : Cycle where
  tasks := cfg.invocations.map fun _ => .waiting
  slots := cfg.scheduler.concurrency

/-- A task takes the semaphore and calls the runner. -/
def Cycle.start (c : Cycle) (i : Nat) : Option Cycle :=
  match cfg.invocations[i]?, c.tasks[i]? with
  | some invocation, some .waiting =>
    if 0 < c.slots then
      some
        { c with
          tasks := c.tasks.set i .running
          slots := c.slots - 1
          calls := c.calls ++ [runnerCall cfg invocation] }
    else none
  | _, _ => none

/-- The call of the runner returns. -/
def Cycle.finish (c : Cycle) (i : Nat) (returncode : Int) (timedOut : Bool) : Option Cycle :=
  match cfg.invocations[i]?, c.tasks[i]? with
  | some invocation, some .running =>
    some
      { c with
        tasks := c.tasks.set i (.ended ⟨invocation.collector, returncode, timedOut⟩)
        slots := c.slots + 1
        returns := c.returns ++ [(runnerCall cfg invocation, returncode, timedOut)] }
  | _, _ => none

/-- The call of the runner raises, out of the semaphore. -/
def Cycle.tear (c : Cycle) (i : Nat) : Option Cycle :=
  match c.tasks[i]? with
  | some .running => some { c with tasks := c.tasks.set i .torn, slots := c.slots + 1 }
  | _ => none

/-- The outcomes of the tasks, once all of them have ended. -/
def Cycle.gather (c : Cycle) : Option (List ScheduledOutcome) := c.tasks.mapM Task.outcome

/-! ## The service -/

/-- A cycle that has ended. -/
structure CycleReport where
  calls : List RunnerCall
  returns : List (RunnerCall × Int × Bool)
  outcomes : List ScheduledOutcome

/-- The fields of `scheduler_cycle_finished`. -/
structure CycleRecord where
  collectors : Nat
  failed : Nat
  timedOut : Nat
  deriving DecidableEq

def cycleRecord (outcomes : List ScheduledOutcome) : CycleRecord where
  collectors := outcomes.length
  failed := outcomes.countP fun o => o.returncode ≠ 0
  timedOut := outcomes.countP fun o => o.timedOut

/-- Where `serve` is. -/
inductive ServePhase where
  /-- At the head of its loop. -/
  | looping
  | cycling (cycle : Cycle)
  /-- In `asyncio.wait_for(stop.wait(), timeout=delay)`. -/
  | pausing
  | returned
  /-- With the cycle that it left: `gather` does not cancel the other tasks. -/
  | raised (exc : Exc) (left : Cycle)

structure ServeState where
  stop : Bool := false
  phase : ServePhase := .looping
  cycles : List CycleReport := []
  logged : List CycleRecord := []

inductive ServeAction where
  | setStop
  | loop
  | start (i : Nat)
  | finish (i : Nat) (e : RunnerEnd)
  /-- `gather` returns the outcomes. -/
  | report
  /-- The pause ends, by its timer or by the stop event. -/
  | resume (timer : Bool)

/-- One step of `serve` or of a task. The first exception of a task ends `gather`, and with it
`serve`; the tasks that are left go on for as long as the event loop runs, and report to nobody. -/
def serveStep (s : ServeState) : ServeAction → Option ServeState
  | .setStop => some { s with stop := true }
  | .loop =>
    match s.phase with
    | .looping => some { s with phase := if s.stop then .returned else .cycling (.init cfg) }
    | _ => none
  | .start i =>
    match s.phase with
    | .cycling c => (c.start cfg i).map fun c => { s with phase := .cycling c }
    | .raised exc c => (c.start cfg i).map fun c => { s with phase := .raised exc c }
    | _ => none
  | .finish i e =>
    match s.phase with
    | .cycling c =>
      match e with
      | .returned returncode timedOut =>
        (c.finish cfg i returncode timedOut).map fun c => { s with phase := .cycling c }
      | .raised exc => (c.tear i).map fun c => { s with phase := .raised exc c }
    | .raised exc c =>
      match e with
      | .returned returncode timedOut =>
        (c.finish cfg i returncode timedOut).map fun c => { s with phase := .raised exc c }
      | .raised _ => (c.tear i).map fun c => { s with phase := .raised exc c }
    | _ => none
  | .report =>
    match s.phase with
    | .cycling c =>
      c.gather.map fun outcomes =>
        { s with
          phase := if s.stop then .returned else .pausing
          cycles := s.cycles ++ [⟨c.calls, c.returns, outcomes⟩]
          logged := s.logged ++ [cycleRecord outcomes] }
    | _ => none
  | .resume timer =>
    match s.phase with
    | .pausing => if timer || s.stop then some { s with phase := .looping } else none
    | _ => none

/-! ## What the scheduler promises -/

/-- The runner was called once for every invocation, and each outcome is what its call returned. -/
structure CycleReport.Complete (r : CycleReport) : Prop where
  calls : r.calls.Perm (cfg.invocations.map (runnerCall cfg))
  collectors : r.outcomes.map ScheduledOutcome.collector =
    cfg.invocations.map ScheduledInvocation.collector
  returns : r.returns.Perm (List.zipWith (fun invocation o =>
    (runnerCall cfg invocation, o.returncode, o.timedOut)) cfg.invocations r.outcomes)

/-- `serve` runs until it is stopped, and no cycle leaves an invocation out. -/
structure ServeState.Unfailing (s : ServeState) : Prop where
  stopped : s.phase = .returned → s.stop = true
  unraised : ∀ exc left, s.phase ≠ .raised exc left
  complete : ∀ r ∈ s.cycles, r.Complete cfg
  logged : s.logged = s.cycles.map fun r => cycleRecord r.outcomes
  /-- No invocation is called for twice. -/
  calls : ∀ c, s.phase = .cycling c → c.calls.Subperm (cfg.invocations.map (runnerCall cfg))
  /-- It never waits for the stop event alone. -/
  live : s.phase = .returned ∨ ∃ a, a ≠ .setStop ∧ (serveStep cfg s a).isSome

end

/-- The action is not the end of a call of the runner that raises. -/
def ServeAction.isUnraised : ServeAction → Bool
  | finish _ (.raised _) => false
  | _ => true

/-! ## One cycle -/

section

variable (cfg : Configuration)

/-- The call of the runner for a task that has got past the semaphore. -/
def called (slot : ScheduledInvocation × Task) : Option RunnerCall :=
  match slot.2 with
  | .waiting => none
  | _ => some (runnerCall cfg slot.1)

/-- What it returned. -/
def returned (slot : ScheduledInvocation × Task) : Option (RunnerCall × Int × Bool) :=
  slot.2.outcome.map fun o => (runnerCall cfg slot.1, o.returncode, o.timedOut)

/-- The tasks of a cycle agree with its calls. -/
structure Cycle.Sound (c : Cycle) : Prop where
  length : c.tasks.length = cfg.invocations.length
  untorn : .torn ∉ c.tasks
  slots : c.slots + c.tasks.countP Task.isRunning = cfg.scheduler.concurrency
  calls : c.calls.Perm ((cfg.invocations.zip c.tasks).filterMap (called cfg))
  returns : c.returns.Perm ((cfg.invocations.zip c.tasks).filterMap (returned cfg))
  collectors : ∀ (i : Nat) (invocation : ScheduledInvocation) (o : ScheduledOutcome),
    cfg.invocations[i]? = some invocation → c.tasks[i]? = some (.ended o) →
      o.collector = invocation.collector

variable {cfg} {c c' : Cycle}

theorem Cycle.Sound.init : (Cycle.init cfg).Sound cfg where
  length := List.length_map _
  untorn := by
    intro h
    obtain ⟨_, -, heq⟩ := List.mem_map.mp h
    cases heq
  slots := by
    have hnone : (cfg.invocations.map fun _ => Task.waiting).countP Task.isRunning = 0 := by
      rw [List.countP_map]
      exact List.countP_eq_zero.mpr fun _ _ => Bool.false_ne_true
    exact congrArg (cfg.scheduler.concurrency + ·) hnone
  calls := by
    have hnone : (cfg.invocations.zip (Cycle.init cfg).tasks).filterMap (called cfg) = [] := by
      refine List.filterMap_eq_nil_iff.mpr fun slot hslot => ?_
      obtain ⟨invocation, -, heq⟩ := List.mem_map.mp (List.of_mem_zip hslot).2
      unfold called
      rw [← heq]
    rw [hnone]
    exact .refl _
  returns := by
    have hnone : (cfg.invocations.zip (Cycle.init cfg).tasks).filterMap (returned cfg) = [] := by
      refine List.filterMap_eq_nil_iff.mpr fun slot hslot => ?_
      obtain ⟨invocation, -, heq⟩ := List.mem_map.mp (List.of_mem_zip hslot).2
      unfold returned
      rw [← heq]
      rfl
    rw [hnone]
    exact .refl _
  collectors := by
    intro i invocation o _ htask
    obtain ⟨_, -, heq⟩ := List.mem_map.mp (List.mem_of_getElem? htask)
    cases heq

theorem Cycle.start_spec {i : Nat} (h : c.start cfg i = some c') :
    ∃ invocation, cfg.invocations[i]? = some invocation ∧ c.tasks[i]? = some .waiting ∧
      0 < c.slots ∧ c' =
        { c with
          tasks := c.tasks.set i .running
          slots := c.slots - 1
          calls := c.calls ++ [runnerCall cfg invocation] } := by
  unfold Cycle.start at h
  split at h
  · next invocation hinvocation htask =>
    obtain ⟨hslots, heq⟩ := Option.ite_none_right_eq_some.mp h
    exact ⟨invocation, hinvocation, htask, hslots, (Option.some.inj heq).symm⟩
  · cases h

theorem Cycle.finish_spec {i : Nat} {returncode : Int} {timedOut : Bool}
    (h : c.finish cfg i returncode timedOut = some c') :
    ∃ invocation, cfg.invocations[i]? = some invocation ∧ c.tasks[i]? = some .running ∧ c' =
      { c with
        tasks := c.tasks.set i (.ended ⟨invocation.collector, returncode, timedOut⟩)
        slots := c.slots + 1
        returns := c.returns ++ [(runnerCall cfg invocation, returncode, timedOut)] } := by
  unfold Cycle.finish at h
  split at h
  · next invocation hinvocation htask =>
    exact ⟨invocation, hinvocation, htask, (Option.some.inj h).symm⟩
  · cases h

theorem Cycle.Sound.start (hc : c.Sound cfg) {i : Nat} (h : c.start cfg i = some c') :
    c'.Sound cfg := by
  obtain ⟨invocation, hinvocation, htask, hslots, rfl⟩ := Cycle.start_spec h
  refine ⟨?_, ?_, ?_, ?_, ?_, ?_⟩
  · exact (List.length_set).trans hc.length
  · exact fun h => (List.mem_or_eq_of_mem_set h).elim hc.untorn fun h => by cases h
  · have hcount := countP_set (p := Task.isRunning) htask .running
    have hbefore := hc.slots
    simp only [Task.isRunning, Bool.toNat_false, Bool.toNat_true] at hcount
    show c.slots - 1 + (c.tasks.set i .running).countP Task.isRunning = _
    omega
  · have hset := filterMap_zip_set (f := called cfg) hinvocation htask .running
    have hold : called cfg (invocation, .waiting) = none := rfl
    rw [hold, Option.toList_none, List.append_nil] at hset
    exact (hc.calls.append_right _).trans hset.symm
  · have hset := filterMap_zip_set (f := returned cfg) hinvocation htask .running
    exact hc.returns.trans (by simpa only [returned, Task.outcome, Option.map_none,
      Option.toList_none, List.append_nil] using hset.symm)
  · intro j invocation' o hinvocation' htask'
    rw [List.getElem?_set] at htask'
    split at htask'
    · split at htask' <;> cases htask'
    · exact hc.collectors j invocation' o hinvocation' htask'

theorem Cycle.Sound.finish (hc : c.Sound cfg) {i : Nat} {returncode : Int} {timedOut : Bool}
    (h : c.finish cfg i returncode timedOut = some c') : c'.Sound cfg := by
  obtain ⟨invocation, hinvocation, htask, rfl⟩ := Cycle.finish_spec h
  refine ⟨?_, ?_, ?_, ?_, ?_, ?_⟩
  · exact (List.length_set).trans hc.length
  · exact fun h => (List.mem_or_eq_of_mem_set h).elim hc.untorn fun h => by cases h
  · have hcount := countP_set (p := Task.isRunning) htask
      (.ended ⟨invocation.collector, returncode, timedOut⟩)
    have hbefore := hc.slots
    simp only [Task.isRunning, Bool.toNat_false, Bool.toNat_true] at hcount
    show c.slots + 1 + (c.tasks.set i _).countP Task.isRunning = _
    omega
  · have hset := filterMap_zip_set (f := called cfg) hinvocation htask
      (.ended ⟨invocation.collector, returncode, timedOut⟩)
    exact hc.calls.trans ((List.perm_append_right_iff _).mp hset).symm
  · have hset := filterMap_zip_set (f := returned cfg) hinvocation htask
      (.ended ⟨invocation.collector, returncode, timedOut⟩)
    have hold : returned cfg (invocation, .running) = none := rfl
    rw [hold, Option.toList_none, List.append_nil] at hset
    exact (hc.returns.append_right _).trans hset.symm
  · intro j invocation' o hinvocation' htask'
    rw [List.getElem?_set] at htask'
    split at htask'
    · next hij =>
      rw [← hij, hinvocation] at hinvocation'
      cases hinvocation'
      split at htask'
      · cases htask'
        rfl
      · cases htask'
    · exact hc.collectors j invocation' o hinvocation' htask'

theorem mapM_outcome {tasks : List Task} {outcomes : List ScheduledOutcome} :
    tasks.mapM Task.outcome = some outcomes ↔ tasks = outcomes.map .ended := by
  induction tasks generalizing outcomes with
  | nil =>
    rw [List.mapM_nil]
    cases outcomes with
    | nil => exact iff_of_true rfl rfl
    | cons o outcomes =>
      exact iff_of_false (fun h => by cases h) (fun h => by cases h)
  | cons t tasks ih =>
    rw [List.mapM_cons]
    simp only [Option.bind_eq_bind, Option.bind_eq_some_iff, ih]
    constructor
    · rintro ⟨o, ho, os, rfl, heq⟩
      cases heq
      cases t with
      | waiting | running | torn => cases ho
      | ended o' =>
        cases ho
        rfl
    · intro h
      cases outcomes with
      | nil => cases h
      | cons o outcomes =>
        obtain ⟨rfl, htail⟩ := List.cons.inj h
        exact ⟨o, rfl, outcomes, htail, rfl⟩

/-- Once all tasks have ended, the runner has been called for all of them. -/
theorem Cycle.Sound.gather (hc : c.Sound cfg) {outcomes : List ScheduledOutcome}
    (h : c.gather = some outcomes) :
    CycleReport.Complete cfg ⟨c.calls, c.returns, outcomes⟩ := by
  have htasks : c.tasks = outcomes.map .ended := mapM_outcome.mp h
  have hlength : cfg.invocations.length = outcomes.length := by
    rw [← hc.length, htasks, List.length_map]
  have hzip : cfg.invocations.zip c.tasks =
      (cfg.invocations.zip outcomes).map fun p => (p.1, Task.ended p.2) := by
    rw [htasks, List.zip_map_right]
    rfl
  refine ⟨?_, ?_, ?_⟩
  · have hcalled : (cfg.invocations.zip c.tasks).filterMap (called cfg) =
        cfg.invocations.map (runnerCall cfg) := by
      rw [hzip, List.filterMap_map]
      have hsome : called cfg ∘ (fun p : ScheduledInvocation × ScheduledOutcome =>
          (p.1, Task.ended p.2)) = some ∘ (runnerCall cfg ∘ Prod.fst) := rfl
      rw [hsome, List.filterMap_eq_map, ← List.map_map, List.map_fst_zip hlength.le]
    show c.calls.Perm _
    rw [← hcalled]
    exact hc.calls
  · refine List.ext_getElem? fun i => ?_
    rw [List.getElem?_map, List.getElem?_map]
    cases hi : cfg.invocations[i]? with
    | none =>
      have hnone : outcomes[i]? = none := by
        rw [List.getElem?_eq_none_iff] at hi ⊢
        omega
      rw [hnone]
      rfl
    | some invocation =>
      obtain ⟨hlt, -⟩ := List.getElem?_eq_some_iff.mp hi
      obtain ⟨outcome, hout⟩ : ∃ outcome, outcomes[i]? = some outcome :=
        ⟨_, List.getElem?_eq_getElem (hlength ▸ hlt)⟩
      rw [hout]
      refine congrArg some (hc.collectors i invocation _ hi ?_)
      rw [htasks, List.getElem?_map, hout]
      rfl
  · have hreturned : (cfg.invocations.zip c.tasks).filterMap (returned cfg) =
        List.zipWith (fun invocation o => (runnerCall cfg invocation, o.returncode, o.timedOut))
          cfg.invocations outcomes := by
      rw [hzip, List.filterMap_map, ← List.map_uncurry_zip_eq_zipWith]
      exact congrFun (List.filterMap_eq_map (f := fun p : ScheduledInvocation × ScheduledOutcome =>
        (runnerCall cfg p.1, p.2.returncode, p.2.timedOut))) _
    show c.returns.Perm _
    rw [← hreturned]
    exact hc.returns

/-- No invocation is called for twice. -/
theorem Cycle.Sound.subperm (hc : c.Sound cfg) :
    c.calls.Subperm (cfg.invocations.map (runnerCall cfg)) := by
  refine hc.calls.subperm.trans (List.Sublist.subperm ?_)
  have hlength := hc.length
  generalize c.tasks = tasks at hlength
  generalize cfg.invocations = invocations at hlength
  induction invocations generalizing tasks with
  | nil => exact .slnil
  | cons invocation invocations ih =>
    cases tasks with
    | nil => cases hlength
    | cons t tasks =>
      have htail := ih tasks (Nat.succ.inj hlength)
      rw [List.zip_cons_cons, List.filterMap_cons, List.map_cons]
      cases t with
      | waiting => exact htail.cons _
      | running | ended o | torn => exact htail.cons_cons _

/-- A cycle is never stuck. -/
theorem Cycle.Sound.live (hc : c.Sound cfg) : c.gather.isSome ∨
    ∃ i, (c.start cfg i).isSome ∨ (c.finish cfg i 0 false).isSome := by
  by_cases hrunning : ∃ t ∈ c.tasks, t.isRunning = true
  · obtain ⟨t, ht, hrun⟩ := hrunning
    obtain ⟨i, hi⟩ := List.mem_iff_getElem?.mp ht
    obtain ⟨hlt, -⟩ := List.getElem?_eq_some_iff.mp hi
    have hinvocation := List.getElem?_eq_getElem (hc.length ▸ hlt)
    cases t with
    | waiting | ended o | torn => cases hrun
    | running =>
      refine .inr ⟨i, .inr ?_⟩
      unfold Cycle.finish
      rw [hinvocation, hi]
      rfl
  · have hslots : 0 < c.slots := by
      have hnone : c.tasks.countP Task.isRunning = 0 :=
        List.countP_eq_zero.mpr fun t ht hrun => hrunning ⟨t, ht, hrun⟩
      have hpos := cfg.scheduler.concurrency_pos
      have hsum := hc.slots
      omega
    by_cases hwaiting : Task.waiting ∈ c.tasks
    · obtain ⟨i, hi⟩ := List.mem_iff_getElem?.mp hwaiting
      obtain ⟨hlt, -⟩ := List.getElem?_eq_some_iff.mp hi
      have hinvocation := List.getElem?_eq_getElem (hc.length ▸ hlt)
      refine .inr ⟨i, .inl ?_⟩
      unfold Cycle.start
      rw [hinvocation, hi]
      simp only [if_pos hslots, Option.isSome_some]
    · -- every task has ended
      have hended : c.tasks = (c.tasks.filterMap Task.outcome).map .ended := ?_
      · exact .inl (Option.isSome_iff_exists.mpr ⟨_, mapM_outcome.mpr hended⟩)
      have huntorn := hc.untorn
      generalize c.tasks = tasks at hrunning hwaiting huntorn
      induction tasks with
      | nil => rfl
      | cons t tasks ih =>
        have htail := ih (fun ⟨t', ht', hrun⟩ => hrunning ⟨t', List.mem_cons_of_mem _ ht', hrun⟩)
          (fun h => hwaiting (List.mem_cons_of_mem _ h))
          (fun h => huntorn (List.mem_cons_of_mem _ h))
        cases t with
        | waiting => exact absurd List.mem_cons_self hwaiting
        | torn => exact absurd List.mem_cons_self huntorn
        | running => exact absurd ⟨_, List.mem_cons_self, rfl⟩ hrunning
        | ended o => exact congrArg (Task.ended o :: ·) htail

end

/-! ## Runs -/

section

variable {cfg : Configuration} {s s' : ServeState} {a : ServeAction}

/-- What every run keeps. -/
structure ServeState.Sound (cfg : Configuration) (s : ServeState) : Prop where
  stopped : s.phase = .returned → s.stop = true
  complete : ∀ r ∈ s.cycles, r.Complete cfg
  logged : s.logged = s.cycles.map fun r => cycleRecord r.outcomes
  cycle : ∀ c, s.phase = .cycling c → c.Sound cfg

/-- Only the phase changes. -/
theorem ServeState.Sound.enter (hs : s.Sound cfg) {phase : ServePhase}
    (hstopped : phase = .returned → s.stop = true) (hcycle : ∀ c, phase = .cycling c → c.Sound cfg) :
    ServeState.Sound cfg { s with phase := phase } :=
  ⟨hstopped, hs.complete, hs.logged, hcycle⟩

/-- What a step does. -/
inductive ServeMove (cfg : Configuration) (s : ServeState) : ServeAction → ServeState → Prop
  | setStop : ServeMove cfg s .setStop { s with stop := true }
  | quit (hphase : s.phase = .looping) (hstop : s.stop = true) :
    ServeMove cfg s .loop { s with phase := .returned }
  | cycle (hphase : s.phase = .looping) :
    ServeMove cfg s .loop { s with phase := .cycling (.init cfg) }
  | start {c c' : Cycle} {i : Nat} (hphase : s.phase = .cycling c)
    (hstart : c.start cfg i = some c') : ServeMove cfg s (.start i) { s with phase := .cycling c' }
  | finish {c c' : Cycle} {i : Nat} {returncode : Int} {timedOut : Bool}
    (hphase : s.phase = .cycling c) (hfinish : c.finish cfg i returncode timedOut = some c') :
    ServeMove cfg s (.finish i (.returned returncode timedOut)) { s with phase := .cycling c' }
  | fail {c left : Cycle} {i : Nat} {exc : Exc} (hphase : s.phase = .cycling c) :
    ServeMove cfg s (.finish i (.raised exc)) { s with phase := .raised exc left }
  | linger {left left' : Cycle} {exc : Exc} {a : ServeAction} (hphase : s.phase = .raised exc left) :
    ServeMove cfg s a { s with phase := .raised exc left' }
  | report {c : Cycle} {outcomes : List ScheduledOutcome} {phase : ServePhase}
    (hphase : s.phase = .cycling c) (hgather : c.gather = some outcomes)
    (hnext : phase = .pausing ∨ phase = .returned ∧ s.stop = true) :
    ServeMove cfg s .report
      { s with
        phase
        cycles := s.cycles ++ [⟨c.calls, c.returns, outcomes⟩]
        logged := s.logged ++ [cycleRecord outcomes] }
  | resume {timer : Bool} (hphase : s.phase = .pausing) :
    ServeMove cfg s (.resume timer) { s with phase := .looping }

theorem serveStep_move (hstep : serveStep cfg s a = some s') : ServeMove cfg s a s' := by
  cases a with
  | setStop =>
    cases hstep
    exact .setStop
  | loop =>
    simp only [serveStep] at hstep
    split at hstep
    · next hphase =>
      obtain rfl := Option.some.inj hstep
      split
      · next hstop => exact .quit hphase hstop
      · exact .cycle hphase
    · cases hstep
  | start i =>
    simp only [serveStep] at hstep
    split at hstep
    · next hphase =>
      obtain ⟨c', hstart, rfl⟩ := Option.map_eq_some_iff.mp hstep
      exact .start hphase hstart
    · next hphase =>
      obtain ⟨c', -, rfl⟩ := Option.map_eq_some_iff.mp hstep
      exact .linger hphase
    · cases hstep
  | finish i e =>
    simp only [serveStep] at hstep
    split at hstep
    · next hphase =>
      cases e with
      | returned returncode timedOut =>
        obtain ⟨c', hfinish, rfl⟩ := Option.map_eq_some_iff.mp hstep
        exact .finish hphase hfinish
      | raised exc =>
        obtain ⟨c', -, rfl⟩ := Option.map_eq_some_iff.mp hstep
        exact .fail hphase
    · next hphase =>
      cases e with
      | returned returncode timedOut =>
        obtain ⟨c', -, rfl⟩ := Option.map_eq_some_iff.mp hstep
        exact .linger hphase
      | raised exc =>
        obtain ⟨c', -, rfl⟩ := Option.map_eq_some_iff.mp hstep
        exact .linger hphase
    · cases hstep
  | report =>
    simp only [serveStep] at hstep
    split at hstep
    · next hphase =>
      obtain ⟨outcomes, hgather, rfl⟩ := Option.map_eq_some_iff.mp hstep
      refine .report hphase hgather ?_
      split
      · next hstop => exact .inr ⟨rfl, hstop⟩
      · exact .inl rfl
    · cases hstep
  | resume timer =>
    simp only [serveStep] at hstep
    split at hstep
    · next hphase =>
      obtain ⟨-, hstep⟩ := Option.ite_none_right_eq_some.mp hstep
      cases hstep
      exact .resume hphase
    · cases hstep

theorem sound_step (hs : s.Sound cfg) (hstep : serveStep cfg s a = some s') : s'.Sound cfg := by
  cases serveStep_move hstep with
  | setStop => exact ⟨fun _ => rfl, hs.complete, hs.logged, hs.cycle⟩
  | quit hphase hstop => exact hs.enter (fun _ => hstop) (fun c h => by cases h)
  | cycle hphase =>
    refine hs.enter (fun h => by cases h) fun c h => ?_
    cases h
    exact .init
  | start hphase hstart =>
    refine hs.enter (fun h => by cases h) fun c h => ?_
    cases h
    exact (hs.cycle _ hphase).start hstart
  | finish hphase hfinish =>
    refine hs.enter (fun h => by cases h) fun c h => ?_
    cases h
    exact (hs.cycle _ hphase).finish hfinish
  | fail hphase | linger hphase => exact hs.enter (fun h => by cases h) (fun c h => by cases h)
  | report hphase hgather hnext =>
    refine ⟨fun h => ?_, fun r hr => ?_, ?_, fun c h => ?_⟩
    · rcases hnext with hnext | ⟨-, hstop⟩
      · cases hnext.symm.trans h
      · exact hstop
    · rcases List.mem_append.mp hr with hr | hr
      · exact hs.complete r hr
      · rw [List.mem_singleton.mp hr]
        exact (hs.cycle _ hphase).gather hgather
    · simp only [List.map_append, ← hs.logged, List.map_cons, List.map_nil]
    · rcases hnext with hnext | ⟨hnext, -⟩ <;> cases hnext.symm.trans h
  | resume hphase => exact hs.enter (fun h => by cases h) (fun c h => by cases h)

/-- `serve` raises when a call of the runner does. -/
theorem unraised_step_iff (hs : ∀ exc left, s.phase ≠ .raised exc left)
    (hstep : serveStep cfg s a = some s') :
    (∀ exc left, s'.phase ≠ .raised exc left) ↔ a.isUnraised = true := by
  cases serveStep_move hstep with
  | setStop => exact iff_of_true hs rfl
  | quit | cycle | start | finish | resume => exact iff_of_true (fun exc left h => by cases h) rfl
  | report hphase hgather hnext =>
    refine iff_of_true (fun exc left h => ?_) rfl
    rcases hnext with hnext | ⟨hnext, -⟩ <;> cases hnext.symm.trans h
  | fail hphase => exact iff_of_false (fun h => h _ _ rfl) Bool.false_ne_true
  | linger hphase => exact absurd hphase (hs _ _)

theorem ServeState.Sound.unfailing (hs : s.Sound cfg)
    (hunraised : ∀ exc left, s.phase ≠ .raised exc left) : s.Unfailing cfg := by
  refine ⟨hs.stopped, hunraised, hs.complete, hs.logged, fun c h => (hs.cycle c h).subperm, ?_⟩
  cases hphase : s.phase with
  | returned => exact .inl rfl
  | raised exc left => exact absurd hphase (hunraised exc left)
  | looping =>
    refine .inr ⟨.loop, by simp, ?_⟩
    unfold serveStep
    rw [hphase]
    rfl
  | pausing =>
    refine .inr ⟨.resume true, by simp, ?_⟩
    unfold serveStep
    rw [hphase]
    rfl
  | cycling c =>
    rcases (hs.cycle c hphase).live with hgather | ⟨i, hstart | hfinish⟩
    · refine .inr ⟨.report, by simp, ?_⟩
      unfold serveStep
      rw [hphase]
      exact Option.isSome_map.trans hgather
    · refine .inr ⟨.start i, by simp, ?_⟩
      unfold serveStep
      rw [hphase]
      exact Option.isSome_map.trans hstart
    · refine .inr ⟨.finish i (.returned 0 false), by simp, ?_⟩
      unfold serveStep
      rw [hphase]
      exact Option.isSome_map.trans hfinish

/-- The invocations cover the configured collectors. Throughout a run `serve` goes on until it is
stopped, and each of its cycles calls for every invocation once and reports its outcome, exactly when
no call of the runner raises. -/
theorem serve_unfailing_iff (cfg : Configuration) {actions : List ServeAction}
    (hrun : Machine.run (serveStep cfg) {} actions = some s) :
    Covers cfg.collectors cfg.invocations ∧
      ((∀ front, front <+: actions → ∀ t, Machine.run (serveStep cfg) {} front = some t →
          t.Unfailing cfg) ↔
        Machine.Along (serveStep cfg) (fun _ a => a.isUnraised = true) {} actions) := by
  refine ⟨buildInvocations_covers cfg.collectors, ?_⟩
  have hinit : ServeState.Sound cfg {} :=
    ⟨(fun h => by cases h), fun r hr => absurd hr List.not_mem_nil, rfl,
      (fun c h => by cases h)⟩
  rw [← Machine.throughout_iff (I := ServeState.Sound cfg)
    (J := fun s : ServeState => ∀ exc left, s.phase ≠ .raised exc left)
    (fun _ _ _ hs hstep => sound_step hs hstep)
    (fun _ _ _ _ h hstep => unraised_step_iff h hstep) hinit (fun exc left h => by cases h) hrun]
  refine forall₄_congr fun front hfront t ht => ⟨fun h => h.unraised, fun h => ?_⟩
  have hsound : t.Sound cfg := Machine.run_invariant (P := fun _ _ => True)
    (fun _ _ _ hs _ hstep => sound_step hs hstep) hinit
    (Machine.along_of_forall fun _ _ => trivial) ht
  exact hsound.unfailing h

end

/-! ## A process that cannot be started -/

/-- SNMP and AD are collected, one after the other. -/
def sampleConfiguration : Configuration where
  collectors :=
    { snmp := { enabled := true, targets := [str "192.168.50.10"] }
      unifi := { enabled := false, endpoints := [] }
      ad :=
        { enabled := true
          target := some (str "192.168.50.20")
          domain := none
          serverName := none }
      ssh := { enabled := false, targets := [] } }
  scheduler :=
    { timeoutSeconds := 30
      retries := 1
      concurrency := 1
      concurrency_pos := Nat.zero_lt_one }
  executable := str "/usr/bin/field-discovery"
  configPath := str "/etc/field-discovery/config.yaml"

/-- One cycle with these two processes. -/
def sampleCycle (snmp ad : ProcessCourse) : List ServeAction :=
  [.loop, .start 0, .finish 0 (runProcess snmp), .start 1, .finish 1 (runProcess ad), .report,
    .resume true]

/-- A cycle whose collectors fail is followed by the next. -/
theorem serve_unfailing_sample : ∃ s, Machine.run (serveStep sampleConfiguration) {}
      (sampleCycle .outlives (.exits 7) ++ sampleCycle (.exits 0) (.exits 1)) = some s ∧
    s.logged = [⟨2, 2, 1⟩, ⟨2, 1, 0⟩] ∧ s.Unfailing sampleConfiguration := by
  have hsummary : (Machine.run (serveStep sampleConfiguration) {}
      (sampleCycle .outlives (.exits 7) ++ sampleCycle (.exits 0) (.exits 1))).map
        ServeState.logged = some [⟨2, 2, 1⟩, ⟨2, 1, 0⟩] := by
    decide +kernel
  obtain ⟨s, hrun, hs⟩ := Option.map_eq_some_iff.mp hsummary
  exact ⟨s, hrun, hs, (serve_unfailing_iff _ hrun).2.mpr
    (Machine.along_of_forall (by decide +kernel)) _ (List.prefix_refl _) s hrun⟩

/-- The executable is missing, and the scheduler is gone without a stop. -/
theorem serve_not_unfailing : ¬ ∀ cfg actions s,
    Machine.run (serveStep cfg) {} actions = some s → s.Unfailing cfg := by
  intro h
  have hsummary : (Machine.run (serveStep sampleConfiguration) {}
      [.loop, .start 0, .finish 0 (runProcess (.startFails .os))]).map
        (fun s => match s.phase with | .raised _ _ => true | _ => false) = some true := by
    decide +kernel
  obtain ⟨s, hrun, hs⟩ := Option.map_eq_some_iff.mp hsummary
  have hunraised := (h _ _ s hrun).unraised
  split at hs
  · next exc left hphase => exact hunraised exc left hphase
  · cases hs

end FieldDiscovery.Scheduler
