import FieldDiscovery.Lib.Machine
import FieldDiscovery.Passive.Dedupe

/-!
# The passive pipeline

`PassiveEventPipeline` as a machine. Its tasks are the submitters, the workers and one call of
`stop`; the code of a task between two `await`s runs without interruption, so nothing but the clock
moves while a worker is `handling` a frame. The outcomes of parsers, of the sink and of cancellations
are part of the actions.
-/

namespace FieldDiscovery.Passive

open Py

/-! ## State -/

/-- What `PassiveEventPipeline(...)` fixes. -/
structure Config (T : Type) [LinearOrder T] where
  /-- The number of parsers under each protocol name. -/
  parsers : Dict Str Nat
  queueSize : Nat
  workerCount : Nat
  maxFrameBytes : Nat
  /-- `now + dedupe_window_seconds`; `none` is a window of zero seconds. -/
  window : Option (T →o T)
  dedupeCapacity : Nat
  bounds : 1 ≤ queueSize ∧ 1 ≤ workerCount ∧ 1 ≤ maxFrameBytes ∧ 1 ≤ dedupeCapacity

/-- `_Counters` -/
structure Counters where
  submittedFrames : Nat := 0
  processedFrames : Nat := 0
  emittedObservations : Nat := 0
  duplicateObservations : Nat := 0
  parserFailures : Nat := 0
  sinkFailures : Nat := 0
  oversizedFrames : Nat := 0
  unsupportedFrames : Nat := 0
  backpressureRejections : Nat := 0
  dedupeEvictions : Nat := 0
  incompleteFrames : Nat := 0
  queuePeak : Nat := 0

/-- Where a worker is. -/
inductive Phase where
  /-- In `await self._queue.get()`. -/
  | waiting
  /-- Running `_handle_frame`, with the parsers and the observations that are left. -/
  | handling (frame : PassiveFrame) (parsers : Nat) (observations : List PassiveObservation)
  /-- In `await self._sink(normalized)`. -/
  | delivering (frame : PassiveFrame) (parsers : Nat) (observations : List PassiveObservation)
      (normalized : PassiveObservation) (call : Nat)
  /-- Ended by its cancellation. -/
  | ended
  /-- Ended by any other exception. -/
  | crashed

/-- A worker task. -/
structure Worker where
  phase : Phase := .waiting
  cancelRequested : Bool := false

namespace Worker

def isHandling (w : Worker) : Bool :=
  match w.phase with
  | .handling .. => true
  | _ => false

/-- The worker holds a frame. -/
def isBusy (w : Worker) : Bool :=
  match w.phase with
  | .handling .. | .delivering .. => true
  | _ => false

/-- The task is done. -/
def isDone (w : Worker) : Bool :=
  match w.phase with
  | .ended | .crashed => true
  | _ => false

/-- The observations that the worker still has to check. -/
def pending (w : Worker) : List PassiveObservation :=
  match w.phase with
  | .handling _ _ observations | .delivering _ _ observations _ _ => observations
  | _ => []

end Worker

/-- How far `stop` has come. -/
inductive Shutdown where
  | notCalled
  /-- In `await self._submissions_done.wait()`. -/
  | settling
  /-- In `await asyncio.wait_for(self._queue.join(), ...)`. -/
  | joining
  /-- In `await asyncio.gather(...)`, after the queue was joined or the drain timer fired. -/
  | gathering (timedOut : Bool)
  | returned
  deriving DecidableEq

/-- What happened to an observation, and when. -/
inductive Event (T : Type) where
  | called (call : Nat) (observation : PassiveObservation) (time : T)
  | delivered (call : Nat) (observation : PassiveObservation) (time : T)
  | failed (call : Nat) (observation : PassiveObservation) (time : T)
  | suppressed (observation : PassiveObservation) (time : T)

/-- The pipeline, the tasks that use it, the clock, and the history of its observations. -/
structure State (T : Type) where
  counters : Counters := {}
  queue : List PassiveFrame := []
  unfinished : Nat := 0
  inFlight : Nat := 0
  /-- The frames of the submitters in `await self._queue.put(frame)`. -/
  submitters : List PassiveFrame := []
  dedupe : DedupeTable T := []
  workers : List Worker
  shutdown : Shutdown := .notCalled
  clock : T
  calls : Nat := 0
  history : List (Event T) := []

/-- What a parser does with a frame. -/
inductive ParserOutcome where
  | raised
  | returned (observations : List PassiveObservation)

/-- How a call of the sink ends. -/
inductive SinkOutcome where
  | returned
  | raised
  /-- The cancellation of the worker goes through the sink. -/
  | cancelled
  deriving DecidableEq

/-- The arguments of `submit`, and the time it reads when it is given none. -/
structure Request where
  protocol : Str
  payload : List Byte
  observedAt : Option Stamp
  interface : Option Str
  wallClock : Utc

/-- One step of a task, or of the clock. -/
inductive Action (T : Type) where
  | tick (now : T)
  | submit (request : Request)
  /-- A waiting submitter finds room. -/
  | resume (submitter : Nat)
  /-- A waiting submitter is cancelled. -/
  | abandon (submitter : Nat)
  | submitNowait (request : Request)
  /-- A worker gets a frame. -/
  | take (worker : Nat)
  | parse (worker : Nat) (outcome : ParserOutcome)
  /-- A worker normalizes an observation and looks for a duplicate. -/
  | check (worker : Nat)
  | sink (worker : Nat) (outcome : SinkOutcome)
  /-- A worker is through with its frame. -/
  | finish (worker : Nat)
  /-- A worker is cancelled while it waits for a frame. -/
  | exit (worker : Nat)
  | stop
  | settled
  | drained
  | timeout
  | gathered

/-! ## Tasks -/

section

variable {T : Type} [LinearOrder T] (rt : Runtime) (cfg : Config T)

namespace State

variable (s : State T)

/-- No worker runs. -/
def quiet : Bool := s.workers.all fun w => !w.isHandling

/-- `self._accepting` -/
def accepting : Bool := s.shutdown = .notCalled

def setWorker (i : Nat) (w : Worker) : State T := { s with workers := s.workers.set i w }

/-- `put_nowait` and `_record_submission`. -/
def put (frame : PassiveFrame) : State T :=
  { s with
    queue := s.queue ++ [frame]
    unfinished := s.unfinished + 1
    counters := { s.counters with
      submittedFrames := s.counters.submittedFrames + 1
      queuePeak := max s.counters.queuePeak (s.queue.length + 1) } }

/-- `_prepare_frame`, with the counters after it. -/
def prepareFrame (r : Request) : Except Exc (Counters × Option PassiveFrame) :=
  if s.accepting = false then
    .error (.passivePipeline (str "pipeline is not accepting frames"))
  else
    let name := strip (rt.casefold r.protocol)
    if (cfg.parsers.get name).isNone then
      .ok ({ s.counters with unsupportedFrames := s.counters.unsupportedFrames + 1 }, none)
    else if cfg.maxFrameBytes < r.payload.length then
      .ok ({ s.counters with oversizedFrames := s.counters.oversizedFrames + 1 }, none)
    else do
      let timestamp ← utc (r.observedAt.getD r.wallClock.stamp)
      .ok (s.counters, some ⟨name, r.payload, timestamp, r.interface⟩)

/-- `submit` up to its first `await`; an exception leaves the pipeline as it was. -/
def submit (r : Request) : State T :=
  match s.prepareFrame rt cfg r with
  | .error _ => s
  | .ok (counters, none) => { s with counters }
  | .ok (counters, some frame) =>
    let s := { s with counters }
    if s.queue.length < cfg.queueSize then s.put frame
    else { s with submitters := s.submitters ++ [frame] }

/-- `submit_nowait` -/
def submitNowait (r : Request) : State T :=
  match s.prepareFrame rt cfg r with
  | .error _ => s
  | .ok (counters, none) => { s with counters }
  | .ok (counters, some frame) =>
    let s := { s with counters }
    if s.queue.length < cfg.queueSize then s.put frame
    else { s with counters := { s.counters with
      backpressureRejections := s.counters.backpressureRejections + 1 } }

/-- The `finally` block of `_worker`; `task_done` raises when nothing is unfinished. -/
def leave (i : Nat) (w : Worker) : State T :=
  let s := { s with inFlight := s.inFlight - 1 }
  if 0 < s.unfinished then { s with unfinished := s.unfinished - 1 }.setWorker i w
  else s.setWorker i { w with phase := .crashed }

/-- The sink is called. -/
def call (i : Nat) (w : Worker) (frame : PassiveFrame) (parsers : Nat)
    (observations : List PassiveObservation) (normalized : PassiveObservation) : State T :=
  { s with
    calls := s.calls + 1
    history := s.history ++ [Event.called s.calls normalized s.clock] }.setWorker i
      { w with phase := .delivering frame parsers observations normalized s.calls }

/-- The round of `_handle_frame` for one observation. -/
def checkObservation (i : Nat) (w : Worker) (frame : PassiveFrame) (parsers : Nat)
    (observation : PassiveObservation) (observations : List PassiveObservation) : State T :=
  let next : Worker := { w with phase := .handling frame parsers observations }
  match normalizeObservation observation frame.observedAt with
  | .error _ =>
    { s with counters := { s.counters with
      parserFailures := s.counters.parserFailures + 1 } }.setWorker i next
  | .ok normalized =>
    match cfg.window with
    | none => s.call i w frame parsers observations normalized
    | some window =>
      match fingerprint rt normalized with
      | .error _ => { s with dedupe := s.dedupe.purge s.clock }.leave i { w with phase := .crashed }
      | .ok f =>
        let verdict := s.dedupe.check window cfg.dedupeCapacity s.clock f
        let s := { s with dedupe := verdict.table }
        if verdict.duplicate then
          { s with
            counters := { s.counters with
              duplicateObservations := s.counters.duplicateObservations + 1 }
            history := s.history ++ [Event.suppressed normalized s.clock] }.setWorker i next
        else
          { s with counters := { s.counters with
            dedupeEvictions := s.counters.dedupeEvictions + verdict.evicted.toNat } }.call i w frame
              parsers observations normalized

/-- `worker.cancel()` for every worker. -/
def cancelWorkers : State T :=
  { s with workers := s.workers.map fun w => { w with cancelRequested := !w.isDone } }

end State

/-- One action, if it is enabled. -/
def step (s : State T) : Action T → Option (State T)
  | .tick now => if s.clock ≤ now then some { s with clock := now } else none
  | .submit r => if s.quiet then some (s.submit rt cfg r) else none
  | .resume k =>
    match s.submitters[k]? with
    | none => none
    | some frame =>
      if s.quiet ∧ s.queue.length < cfg.queueSize then
        some ({ s with submitters := s.submitters.eraseIdx k }.put frame)
      else none
  | .abandon k =>
    if s.quiet ∧ k < s.submitters.length then
      some { s with submitters := s.submitters.eraseIdx k }
    else none
  | .submitNowait r => if s.quiet then some (s.submitNowait rt cfg r) else none
  | .take i =>
    match s.workers[i]?, s.queue with
    | some ⟨.waiting, false⟩, frame :: queue =>
      if s.quiet then
        some ({ s with queue, inFlight := s.inFlight + 1 }.setWorker i
          { phase := .handling frame ((cfg.parsers.get frame.protocol).getD 0) [] })
      else none
    | _, _ => none
  | .parse i outcome =>
    match s.workers[i]? with
    | some ⟨.handling frame (parsers + 1) [], cancelRequested⟩ =>
      match outcome with
      | .raised =>
        some ({ s with counters := { s.counters with
          parserFailures := s.counters.parserFailures + 1 } }.setWorker i
            ⟨.handling frame parsers [], cancelRequested⟩)
      | .returned observations =>
        some (s.setWorker i ⟨.handling frame parsers observations, cancelRequested⟩)
    | _ => none
  | .check i =>
    match s.workers[i]? with
    | some ⟨.handling frame parsers (o :: observations), cancelRequested⟩ =>
      some (s.checkObservation rt cfg i ⟨.handling frame parsers (o :: observations),
        cancelRequested⟩ frame parsers o observations)
    | _ => none
  | .sink i outcome =>
    match s.workers[i]? with
    | some ⟨.delivering frame parsers observations normalized call, cancelRequested⟩ =>
      if s.quiet then
        -- a sink that returns or raises after a cancellation has swallowed it
        let next : Worker := { phase := .handling frame parsers observations }
        match outcome with
        | .returned =>
          some ({ s with
            counters := { s.counters with
              emittedObservations := s.counters.emittedObservations + 1 }
            history := s.history ++ [Event.delivered call normalized s.clock] }.setWorker i next)
        | .raised =>
          some ({ s with
            counters := { s.counters with sinkFailures := s.counters.sinkFailures + 1 }
            history := s.history ++ [Event.failed call normalized s.clock] }.setWorker i next)
        | .cancelled =>
          if cancelRequested then
            some ({ s with history := s.history ++ [Event.failed call normalized s.clock] }.leave i
              { phase := .ended })
          else none
      else none
    | _ => none
  | .finish i =>
    match s.workers[i]? with
    | some ⟨.handling _ 0 [], cancelRequested⟩ =>
      some ({ s with counters := { s.counters with
        processedFrames := s.counters.processedFrames + 1 } }.leave i ⟨.waiting, cancelRequested⟩)
    | _ => none
  | .exit i =>
    match s.workers[i]? with
    | some ⟨.waiting, true⟩ => if s.quiet then some (s.setWorker i { phase := .ended }) else none
    | _ => none
  | .stop =>
    if s.quiet ∧ s.shutdown = .notCalled then some { s with shutdown := .settling } else none
  | .settled =>
    if s.quiet ∧ s.shutdown = .settling ∧ s.submitters = [] then
      some { s with shutdown := .joining }
    else none
  | .drained =>
    if s.quiet ∧ s.shutdown = .joining ∧ s.unfinished = 0 then
      some { s with shutdown := .gathering false }.cancelWorkers
    else none
  | .timeout =>
    if s.quiet ∧ s.shutdown = .joining then
      some { s with
        counters := { s.counters with
          incompleteFrames := s.counters.incompleteFrames + (s.queue.length + s.inFlight) }
        shutdown := .gathering true }.cancelWorkers
    else none
  | .gathered =>
    match s.shutdown with
    | .gathering _ =>
      -- every frame that is left is taken out and marked as done
      if s.workers.all Worker.isDone ∧ s.queue.length ≤ s.unfinished then
        some { s with queue := [], unfinished := s.unfinished - s.queue.length, shutdown := .returned }
      else none
    | _ => none

/-- The pipeline after `start`. -/
def started (cfg : Config T) (clock : T) : State T where
  workers := List.replicate cfg.workerCount {}
  clock := clock

end

end FieldDiscovery.Passive
