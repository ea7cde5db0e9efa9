import FieldDiscovery.Lib.Except
import FieldDiscovery.Lib.Slots
import FieldDiscovery.Passive.Pipeline

/-!
# The moves of the pipeline

Seen from its ledger of frames, every step of the pipeline is one of a few moves (`step_move`).
-/

namespace FieldDiscovery.Passive

open Py

variable {T : Type} [LinearOrder T]

/-! ## The ledger -/

/-- The frames, by what became of them. -/
structure Ledger where
  submitted : Nat
  processed : Nat
  incomplete : Nat
  queued : Nat
  inFlight : Nat
  unfinished : Nat

namespace State

def ledger (s : State T) : Ledger where
  submitted := s.counters.submittedFrames
  processed := s.counters.processedFrames
  incomplete := s.counters.incompleteFrames
  queued := s.queue.length
  inFlight := s.inFlight
  unfinished := s.unfinished

/-- Every submitted frame is processed, given up, queued or in flight. -/
def Balanced (s : State T) : Prop :=
  s.counters.submittedFrames = s.counters.processedFrames + s.counters.incompleteFrames +
    s.queue.length + s.inFlight

/-- No frame can be submitted any more. -/
def Closed (s : State T) : Prop := s.accepting = false ∧ s.submitters = []

end State

/-- Neither cancelled nor done. -/
def Worker.Live (w : Worker) : Prop := w.isDone = false ∧ w.cancelRequested = false

/-- What a step of a worker does to the ledger and to the worker. -/
inductive WorkerMove (l : Ledger) (w : Worker) : Ledger → Worker → Prop
  | take {w' : Worker} {queued : Nat} : l.queued = queued + 1 → w.isBusy = false → w.Live →
      w'.isBusy = true → w'.Live →
      WorkerMove l w { l with queued := queued, inFlight := l.inFlight + 1 } w'
  | work {w' : Worker} : w.isBusy = true → w'.isBusy = true → w'.Live → WorkerMove l w l w'
  | finish {w' : Worker} : w.isBusy = true → w.Live → w'.isBusy = false → w'.isHandling = false →
      w'.Live → WorkerMove l w { l with
        processed := l.processed + 1
        inFlight := l.inFlight - 1
        unfinished := l.unfinished - 1 } w'
  | cancel {w' : Worker} : w.isBusy = true → w.cancelRequested = true → w'.phase = .ended →
      WorkerMove l w { l with
        inFlight := l.inFlight - 1
        unfinished := l.unfinished - 1 } w'
  | exit {w' : Worker} : w.phase = .waiting → w.cancelRequested = true → w'.phase = .ended →
      WorkerMove l w l w'

/-- What a step does to the frames. -/
inductive Move (s s' : State T) : Prop
  | stay : s'.ledger = s.ledger → s'.workers = s.workers → s'.shutdown = s.shutdown →
      (s.Closed → s'.Closed) → Move s s'
  | submit : s'.ledger = { s.ledger with
        submitted := s.ledger.submitted + 1
        queued := s.ledger.queued + 1
        unfinished := s.ledger.unfinished + 1 } →
      s'.workers = s.workers → s'.shutdown = s.shutdown → ¬ s.Closed → Move s s'
  | worker (i : Nat) (w w' : Worker) : s.workers[i]? = some w → s'.workers = s.workers.set i w' →
      WorkerMove s.ledger w s'.ledger w' →
      (∀ o ∈ w'.pending, o ∈ w.pending ∨ Encodable (canonical o)) →
      s'.shutdown = s.shutdown → s'.submitters = s.submitters → Move s s'
  | stop : s.shutdown = .notCalled → s' = { s with shutdown := .settling } → Move s s'
  | settle : s.shutdown = .settling → s.submitters = [] → s' = { s with shutdown := .joining } →
      Move s s'
  | drain : s.quiet = true → s.shutdown = .joining → s.unfinished = 0 →
      s' = { s with shutdown := .gathering false }.cancelWorkers → Move s s'
  | timeout : s.quiet = true → s.shutdown = .joining → s' = { s with
        counters := { s.counters with
          incompleteFrames := s.counters.incompleteFrames + (s.queue.length + s.inFlight) }
        shutdown := .gathering true }.cancelWorkers → Move s s'
  | gather (timedOut : Bool) : s.shutdown = .gathering timedOut →
      (∀ w ∈ s.workers, w.isDone = true) →
      s' = { s with queue := [], unfinished := s.unfinished - s.queue.length, shutdown := .returned } →
      Move s s'

/-! ## What every state satisfies -/

/-- The gauges agree with the tasks, no worker crashes, and a worker that runs is not cancelled. -/
structure Sane (s : State T) : Prop where
  inFlight : s.inFlight = s.workers.countP Worker.isBusy
  unfinished : s.unfinished = s.queue.length + s.inFlight
  uncrashed : ∀ w ∈ s.workers, w.phase ≠ .crashed
  running : ∀ w ∈ s.workers, w.isHandling = true → w.cancelRequested = false
  encodable : ∀ w ∈ s.workers, ∀ o ∈ w.pending, Encodable (canonical o)

/-- The parser returns observations that can be encoded. -/
def Action.Encodable : Action T → Prop
  | .parse _ (.returned observations) => ∀ o ∈ observations, Py.Encodable (canonical o)
  | _ => True

variable {s s' : State T}

omit [LinearOrder T] in
theorem Sane.busy_pos (hs : Sane s) {i : Nat} {w : Worker} (h : s.workers[i]? = some w)
    (hw : w.isBusy = true) : 0 < s.inFlight := by
  rw [hs.inFlight]
  exact List.countP_pos_iff.mpr ⟨w, List.mem_of_getElem? h, hw⟩

omit [LinearOrder T] in
/-- The `finally` block of a worker that holds a frame. -/
theorem Sane.leave_eq (hs : Sane s) {i : Nat} {w : Worker} (h : s.workers[i]? = some w)
    (hw : w.isBusy = true) (w' : Worker) : s.leave i w' =
      { s with
        inFlight := s.inFlight - 1
        unfinished := s.unfinished - 1
        workers := s.workers.set i w' } := by
  have hpos := hs.busy_pos h hw
  have hunfinished := hs.unfinished
  unfold State.leave
  simp only
  rw [if_pos (by omega)]
  rfl

/-- Normalization keeps what the fingerprint is made of. -/
theorem canonical_normalize {o o' : PassiveObservation} {t : Utc}
    (h : normalizeObservation o t = .ok o') : canonical o' = canonical o := by
  unfold normalizeObservation at h
  split at h
  · cases h
  · split at h
    · cases h
    · obtain ⟨observedAt, -, h⟩ := Except.bind_eq_ok.mp h
      obtain ⟨expiresAt, -, h⟩ := Except.bind_eq_ok.mp h
      cases h
      rfl

theorem fingerprint_of_encodable (rt : Runtime) {o o' : PassiveObservation} {t : Utc}
    (ho : Encodable (canonical o)) (h : normalizeObservation o t = .ok o') :
    ∃ f, fingerprint rt o' = .ok f := by
  unfold fingerprint
  rw [canonical_normalize h]
  cases hdata : encodeUtf8 (canonical o) with
  | some data => exact ⟨_, rfl⟩
  | none => exact absurd ho (encodeUtf8_eq_none.mp hdata)

/-! ## Every step is a move -/

variable {rt : Runtime} {cfg : Config T}

theorem prepareFrame_spec {s : State T} {r : Request} {counters : Counters}
    {frame : Option PassiveFrame} (h : s.prepareFrame rt cfg r = .ok (counters, frame)) :
    s.accepting = true ∧ counters.submittedFrames = s.counters.submittedFrames ∧
      counters.processedFrames = s.counters.processedFrames ∧
      counters.incompleteFrames = s.counters.incompleteFrames := by
  unfold State.prepareFrame at h
  cases haccepting : s.accepting with
  | false =>
    rw [haccepting] at h
    cases h
  | true =>
    simp only [haccepting, Bool.true_eq_false, if_false] at h
    split at h
    · cases h
      exact ⟨rfl, rfl, rfl, rfl⟩
    · split at h
      · cases h
        exact ⟨rfl, rfl, rfl, rfl⟩
      · obtain ⟨t, -, h⟩ := Except.bind_eq_ok.mp h
        cases h
        exact ⟨rfl, rfl, rfl, rfl⟩

/-- A request, whether it may wait for room or not. -/
theorem request_move {s : State T} {r : Request} {counters : Counters}
    {frame : Option PassiveFrame} (h : s.prepareFrame rt cfg r = .ok (counters, frame))
    {s' : State T} (hledger : s'.ledger = { s with counters }.ledger) (hworkers : s'.workers = s.workers)
    (hshutdown : s'.shutdown = s.shutdown) : Move s s' := by
  obtain ⟨haccepting, hsubmitted, hprocessed, hincomplete⟩ := prepareFrame_spec h
  refine .stay ?_ hworkers hshutdown (fun hclosed => by simp [State.Closed, haccepting] at hclosed)
  rw [hledger]
  simp only [State.ledger, hsubmitted, hprocessed, hincomplete]

theorem put_move {s : State T} {r : Request} {counters : Counters} {frame : Option PassiveFrame}
    (h : s.prepareFrame rt cfg r = .ok (counters, frame)) (f : PassiveFrame) :
    Move s ({ s with counters }.put f) := by
  obtain ⟨haccepting, hsubmitted, hprocessed, hincomplete⟩ := prepareFrame_spec h
  refine .submit ?_ rfl rfl (fun hclosed => by simp [State.Closed, haccepting] at hclosed)
  simp only [State.ledger, State.put, hsubmitted, hprocessed, hincomplete, List.length_append,
    List.length_singleton]

theorem submit_move (s : State T) (r : Request) : Move s (s.submit rt cfg r) := by
  unfold State.submit
  cases hframe : s.prepareFrame rt cfg r with
  | error e => exact .stay rfl rfl rfl id
  | ok result =>
    obtain ⟨counters, frame⟩ := result
    cases frame with
    | none => exact request_move hframe rfl rfl rfl
    | some frame =>
      simp only
      split
      · exact put_move hframe frame
      · exact request_move hframe rfl rfl rfl

theorem submitNowait_move (s : State T) (r : Request) : Move s (s.submitNowait rt cfg r) := by
  unfold State.submitNowait
  cases hframe : s.prepareFrame rt cfg r with
  | error e => exact .stay rfl rfl rfl id
  | ok result =>
    obtain ⟨counters, frame⟩ := result
    cases frame with
    | none => exact request_move hframe rfl rfl rfl
    | some frame =>
      simp only
      split
      · exact put_move hframe frame
      · exact request_move hframe rfl rfl rfl

/-- A worker that has looked at an observation goes on, or calls the sink. -/
theorem check_move (hs : Sane s) {i : Nat} {frame : PassiveFrame} {parsers : Nat}
    {o : PassiveObservation} {observations : List PassiveObservation} {cancelRequested : Bool}
    (hw : s.workers[i]? = some ⟨.handling frame parsers (o :: observations), cancelRequested⟩) :
    Move s (s.checkObservation rt cfg i ⟨.handling frame parsers (o :: observations),
      cancelRequested⟩ frame parsers o observations) := by
  have hmem := List.mem_of_getElem? hw
  have hcancel : cancelRequested = false := hs.running _ hmem rfl
  subst hcancel
  have hpending : ∀ o' ∈ observations, o' ∈ o :: observations ∨ Encodable (canonical o') :=
    fun o' ho' => Or.inl (List.mem_cons_of_mem _ ho')
  have hcall : ∀ {s' : State T} (normalized : PassiveObservation), s'.ledger = s.ledger →
      s'.workers = s.workers → s'.shutdown = s.shutdown → s'.submitters = s.submitters →
      Move s (s'.call i ⟨.handling frame parsers (o :: observations), false⟩ frame parsers
        observations normalized) := by
    intro s' normalized hledger hworkers hshutdown hsubmitters
    refine .worker i _ ⟨.delivering frame parsers observations normalized s'.calls, false⟩ hw ?_ ?_
      hpending hshutdown hsubmitters
    · show s'.workers.set i _ = _
      rw [hworkers]
    · have hl : (s'.call i ⟨.handling frame parsers (o :: observations), false⟩ frame parsers
          observations normalized).ledger = s.ledger := hledger
      rw [hl]
      exact .work rfl rfl ⟨rfl, rfl⟩
  have hnext : ∀ {s' : State T}, s'.ledger = s.ledger →
      s'.workers = s.workers → s'.shutdown = s.shutdown → s'.submitters = s.submitters →
      Move s (s'.setWorker i ⟨.handling frame parsers observations, false⟩) := by
    intro s' hledger hworkers hshutdown hsubmitters
    refine .worker i _ ⟨.handling frame parsers observations, false⟩ hw ?_ ?_ hpending hshutdown
      hsubmitters
    · show s'.workers.set i _ = _
      rw [hworkers]
    · have hl : (s'.setWorker i ⟨.handling frame parsers observations, false⟩).ledger =
          s.ledger := hledger
      rw [hl]
      exact .work rfl rfl ⟨rfl, rfl⟩
  unfold State.checkObservation
  simp only
  cases hnormal : normalizeObservation o frame.observedAt with
  | error e => exact hnext rfl rfl rfl rfl
  | ok normalized =>
    simp only
    cases cfg.window with
    | none => exact hcall normalized rfl rfl rfl rfl
    | some window =>
      obtain ⟨f, hf⟩ := fingerprint_of_encodable rt
        (hs.encodable _ hmem o List.mem_cons_self) hnormal
      simp only [hf]
      split
      · exact hnext rfl rfl rfl rfl
      · exact hcall normalized rfl rfl rfl rfl

/-- Every step is one of the moves. -/
theorem step_move (hs : Sane s) {a : Action T} (ha : a.Encodable)
    (h : step rt cfg s a = some s') : Move s s' := by
  cases a with
  | tick now =>
    obtain ⟨-, h⟩ := Option.ite_none_right_eq_some.mp h
    cases h
    exact .stay rfl rfl rfl id
  | submit r =>
    obtain ⟨-, h⟩ := Option.ite_none_right_eq_some.mp h
    cases h
    exact submit_move s r
  | submitNowait r =>
    obtain ⟨-, h⟩ := Option.ite_none_right_eq_some.mp h
    cases h
    exact submitNowait_move s r
  | resume k =>
    simp only [step] at h
    cases hk : s.submitters[k]? with
    | none =>
      rw [hk] at h
      cases h
    | some frame =>
      rw [hk] at h
      obtain ⟨-, h⟩ := Option.ite_none_right_eq_some.mp h
      cases h
      refine .submit ?_ rfl rfl ?_
      · simp only [State.ledger, State.put, List.length_append, List.length_singleton]
      · rintro ⟨-, hnil⟩
        rw [hnil] at hk
        cases hk
  | abandon k =>
    obtain ⟨hk, h⟩ := Option.ite_none_right_eq_some.mp h
    cases h
    refine .stay rfl rfl rfl ?_
    rintro ⟨-, hnil⟩
    rw [hnil] at hk
    cases hk.2
  | take i =>
    simp only [step] at h
    split at h
    · next frame queue hw hqueue =>
      obtain ⟨-, h⟩ := Option.ite_none_right_eq_some.mp h
      cases h
      refine .worker i _ _ hw rfl ?_ (by simp [Worker.pending]) rfl rfl
      exact .take (by simp [State.ledger, hqueue, State.setWorker]) rfl ⟨rfl, rfl⟩ rfl ⟨rfl, rfl⟩
    · cases h
  | parse i outcome =>
    simp only [step] at h
    split at h
    · next frame parsers cancelRequested hw =>
      have hcancel : cancelRequested = false := hs.running _ (List.mem_of_getElem? hw) rfl
      subst hcancel
      cases outcome with
      | raised =>
        cases h
        exact .worker i _ _ hw rfl (.work rfl rfl ⟨rfl, rfl⟩) (by simp [Worker.pending]) rfl rfl
      | returned observations =>
        cases h
        exact .worker i _ _ hw rfl (.work rfl rfl ⟨rfl, rfl⟩) (fun o ho => Or.inr (ha o ho)) rfl rfl
    · cases h
  | check i =>
    simp only [step] at h
    split at h
    · next hw =>
      cases h
      exact check_move hs hw
    · cases h
  | sink i outcome =>
    simp only [step] at h
    split at h
    · next frame parsers observations normalized call cancelRequested hw =>
      obtain ⟨-, h⟩ := Option.ite_none_right_eq_some.mp h
      cases outcome with
      | returned =>
        cases h
        exact .worker i _ _ hw rfl (.work rfl rfl ⟨rfl, rfl⟩) (fun o ho => Or.inl ho) rfl rfl
      | raised =>
        cases h
        exact .worker i _ _ hw rfl (.work rfl rfl ⟨rfl, rfl⟩) (fun o ho => Or.inl ho) rfl rfl
      | cancelled =>
        obtain ⟨hcancel, h⟩ := Option.ite_none_right_eq_some.mp h
        have hs' : Sane { s with
            history := s.history ++ [Event.failed call normalized s.clock] } :=
          ⟨hs.inFlight, hs.unfinished, hs.uncrashed, hs.running, hs.encodable⟩
        rw [hs'.leave_eq hw rfl] at h
        cases h
        exact .worker i _ _ hw rfl (.cancel rfl hcancel rfl) (by simp [Worker.pending]) rfl rfl
    · cases h
  | finish i =>
    simp only [step] at h
    split at h
    · next frame cancelRequested hw =>
      have hcancel : cancelRequested = false := hs.running _ (List.mem_of_getElem? hw) rfl
      subst hcancel
      have hs' : Sane { s with counters := { s.counters with
          processedFrames := s.counters.processedFrames + 1 } } :=
        ⟨hs.inFlight, hs.unfinished, hs.uncrashed, hs.running, hs.encodable⟩
      rw [hs'.leave_eq hw rfl] at h
      cases h
      exact .worker i _ _ hw rfl (.finish rfl ⟨rfl, rfl⟩ rfl rfl ⟨rfl, rfl⟩)
        (by simp [Worker.pending]) rfl rfl
    · cases h
  | exit i =>
    simp only [step] at h
    split at h
    · next hw =>
      obtain ⟨-, h⟩ := Option.ite_none_right_eq_some.mp h
      cases h
      exact .worker i _ _ hw rfl (.exit rfl rfl rfl) (by simp [Worker.pending]) rfl rfl
    · cases h
  | stop =>
    obtain ⟨hstage, h⟩ := Option.ite_none_right_eq_some.mp h
    cases h
    exact .stop hstage.2 rfl
  | settled =>
    obtain ⟨hstage, h⟩ := Option.ite_none_right_eq_some.mp h
    cases h
    exact .settle hstage.2.1 hstage.2.2 rfl
  | drained =>
    obtain ⟨hstage, h⟩ := Option.ite_none_right_eq_some.mp h
    cases h
    exact .drain hstage.1 hstage.2.1 hstage.2.2 rfl
  | timeout =>
    obtain ⟨hstage, h⟩ := Option.ite_none_right_eq_some.mp h
    cases h
    exact .timeout hstage.1 hstage.2 rfl
  | gathered =>
    simp only [step] at h
    split at h
    · next timedOut hstage =>
      obtain ⟨hdone, h⟩ := Option.ite_none_right_eq_some.mp h
      cases h
      exact .gather timedOut hstage (List.all_eq_true.mp hdone.1) rfl
    · cases h

end FieldDiscovery.Passive
