import FieldDiscovery.Passive.Conservation

/-!
# The shutdown of the pipeline

`stop` waits three times: for the submitters to settle, for the queue to be joined, and for the
workers to end. Only the second wait has a timer. The first lasts as long as a submitter waits for
room in the queue, which a worker makes when its call of the sink returns; the last ends when the
workers take their cancellation. In a run where `stop` is called without such a submitter and no call
of the sink swallows a cancellation, `stop` never depends on the sink without its timer
(`shutdown_governed`).
-/

namespace FieldDiscovery.Passive

open Py

section

variable {T : Type} [LinearOrder T] (rt : Runtime) (cfg : Config T)

/-- A step that is neither the end of a call of the sink nor a cancellation from outside. A call that
is ended by the cancellation of its worker is a step of `stop`. -/
def Action.isOwn : Action T → Bool
  | .sink _ .returned | .sink _ .raised | .abandon _ => false
  | _ => true

/-- Such steps lead from one state to another. -/
inductive Reaches : State T → State T → Prop
  | refl (s : State T) : Reaches s s
  | head {s s₁ s' : State T} {a : Action T} (ha : a.isOwn = true) (hstep : step rt cfg s a = some s₁)
      (h : Reaches s₁ s') : Reaches s s'

/-- They take `stop` past its current wait. -/
def State.Releasable (s : State T) : Prop :=
  ∃ s', Reaches rt cfg s s' ∧ s'.shutdown ≠ s.shutdown

/-- `stop` has been called and has not returned. -/
def State.stopping (s : State T) : Bool :=
  match s.shutdown with
  | .notCalled | .returned => false
  | _ => true

/-- While `stop` runs, its drain timer does, or it depends on no call of the sink. -/
def State.Governed (s : State T) : Prop :=
  s.stopping = true → s.shutdown = .joining ∨ s.Releasable rt cfg

/-- No submitter waits when `stop` is called, and no call of the sink swallows a cancellation. -/
def Cooperative (s : State T) : Action T → Prop
  | .stop => s.submitters = []
  | .sink i .returned | .sink i .raised => ∀ w ∈ s.workers[i]?, w.cancelRequested = false
  | _ => True

instance (s : State T) (a : Action T) : Decidable (Cooperative s a) := by
  unfold Cooperative
  split <;> infer_instance

/-- How far a cooperative run has come. -/
structure Shutting (s : State T) : Prop where
  unfinished : s.unfinished = s.queue.length + s.workers.countP Worker.isBusy
  running : ∀ w ∈ s.workers, w.isHandling = true → w.cancelRequested = false
  submitters : s.shutdown ≠ .notCalled → s.submitters = []
  gathering : ∀ timedOut, s.shutdown = .gathering timedOut →
    ∀ w ∈ s.workers, w.isDone = true ∨ w.cancelRequested = true

end

section

variable {T : Type} [LinearOrder T] {rt : Runtime} {cfg : Config T} {s s' : State T}

omit [LinearOrder T] in
theorem Worker.isBusy_of_isHandling {w : Worker} (h : w.isHandling = true) : w.isBusy = true := by
  unfold Worker.isHandling at h
  unfold Worker.isBusy
  split at h
  · next hphase => rw [hphase]
  · cases h

omit [LinearOrder T] in
/-- A worker that holds a frame puts it down. -/
theorem Shutting.leave (hs : Shutting s) {i : Nat} {w w' : Worker} (hw : s.workers[i]? = some w)
    (hbusy : w.isBusy = true) (hbusy' : w'.isBusy = false)
    (hgathering : ∀ timedOut, s.shutdown = .gathering timedOut →
      w'.isDone = true ∨ w'.cancelRequested = true) : Shutting (s.leave i w') := by
  have hpos : 0 < s.workers.countP Worker.isBusy :=
    List.countP_pos_iff.mpr ⟨w, List.mem_of_getElem? hw, hbusy⟩
  have hunfinished : 0 < s.unfinished := by
    rw [hs.unfinished]
    omega
  unfold State.leave
  simp only
  rw [if_pos hunfinished]
  have hcount := countP_set (p := Worker.isBusy) hw w'
  rw [hbusy, hbusy', Bool.toNat_true, Bool.toNat_false] at hcount
  refine ⟨?_, ?_, hs.submitters, ?_⟩
  · show s.unfinished - 1 = s.queue.length + (s.workers.set i w').countP Worker.isBusy
    rw [hs.unfinished]
    omega
  · intro v hv hhandling
    rcases List.mem_or_eq_of_mem_set hv with hv | rfl
    · exact hs.running v hv hhandling
    · rw [Worker.isBusy_of_isHandling hhandling] at hbusy'
      cases hbusy'
  · intro timedOut hshutdown v hv
    rcases List.mem_or_eq_of_mem_set hv with hv | rfl
    · exact hs.gathering timedOut hshutdown v hv
    · exact hgathering timedOut hshutdown

omit [LinearOrder T] in
/-- A worker that holds a frame goes on with it. -/
theorem Shutting.work (hs : Shutting s) {i : Nat} {w w' : Worker} (hw : s.workers[i]? = some w)
    (hworkers : s'.workers = s.workers.set i w') (hbusy : w'.isBusy = w.isBusy)
    (hrunning : w'.cancelRequested = false) (hlive : w.isDone = false ∧ w.cancelRequested = false)
    (hunfinished : s'.unfinished = s.unfinished) (hqueue : s'.queue = s.queue)
    (hshutdown : s'.shutdown = s.shutdown) (hsubmitters : s'.submitters = s.submitters) :
    Shutting s' := by
  have hcount := countP_set (p := Worker.isBusy) hw w'
  rw [hbusy, Nat.add_right_cancel_iff] at hcount
  refine ⟨?_, ?_, ?_, ?_⟩
  · rw [hunfinished, hqueue, hworkers, hcount]
    exact hs.unfinished
  · rw [hworkers]
    intro v hv hhandling
    rcases List.mem_or_eq_of_mem_set hv with hv | rfl
    · exact hs.running v hv hhandling
    · exact hrunning
  · rw [hshutdown, hsubmitters]
    exact hs.submitters
  · rw [hshutdown]
    intro timedOut hgathering
    rcases hs.gathering timedOut hgathering w (List.mem_of_getElem? hw) with hdone | hcancel
    · rw [hlive.1] at hdone
      cases hdone
    · rw [hlive.2] at hcancel
      cases hcancel

omit [LinearOrder T] in
theorem Shutting.congr (hs : Shutting s) (hunfinished : s'.unfinished = s.unfinished)
    (hqueue : s'.queue = s.queue) (hworkers : s'.workers = s.workers)
    (hshutdown : s'.shutdown = s.shutdown) (hsubmitters : s.submitters = [] → s'.submitters = []) :
    Shutting s' where
  unfinished := by
    rw [hunfinished, hqueue, hworkers]
    exact hs.unfinished
  running := by
    rw [hworkers]
    exact hs.running
  submitters := by
    rw [hshutdown]
    exact fun h => hsubmitters (hs.submitters h)
  gathering := by
    rw [hshutdown, hworkers]
    exact hs.gathering

omit [LinearOrder T] in
theorem Shutting.put (hs : Shutting s) (frame : PassiveFrame) : Shutting (s.put frame) where
  unfinished := by
    show s.unfinished + 1 = (s.queue ++ [frame]).length + s.workers.countP Worker.isBusy
    rw [hs.unfinished, List.length_append, List.length_singleton]
    omega
  running := hs.running
  submitters := hs.submitters
  gathering := hs.gathering

theorem prepareFrame_accepting {r : Request} {result : Counters × Option PassiveFrame}
    (h : s.prepareFrame rt cfg r = .ok result) : s.shutdown = .notCalled := by
  unfold State.prepareFrame at h
  split at h
  · cases h
  · next haccepting => simpa [State.accepting] using haccepting

theorem Shutting.submit (hs : Shutting s) (r : Request) : Shutting (s.submit rt cfg r) ∧
    Shutting (s.submitNowait rt cfg r) := by
  unfold State.submit State.submitNowait
  cases hprepare : s.prepareFrame rt cfg r with
  | error e => exact ⟨hs, hs⟩
  | ok result =>
    have hopen := prepareFrame_accepting hprepare
    obtain ⟨counters, frame⟩ := result
    have hcounters : Shutting { s with counters } := hs.congr rfl rfl rfl rfl id
    cases frame with
    | none => exact ⟨hcounters, hcounters⟩
    | some frame =>
      simp only
      split
      · exact ⟨hcounters.put frame, hcounters.put frame⟩
      · refine ⟨⟨hs.unfinished, hs.running, fun hne => absurd hopen hne, fun timedOut h => ?_⟩,
          hs.congr rfl rfl rfl rfl id⟩
        rw [show s.shutdown = .gathering timedOut from h] at hopen
        cases hopen

theorem Shutting.check (hs : Shutting s) {i : Nat} {frame : PassiveFrame} {parsers : Nat}
    {o : PassiveObservation} {observations : List PassiveObservation} {cancelRequested : Bool}
    (hw : s.workers[i]? = some ⟨.handling frame parsers (o :: observations), cancelRequested⟩) :
    Shutting (s.checkObservation rt cfg i ⟨.handling frame parsers (o :: observations),
      cancelRequested⟩ frame parsers o observations) := by
  have hlive : cancelRequested = false := hs.running _ (List.mem_of_getElem? hw) rfl
  unfold State.checkObservation State.call
  simp only
  split
  · exact hs.work hw rfl rfl hlive ⟨rfl, hlive⟩ rfl rfl rfl rfl
  · split
    · exact hs.work hw rfl rfl hlive ⟨rfl, hlive⟩ rfl rfl rfl rfl
    · split
      · have hpurged : Shutting { s with dedupe := s.dedupe.purge s.clock } :=
          hs.congr rfl rfl rfl rfl id
        exact hpurged.leave hw rfl rfl fun _ _ => Or.inl rfl
      · split
        · exact hs.work hw rfl rfl hlive ⟨rfl, hlive⟩ rfl rfl rfl rfl
        · exact hs.work hw rfl rfl hlive ⟨rfl, hlive⟩ rfl rfl rfl rfl

omit [LinearOrder T] in
/-- `worker.cancel()` reaches every worker that is not done. -/
theorem Shutting.cancelWorkers (hs : Shutting s) (hquiet : s.quiet = true)
    (hsettled : s.submitters = []) (counters : Counters) (timedOut : Bool) :
    Shutting { s with counters, shutdown := .gathering timedOut }.cancelWorkers where
  unfinished := by
    show s.unfinished = s.queue.length +
      (s.workers.map fun w => { w with cancelRequested := !w.isDone }).countP Worker.isBusy
    rw [List.countP_map]
    exact hs.unfinished
  running := by
    intro w hw hhandling
    obtain ⟨v, hv, rfl⟩ := List.mem_map.mp hw
    have hidle := List.all_eq_true.mp hquiet v hv
    have hhandling : v.isHandling = true := hhandling
    rw [hhandling] at hidle
    cases hidle
  submitters _ := hsettled
  gathering := by
    intro _ _ w hw
    obtain ⟨v, -, rfl⟩ := List.mem_map.mp hw
    cases hdone : v.isDone with
    | true => exact Or.inl hdone
    | false => exact Or.inr rfl

/-- A cooperative step keeps the account. -/
theorem shutting_step (hs : Shutting s) {a : Action T} (ha : Cooperative s a)
    (h : step rt cfg s a = some s') : Shutting s' := by
  cases a with
  | tick now =>
    obtain ⟨-, h⟩ := Option.ite_none_right_eq_some.mp h
    cases h
    exact hs.congr rfl rfl rfl rfl id
  | submit r =>
    obtain ⟨-, h⟩ := Option.ite_none_right_eq_some.mp h
    cases h
    exact (hs.submit r).1
  | submitNowait r =>
    obtain ⟨-, h⟩ := Option.ite_none_right_eq_some.mp h
    cases h
    exact (hs.submit r).2
  | resume k =>
    simp only [step] at h
    split at h
    · cases h
    · next frame hk =>
      obtain ⟨-, h⟩ := Option.ite_none_right_eq_some.mp h
      cases h
      have hresumed : Shutting { s with submitters := s.submitters.eraseIdx k } := by
        refine hs.congr rfl rfl rfl rfl fun hnil => ?_
        rw [hnil] at hk
        cases hk
      exact hresumed.put frame
  | abandon k =>
    obtain ⟨hk, h⟩ := Option.ite_none_right_eq_some.mp h
    cases h
    refine hs.congr rfl rfl rfl rfl fun hnil => ?_
    rw [hnil] at hk
    cases hk.2
  | take i =>
    simp only [step] at h
    split at h
    · next frame queue hw hqueue =>
      obtain ⟨-, h⟩ := Option.ite_none_right_eq_some.mp h
      cases h
      have hcount := countP_set (p := Worker.isBusy) hw
        { phase := .handling frame ((cfg.parsers.get frame.protocol).getD 0) [] }
      have hidle : Worker.isBusy ⟨.waiting, false⟩ = false := rfl
      have hbusy : Worker.isBusy
          { phase := .handling frame ((cfg.parsers.get frame.protocol).getD 0) [] } = true := rfl
      rw [hidle, hbusy, Bool.toNat_true, Bool.toNat_false, Nat.add_zero] at hcount
      have hunfinished := hs.unfinished
      refine ⟨?_, ?_, hs.submitters, ?_⟩
      · show s.unfinished = queue.length + _
        rw [hunfinished, hqueue, List.length_cons]
        show _ = queue.length + (s.workers.set i _).countP Worker.isBusy
        omega
      · intro v hv hhandling
        rcases List.mem_or_eq_of_mem_set hv with hv | rfl
        · exact hs.running v hv hhandling
        · rfl
      · intro timedOut hshutdown
        rcases hs.gathering timedOut hshutdown _ (List.mem_of_getElem? hw) with hdone | hcancel
        · cases hdone
        · cases hcancel
    · cases h
  | parse i outcome =>
    simp only [step] at h
    split at h
    · next hw =>
      have hlive := hs.running _ (List.mem_of_getElem? hw) rfl
      cases outcome with
      | raised =>
        cases h
        exact hs.work hw rfl rfl hlive ⟨rfl, hlive⟩ rfl rfl rfl rfl
      | returned observations =>
        cases h
        exact hs.work hw rfl rfl hlive ⟨rfl, hlive⟩ rfl rfl rfl rfl
    · cases h
  | check i =>
    simp only [step] at h
    split at h
    · next hw =>
      cases h
      exact hs.check hw
    · cases h
  | sink i outcome =>
    simp only [step] at h
    split at h
    · next frame parsers observations normalized call cancelRequested hw =>
      obtain ⟨-, h⟩ := Option.ite_none_right_eq_some.mp h
      cases outcome with
      | returned =>
        cases h
        exact hs.work hw rfl rfl rfl ⟨rfl, ha _ hw⟩ rfl rfl rfl rfl
      | raised =>
        cases h
        exact hs.work hw rfl rfl rfl ⟨rfl, ha _ hw⟩ rfl rfl rfl rfl
      | cancelled =>
        obtain ⟨-, h⟩ := Option.ite_none_right_eq_some.mp h
        cases h
        have hfailed : Shutting { s with
            history := s.history ++ [Event.failed call normalized s.clock] } := hs.congr rfl rfl rfl rfl id
        exact hfailed.leave hw rfl rfl fun _ _ => Or.inl rfl
    · cases h
  | finish i =>
    simp only [step] at h
    split at h
    · next hw =>
      cases h
      have hprocessed : Shutting { s with counters := { s.counters with
          processedFrames := s.counters.processedFrames + 1 } } := hs.congr rfl rfl rfl rfl id
      refine hprocessed.leave hw rfl rfl fun timedOut hshutdown => ?_
      rcases hs.gathering timedOut hshutdown _ (List.mem_of_getElem? hw) with hdone | hcancel
      · cases hdone
      · exact Or.inr hcancel
    · cases h
  | exit i =>
    simp only [step] at h
    split at h
    · next hw =>
      obtain ⟨-, h⟩ := Option.ite_none_right_eq_some.mp h
      cases h
      have hcount := countP_set (p := Worker.isBusy) hw { phase := .ended }
      refine ⟨?_, ?_, hs.submitters, ?_⟩
      · show s.unfinished = s.queue.length + (s.workers.set i _).countP Worker.isBusy
        rw [hs.unfinished]
        exact congrArg _ (Nat.add_right_cancel hcount).symm
      · intro v hv hhandling
        rcases List.mem_or_eq_of_mem_set hv with hv | rfl
        · exact hs.running v hv hhandling
        · cases hhandling
      · intro timedOut hshutdown v hv
        rcases List.mem_or_eq_of_mem_set hv with hv | rfl
        · exact hs.gathering timedOut hshutdown v hv
        · exact Or.inl rfl
    · cases h
  | stop =>
    obtain ⟨-, h⟩ := Option.ite_none_right_eq_some.mp h
    cases h
    exact ⟨hs.unfinished, hs.running, fun _ => ha, fun _ h => by cases h⟩
  | settled =>
    obtain ⟨hstage, h⟩ := Option.ite_none_right_eq_some.mp h
    cases h
    exact ⟨hs.unfinished, hs.running, fun _ => hstage.2.2, fun _ h => by cases h⟩
  | drained =>
    obtain ⟨hstage, h⟩ := Option.ite_none_right_eq_some.mp h
    cases h
    exact hs.cancelWorkers hstage.1 (hs.submitters (by rw [hstage.2.1]; decide)) _ _
  | timeout =>
    obtain ⟨hstage, h⟩ := Option.ite_none_right_eq_some.mp h
    cases h
    exact hs.cancelWorkers hstage.1 (hs.submitters (by rw [hstage.2]; decide)) _ _
  | gathered =>
    simp only [step] at h
    split at h
    · next timedOut hstage =>
      obtain ⟨hdone, h⟩ := Option.ite_none_right_eq_some.mp h
      cases h
      refine ⟨?_, hs.running, fun _ => hs.submitters (by rw [hstage]; simp), fun _ h => by cases h⟩
      show s.unfinished - s.queue.length = [].length + s.workers.countP Worker.isBusy
      rw [hs.unfinished, List.length_nil]
      omega
    · cases h

theorem shutting_started (cfg : Config T) (clock : T) : Shutting (started cfg clock) where
  unfinished := by
    show 0 = 0 + (List.replicate cfg.workerCount {}).countP Worker.isBusy
    rw [List.countP_replicate]
    rfl
  running := by
    intro w hw hhandling
    rw [List.eq_of_mem_replicate hw] at hhandling
    cases hhandling
  submitters _ := rfl
  gathering _ h := by cases h

/-! ## The way out -/

/-- What is left of the frame that a worker runs on. -/
def Worker.work (w : Worker) : Nat :=
  match w.phase with
  | .handling _ parsers observations => 1 + parsers + observations.length
  | _ => 0

/-- What the workers that run have left. -/
def State.work (s : State T) : Nat := (s.workers.map Worker.work).sum

omit [LinearOrder T] in
theorem sum_work_set {workers : List Worker} {i : Nat} {w w' : Worker} (hw : workers[i]? = some w)
    (h : w'.work < w.work) :
    ((workers.set i w').map Worker.work).sum < (workers.map Worker.work).sum := by
  induction workers generalizing i with
  | nil => cases hw
  | cons v workers ih =>
    cases i with
    | zero =>
      cases hw
      exact Nat.add_lt_add_right h _
    | succ i =>
      rw [List.set_cons_succ, List.map_cons, List.map_cons, List.sum_cons, List.sum_cons]
      exact Nat.add_lt_add_left (ih hw) _

omit [LinearOrder T] in
theorem leave_frame (s : State T) (i : Nat) {w : Worker} (hw : w.isHandling = false) :
    (s.leave i w).shutdown = s.shutdown ∧ ∃ w', (s.leave i w).workers = s.workers.set i w' ∧
      w'.work = 0 ∧ (w.isDone = true → w'.isDone = true) := by
  have hwork : w.work = 0 := by
    rcases w with ⟨phase, cancelRequested⟩
    cases phase with
    | handling frame parsers observations => cases hw
    | waiting | delivering | ended | crashed => rfl
  unfold State.leave
  simp only
  split
  · exact ⟨rfl, w, rfl, hwork, id⟩
  · exact ⟨rfl, _, rfl, rfl, fun _ => rfl⟩

variable (rt cfg) in
/-- A worker that runs gets on with its frame. -/
theorem exists_advance {i : Nat} {w : Worker} (hw : s.workers[i]? = some w)
    (hhandling : w.isHandling = true) : ∃ a s', a.isOwn = true ∧ Cooperative s a ∧
      step rt cfg s a = some s' ∧ s'.shutdown = s.shutdown ∧ s'.work < s.work := by
  obtain ⟨phase, cancelRequested⟩ := w
  cases phase with
  | waiting | delivering | ended | crashed => cases hhandling
  | handling frame parsers observations =>
    cases observations with
    | cons o observations =>
      have hstep : step rt cfg s (.check i) = some (s.checkObservation rt cfg i
          ⟨.handling frame parsers (o :: observations), cancelRequested⟩ frame parsers o
          observations) := by
        simp only [step, hw]
      refine ⟨.check i, _, rfl, trivial, hstep, ?_⟩
      unfold State.checkObservation State.call
      simp only
      split
      · exact ⟨rfl, sum_work_set hw (Nat.lt_succ_self _)⟩
      · split
        · exact ⟨rfl, sum_work_set hw (by simp [Worker.work])⟩
        · split
          · obtain ⟨hshutdown, w', hworkers, hwork, -⟩ := leave_frame
              { s with dedupe := s.dedupe.purge s.clock } i (w := ⟨.crashed, cancelRequested⟩) rfl
            refine ⟨hshutdown, ?_⟩
            unfold State.work
            rw [hworkers]
            exact sum_work_set hw (by rw [hwork]; simp [Worker.work])
          · split
            · exact ⟨rfl, sum_work_set hw (Nat.lt_succ_self _)⟩
            · exact ⟨rfl, sum_work_set hw (by simp [Worker.work])⟩
    | nil =>
      cases parsers with
      | succ parsers =>
        have hstep : step rt cfg s (.parse i .raised) = some ({ s with counters := { s.counters with
            parserFailures := s.counters.parserFailures + 1 } }.setWorker i
              ⟨.handling frame parsers [], cancelRequested⟩) := by
          simp only [step, hw]
        exact ⟨.parse i .raised, _, rfl, trivial, hstep, rfl, sum_work_set hw (by simp [Worker.work])⟩
      | zero =>
        have hstep : step rt cfg s (.finish i) = some ({ s with counters := { s.counters with
            processedFrames := s.counters.processedFrames + 1 } }.leave i
              ⟨.waiting, cancelRequested⟩) := by
          simp only [step, hw]
        refine ⟨.finish i, _, rfl, trivial, hstep, ?_⟩
        obtain ⟨hshutdown, w', hworkers, hwork, -⟩ := leave_frame
          { s with counters := { s.counters with
            processedFrames := s.counters.processedFrames + 1 } } i
            (w := ⟨.waiting, cancelRequested⟩) rfl
        refine ⟨hshutdown, ?_⟩
        unfold State.work
        rw [hworkers]
        exact sum_work_set hw (by rw [hwork]; simp [Worker.work])

variable (rt cfg) in
/-- All workers come to an `await`. -/
theorem exists_quiet (hs : Shutting s) : ∃ s', Reaches rt cfg s s' ∧ Shutting s' ∧
    s'.quiet = true ∧ s'.shutdown = s.shutdown := by
  induction hwork : s.work using Nat.strong_induction_on generalizing s with
  | _ n ih =>
    cases hquiet : s.quiet with
    | true => exact ⟨s, .refl s, hs, hquiet, rfl⟩
    | false =>
      obtain ⟨w, hmem, hhandling⟩ := List.all_eq_false.mp hquiet
      obtain ⟨i, hw⟩ := List.getElem?_of_mem hmem
      obtain ⟨a, s₁, hown, hcoop, hstep, hshutdown, hlt⟩ :=
        exists_advance rt cfg hw (by simpa using hhandling)
      obtain ⟨s', hreaches, hs', hquiet', hsame⟩ :=
        ih _ (hwork ▸ hlt) (shutting_step hs hcoop hstep) rfl
      exact ⟨s', .head hown hstep hreaches, hs', hquiet', hsame.trans hshutdown⟩

omit [LinearOrder T] in
/-- While `stop` gathers the workers, none of them runs. -/
theorem Shutting.quiet (hs : Shutting s) {timedOut : Bool}
    (hstage : s.shutdown = .gathering timedOut) : s.quiet = true := by
  refine List.all_eq_true.mpr fun w hw => ?_
  cases hhandling : w.isHandling with
  | false => rfl
  | true =>
    have hlive := hs.running w hw hhandling
    rcases hs.gathering timedOut hstage w hw with hdone | hcancel
    · unfold Worker.isHandling at hhandling
      unfold Worker.isDone at hdone
      split at hhandling
      · next hphase =>
        rw [hphase] at hdone
        cases hdone
      · cases hhandling
    · rw [hlive] at hcancel
      cases hcancel

variable (rt cfg) in
/-- A worker that is cancelled ends where it waits. -/
theorem exists_end (hs : Shutting s) {timedOut : Bool} (hstage : s.shutdown = .gathering timedOut)
    {i : Nat} {w : Worker} (hw : s.workers[i]? = some w) (hlive : w.isDone = false) :
    ∃ a s', a.isOwn = true ∧ Cooperative s a ∧ step rt cfg s a = some s' ∧
      s'.shutdown = s.shutdown ∧ ∃ w', s'.workers = s.workers.set i w' ∧ w'.isDone = true := by
  have hquiet := hs.quiet hstage
  have hmem := List.mem_of_getElem? hw
  have hcancel : w.cancelRequested = true := by
    rcases hs.gathering timedOut hstage w hmem with hdone | hcancel
    · rw [hlive] at hdone
      cases hdone
    · exact hcancel
  obtain ⟨phase, cancelRequested⟩ := w
  dsimp only at hcancel
  subst hcancel
  cases phase with
  | ended | crashed => cases hlive
  | handling =>
    have hidle := List.all_eq_true.mp hquiet _ hmem
    cases hidle
  | waiting =>
    have hstep : step rt cfg s (.exit i) = some (s.setWorker i { phase := .ended }) := by
      simp only [step, hw, hquiet, if_true]
    exact ⟨.exit i, _, rfl, trivial, hstep, rfl, _, rfl, rfl⟩
  | delivering frame parsers observations normalized call =>
    have hstep : step rt cfg s (.sink i .cancelled) = some ({ s with
        history := s.history ++ [Event.failed call normalized s.clock] }.leave i
          { phase := .ended }) := by
      simp only [step, hw, hquiet, if_true]
    obtain ⟨hshutdown, w', hworkers, -, hdone⟩ := leave_frame
      { s with history := s.history ++ [Event.failed call normalized s.clock] } i
        (w := { phase := .ended }) rfl
    exact ⟨.sink i .cancelled, _, rfl, trivial, hstep, hshutdown, w', hworkers, hdone rfl⟩

variable (rt cfg) in
/-- Every worker ends. -/
theorem exists_all_done (hs : Shutting s) {timedOut : Bool}
    (hstage : s.shutdown = .gathering timedOut) : ∃ s', Reaches rt cfg s s' ∧ Shutting s' ∧
      s'.shutdown = .gathering timedOut ∧ s'.workers.all Worker.isDone = true := by
  induction hcount : s.workers.countP (fun w => !w.isDone) generalizing s with
  | zero =>
    refine ⟨s, .refl s, hs, hstage, List.all_eq_true.mpr fun w hw => ?_⟩
    simpa using List.countP_eq_zero.mp hcount w hw
  | succ n ih =>
    obtain ⟨w, hmem, hlive⟩ := List.countP_pos_iff.mp (n.succ_pos.trans_eq hcount.symm)
    obtain ⟨i, hw⟩ := List.getElem?_of_mem hmem
    obtain ⟨a, s₁, hown, hcoop, hstep, hshutdown, w', hworkers, hdone⟩ :=
      exists_end rt cfg hs hstage hw (by simpa using hlive)
    have hcount' := countP_set (p := fun w => !w.isDone) hw w'
    rw [hlive, hdone, ← hworkers, hcount] at hcount'
    obtain ⟨s', hreaches, hs', hstage', hall⟩ := ih (shutting_step hs hcoop hstep)
      (hshutdown.trans hstage) (by simpa using hcount')
    exact ⟨s', .head hown hstep hreaches, hs', hstage', hall⟩

theorem Reaches.trans {s'' : State T} (h : Reaches rt cfg s s') (h' : Reaches rt cfg s' s'') :
    Reaches rt cfg s s'' := by
  induction h with
  | refl => exact h'
  | head ha hstep _ ih => exact .head ha hstep (ih h')

theorem Shutting.governed (hs : Shutting s) : s.Governed rt cfg := by
  intro hstopping
  unfold State.stopping at hstopping
  cases hstage : s.shutdown with
  | notCalled | returned =>
    rw [hstage] at hstopping
    cases hstopping
  | joining => exact Or.inl rfl
  | settling =>
    -- nobody waits for room, so `stop` goes on as soon as no worker runs
    obtain ⟨s', hreaches, hs', hquiet, hsame⟩ := exists_quiet rt cfg hs
    have hsettled := hs'.submitters (by rw [hsame, hstage]; decide)
    have hstep : step rt cfg s' .settled = some { s' with shutdown := .joining } :=
      if_pos ⟨hquiet, hsame.trans hstage, hsettled⟩
    refine Or.inr ⟨_, hreaches.trans (.head rfl hstep (.refl _)), ?_⟩
    rw [hstage]
    exact fun h => by cases h
  | gathering timedOut =>
    obtain ⟨s', hreaches, hs', hstage', hall⟩ := exists_all_done rt cfg hs hstage
    have hstep : step rt cfg s' .gathered = some { s' with
        queue := [], unfinished := s'.unfinished - s'.queue.length, shutdown := .returned } := by
      simp only [step, hstage']
      exact if_pos ⟨hall, by rw [hs'.unfinished]; exact Nat.le_add_right _ _⟩
    refine Or.inr ⟨_, hreaches.trans (.head rfl hstep (.refl _)), ?_⟩
    rw [hstage]
    exact fun h => by cases h

/-- In a cooperative run, `stop` never waits for a call of the sink without its drain timer. -/
theorem shutdown_governed (rt : Runtime) (cfg : Config T) (clock : T) {actions : List (Action T)}
    (hcooperative : Machine.Along (step rt cfg) Cooperative (started cfg clock) actions)
    (hrun : Machine.run (step rt cfg) (started cfg clock) actions = some s) :
    s.Governed rt cfg := by
  have hs : Shutting s := Machine.run_invariant
    (fun _ _ _ hs ha h => shutting_step hs ha h) (shutting_started cfg clock) hcooperative hrun
  exact hs.governed

/-! ## A submitter that waits -/

/-- The workers are in the sink and the queue is full, so that a submitter waits when `stop` does. -/
structure Blocked (cfg : Config T) (s : State T) : Prop where
  stage : s.shutdown = .settling
  submitters : s.submitters ≠ []
  full : cfg.queueSize ≤ s.queue.length
  workers : ∀ w ∈ s.workers, ∃ frame parsers observations normalized call,
    w = ⟨.delivering frame parsers observations normalized call, false⟩

theorem blocked_step (hs : Blocked cfg s) {a : Action T} (ha : a.isOwn = true)
    (h : step rt cfg s a = some s') : Blocked cfg s' := by
  have hclosed : ∀ r, s.submit rt cfg r = s ∧ s.submitNowait rt cfg r = s := by
    intro r
    unfold State.submit State.submitNowait
    cases hprepare : s.prepareFrame rt cfg r with
    | error e => exact ⟨rfl, rfl⟩
    | ok result =>
      have hopen := prepareFrame_accepting hprepare
      rw [hs.stage] at hopen
      cases hopen
  have hworker : ∀ (i : Nat) (w : Worker), s.workers[i]? = some w →
      ∃ frame parsers observations normalized call,
      w = ⟨.delivering frame parsers observations normalized call, false⟩ :=
    fun i w hw => hs.workers w (List.mem_of_getElem? hw)
  cases a with
  | tick now =>
    obtain ⟨-, h⟩ := Option.ite_none_right_eq_some.mp h
    cases h
    exact ⟨hs.stage, hs.submitters, hs.full, hs.workers⟩
  | submit r =>
    obtain ⟨-, h⟩ := Option.ite_none_right_eq_some.mp h
    rw [(hclosed r).1] at h
    cases h
    exact hs
  | submitNowait r =>
    obtain ⟨-, h⟩ := Option.ite_none_right_eq_some.mp h
    rw [(hclosed r).2] at h
    cases h
    exact hs
  | resume k =>
    simp only [step] at h
    split at h
    · cases h
    · obtain ⟨hroom, -⟩ := Option.ite_none_right_eq_some.mp h
      exact absurd hs.full (not_le.mpr hroom.2)
  | abandon k => cases ha
  | take i =>
    simp only [step] at h
    split at h
    · next hw _ =>
      obtain ⟨_, _, _, _, _, heq⟩ := hworker i _ hw
      cases heq
    · cases h
  | parse i _ | check i | finish i | exit i =>
    simp only [step] at h
    split at h
    · next hw =>
      obtain ⟨_, _, _, _, _, heq⟩ := hworker i _ hw
      cases heq
    · cases h
  | sink i outcome =>
    cases outcome with
    | returned | raised => cases ha
    | cancelled =>
      simp only [step] at h
      split at h
      · next hw =>
        obtain ⟨-, h⟩ := Option.ite_none_right_eq_some.mp h
        obtain ⟨hcancel, -⟩ := Option.ite_none_right_eq_some.mp h
        obtain ⟨_, _, _, _, _, heq⟩ := hworker i _ hw
        cases heq
        cases hcancel
      · cases h
  | stop =>
    obtain ⟨hstage, -⟩ := Option.ite_none_right_eq_some.mp h
    rw [hs.stage] at hstage
    cases hstage.2
  | settled =>
    obtain ⟨hstage, -⟩ := Option.ite_none_right_eq_some.mp h
    exact absurd hstage.2.2 hs.submitters
  | drained | timeout =>
    obtain ⟨hstage, -⟩ := Option.ite_none_right_eq_some.mp h
    have hjoining : s.shutdown = .joining := by first | exact hstage.2.1 | exact hstage.2
    rw [hs.stage] at hjoining
    cases hjoining
  | gathered =>
    simp only [step] at h
    split at h
    · next hstage =>
      rw [hs.stage] at hstage
      cases hstage
    · cases h

/-- Nothing but a call of the sink takes `stop` on. -/
theorem Blocked.not_governed (hs : Blocked cfg s) : ¬ s.Governed rt cfg := by
  intro h
  have hstopping : s.stopping = true := by
    unfold State.stopping
    rw [hs.stage]
  rcases h hstopping with hjoining | ⟨s', hreaches, hshutdown⟩
  · rw [hs.stage] at hjoining
    cases hjoining
  · have hblocked : Blocked cfg s' := by
      clear h hshutdown hstopping
      induction hreaches with
      | refl => exact hs
      | head ha hstep _ ih => exact ih (blocked_step hs ha hstep)
    exact hshutdown (hblocked.stage.trans hs.stage.symm)

end

/-! ## Two runs -/

theorem shutdown_governed_sample : ∃ s : State ℕ,
    Machine.run (step (.ofDigests []) sampleConfig) (started sampleConfig 0)
      (sampleActions.take 14) = some s ∧ s.shutdown = .gathering true ∧
        s.Governed (.ofDigests []) sampleConfig := by
  have hsummary : (Machine.run (step (.ofDigests []) sampleConfig) (started sampleConfig 0)
      (sampleActions.take 14)).map (fun s => s.shutdown) = some (.gathering true) := by
    decide +kernel
  obtain ⟨s, hrun, hs⟩ := Option.map_eq_some_iff.mp hsummary
  exact ⟨s, hrun, hs, shutdown_governed _ _ _ (by decide +kernel) hrun⟩

/-- The queue holds one frame. -/
def narrowQueue : Config ℕ := { sampleConfig with queueSize := 1, bounds := by decide }

/-- The worker is in the sink, a frame waits in the queue and another before it. -/
def crowded : List (Action ℕ) :=
  [.submit sampleRequest, .take 0, .parse 0 (.returned [sampleObservation]), .check 0,
    .submit sampleRequest, .submit sampleRequest, .stop]

/-- `stop` waits for the sink, and no timer runs. -/
theorem shutdown_not_governed : ¬ ∀ (rt : Runtime) (cfg : Config ℕ) clock actions s,
    Machine.run (step rt cfg) (started cfg clock) actions = some s → s.Governed rt cfg := by
  intro h
  have hsummary : (Machine.run (step (.ofDigests []) narrowQueue) (started narrowQueue 0)
      crowded).map (fun s => (s.shutdown, s.submitters.length, s.queue.length,
        s.workers.all fun w => w.isBusy && !w.isHandling && !w.cancelRequested)) =
      some (.settling, 1, 1, true) := by
    decide +kernel
  obtain ⟨s, hrun, hs⟩ := Option.map_eq_some_iff.mp hsummary
  simp only [Prod.mk.injEq] at hs
  obtain ⟨hstage, hsubmitters, hqueue, hworkers⟩ := hs
  have hblocked : Blocked narrowQueue s := by
    refine ⟨hstage, List.ne_nil_of_length_eq_add_one hsubmitters, hqueue.ge, fun w hw => ?_⟩
    have hbusy := List.all_eq_true.mp hworkers w hw
    obtain ⟨phase, cancelRequested⟩ := w
    cases phase with
    | delivering frame parsers observations normalized call =>
      have hcancel : cancelRequested = false := by
        cases cancelRequested with
        | false => rfl
        | true => cases hbusy
      rw [hcancel]
      exact ⟨_, _, _, _, _, rfl⟩
    | waiting | handling | ended | crashed => cases hbusy
  exact hblocked.not_governed (h _ _ _ _ s hrun)

end FieldDiscovery.Passive
