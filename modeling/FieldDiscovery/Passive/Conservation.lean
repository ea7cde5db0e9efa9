import FieldDiscovery.Passive.Moves

/-!
# No frame is lost

The moves keep the gauges of the pipeline (`Sane.move`) and the balance of its ledger at each stage of
`stop` (`Stage.move`), so every run conserves its frames (`pipeline_conserves`).
-/

namespace FieldDiscovery.Passive

open Py

variable {T : Type} [LinearOrder T] {s s' : State T}

/-! ## Moves keep the gauges -/

omit [LinearOrder T] in
theorem mem_of_set {i : Nat} {w' : Worker} (hworkers : s'.workers = s.workers.set i w')
    {P : Worker → Prop} (hall : ∀ w ∈ s.workers, P w) (hw' : P w') : ∀ w ∈ s'.workers, P w := by
  intro v hv
  rw [hworkers] at hv
  rcases List.mem_or_eq_of_mem_set hv with hv | rfl
  · exact hall v hv
  · exact hw'

theorem Worker.Live.uncrashed {w : Worker} (h : w.Live) : w.phase ≠ .crashed := by
  intro hphase
  have := h.1
  simp [Worker.isDone, hphase] at this

theorem WorkerMove.after {l l' : Ledger} {w w' : Worker} (h : WorkerMove l w l' w') :
    w'.phase ≠ .crashed ∧ (w'.isHandling = true → w'.cancelRequested = false) := by
  cases h with
  | take _ _ _ _ hlive => exact ⟨hlive.uncrashed, fun _ => hlive.2⟩
  | work _ _ hlive => exact ⟨hlive.uncrashed, fun _ => hlive.2⟩
  | finish _ _ _ _ hlive => exact ⟨hlive.uncrashed, fun _ => hlive.2⟩
  | cancel _ _ hphase => simp [Worker.isHandling, hphase]
  | exit _ _ hphase => simp [Worker.isHandling, hphase]

/-- A step of a worker keeps both gauges. -/
theorem WorkerMove.gauges {l l' : Ledger} {w w' : Worker} (h : WorkerMove l w l' w')
    {busy busy' : Nat} (hcount : busy' + w.isBusy.toNat = busy + w'.isBusy.toNat)
    (hinFlight : l.inFlight = busy) (hunfinished : l.unfinished = l.queued + l.inFlight) :
    l'.inFlight = busy' ∧ l'.unfinished = l'.queued + l'.inFlight := by
  cases h with
  | @take _ queued hqueued hw _ hw' _ =>
    simp only [hw, hw', Bool.toNat_true, Bool.toNat_false] at hcount
    constructor
    · show l.inFlight + 1 = busy'
      omega
    · show l.unfinished = queued + (l.inFlight + 1)
      omega
  | work hw hw' _ =>
    simp only [hw, hw', Bool.toNat_true] at hcount
    exact ⟨by omega, hunfinished⟩
  | finish hw _ hw' _ _ =>
    simp only [hw, hw', Bool.toNat_true, Bool.toNat_false] at hcount
    constructor
    · show l.inFlight - 1 = busy'
      omega
    · show l.unfinished - 1 = l.queued + (l.inFlight - 1)
      omega
  | cancel hw _ hphase =>
    have hw' : w'.isBusy = false := by simp [Worker.isBusy, hphase]
    simp only [hw, hw', Bool.toNat_true, Bool.toNat_false] at hcount
    constructor
    · show l.inFlight - 1 = busy'
      omega
    · show l.unfinished - 1 = l.queued + (l.inFlight - 1)
      omega
  | exit hwaiting _ hphase =>
    have hw : w.isBusy = false := by simp [Worker.isBusy, hwaiting]
    have hw' : w'.isBusy = false := by simp [Worker.isBusy, hphase]
    simp only [hw, hw', Bool.toNat_false] at hcount
    exact ⟨by omega, hunfinished⟩

omit [LinearOrder T] in
theorem Sane.cancelWorkers (hs : Sane s) (hquiet : s.quiet = true) : Sane s.cancelWorkers := by
  have hphase : ∀ v ∈ s.cancelWorkers.workers, ∃ w ∈ s.workers, v.phase = w.phase := by
    intro v hv
    obtain ⟨w, hw, rfl⟩ := List.mem_map.mp hv
    exact ⟨w, hw, rfl⟩
  refine ⟨?_, hs.unfinished, ?_, ?_, ?_⟩
  · show s.inFlight = (s.workers.map _).countP Worker.isBusy
    rw [List.countP_map, hs.inFlight]
    rfl
  · intro v hv
    obtain ⟨w, hw, hp⟩ := hphase v hv
    rw [hp]
    exact hs.uncrashed w hw
  · intro v hv hrun
    obtain ⟨w, hw, hp⟩ := hphase v hv
    have hidle := List.all_eq_true.mp hquiet w hw
    rw [Worker.isHandling, hp] at hrun
    rw [Worker.isHandling, hrun] at hidle
    cases hidle
  · intro v hv o ho
    obtain ⟨w, hw, hp⟩ := hphase v hv
    rw [Worker.pending, hp] at ho
    exact hs.encodable w hw o ho

omit [LinearOrder T] in
theorem Sane.inFlight_done (hs : Sane s) (hdone : ∀ w ∈ s.workers, w.isDone = true) :
    s.inFlight = 0 := by
  rw [hs.inFlight, List.countP_eq_zero]
  intro w hw
  have := hdone w hw
  unfold Worker.isDone at this
  unfold Worker.isBusy
  split at this
  · simp [*]
  · simp [*]
  · cases this

omit [LinearOrder T] in
theorem Sane.move (hs : Sane s) (h : Move s s') : Sane s' := by
  have hledger : ∀ {l : Ledger}, s'.ledger = l → s'.inFlight = l.inFlight ∧
      s'.unfinished = l.unfinished ∧ s'.queue.length = l.queued := by
    rintro l rfl
    exact ⟨rfl, rfl, rfl⟩
  have hunfinished := hs.unfinished
  cases h with
  | stay hl hworkers _ _ =>
    obtain ⟨hinFlight, hun, hqueue⟩ := hledger hl
    refine ⟨?_, ?_, ?_, ?_, ?_⟩
    · rw [hinFlight, hworkers]
      exact hs.inFlight
    · rw [hinFlight, hun, hqueue]
      exact hunfinished
    · rw [hworkers]
      exact hs.uncrashed
    · rw [hworkers]
      exact hs.running
    · rw [hworkers]
      exact hs.encodable
  | submit hl hworkers _ _ =>
    obtain ⟨hinFlight, hun, hqueue⟩ := hledger hl
    refine ⟨?_, ?_, ?_, ?_, ?_⟩
    · rw [hinFlight, hworkers]
      exact hs.inFlight
    · rw [hinFlight, hun, hqueue]
      show s.unfinished + 1 = s.queue.length + 1 + s.inFlight
      omega
    · rw [hworkers]
      exact hs.uncrashed
    · rw [hworkers]
      exact hs.running
    · rw [hworkers]
      exact hs.encodable
  | worker i w w' hw hworkers hmove hpending _ _ =>
    have hcount := countP_set (p := Worker.isBusy) hw w'
    rw [← hworkers] at hcount
    obtain ⟨hinFlight, hun⟩ := hmove.gauges hcount hs.inFlight hs.unfinished
    obtain ⟨huncrashed, hrunning⟩ := hmove.after
    refine ⟨hinFlight, hun, ?_, ?_, ?_⟩
    · exact mem_of_set hworkers hs.uncrashed huncrashed
    · exact mem_of_set hworkers hs.running hrunning
    · refine mem_of_set hworkers hs.encodable ?_
      intro o ho
      rcases hpending o ho with ho | ho
      · exact hs.encodable w (List.mem_of_getElem? hw) o ho
      · exact ho
  | stop _ hs' =>
    subst hs'
    exact ⟨hs.inFlight, hs.unfinished, hs.uncrashed, hs.running, hs.encodable⟩
  | settle _ _ hs' =>
    subst hs'
    exact ⟨hs.inFlight, hs.unfinished, hs.uncrashed, hs.running, hs.encodable⟩
  | drain hquiet _ _ hs' =>
    subst hs'
    exact Sane.cancelWorkers
      ⟨hs.inFlight, hs.unfinished, hs.uncrashed, hs.running, hs.encodable⟩ hquiet
  | timeout hquiet _ hs' =>
    subst hs'
    exact Sane.cancelWorkers
      ⟨hs.inFlight, hs.unfinished, hs.uncrashed, hs.running, hs.encodable⟩ hquiet
  | gather _ _ hdone hs' =>
    have hzero := hs.inFlight_done hdone
    subst hs'
    refine ⟨hs.inFlight, ?_, hs.uncrashed, hs.running, hs.encodable⟩
    show s.unfinished - s.queue.length = 0 + s.inFlight
    omega

/-! ## Moves keep the balance -/

/-- `stop` has cancelled the workers and none has swallowed it. -/
def State.Cancelled (s : State T) : Prop :=
  s.counters.submittedFrames = s.counters.processedFrames + s.counters.incompleteFrames ∧
    ∀ w ∈ s.workers, w.isDone = true ∨ w.cancelRequested = true

/-- Some worker runs on. -/
def State.RunsOn (s : State T) : Prop := ∃ (i : Nat) (w : Worker), s.workers[i]? = some w ∧ w.Live

/-- The balance of the ledger at each stage of `stop`. A worker that swallows its cancellation runs on
for ever, so `stop` does not return. -/
def Stage (s : State T) : Prop :=
  match s.shutdown with
  | .notCalled | .settling => s.Balanced ∧ ∀ w ∈ s.workers, w.Live
  | .joining => (s.Balanced ∧ ∀ w ∈ s.workers, w.Live) ∧ s.submitters = []
  | .gathering false =>
    (s.Cancelled ∧ s.queue = [] ∧ s.inFlight = 0) ∧ s.submitters = []
  | .gathering true => (s.Cancelled ∨ s.RunsOn) ∧ s.submitters = []
  | .returned =>
    (s.Balanced ∧ s.queue = [] ∧ s.inFlight = 0 ∧ ∀ w ∈ s.workers, w.isDone = true) ∧
      s.submitters = []

/-- A worker that is not cancelled stays so. -/
theorem WorkerMove.live {l l' : Ledger} {w w' : Worker} (h : WorkerMove l w l' w') (hw : w.Live) :
    w'.Live := by
  cases h with
  | take _ _ _ _ hlive => exact hlive
  | work _ _ hlive => exact hlive
  | finish _ _ _ _ hlive => exact hlive
  | cancel _ hcancel _ =>
    rw [hw.2] at hcancel
    cases hcancel
  | exit _ hcancel _ =>
    rw [hw.2] at hcancel
    cases hcancel

/-- A cancelled worker ends without another frame, or runs on. -/
theorem WorkerMove.cancelled {l l' : Ledger} {w w' : Worker} (h : WorkerMove l w l' w')
    (hw : w.isDone = true ∨ w.cancelRequested = true) :
    (l'.submitted = l.submitted ∧ l'.processed = l.processed ∧ l'.incomplete = l.incomplete ∧
      w'.isDone = true) ∨ w'.Live := by
  have hlive : ¬ w.Live := by
    rintro ⟨hdone, hcancel⟩
    rcases hw with hw | hw
    · rw [hdone] at hw
      cases hw
    · rw [hcancel] at hw
      cases hw
  cases h with
  | take _ _ hw _ _ => exact absurd hw hlive
  | work _ _ hw' => exact Or.inr hw'
  | finish _ hw _ _ _ => exact absurd hw hlive
  | cancel _ _ hphase => exact Or.inl ⟨rfl, rfl, rfl, by simp [Worker.isDone, hphase]⟩
  | exit _ _ hphase => exact Or.inl ⟨rfl, rfl, rfl, by simp [Worker.isDone, hphase]⟩

/-- A step of a worker that is not cancelled keeps the balance. -/
theorem WorkerMove.balanced {l l' : Ledger} {w w' : Worker} (h : WorkerMove l w l' w')
    (hw : w.Live) (hpos : w.isBusy = true → 0 < l.inFlight)
    (hl : l.submitted = l.processed + l.incomplete + l.queued + l.inFlight) :
    l'.submitted = l'.processed + l'.incomplete + l'.queued + l'.inFlight := by
  cases h with
  | @take _ queued hqueued _ _ _ _ =>
    show l.submitted = l.processed + l.incomplete + queued + (l.inFlight + 1)
    omega
  | work _ _ _ => exact hl
  | finish hbusy _ _ _ _ =>
    have := hpos hbusy
    show l.submitted = l.processed + 1 + l.incomplete + l.queued + (l.inFlight - 1)
    omega
  | cancel _ hcancel _ =>
    rw [hw.2] at hcancel
    cases hcancel
  | exit _ _ _ => exact hl

/-- A cancelled worker that holds no frame can only end. -/
theorem WorkerMove.idle {l l' : Ledger} {w w' : Worker} (h : WorkerMove l w l' w')
    (hidle : w.isBusy = false) (hlive : ¬ w.Live) : l' = l ∧ w'.isDone = true := by
  cases h with
  | take _ _ hw _ _ => exact absurd hw hlive
  | work hbusy _ _ =>
    rw [hidle] at hbusy
    cases hbusy
  | finish hbusy _ _ _ _ =>
    rw [hidle] at hbusy
    cases hbusy
  | cancel hbusy _ _ =>
    rw [hidle] at hbusy
    cases hbusy
  | exit _ _ hphase => exact ⟨rfl, by simp [Worker.isDone, hphase]⟩

theorem Worker.isDone_of_isBusy {w : Worker} (h : w.isBusy = true) : w.isDone = false := by
  unfold Worker.isBusy at h
  unfold Worker.isDone
  split at h
  · simp [*]
  · simp [*]
  · cases h

/-- A task that is done takes no step. -/
theorem WorkerMove.not_done {l l' : Ledger} {w w' : Worker} (h : WorkerMove l w l' w') :
    w.isDone = false := by
  cases h with
  | take _ _ hw _ _ => exact hw.1
  | work hbusy _ _ => exact Worker.isDone_of_isBusy hbusy
  | finish hbusy _ _ _ _ => exact Worker.isDone_of_isBusy hbusy
  | cancel hbusy _ _ => exact Worker.isDone_of_isBusy hbusy
  | exit hphase _ _ => simp [Worker.isDone, hphase]

section

omit [LinearOrder T]

theorem Stage.stay (h : Stage s) (hl : s'.ledger = s.ledger) (hworkers : s'.workers = s.workers)
    (hshutdown : s'.shutdown = s.shutdown) (hclosed : s.Closed → s'.Closed) : Stage s' := by
  have hsubmitted : s'.counters.submittedFrames = s.counters.submittedFrames :=
    congrArg Ledger.submitted hl
  have hprocessed : s'.counters.processedFrames = s.counters.processedFrames :=
    congrArg Ledger.processed hl
  have hincomplete : s'.counters.incompleteFrames = s.counters.incompleteFrames :=
    congrArg Ledger.incomplete hl
  have hqueued : s'.queue.length = s.queue.length := congrArg Ledger.queued hl
  have hinFlight : s'.inFlight = s.inFlight := congrArg Ledger.inFlight hl
  have hnil : s.queue = [] → s'.queue = [] := by
    intro hq
    rw [← List.length_eq_zero_iff, hqueued, hq, List.length_nil]
  have hclosed' : s.shutdown ≠ .notCalled → s.submitters = [] → s'.submitters = [] :=
    fun hs hn => (hclosed ⟨decide_eq_false hs, hn⟩).2
  unfold Stage State.Balanced State.Cancelled State.RunsOn at *
  rw [hshutdown, hsubmitted, hprocessed, hincomplete, hqueued, hinFlight, hworkers]
  cases hs : s.shutdown with
  | notCalled =>
    rw [hs] at h
    exact h
  | settling =>
    rw [hs] at h
    exact h
  | joining =>
    rw [hs] at h hclosed'
    exact ⟨h.1, hclosed' (by decide) h.2⟩
  | gathering timedOut =>
    rw [hs] at h hclosed'
    cases timedOut with
    | false => exact ⟨⟨h.1.1, hnil h.1.2.1, h.1.2.2⟩, hclosed' (by decide) h.2⟩
    | true => exact ⟨h.1, hclosed' (by decide) h.2⟩
  | returned =>
    rw [hs] at h hclosed'
    exact ⟨⟨h.1.1, hnil h.1.2.1, h.1.2.2⟩, hclosed' (by decide) h.2⟩

/-- Once `stop` waits for the queue no frame comes in. -/
theorem Stage.closed (h : Stage s) (hs : s.shutdown ≠ .notCalled ∧ s.shutdown ≠ .settling) :
    s.Closed := by
  refine ⟨decide_eq_false hs.1, ?_⟩
  unfold Stage at h
  cases hshutdown : s.shutdown with
  | notCalled => exact absurd hshutdown hs.1
  | settling => exact absurd hshutdown hs.2
  | joining =>
    rw [hshutdown] at h
    exact h.2
  | gathering timedOut =>
    rw [hshutdown] at h
    cases timedOut <;> exact h.2
  | returned =>
    rw [hshutdown] at h
    exact h.2

theorem Stage.submit (h : Stage s) (hl : s'.ledger = { s.ledger with
        submitted := s.ledger.submitted + 1
        queued := s.ledger.queued + 1
        unfinished := s.ledger.unfinished + 1 })
    (hworkers : s'.workers = s.workers) (hshutdown : s'.shutdown = s.shutdown)
    (hopen : ¬ s.Closed) : Stage s' := by
  have hbalanced : s.Balanced → s'.Balanced := by
    intro hb
    have hsubmitted : s'.counters.submittedFrames = s.counters.submittedFrames + 1 :=
      congrArg Ledger.submitted hl
    have hprocessed : s'.counters.processedFrames = s.counters.processedFrames :=
      congrArg Ledger.processed hl
    have hincomplete : s'.counters.incompleteFrames = s.counters.incompleteFrames :=
      congrArg Ledger.incomplete hl
    have hqueued : s'.queue.length = s.queue.length + 1 := congrArg Ledger.queued hl
    have hinFlight : s'.inFlight = s.inFlight := congrArg Ledger.inFlight hl
    unfold State.Balanced at hb ⊢
    omega
  by_cases hs : s.shutdown ≠ .notCalled ∧ s.shutdown ≠ .settling
  · exact absurd (h.closed hs) hopen
  · unfold Stage at h ⊢
    rw [hshutdown, hworkers]
    rw [not_and_or, not_not, not_not] at hs
    rcases hs with hs | hs
    · rw [hs] at h ⊢
      exact ⟨hbalanced h.1, h.2⟩
    · rw [hs] at h ⊢
      exact ⟨hbalanced h.1, h.2⟩

theorem Stage.worker (hs : Sane s) (h : Stage s) {i : Nat} {w w' : Worker}
    (hw : s.workers[i]? = some w) (hworkers : s'.workers = s.workers.set i w')
    (hmove : WorkerMove s.ledger w s'.ledger w') (hshutdown : s'.shutdown = s.shutdown)
    (hsubmitters : s'.submitters = s.submitters) : Stage s' := by
  have hmem := List.mem_of_getElem? hw
  have hopen : (s.Balanced ∧ ∀ w ∈ s.workers, w.Live) → s'.Balanced ∧ ∀ w ∈ s'.workers, w.Live :=
    fun hb => ⟨hmove.balanced (hb.2 w hmem) (hs.busy_pos hw) hb.1,
      mem_of_set hworkers hb.2 (hmove.live (hb.2 w hmem))⟩
  have hset : s'.workers[i]? = some w' := by
    rw [hworkers, List.getElem?_set_self (List.getElem?_eq_some_iff.mp hw).1]
  have hcancelled : s.Cancelled → s'.Cancelled ∨ (w'.Live ∧ s'.RunsOn) := by
    rintro ⟨hcount, hall⟩
    rcases hmove.cancelled (hall w hmem) with ⟨hsubmitted, hprocessed, hincomplete, hdone⟩ | hlive
    · refine Or.inl ⟨?_, mem_of_set hworkers hall (Or.inl hdone)⟩
      change s'.counters.submittedFrames = s.counters.submittedFrames at hsubmitted
      change s'.counters.processedFrames = s.counters.processedFrames at hprocessed
      change s'.counters.incompleteFrames = s.counters.incompleteFrames at hincomplete
      rw [hsubmitted, hprocessed, hincomplete]
      exact hcount
    · exact Or.inr ⟨hlive, i, w', hset, hlive⟩
  unfold Stage at h ⊢
  rw [hshutdown, hsubmitters]
  cases hstage : s.shutdown with
  | notCalled =>
    rw [hstage] at h
    exact hopen h
  | settling =>
    rw [hstage] at h
    exact hopen h
  | joining =>
    rw [hstage] at h
    exact ⟨hopen h.1, h.2⟩
  | gathering timedOut =>
    rw [hstage] at h
    cases timedOut with
    | true =>
      refine ⟨?_, h.2⟩
      rcases h.1 with hc | ⟨j, v, hv, hlive⟩
      · exact (hcancelled hc).imp_right And.right
      · right
        by_cases hij : i = j
        · subst hij
          cases hw.symm.trans hv
          exact ⟨i, w', hset, hmove.live hlive⟩
        · refine ⟨j, v, ?_, hlive⟩
          rw [hworkers, List.getElem?_set_ne hij]
          exact hv
    | false =>
      -- nothing is in flight, so the worker can only end
      obtain ⟨⟨hc, hqueue, hzero⟩, hnil⟩ := h
      have hidle : w.isBusy = false := by
        by_contra hbusy
        have := hs.busy_pos hw (by simpa using hbusy)
        omega
      have hnotLive : ¬ w.Live := by
        rintro ⟨hdone, hcancel⟩
        rcases hc.2 w hmem with hd | hcr
        · rw [hdone] at hd
          cases hd
        · rw [hcancel] at hcr
          cases hcr
      obtain ⟨hl, hdone⟩ := hmove.idle hidle hnotLive
      have hended : ¬ w'.Live := by
        rintro ⟨hd, -⟩
        rw [hdone] at hd
        cases hd
      refine ⟨⟨(hcancelled hc).resolve_right fun hr => hended hr.1, ?_, ?_⟩, hnil⟩
      · have hlen : s'.queue.length = s.queue.length := congrArg Ledger.queued hl
        rw [← List.length_eq_zero_iff, hlen, hqueue, List.length_nil]
      · exact (congrArg Ledger.inFlight hl).trans hzero
  | returned =>
    rw [hstage] at h
    have hdone := h.1.2.2.2 w hmem
    rw [hmove.not_done] at hdone
    cases hdone

theorem Stage.move (hs : Sane s) (h : Stage s) (hmove : Move s s') : Stage s' := by
  cases hmove with
  | stay hl hworkers hshutdown hclosed => exact h.stay hl hworkers hshutdown hclosed
  | submit hl hworkers hshutdown hopen => exact h.submit hl hworkers hshutdown hopen
  | worker i w w' hw hworkers hmove _ hshutdown hsubmitters =>
    exact h.worker hs hw hworkers hmove hshutdown hsubmitters
  | stop hstage hs' =>
    subst hs'
    unfold Stage at h ⊢
    rw [hstage] at h
    exact h
  | settle hstage hnil hs' =>
    subst hs'
    unfold Stage at h ⊢
    rw [hstage] at h
    exact ⟨h, hnil⟩
  | drain hquiet hstage hzero hs' =>
    subst hs'
    unfold Stage at h
    rw [hstage] at h
    obtain ⟨⟨hbalanced, hlive⟩, hnil⟩ := h
    have hunfinished := hs.unfinished
    have hinFlight : s.inFlight = 0 := by omega
    have hlen : s.queue.length = 0 := by omega
    refine ⟨⟨⟨?_, ?_⟩, List.length_eq_zero_iff.mp hlen, hinFlight⟩, hnil⟩
    · unfold State.Balanced at hbalanced
      show s.counters.submittedFrames =
        s.counters.processedFrames + s.counters.incompleteFrames
      omega
    · intro v hv
      obtain ⟨w, hw, rfl⟩ := List.mem_map.mp hv
      right
      show (!w.isDone) = true
      rw [(hlive w hw).1]
      rfl
  | timeout hquiet hstage hs' =>
    subst hs'
    unfold Stage at h
    rw [hstage] at h
    obtain ⟨⟨hbalanced, hlive⟩, hnil⟩ := h
    refine ⟨Or.inl ⟨?_, ?_⟩, hnil⟩
    · unfold State.Balanced at hbalanced
      show s.counters.submittedFrames = s.counters.processedFrames +
        (s.counters.incompleteFrames + (s.queue.length + s.inFlight))
      omega
    · intro v hv
      obtain ⟨w, hw, rfl⟩ := List.mem_map.mp hv
      right
      show (!w.isDone) = true
      rw [(hlive w hw).1]
      rfl
  | gather timedOut hstage hdone hs' =>
    have hzero := hs.inFlight_done hdone
    subst hs'
    unfold Stage at h
    rw [hstage] at h
    have hcancelled : s.Cancelled ∧ s.submitters = [] := by
      cases timedOut with
      | false => exact ⟨h.1.1, h.2⟩
      | true =>
        refine ⟨h.1.resolve_right ?_, h.2⟩
        rintro ⟨i, w, hw, hlive, -⟩
        rw [hdone w (List.mem_of_getElem? hw)] at hlive
        cases hlive
    refine ⟨⟨?_, rfl, hzero, hdone⟩, hcancelled.2⟩
    have hcount := hcancelled.1.1
    show s.counters.submittedFrames = s.counters.processedFrames + s.counters.incompleteFrames +
      0 + s.inFlight
    omega

end

/-! ## Runs -/

theorem sane_started (cfg : Config T) (clock : T) : Sane (started cfg clock) := by
  have hall : ∀ w ∈ (started cfg clock).workers, w = {} := fun w hw => List.eq_of_mem_replicate hw
  refine ⟨?_, rfl, ?_, ?_, ?_⟩
  · show 0 = (List.replicate cfg.workerCount _).countP Worker.isBusy
    rw [List.countP_replicate]
    rfl
  · intro w hw
    rw [hall w hw]
    simp
  · intro w hw hrun
    rw [hall w hw] at hrun
    cases hrun
  · intro w hw o ho
    rw [hall w hw] at ho
    cases ho

theorem stage_started (cfg : Config T) (clock : T) : Stage (started cfg clock) := by
  refine ⟨rfl, ?_⟩
  intro w hw
  rw [List.eq_of_mem_replicate hw]
  exact ⟨rfl, rfl⟩

/-- `stop` has not cancelled the workers. -/
def Shutdown.isOpen : Shutdown → Bool
  | .notCalled | .settling | .joining => true
  | _ => false

/-- The drain timer of `stop` has fired, and `stop` still waits for the workers. -/
def Shutdown.afterTimer (d : Shutdown) : Bool := d = .gathering true

/-- No run loses a frame, ends a worker by an exception, or leaves one behind. -/
theorem pipeline_conserves (rt : Runtime) (cfg : Config T) (clock : T) {actions : List (Action T)}
    (hencodable : ∀ a ∈ actions, a.Encodable) {s : State T}
    (hrun : Machine.run (step rt cfg) (started cfg clock) actions = some s) :
    (s.shutdown.afterTimer = false → s.Balanced) ∧
      (∀ w ∈ s.workers, w.phase ≠ .crashed ∧ (s.shutdown.isOpen = true → w.isDone = false)) ∧
      (s.shutdown = .returned → s.queue = [] ∧ s.inFlight = 0) := by
  have hinv : Sane s ∧ Stage s := by
    refine Machine.run_invariant (P := fun _ a => a.Encodable) (I := fun s => Sane s ∧ Stage s)
      ?_ ⟨sane_started cfg clock, stage_started cfg clock⟩ ?_ hrun
    · rintro s a s' ⟨hs, hstage⟩ ha hstep
      have hmove := step_move hs ha hstep
      exact ⟨hs.move hmove, hstage.move hs hmove⟩
    · exact Machine.along_of_forall hencodable
  obtain ⟨hs, h⟩ := hinv
  unfold Stage at h
  cases hshutdown : s.shutdown with
  | notCalled =>
    rw [hshutdown] at h
    exact ⟨fun _ => h.1, fun w hw => ⟨hs.uncrashed w hw, fun _ => (h.2 w hw).1⟩, by simp⟩
  | settling =>
    rw [hshutdown] at h
    exact ⟨fun _ => h.1, fun w hw => ⟨hs.uncrashed w hw, fun _ => (h.2 w hw).1⟩, by simp⟩
  | joining =>
    rw [hshutdown] at h
    exact ⟨fun _ => h.1.1, fun w hw => ⟨hs.uncrashed w hw, fun _ => (h.1.2 w hw).1⟩, by simp⟩
  | gathering timedOut =>
    rw [hshutdown] at h
    refine ⟨?_, fun w hw => ⟨hs.uncrashed w hw, by simp [Shutdown.isOpen]⟩, by simp⟩
    intro htimer
    cases timedOut with
    | true => cases htimer
    | false =>
      obtain ⟨⟨⟨hcount, -⟩, hqueue, hzero⟩, -⟩ := h
      unfold State.Balanced
      rw [hqueue, hzero]
      exact hcount
  | returned =>
    rw [hshutdown] at h
    exact ⟨fun _ => h.1.1, fun w hw => ⟨hs.uncrashed w hw, by simp [Shutdown.isOpen]⟩,
      fun _ => ⟨h.1.2.1, h.1.2.2.1⟩⟩

/-! ## A run -/

/-- One worker, one parser, a window of thirty seconds. -/
def sampleConfig : Config ℕ where
  parsers := [(str "dhcp", 1)]
  queueSize := 4
  workerCount := 1
  maxFrameBytes := 1500
  window := some ⟨fun t => t + 30, DedupeTable.halfMinute_mono⟩
  dedupeCapacity := 16
  bounds := by decide

/-- A frame of the sample. -/
def sampleRequest : Request where
  protocol := str "DHCP"
  payload := []
  observedAt := none
  interface := none
  wallClock := ⟨epochDay * microsPerDay, epoch_inCalendar⟩

/-- What its parser returns. -/
def sampleObservation : PassiveObservation where
  kind := str "dhcp_message"
  fields := []
  source := str "passive.dhcp"

/-- A frame is handled, and a second one is in the sink when the drain timer fires. -/
def sampleActions : List (Action ℕ) :=
  [.submit sampleRequest, .take 0, .parse 0 (.returned [sampleObservation]), .check 0,
    .sink 0 .returned, .finish 0, .tick 31, .submitNowait sampleRequest, .take 0,
    .parse 0 (.returned [sampleObservation]), .check 0, .stop, .settled, .timeout,
    .sink 0 .cancelled, .gathered]

theorem sampleObservation_encodable : Encodable (canonical sampleObservation) := by
  decide +kernel

theorem pipeline_conserves_sample : ∃ s : State ℕ,
    Machine.run (step (.ofDigests []) sampleConfig) (started sampleConfig 0) sampleActions = some s ∧
      s.shutdown = .returned ∧ s.counters.submittedFrames = 2 ∧ s.counters.incompleteFrames = 1 ∧
      s.Balanced ∧ s.queue = [] ∧ s.inFlight = 0 := by
  have hsummary : (Machine.run (step (.ofDigests []) sampleConfig) (started sampleConfig 0)
      sampleActions).map (fun s => (s.shutdown, s.counters.submittedFrames,
        s.counters.incompleteFrames)) = some (.returned, 2, 1) := by
    decide +kernel
  obtain ⟨s, hrun, hs⟩ := Option.map_eq_some_iff.mp hsummary
  simp only [Prod.mk.injEq] at hs
  have hencodable : ∀ a ∈ sampleActions, a.Encodable := by
    intro a ha
    cases a with
    | parse i outcome =>
      cases outcome with
      | raised => trivial
      | returned observations =>
        obtain ⟨-, hobservations⟩ : i = 0 ∧ observations = [sampleObservation] := by
          simpa [sampleActions] using ha
        intro o ho
        rw [hobservations] at ho
        rw [List.mem_singleton.mp ho]
        exact sampleObservation_encodable
    | _ => trivial
  obtain ⟨hbalanced, -, hreturned⟩ := pipeline_conserves _ _ _ hencodable hrun
  exact ⟨s, hrun, hs.1, hs.2.1, hs.2.2, hbalanced (by rw [hs.1]; rfl), hreturned hs.1⟩

end FieldDiscovery.Passive
