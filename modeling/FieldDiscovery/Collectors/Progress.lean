import FieldDiscovery.Collectors.Outcome
import FieldDiscovery.Lib.Effort

/-!
# A cycle gets to its end

The semaphore bounds the tasks inside `async with` (`held_le_concurrency`). A cycle that is not over
waits for a collector or has a step to take (`waits_for_collector`), and it takes a bounded number of
steps of its own (`effort_bounded`), so it cannot run forever while collectors come back.
-/

namespace FieldDiscovery.Collectors

open Py Repository Redaction

/-! ## The semaphore -/

/-- Every slot is free or held by a task. -/
structure System.Slotted (o : Orchestrator) (approved : List Request) (s : System) : Prop where
  slots : s.slots + s.tasks.countP Task.held = o.concurrency
  tasks : s.tasks.length = approved.length

section

variable {o : Orchestrator} {approved : List Request} {s s' : System}

theorem System.Slotted.init (db : RunDb) (stop : Bool) :
    (System.init o db stop approved).Slotted o approved where
  slots := by
    have hnone : (approved.map fun _ => Task.created).countP Task.held = 0 :=
      List.countP_eq_zero.mpr fun task htask => by
        obtain ⟨request, -, rfl⟩ := List.mem_map.mp htask
        exact Bool.false_ne_true
    show o.concurrency + _ = _
    exact (congrArg (o.concurrency + ·) hnone).trans (Nat.add_zero _)
  tasks := List.length_map _

theorem System.Slotted.step {a : Action} (h : s.Slotted o approved)
    (hmove : Move o.retries approved s s' a) : s'.Slotted o approved := by
  cases hmove with
  | run hs =>
    subst hs
    exact ⟨h.slots, h.tasks⟩
  | @task i request old new e hrequest hold hmove htasks hslots =>
    have hcount := countP_set (p := Task.held) hold new
    have hbefore := h.slots
    refine ⟨?_, ?_⟩
    · rw [htasks]
      omega
    · rw [htasks, List.length_set]
      exact h.tasks

end

/-! ## The potential -/

/-- What is left of a task. -/
def Task.rank (retries : Nat) : Task → Nat
  | created => 2 * retries + 4
  | waiting _ => 2 * retries + 3
  | collecting p => 2 * (retries + 1 - p.attempts) + 2
  | sleeping p => 2 * (retries + 1 - p.attempts) + 1
  | ended _ | raised _ _ => 0

/-- What is left of a cycle. -/
def System.rank (retries : Nat) (s : System) : Nat :=
  (s.tasks.map (Task.rank retries)).sum + s.phase.rank

section

variable {retries : Nat} {approved : List Request} {db₀ : RunDb} {s s' : System}

/-- A task in the loop has attempts left, or is at its last. -/
theorem Task.Agrees.attempts_le {db : RunDb} {ends : List CollectEnd} {old : Task}
    (h : old.Agrees retries db ends) {p : Progress} (hhead : old.loopHead = some p) :
    p.attempts ≤ retries := by
  obtain ⟨-, hloop, hattempts, -⟩ := h.head hhead
  rw [hattempts]
  cases ends with
  | nil => exact Nat.zero_le _
  | cons e ends =>
    have hlength := (attemptLoop_eq_none.mp hloop).2 (List.cons_ne_nil _ _)
    omega

theorem Task.rank_pos {old : Task} (h : old.isOver = false) : 0 < old.rank retries := by
  cases old with
  | created | waiting | collecting | sleeping => exact Nat.succ_pos _
  | ended | raised => cases h

/-- A step of a task lowers what is left of it. -/
theorem TaskMove.rank_lt {request : Request} {stop cancelled : Bool} {old new : Task}
    {e : Option CollectEnd} {db db' : RunDb} {ends : List CollectEnd}
    (hmove : TaskMove retries request stop cancelled old e db new db')
    (h : old.Agrees retries db ends) : new.rank retries < old.rank retries := by
  have halive := hmove.alive
  cases hmove with
  | started => exact Nat.lt_succ_self _
  | @attempted _ p _ hhead =>
    have hattempts := h.attempts_le hhead
    cases old with
    | waiting runId =>
      cases hhead
      simp only [Task.rank]
      omega
    | sleeping p =>
      cases hhead
      simp only [Task.rank]
      omega
    | created | collecting | ended | raised => cases hhead
  | slept => exact Nat.lt_succ_self _
  | stopped | ended | unstarted | raised => exact Task.rank_pos halive

theorem System.rank_step {a : Action} (h : s.Accounted retries db₀)
    (hmove : Move retries approved s s' a) :
    s'.rank retries + a.isOwn.toNat ≤ s.rank retries := by
  unfold System.rank
  cases hmove with
  | run hs hphase hstop hcancelled hrank =>
    subst hs
    exact (Nat.add_assoc _ _ _).trans_le (Nat.add_le_add_left hrank _)
  | @task i request old new e hrequest hold hmove htasks hslots hstop hcancelled hphase =>
    have hsum := sum_map_set (Task.rank retries) hold new
    have hlower := hmove.rank_lt (h.tasks i old hold)
    have hown := Bool.toNat_le a.isOwn
    rw [htasks, hphase]
    omega

end

/-! ## Every run -/

section

variable {rt : Runtime} {r : Redactor} {o : Orchestrator} {approved : List Request} {db : RunDb}
  {stop : Bool} {actions : List Action} {s : System}

theorem run_slotted
    (hrun : Machine.run (System.step rt r o approved) (System.init o db stop approved) actions =
      some s) : s.Slotted o approved :=
  Machine.run_invariant (fun _ _ _ hs _ hstep => hs.step (step_move hstep))
    (System.Slotted.init db stop) (Machine.along_of_forall fun _ _ => trivial) hrun

/-- No more collectors run at once than `concurrency` allows. -/
theorem held_le_concurrency
    (hrun : Machine.run (System.step rt r o approved) (System.init o db stop approved) actions =
      some s) : s.tasks.countP Task.isCollecting ≤ o.concurrency := by
  have hslots := (run_slotted hrun).slots
  have hle : s.tasks.countP Task.isCollecting ≤ s.tasks.countP Task.held :=
    List.countP_mono_left fun task _ hcollecting => by
      cases task with
      | collecting => rfl
      | created | waiting | sleeping | ended | raised => cases hcollecting
  omega

/-- The steps that `run` and its tasks take are bounded, whatever the caller does. -/
theorem effort_bounded
    (hrun : Machine.run (System.step rt r o approved) (System.init o db stop approved) actions =
      some s) :
    actions.countP Action.isOwn ≤ approved.length * (2 * o.retries + 5) + 3 := by
  have hbound := Machine.countP_own_le (I := fun s => s.Accounted o.retries db) Action.isOwn
    (System.rank o.retries) (fun _ _ _ hs hstep => hs.step (step_move hstep))
    (fun _ _ _ hs hstep => System.rank_step hs (step_move hstep))
    (System.Accounted.init o db stop approved) hrun
  have hinit : (System.init o db stop approved).rank o.retries ≤
      approved.length * (2 * o.retries + 5) + 3 := by
    unfold System.rank System.init
    rw [List.map_map]
    have htasks : (approved.map (Task.rank o.retries ∘ fun _ => Task.created)).sum =
        approved.length * (2 * o.retries + 4) :=
      (List.sum_eq_card_nsmul _ _ fun n hn => by
        obtain ⟨request, -, rfl⟩ := List.mem_map.mp hn
        rfl).trans (by rw [List.length_map, smul_eq_mul])
    have hphase : Phase.rank (if approved = [] then .returned [] else .waiting) ≤
        approved.length + 3 := by
      split
      · exact Nat.zero_le _
      · next hne =>
        have hpos := List.length_pos_iff.mpr hne
        show 4 ≤ _
        omega
    calc _ ≤ approved.length * (2 * o.retries + 4) + (approved.length + 3) :=
          Nat.add_le_add htasks.le hphase
      _ = _ := by ring
  omega

/-- A list in which every task has ended has a summary for each. -/
theorem mapM_summary_isSome {tasks : List Task} (hover : ∀ task ∈ tasks, task.isOver = true)
    (hraised : ∀ task ∈ tasks, newFailure task = none) :
    ∃ summaries, tasks.mapM Task.summary = some summaries := by
  induction tasks with
  | nil => exact ⟨[], rfl⟩
  | cons task tasks ih =>
    obtain ⟨summaries, hsummaries⟩ := ih (fun t ht => hover t (List.mem_cons_of_mem _ ht))
      fun t ht => hraised t (List.mem_cons_of_mem _ ht)
    have hhead := hover task List.mem_cons_self
    cases task with
    | ended summary => exact ⟨summary :: summaries, by rw [List.mapM_cons, hsummaries]; rfl⟩
    | raised run exc => exact absurd (hraised _ List.mem_cons_self) (by simp [newFailure])
    | created | waiting | collecting | sleeping => cases hhead

/-- A step of the cycle that needs no collector, with what the clock and the repository answer. -/
def Action.IsInternal (answers : Nat → Answer) : Action → Prop
  | start _ given | enter _ given | wake _ given | cancel _ given => given = answers
  | watch | gather | drained | closed => True
  | setStop | cancelRun | collected _ _ _ => False

/-- `gather` has its result when all tasks are over. -/
theorem System.Orderly.gathered_isSome {interrupted : Prop} {retries : Nat}
    (h : s.Orderly interrupted retries)
    (hover : ∀ task ∈ s.tasks, task.isOver = true) : ∃ result, s.gathered = some result := by
  unfold System.gathered
  cases hfailure : s.failure with
  | some exc => exact ⟨_, rfl⟩
  | none =>
    obtain ⟨summaries, hsummaries⟩ := mapM_summary_isSome hover (h.noticed hfailure)
    exact ⟨_, by rw [hsummaries]; rfl⟩

/-- A cycle that is not over waits for a collector, or has a step to take whatever the clock and the
repository answer. -/
theorem waits_for_collector
    (hrun : Machine.run (System.step rt r o approved) (System.init o db stop approved) actions =
      some s) (hphase : s.phase.isOver = false) (answers : Nat → Answer) :
    (∃ (i : Nat) (p : Progress), s.tasks[i]? = some (.collecting p)) ∨
      ∃ a s', a.IsInternal answers ∧ s.step rt r o approved a = some s' := by
  have hslotted := run_slotted hrun
  have horderly := run_orderly hrun
  have hrequest : ∀ {i : Nat} {task : Task}, s.tasks[i]? = some task →
      ∃ request, approved[i]? = some request := by
    intro i task hi
    have hlt := (List.getElem?_eq_some_iff.mp hi).1
    rw [hslotted.tasks] at hlt
    exact ⟨_, List.getElem?_eq_getElem hlt⟩
  by_cases hover : ∀ task ∈ s.tasks, task.isOver = true
  · right
    obtain ⟨result, hresult⟩ := horderly.gathered_isSome hover
    cases hcase : s.phase with
    | waiting =>
      refine ⟨.gather, s.resume false result, trivial, ?_⟩
      simp only [System.step, hcase, hresult]
    | gathering requested =>
      refine ⟨.gather, s.resume requested result, trivial, ?_⟩
      simp only [System.step, hcase, hresult]
    | draining =>
      refine ⟨.drained, { s with phase := .closing (.error .cancelled) false }, trivial, ?_⟩
      simp only [System.step, hcase]
      exact if_pos (List.all_eq_true.mpr hover)
    | closing outcome requested =>
      refine ⟨.closed, { s with phase := Phase.closed outcome requested }, trivial, ?_⟩
      simp only [System.step, hcase]
    | returned | raised =>
      rw [hcase] at hphase
      cases hphase
  · push Not at hover
    obtain ⟨task, htask, halive⟩ := hover
    obtain ⟨i, hi⟩ := List.mem_iff_getElem?.mp htask
    obtain ⟨request, hreq⟩ := hrequest hi
    have hwake : ∀ {j : Nat} {p : Progress}, s.tasks[j]? = some (.sleeping p) →
        ∃ a s', Action.IsInternal answers a ∧ s.step rt r o approved a = some s' := by
      intro j p hj
      obtain ⟨request, hreq⟩ := hrequest hj
      exact ⟨.wake j answers, _, rfl, by simp only [System.step, hreq, hj]; rfl⟩
    cases task with
    | created =>
      exact .inr ⟨.start i answers, _, rfl, by simp only [System.step, hreq, hi]; rfl⟩
    | collecting p => exact .inl ⟨i, p, hi⟩
    | sleeping p => exact .inr (hwake hi)
    | ended | raised => exact absurd rfl halive
    | waiting runId =>
      by_cases hfree : 0 < s.slots
      · refine .inr ⟨.enter i answers, s.proceed i request (.waiting runId)
          (attempt request s.stop { runId } answers), rfl, ?_⟩
        simp only [System.step, hreq, hi]
        exact if_pos hfree
      · have hheld : 0 < s.tasks.countP Task.held := by
          have hslots := hslotted.slots
          have hpos := o.concurrency_pos
          omega
        obtain ⟨holder, hholder, hheld⟩ := List.countP_pos_iff.mp hheld
        obtain ⟨j, hj⟩ := List.mem_iff_getElem?.mp hholder
        cases holder with
        | collecting p => exact .inl ⟨j, p, hj⟩
        | sleeping p => exact .inr (hwake hj)
        | created | waiting | ended | raised => cases hheld

/-- The semaphore bounds the collectors, the steps are bounded, and a cycle that is not over waits for
a collector or has a step to take. -/
theorem cycle_progresses
    (hrun : Machine.run (System.step rt r o approved) (System.init o db stop approved) actions =
      some s) :
    s.tasks.countP Task.isCollecting ≤ o.concurrency ∧
      actions.countP Action.isOwn ≤ approved.length * (2 * o.retries + 5) + 3 ∧
      (s.phase.isOver = false → ∀ answers : Nat → Answer,
        (∃ (i : Nat) (p : Progress), s.tasks[i]? = some (.collecting p)) ∨
          ∃ a s', a.IsInternal answers ∧ s.step rt r o approved a = some s') :=
  ⟨held_le_concurrency hrun, effort_bounded hrun, waits_for_collector hrun⟩

/-- AD waits for SNMP's slot, and SNMP for its next attempt. -/
theorem cycle_progresses_sample : ∃ s, sampleAfter [sampleSnmp, sampleAd]
      ([.start 0 steady, .start 1 steady] ++ (snmpCourse 0).take 2) = some s ∧
    s.slots = 0 ∧ s.tasks.countP Task.isCollecting ≤ 1 ∧
      ∃ a s', a.IsInternal steady ∧
        s.step (.ofDigests []) ⟨[], []⟩ sampleOrchestrator [sampleSnmp, sampleAd] a = some s' := by
  have hsummary : (sampleAfter [sampleSnmp, sampleAd]
      ([.start 0 steady, .start 1 steady] ++ (snmpCourse 0).take 2)).map (fun s =>
        (s.slots, s.phase.isOver, s.tasks.any Task.isCollecting)) = some (0, false, false) := by
    decide +kernel
  obtain ⟨s, hrun, hs⟩ := Option.map_eq_some_iff.mp hsummary
  obtain ⟨hslots, hs⟩ := Prod.mk.inj hs
  obtain ⟨hphase, hnone⟩ := Prod.mk.inj hs
  obtain ⟨hbound, -, hprogress⟩ := cycle_progresses hrun
  refine ⟨s, hrun, hslots, hbound, (hprogress hphase steady).resolve_left ?_⟩
  rintro ⟨i, p, hi⟩
  exact absurd rfl (List.any_eq_false.mp hnone _ (List.mem_of_getElem? hi))

end

end FieldDiscovery.Collectors
