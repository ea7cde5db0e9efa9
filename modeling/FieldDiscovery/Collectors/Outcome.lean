import FieldDiscovery.Collectors.Lifecycle

/-!
# What a cycle comes to

As long as the cancellation event is not set, a task comes to what the ends of its own calls say,
whatever the other tasks do (`verdict_alone`). `run` ends when its tasks are over, or after the first
exception of a task, which leaves the other tasks running; it raises that exception, unless it is
cancelled in its `finally` clause (`end_accounted`).
-/

namespace FieldDiscovery.Collectors

open Py Repository Redaction

/-! ## `run` -/

/-- Why `run` is where it is, where `interrupted` says whether its caller may have cancelled it. -/
def Phase.Justified (interrupted : Prop) (tasks : List Task) (failure : Option Exc) : Phase → Prop
  | waiting | gathering _ | draining => True
  | closing outcome requested => ComesTo tasks failure outcome ∧ (requested = true → interrupted)
  | returned summaries => ComesTo tasks failure (.ok summaries)
  | raised exc => ComesTo tasks failure (.error exc) ∨
      exc = .cancelled ∧ interrupted ∧ ∃ outcome, ComesTo tasks failure outcome

/-- What holds of a cycle besides the accounts of its tasks. -/
structure System.Orderly (interrupted : Prop) (retries : Nat) (s : System) : Prop where
  cancelled : s.cancelled = true → s.stop = true
  /-- As long as the event is not set, the ends of its calls decide what a task comes to. -/
  undisturbed : s.stop = false → ∀ (i : Nat) (summary : Summary),
    s.tasks[i]? = some (.ended summary) →
      attemptLoop retries 0 (s.endsOf i) = some summary.verdict
  /-- The exception is that of a task. -/
  failure : ∀ exc ∈ s.failure, ∃ run, .raised run exc ∈ s.tasks
  /-- No task has raised unnoticed. -/
  noticed : s.failure = none → ∀ task ∈ s.tasks, newFailure task = none
  phase : s.phase.Justified interrupted s.tasks s.failure
  /-- A call is repeated only after an end that allows it. -/
  persists : ∀ i, attemptLoop retries 0 (s.endsOf i).dropLast = none

/-- A run that ends is not running. -/
theorem attemptLoop_status {retries n : Nat} {ends : List CollectEnd} {v : Verdict}
    (h : attemptLoop retries n ends = some v) : v.status ≠ .running := by
  induction ends generalizing n with
  | nil => cases h
  | cons e ends ih =>
    rw [attemptLoop] at h
    rcases Option.or_eq_some_iff.mp h with h | ⟨-, h⟩
    · unfold CollectEnd.verdict at h
      split at h
      · cases h
        split <;> exact fun heq => by cases heq
      · split at h
        · cases h
        · cases h
          exact fun heq => by cases heq
      · cases h
        exact fun heq => by cases heq
    · exact ih h

section

variable {interrupted : Prop} {retries : Nat} {approved : List Request} {db₀ : RunDb}
  {s s' : System}

/-- A task that ends undisturbed comes to what its calls say. -/
theorem TaskMove.undisturbed {request : Request} {old : Task} {e : Option CollectEnd}
    {db db' : RunDb} {ends : List CollectEnd} {summary : Summary}
    (hmove : TaskMove retries request false false old e db (.ended summary) db')
    (h : old.Agrees retries db ends) :
    attemptLoop retries 0 (ends ++ e.toList) = some summary.verdict := by
  cases hmove with
  | stopped hhead hinterruption => exact absurd hinterruption (by simp)
  | @ended p e v n _ d _ hverdict =>
    obtain ⟨hloop, hattempts, herrors, -⟩ := h
    rw [Option.toList_some, attemptLoop_concat hloop, Nat.zero_add, ← hattempts, ← herrors]
    exact hverdict

/-- A call that ends was made because the loop went on. -/
theorem TaskMove.persists {request : Request} {stop cancelled : Bool} {old new : Task}
    {e : CollectEnd} {db db' : RunDb} {ends : List CollectEnd}
    (hmove : TaskMove retries request stop cancelled old (some e) db new db')
    (h : old.Agrees retries db ends) : attemptLoop retries 0 ends = none := by
  cases hmove with
  | slept | ended => exact h.1
  | raised halive hrun hended =>
    cases old with
    | collecting p => exact h.1
    | created | waiting | sleeping | ended | raised => cases hended

theorem System.Orderly.init (o : Orchestrator) (db : RunDb) (stop : Bool)
    (approved : List Request) : (System.init o db stop approved).Orderly interrupted retries where
  cancelled h := by cases h
  undisturbed _ i summary hi := by
    obtain ⟨request, -, h⟩ := List.mem_map.mp (List.mem_of_getElem? hi)
    cases h
  failure exc h := by cases h
  noticed _ task htask := by
    obtain ⟨request, -, rfl⟩ := List.mem_map.mp htask
    rfl
  phase := by
    unfold System.init
    split
    · next h =>
      subst h
      exact ⟨rfl, rfl⟩
    · trivial
  persists _ := rfl

theorem Phase.justified_of_waits {phase : Phase} {tasks : List Task} {failure : Option Exc}
    (h : phase.waits = true) : phase.Justified interrupted tasks failure := by
  cases phase with
  | waiting | gathering | draining => trivial
  | closing | returned | raised => cases h

/-- How `run` ends is what its `try` statement came to, or its cancellation. -/
theorem Phase.Justified.closed {outcome : Except Exc (List Summary)} {requested : Bool}
    {tasks : List Task} {failure : Option Exc}
    (h : (Phase.closing outcome requested).Justified interrupted tasks failure) :
    (Phase.closed outcome requested).Justified interrupted tasks failure := by
  obtain ⟨hcomes, hinterrupted⟩ := h
  cases requested with
  | true => exact .inr ⟨rfl, hinterrupted rfl, outcome, hcomes⟩
  | false =>
    cases outcome with
    | ok summaries => exact hcomes
    | error exc => exact .inl hcomes

/-- A task that moves was not over, so `run` did not come to an end for want of tasks. -/
theorem ComesTo.set {outcome : Except Exc (List Summary)} {tasks : List Task}
    {failure : Option Exc} {i : Nat} {old new : Task} (h : ComesTo tasks failure outcome)
    (hold : tasks[i]? = some old) (halive : old.isOver = false) :
    ComesTo (tasks.set i new) (failure.or (newFailure new)) outcome := by
  cases outcome with
  | ok summaries =>
    obtain ⟨summary, hsummary⟩ : ∃ summary, old.summary = some summary := by
      have hforall := Option.mapM_eq_some_iff.mp h.2
      obtain ⟨summary, -, hsummary⟩ := hforall.exists_of_mem_left (List.mem_of_getElem? hold)
      exact ⟨summary, hsummary⟩
    cases old with
    | ended => cases halive
    | created | waiting | collecting | sleeping | raised => cases hsummary
  | error exc =>
    rcases h with h | ⟨-, h⟩
    · left
      rw [h, Option.some_or]
    · rw [h old (List.mem_of_getElem? hold)] at halive
      cases halive

theorem Phase.Justified.set {phase : Phase} {tasks : List Task} {failure : Option Exc} {i : Nat}
    {old new : Task} (h : phase.Justified interrupted tasks failure) (hold : tasks[i]? = some old)
    (halive : old.isOver = false) :
    phase.Justified interrupted (tasks.set i new) (failure.or (newFailure new)) := by
  cases phase with
  | waiting | gathering | draining => trivial
  | closing outcome requested => exact ⟨h.1.set hold halive, h.2⟩
  | returned summaries =>
    have hcomes : ComesTo tasks failure (.ok summaries) := h
    exact hcomes.set hold halive
  | raised exc =>
    rcases h with h | ⟨hexc, hinterrupted, outcome, h⟩
    · exact .inl (h.set hold halive)
    · exact .inr ⟨hexc, hinterrupted, outcome, h.set hold halive⟩

theorem System.Orderly.task {i : Nat} {request : Request} {old new : Task} {e : Option CollectEnd}
    (h : s.Orderly interrupted retries) (haccounted : s.Accounted retries db₀)
    (hold : s.tasks[i]? = some old)
    (hmove : TaskMove retries request s.stop s.cancelled old e s.db new s'.db)
    (htasks : s'.tasks = s.tasks.set i new)
    (hstop : s'.stop = (s.stop || e.any CollectEnd.isCancelled))
    (hcancelled : s'.cancelled = s.cancelled) (hphase : s'.phase = s.phase)
    (hfailure : s'.failure = s.failure.or (newFailure new))
    (hends : ∀ j, s'.endsOf j = s.endsOf j ++ if i = j then e.toList else []) :
    s'.Orderly interrupted retries := by
  have hset : ∀ task ∈ s'.tasks, task ∈ s.tasks ∨ task = new := fun task htask =>
    List.mem_or_eq_of_mem_set (htasks ▸ htask)
  have hkept : ∀ task ∈ s.tasks, task.isOver = true → task ∈ s'.tasks := by
    intro task htask hover
    obtain ⟨j, hj⟩ := List.mem_iff_getElem?.mp htask
    refine List.mem_iff_getElem?.mpr ⟨j, ?_⟩
    rw [htasks, List.getElem?_set_ne, hj]
    rintro rfl
    cases hold.symm.trans hj
    rw [hmove.alive] at hover
    cases hover
  have hnew : new ∈ s'.tasks := by
    rw [htasks]
    exact List.mem_set (List.getElem?_eq_some_iff.mp hold).1 new
  refine ⟨fun hs => ?_, fun hs j summary hj => ?_, fun exc hexc => ?_, fun hnone task htask => ?_, ?_,
    fun j => ?_⟩
  · rw [hstop, h.cancelled (hcancelled ▸ hs), Bool.true_or]
  · have hclear : s.stop = false := (Bool.or_eq_false_iff.mp (hstop ▸ hs)).1
    have huncancelled : s.cancelled = false := by
      by_contra hcan
      rw [h.cancelled (Bool.eq_true_of_not_eq_false hcan)] at hclear
      cases hclear
    rw [hclear, huncancelled] at hmove
    by_cases hij : i = j
    · subst hij
      rw [htasks, List.getElem?_set_self (List.getElem?_eq_some_iff.mp hold).1] at hj
      cases hj
      rw [hends, if_pos rfl]
      exact hmove.undisturbed (haccounted.tasks i old hold)
    · rw [htasks, List.getElem?_set_ne hij] at hj
      rw [hends, if_neg hij, List.append_nil]
      exact h.undisturbed hclear j summary hj
  · rw [hfailure] at hexc
    rcases Option.or_eq_some_iff.mp hexc with hexc | ⟨-, hexc⟩
    · obtain ⟨run, hrun⟩ := h.failure exc hexc
      exact ⟨run, hkept _ hrun rfl⟩
    · cases new with
      | raised run exc' =>
        cases hexc
        exact ⟨run, hnew⟩
      | created | waiting | collecting | sleeping | ended => cases hexc
  · rw [hfailure, Option.or_eq_none_iff] at hnone
    rcases hset task htask with htask | rfl
    · exact h.noticed hnone.1 task htask
    · exact hnone.2
  · rw [hphase, htasks, hfailure]
    exact h.phase.set hold hmove.alive
  · rw [hends]
    split
    · next hij =>
      subst hij
      cases e with
      | none =>
        rw [Option.toList_none, List.append_nil]
        exact h.persists i
      | some e =>
        rw [Option.toList_some, List.dropLast_concat]
        exact hmove.persists (haccounted.tasks i old hold)
    · rw [List.append_nil]
      exact h.persists j

theorem System.Orderly.step {a : Action} (h : s.Orderly interrupted retries)
    (haccounted : s.Accounted retries db₀) (ha : a = .cancelRun → interrupted)
    (hmove : Move retries approved s s' a) : s'.Orderly interrupted retries := by
  cases hmove with
  | run hs hphase hstop hcancelled =>
    subst hs
    refine ⟨fun hc => ?_, fun hclear => h.undisturbed ?_, h.failure, h.noticed, ?_, h.persists⟩
    · exact (hcancelled hc).elim (fun hc => hstop (h.cancelled hc)) id
    · by_contra hset
      rw [hstop (Bool.eq_true_of_not_eq_false hset)] at hclear
      cases hclear
    · have hbefore := h.phase
      cases hphase with
      | same => exact hbefore
      | waits hwaits => exact Phase.justified_of_waits hwaits
      | closes hcomes => exact ⟨hcomes, fun heq => by cases heq⟩
      | interrupted hclosing hcancel =>
        rw [hclosing] at hbefore
        exact ⟨hbefore.1, fun _ => ha hcancel⟩
      | closed hclosing =>
        rw [hclosing] at hbefore
        exact hbefore.closed
  | task hrequest hold htask htasks hslots hstop hcancelled hphase hfailure hcalls hends =>
    refine h.task haccounted hold htask htasks hstop hcancelled hphase hfailure fun j => ?_
    unfold System.endsOf
    rw [hends, List.filterMap_append, filterMap_ends]

end

/-! ## Every run -/

section

variable {rt rt' : Runtime} {r r' : Redactor} {o o' : Orchestrator}
  {approved approved' : List Request} {db db' : RunDb} {stop stop' : Bool}
  {actions actions' : List Action} {s s' : System}

theorem run_orderly
    (hrun : Machine.run (System.step rt r o approved) (System.init o db stop approved) actions =
      some s) : s.Orderly (.cancelRun ∈ actions) o.retries :=
  (Machine.run_invariant
    (I := fun s => s.Accounted o.retries db ∧ s.Orderly (.cancelRun ∈ actions) o.retries)
    (fun _ _ _ hs ha hstep =>
      ⟨hs.1.step (step_move hstep), hs.2.step hs.1 ha (step_move hstep)⟩)
    ⟨System.Accounted.init o db stop approved, System.Orderly.init o db stop approved⟩
    (Machine.along_of_forall (Q := fun a => a = .cancelRun → .cancelRun ∈ actions)
      fun _ hmem heq => heq ▸ hmem) hrun).2

/-- `collect` is called at most `retries + 1` times for a task, again only after a timeout or a
transport failure, and no more after any other end. -/
theorem calls_bounded
    (hrun : Machine.run (System.step rt r o approved) (System.init o db stop approved) actions =
      some s) {i : Nat} {task : Task} (hi : s.tasks[i]? = some task) :
    (s.callsOf i).length ≤ o.retries + 1 ∧
      (∀ e ∈ (s.endsOf i).dropLast, e.isRetried = true) ∧
      ∀ e ∈ s.endsOf i, e.isRetried = false → (s.callsOf i).length = (s.endsOf i).length := by
  have haccounted := accounted_run hrun
  obtain ⟨hretried, hlength⟩ := attemptLoop_eq_none.mp ((run_orderly hrun).persists i)
  have hcalls : (s.callsOf i).length = (s.endsOf i).length + task.isCollecting.toNat := by
    rw [← List.length_map CollectCall.attempt, haccounted.calls i task hi, List.length_range']
  have hcollecting : task.isCollecting = true → attemptLoop o.retries 0 (s.endsOf i) = none := by
    have hagrees := haccounted.tasks i task hi
    intro htask
    cases task with
    | collecting p => exact hagrees.1
    | created | waiting | sleeping | ended | raised => cases htask
  refine ⟨?_, hretried, fun e he hfinal => ?_⟩
  · cases htask : task.isCollecting with
    | true =>
      have hloop := (attemptLoop_eq_none.mp (hcollecting htask)).2
      rw [hcalls, htask, Bool.toNat_true]
      cases hends : s.endsOf i with
      | nil => exact Nat.succ_le_succ (Nat.zero_le _)
      | cons e ends =>
        have := hloop (hends ▸ List.cons_ne_nil _ _)
        rw [← hends]
        omega
    | false =>
      rw [List.length_dropLast] at hlength
      rw [hcalls, htask, Bool.toNat_false]
      by_cases hdrop : (s.endsOf i).dropLast = []
      · have hone := congrArg List.length hdrop
        rw [List.length_dropLast, List.length_nil] at hone
        omega
      · have := hlength hdrop
        omega
  · cases htask : task.isCollecting with
    | true =>
      have hloop := (attemptLoop_eq_none.mp (hcollecting htask)).1 e he
      rw [hfinal] at hloop
      cases hloop
    | false => rw [hcalls, htask, Bool.toNat_false, Nat.add_zero]

/-- SNMP is called twice, and AD, whose credential is rejected, once. -/
theorem calls_bounded_sample : ∃ s, sampleAfter [sampleSnmp, sampleAd] sampleCourse = some s ∧
    s.endsOf 1 = [.failed .authentication] ∧ (s.callsOf 1).length = 1 ∧
      (s.callsOf 0).length ≤ 2 := by
  have hsummary : (sampleAfter [sampleSnmp, sampleAd] sampleCourse).map (fun s =>
      (s.endsOf 1, s.tasks.length)) = some ([.failed .authentication], 2) := by
    decide +kernel
  obtain ⟨s, hrun, hs⟩ := Option.map_eq_some_iff.mp hsummary
  obtain ⟨hends, hlength⟩ := Prod.mk.inj hs
  have htask : ∀ i < 2, s.tasks[i]? = some (s.tasks.getD i .created) := by
    intro i hi
    have hlt : i < s.tasks.length := hi.trans_eq hlength.symm
    rw [List.getElem?_eq_getElem hlt, List.getD_eq_getElem _ _ hlt]
  have honce := (calls_bounded hrun (htask 1 (by decide))).2.2 (.failed .authentication)
    (by rw [hends]; exact List.mem_singleton_self _) rfl
  rw [hends] at honce
  exact ⟨s, hrun, hends, honce, (calls_bounded hrun (htask 0 (by decide))).1⟩

/-- Two tasks whose calls of `collect` have the same ends come to the same, each in a cycle of its own
with whatever other requests, collectors and interleaving, and so does the database. -/
theorem verdict_alone (hretries : o'.retries = o.retries)
    (hrun : Machine.run (System.step rt r o approved) (System.init o db stop approved) actions =
      some s)
    (hrun' : Machine.run (System.step rt' r' o' approved') (System.init o' db' stop' approved')
      actions' = some s')
    (hstop : s.stop = false) (hstop' : s'.stop = false) {i j : Nat} {summary summary' : Summary}
    (hi : s.tasks[i]? = some (.ended summary)) (hj : s'.tasks[j]? = some (.ended summary'))
    (hends : s.endsOf i = s'.endsOf j) :
    summary.verdict = summary'.verdict ∧
      HasRun s.db summary.runId summary.IsFinal summary.errorCount ∧
      HasRun s'.db summary'.runId summary'.IsFinal summary'.errorCount := by
  have hverdict := (run_orderly hrun).undisturbed hstop i summary hi
  have hverdict' := (run_orderly hrun').undisturbed hstop' j summary' hj
  rw [hretries, ← hends, hverdict] at hverdict'
  exact ⟨Option.some.inj hverdict', ((accounted_run hrun).tasks i _ hi).2,
    ((accounted_run hrun').tasks j _ hj).2⟩

/-- SNMP with AD beside it, and alone. -/
theorem verdict_alone_sample : ∃ s s',
    sampleAfter [sampleSnmp, sampleAd] sampleCourse = some s ∧
      sampleAfter [sampleSnmp] (.start 0 steady :: snmpCourse 0) = some s' ∧
      ∃ summary summary' : Summary, s.tasks[0]? = some (.ended summary) ∧
        s'.tasks[0]? = some (.ended summary') ∧ summary.verdict = summary'.verdict := by
  have hsummary : (sampleAfter [sampleSnmp, sampleAd] sampleCourse).map (fun s =>
      (s.stop, s.tasks[0]?.bind Task.summary, s.endsOf 0)) = some (false,
        some ⟨1, str "snmp", str "192.168.50.10", .partially, 2, 3, 2⟩,
        [.failed .timeout, .returned ⟨3, [⟨str "snmp", str "no route", false⟩]⟩]) := by
    decide +kernel
  have hsummary' : (sampleAfter [sampleSnmp] (.start 0 steady :: snmpCourse 0)).map (fun s =>
      (s.stop, s.tasks[0]?.bind Task.summary, s.endsOf 0)) = some (false,
        some ⟨1, str "snmp", str "192.168.50.10", .partially, 2, 3, 2⟩,
        [.failed .timeout, .returned ⟨3, [⟨str "snmp", str "no route", false⟩]⟩]) := by
    decide +kernel
  obtain ⟨s, hrun, hs⟩ := Option.map_eq_some_iff.mp hsummary
  obtain ⟨s', hrun', hs'⟩ := Option.map_eq_some_iff.mp hsummary'
  obtain ⟨hstop, hs⟩ := Prod.mk.inj hs
  obtain ⟨hstop', hs'⟩ := Prod.mk.inj hs'
  obtain ⟨htask, hends⟩ := Prod.mk.inj hs
  obtain ⟨htask', hends'⟩ := Prod.mk.inj hs'
  obtain ⟨task, hi, hended⟩ := Option.bind_eq_some_iff.mp htask
  obtain ⟨task', hj, hended'⟩ := Option.bind_eq_some_iff.mp htask'
  obtain rfl := Task.eq_ended hended
  obtain rfl := Task.eq_ended hended'
  exact ⟨s, s', hrun, hrun', _, _, hi, hj,
    (verdict_alone rfl hrun hrun' hstop hstop' hi hj (hends.trans hends'.symm)).1⟩

/-- A run of the cycle has one row. -/
theorem row_unique {runId : Nat} {row row' : RunRow}
    (h : (runId, row) ∈ s.db.runs.rows) (h' : (runId, row') ∈ s.db.runs.rows) : row = row' := by
  have hnodup : (s.db.runs.rows.map Prod.fst).Nodup := s.db.runs.ordered.imp Nat.ne_of_lt
  exact congrArg Prod.snd (List.inj_on_of_nodup_map hnodup h h' rfl)

/-- A task that has ended leaves a row that is not running. -/
theorem System.Accounted.ended_final {retries : Nat} (h : s.Accounted retries db) {i : Nat}
    {summary : Summary} (hi : s.tasks[i]? = some (.ended summary)) {row : RunRow}
    (hrow : (summary.runId, row) ∈ s.db.runs.rows) : row.status ≠ .running := by
  obtain ⟨hverdict, hrun⟩ := h.tasks i _ hi
  obtain ⟨row', hrow', hfinal⟩ := hrun.row
  rw [row_unique hrow hrow', hfinal.status]
  rcases hverdict with hverdict | ⟨-, hverdict⟩
  · exact attemptLoop_status hverdict
  · have hstatus : summary.status = .cancelled := congrArg Verdict.status hverdict
    rw [hstatus]
    exact fun heq => by cases heq

/-- What the `try` statement came to is the exception of a task, or the tasks are over. -/
theorem System.Orderly.comesTo {interrupted : Prop} {retries : Nat}
    (h : s.Orderly interrupted retries) {outcome : Except Exc (List Summary)}
    (hcomes : ComesTo s.tasks s.failure outcome) : (∀ task ∈ s.tasks, task.isOver = true) ∨
      ∃ exc run, outcome = .error exc ∧ .raised run exc ∈ s.tasks := by
  cases outcome with
  | ok summaries =>
    left
    intro task htask
    obtain ⟨summary, -, hsummary⟩ := (Option.mapM_eq_some_iff.mp hcomes.2).exists_of_mem_left htask
    cases task with
    | ended | raised => rfl
    | created | waiting | collecting | sleeping => cases hsummary
  | error exc =>
    rcases hcomes with hfailure | ⟨-, hall⟩
    · obtain ⟨run, hraised⟩ := h.failure exc hfailure
      exact .inr ⟨exc, run, rfl, hraised⟩
    · exact .inl hall

/-- When `run` is over, its tasks are over, or one of them has raised and `run` has raised the same,
unless its caller cancelled it; and a row of the cycle that is still running belongs to a task that has
raised or is not over. -/
theorem end_accounted
    (hrun : Machine.run (System.step rt r o approved) (System.init o db stop approved) actions =
      some s) (hover : s.phase.isOver = true) :
    ((∀ task ∈ s.tasks, task.isOver = true) ∨ ∃ exc run, .raised run exc ∈ s.tasks ∧
      (s.phase = .raised exc ∨ s.phase = .raised .cancelled ∧ .cancelRun ∈ actions)) ∧
    ∀ row ∈ s.db.runs.rows, row ∈ db.runs.rows ∨ row.2.status ≠ .running ∨
      ∃ task ∈ s.tasks, task.run = some row.1 ∧
        (task.isOver = false ∨ ∃ exc, task = .raised (some row.1) exc) := by
  have haccounted := accounted_run hrun
  have horderly := run_orderly hrun
  constructor
  · have hphase := horderly.phase
    cases hcase : s.phase with
    | waiting | gathering | draining | closing =>
      rw [hcase] at hover
      cases hover
    | returned summaries =>
      rw [hcase] at hphase
      have hcomes : ComesTo s.tasks s.failure (.ok summaries) := hphase
      rcases horderly.comesTo hcomes with hall | ⟨_, _, heq, -⟩
      · exact .inl hall
      · cases heq
    | raised exc =>
      rw [hcase] at hphase
      rcases hphase with hcomes | ⟨rfl, hinterrupted, outcome, hcomes⟩
      · rcases horderly.comesTo hcomes with hall | ⟨exc', run, heq, hraised⟩
        · exact .inl hall
        · cases heq
          exact .inr ⟨exc, run, hraised, .inl rfl⟩
      · rcases horderly.comesTo hcomes with hall | ⟨exc', run, -, hraised⟩
        · exact .inl hall
        · exact .inr ⟨exc', run, hraised, .inr ⟨rfl, hinterrupted⟩⟩
  · rintro ⟨runId, row⟩ hrow
    obtain ⟨added, hadded, hperm⟩ := haccounted.runs
    rcases List.mem_append.mp (hadded ▸ hrow) with hold | hnew
    · exact .inl hold
    · obtain ⟨task, htask, htaskRun⟩ := List.mem_filterMap.mp
        (hperm.mem_iff.mp (List.mem_map_of_mem hnew))
      obtain ⟨i, hi⟩ := List.mem_iff_getElem?.mp htask
      right
      cases task with
      | ended summary =>
        left
        cases htaskRun
        exact haccounted.ended_final hi hrow
      | raised run exc =>
        cases htaskRun
        exact .inr ⟨_, htask, rfl, .inr ⟨exc, rfl⟩⟩
      | created => cases htaskRun
      | waiting | collecting | sleeping => exact .inr ⟨_, htask, htaskRun, .inl rfl⟩

end

/-- The repository fails when the run of SNMP is to be recorded, and `run` is cancelled in its `finally`
clause while AD waits for the semaphore. -/
def interruptedCourse : List Action :=
  [.start 0 fun _ => ⟨sampleStart, true⟩, .start 1 steady, .gather, .cancelRun, .closed]

/-- In one cycle `run` has returned, and both runs are final; in the other it has raised what no task
has raised. -/
theorem end_accounted_sample : (∃ s, sampleAfter [sampleSnmp, sampleAd] sampleCourse = some s ∧
      s.phase.isOver = true ∧ s.db.runs.rows.map Prod.fst = [1, 2] ∧
      ∀ row ∈ s.db.runs.rows, row.2.status ≠ .running) ∧
    ∃ s, sampleAfter [sampleSnmp, sampleAd] interruptedCourse = some s ∧
      s.tasks[1]?.map Task.isOver = some false ∧ s.phase.isOver = true ∧
      ∃ exc run, .raised run exc ∈ s.tasks ∧ (s.phase = .raised exc ∨ s.phase = .raised .cancelled) := by
  constructor
  · have hsummary : (sampleAfter [sampleSnmp, sampleAd] sampleCourse).map (fun s =>
        (s.phase.isOver, s.db.runs.rows.map Prod.fst,
          s.tasks.all fun task => task.summary.isSome)) = some (true, [1, 2], true) := by
      decide +kernel
    obtain ⟨s, hrun, hs⟩ := Option.map_eq_some_iff.mp hsummary
    obtain ⟨hover, hs⟩ := Prod.mk.inj hs
    obtain ⟨hrows, hended⟩ := Prod.mk.inj hs
    refine ⟨s, hrun, hover, hrows, fun row hrow => ?_⟩
    rcases (end_accounted hrun hover).2 row hrow with hold | hfinal | ⟨task, htask, hown, halive⟩
    · cases hold
    · exact hfinal
    · obtain ⟨summary, hsummary⟩ :=
        Option.isSome_iff_exists.mp (List.all_eq_true.mp hended task htask)
      obtain rfl := Task.eq_ended hsummary
      rcases halive with halive | ⟨exc, hraised⟩
      · cases halive
      · cases hraised
  · have hsummary : (sampleAfter [sampleSnmp, sampleAd] interruptedCourse).map (fun s =>
        (s.phase.isOver, s.tasks[1]?.map Task.isOver)) = some (true, some false) := by
      decide +kernel
    obtain ⟨s, hrun, hs⟩ := Option.map_eq_some_iff.mp hsummary
    obtain ⟨hover, halive⟩ := Prod.mk.inj hs
    refine ⟨s, hrun, halive, hover, ?_⟩
    rcases (end_accounted hrun hover).1 with hall | ⟨exc, run, hraised, hphase⟩
    · obtain ⟨task, htask, hfalse⟩ := Option.map_eq_some_iff.mp halive
      rw [hall task (List.mem_of_getElem? htask)] at hfalse
      cases hfalse
    · exact ⟨exc, run, hraised, hphase.imp_right And.left⟩

/-! ## Approved targets -/

/-- Every call of `collect` is for the request of its task. -/
def System.Addressed (approved : List Request) (s : System) : Prop :=
  ∀ call ∈ s.calls, ∃ request, approved[call.task]? = some request ∧ call.context = request.context

section

variable {rt : Runtime} {r : Redactor} {o : Orchestrator} {requests approved : List Request}
  {db : RunDb} {stop : Bool} {actions : List Action} {s s' : System}

theorem System.Addressed.step {retries : Nat} {a : Action} (h : s.Addressed approved)
    (hmove : Move retries approved s s' a) : s'.Addressed approved := by
  cases hmove with
  | run hs =>
    subst hs
    exact h
  | @task i request old new e hrequest hold htask htasks hslots hstop hcancelled hphase hfailure
      hcalls =>
    intro call hcall
    rw [hcalls] at hcall
    rcases List.mem_append.mp hcall with hcall | hcall
    · exact h call hcall
    · unfold newCalls at hcall
      split at hcall
      · rw [List.mem_singleton.mp hcall]
        exact ⟨request, hrequest, rfl⟩
      · cases hcall

/-- Every collector is registered when the loop that looks for them comes through. -/
theorem registered_of_forM {collectors : List Str} {l : List Request}
    (h : (l.forM fun request => if request.collector ∈ collectors then return ()
      else throw (.unknownCollector
        (str "collector is not registered: " ++ request.collector)) : Except Exc Unit) = .ok ()) :
    ∀ request ∈ l, request.collector ∈ collectors := by
  induction l with
  | nil => exact fun _ h => absurd h List.not_mem_nil
  | cons request l ih =>
    obtain ⟨⟨⟩, hhead, htail⟩ := Except.bind_eq_ok.mp h
    refine List.forall_mem_cons.mpr ⟨?_, ih htail⟩
    by_contra hmissing
    cases (if_neg hmissing).symm.trans hhead

/-- What is approved stands for the requests, one by one. -/
theorem approve_spec (h : o.approve requests = .ok approved) :
    List.Forall₂ (fun request request' =>
      approveTarget o.approvedRanges request.target = .ok request'.target ∧
        request'.collector = request.collector ∧
        request'.credentialRef = request.credentialRef) requests approved ∧
      ∀ request ∈ approved, request.collector ∈ o.collectors := by
  unfold Orchestrator.approve at h
  obtain ⟨approved', happroved, h⟩ := Except.bind_eq_ok.mp h
  obtain ⟨⟨⟩, hregistered, h⟩ := Except.bind_eq_ok.mp h
  cases h
  refine ⟨(Except.mapM_eq_ok.mp happroved).imp fun request request' hone => ?_,
    registered_of_forM hregistered⟩
  obtain ⟨target, htarget, hone⟩ := Except.bind_eq_ok.mp hone
  cases hone
  exact ⟨htarget, rfl, rfl⟩

/-- Every call of `collect` gets the canonical text of the target that its request asked for, and the
whole target lies inside one approved range. -/
theorem collect_approved (happrove : o.approve requests = .ok approved)
    (hrun : Machine.run (System.step rt r o approved) (System.init o db stop approved) actions =
      some s) :
    ∀ call ∈ s.calls, ∃ request requested, requests[call.task]? = some request ∧
      request.collector ∈ o.collectors ∧ call.context.credentialRef = request.credentialRef ∧
      ipNetwork request.target false = some (.v4 requested) ∧
      call.context.target = (if cp '/' ∈ request.target then requested.cidr
        else dottedQuad requested.address) ∧
      Inside o.approvedRanges requested := by
  have haddressed : s.Addressed approved :=
    Machine.run_invariant (fun _ _ _ hs _ hstep => hs.step (step_move hstep))
      (fun call hcall => absurd hcall List.not_mem_nil)
      (Machine.along_of_forall fun _ _ => trivial) hrun
  obtain ⟨hforall, hregistered⟩ := approve_spec happrove
  intro call hcall
  obtain ⟨request', hrequest', hcontext⟩ := haddressed call hcall
  obtain ⟨request, hrequest, htarget, hcollector, hcredential⟩ :
      ∃ request, requests[call.task]? = some request ∧
        approveTarget o.approvedRanges request.target = .ok request'.target ∧
        request'.collector = request.collector ∧
        request'.credentialRef = request.credentialRef := by
    obtain ⟨hlt, hget⟩ := List.getElem?_eq_some_iff.mp hrequest'
    have hlt' : call.task < requests.length := hforall.length_eq ▸ hlt
    have hone := List.forall₂_iff_get.mp hforall |>.2 call.task hlt' hlt
    rw [List.get_eq_getElem, List.get_eq_getElem, hget] at hone
    exact ⟨_, List.getElem?_eq_getElem hlt', hone⟩
  obtain ⟨requested, hrequested, hcanonical, hinside⟩ := approveTarget_spec htarget
  refine ⟨request, requested, hrequest, ?_, ?_, hrequested, ?_, hinside⟩
  · rw [← hcollector]
    exact hregistered request' (List.mem_of_getElem? hrequest')
  · rw [hcontext]
    exact hcredential
  · rw [hcontext]
    exact hcanonical

/-- SNMP was asked for by a network with host bits. -/
theorem collect_approved_sample :
    ∃ approved s, sampleOrchestrator.approve [⟨str "snmp", str "192.168.50.10/30", none⟩] =
        .ok approved ∧
      sampleAfter approved [.start 0 steady, .enter 0 steady] = some s ∧
      s.calls.map (fun call => call.context.target) = [str "192.168.50.8/30"] ∧
      ∀ call ∈ s.calls, ∃ requested, Inside sampleOrchestrator.approvedRanges requested ∧
        call.context.target = requested.cidr := by
  have hsummary : (sampleAfter [⟨str "snmp", str "192.168.50.8/30", none⟩]
      [.start 0 steady, .enter 0 steady]).map (fun s =>
        s.calls.map fun call => (call.task, call.context.target)) =
          some [(0, str "192.168.50.8/30")] := by
    decide +kernel
  have happrove : sampleOrchestrator.approve [⟨str "snmp", str "192.168.50.10/30", none⟩] =
      .ok [⟨str "snmp", str "192.168.50.8/30", none⟩] := by
    rfl
  obtain ⟨s, hrun, hs⟩ := Option.map_eq_some_iff.mp hsummary
  refine ⟨_, s, happrove, hrun, ?_, fun call hcall => ?_⟩
  · have hfst := congrArg (List.map Prod.snd) hs
    rwa [List.map_map] at hfst
  · obtain ⟨request, requested, hrequest, -, -, -, htarget, hinside⟩ :=
      collect_approved happrove hrun call hcall
    have htask : call.task = 0 := by
      have hmem := List.mem_map_of_mem (f := fun call : CollectCall =>
        (call.task, call.context.target)) hcall
      rw [hs, List.mem_singleton] at hmem
      exact congrArg Prod.fst hmem
    rw [htask] at hrequest
    cases hrequest
    exact ⟨requested, hinside, htarget.trans (if_pos (by decide))⟩

end

end FieldDiscovery.Collectors
