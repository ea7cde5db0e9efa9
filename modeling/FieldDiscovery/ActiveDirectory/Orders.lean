import FieldDiscovery.ActiveDirectory.Scope
import FieldDiscovery.Lib.Components

/-!
# The order of lookups and probes

With the answers of the network fixed, the task of a host is determined, and only the order in which
the tasks report their issues is free. The tasks are components with a shared log: what the events of
a run do is what moves of the components do (`step_simulated`), and every order of moves is a run
(`step_realized`). So all runs return one result exactly when the reports of different hosts commute,
or when a task that raises keeps `detect` from returning (`detect_deterministic_iff`).
-/

namespace FieldDiscovery.ActiveDirectory

open Py Collectors Relation

/-- The answers to DNS names, and the RootDSE responses of addresses. -/
structure Network where
  srv : Str → Except Exc (List SrvAnswer)
  lookup : Str → Except Exc (List Str)
  rootdse : Str → Int → Except Exc Entry

/-- What completes was answered by the network. -/
def Answered (network : Network) (s : Detection) : DetectionEvent → Prop
  | .acquire _ => True
  | .lookup i answer => ∀ h, s.hosts[i]? = some h → answer = network.lookup h.host
  | .probe i answer => ∀ h address rest, s.hosts[i]? = some h → h.task = .probing address rest →
      answer = network.rootdse address h.probePort

section

variable (rt : Runtime) (approvedRanges : List Str) (network : Network)

/-- The events lead from one state to the other, with the answers of the network. -/
def Leads (concurrency : Nat) (s s' : Detection) : Prop :=
  ∃ events, Machine.Along (detectionStep rt approvedRanges concurrency) (Answered network) s events ∧
    runDetection rt approvedRanges concurrency s events = some s'

/-- Some order of the lookups and probes makes `detect` return the result. -/
def Detects (domains sites : List Str) (evidence : List ServiceEvidence)
    (result : ADDetectionResult) : Prop :=
  ∃ approvedDomains e concurrency s,
    gatherEvidence rt network.srv domains sites evidence = .ok (approvedDomains, e) ∧
    1 ≤ concurrency ∧ concurrency ≤ 16 ∧
    Leads rt approvedRanges network concurrency (startDetection approvedRanges e) s ∧
    s.result approvedDomains = some result

/-- The next move of the task of a host: the end of its lookup, or a whole probe. -/
def HostRun.next (h : HostRun) : Option (HostRun × List DetectionIssue) :=
  match h.task with
  | .resolving => some (h.lookup approvedRanges (network.lookup h.host))
  | .waiting (address :: rest) | .probing address rest =>
    some (h.probe rt address rest (network.rootdse address h.probePort))
  | _ => none

/-- An exception ends the task. -/
def HostRun.Raises (h : HostRun) : Prop :=
  ∃ reports h' exc, Components.Run (HostRun.next rt approvedRanges network) h reports h' ∧
    h'.task = .raised exc

end

/-! ## Where a task waits -/

/-- The task, before it got through the semaphore. -/
def HostRun.queued (h : HostRun) : HostRun :=
  match h.task with
  | .probing address rest => { h with task := .waiting (address :: rest) }
  | _ => h

/-- The task is not at a probe, and waits for the semaphore with an address only. -/
def HostRun.Settled (h : HostRun) : Prop :=
  match h.task with
  | .probing _ _ | .waiting [] => False
  | _ => True

variable {rt : Runtime} {approvedRanges : List Str} {network : Network}

theorem HostRun.Settled.queued {h : HostRun} (hs : h.Settled) : h.queued = h := by
  unfold HostRun.Settled at hs
  unfold HostRun.queued
  cases htask : h.task with
  | probing address rest =>
    rw [htask] at hs
    exact absurd hs id
  | _ => rfl

theorem HostRun.Settled.not_probing {h : HostRun} (hs : h.Settled) : h.isProbing = false := by
  unfold HostRun.Settled at hs
  unfold HostRun.isProbing
  cases htask : h.task with
  | probing address rest =>
    rw [htask] at hs
    exact absurd hs id
  | _ => rfl

/-- The task has ended, or goes on with the next address. -/
def HostRun.Moved (h : HostRun) (addresses : List Str) : Prop :=
  h.task = .finished ∨ (∃ exc, h.task = .raised exc) ∨ h.task = probeNext addresses

theorem HostRun.Moved.settled {h : HostRun} {addresses : List Str} (hm : h.Moved addresses) :
    h.Settled := by
  unfold HostRun.Settled
  rcases hm with htask | ⟨exc, htask⟩ | htask
  · rw [htask]
    trivial
  · rw [htask]
    trivial
  · rw [htask]
    cases addresses <;> trivial

theorem moved_approve (approvedRanges : List Str) (h : HostRun) :
    ∃ addresses, (h.approve approvedRanges).1.Moved addresses := by
  unfold HostRun.approve
  simp only
  split
  · exact ⟨[], Or.inr (Or.inl ⟨_, rfl⟩)⟩
  · exact ⟨_, Or.inr (Or.inr rfl)⟩

theorem moved_lookup (approvedRanges : List Str) (h : HostRun)
    (answer : Except Exc (List Str)) :
    ∃ addresses, (h.lookup approvedRanges answer).1.Moved addresses := by
  unfold HostRun.lookup
  split
  · exact ⟨[], Or.inl rfl⟩
  · exact ⟨[], Or.inl rfl⟩
  · exact ⟨[], Or.inr (Or.inl ⟨_, rfl⟩)⟩
  · exact moved_approve _ _

theorem moved_probe (h : HostRun) (address : Str) (rest : List Str) (answer : Except Exc Entry) :
    (h.probe rt address rest answer).1.Moved rest := by
  unfold HostRun.probe
  split
  · exact Or.inr (Or.inr rfl)
  · exact Or.inr (Or.inr rfl)
  · exact Or.inr (Or.inl ⟨_, rfl⟩)
  · split
    · exact Or.inl rfl
    · exact Or.inr (Or.inr rfl)

theorem settled_start (h : HostRun) : (h.start approvedRanges).1.Settled := by
  unfold HostRun.start
  split
  · trivial
  · obtain ⟨addresses, hm⟩ := moved_approve approvedRanges h
    exact hm.settled

theorem settled_next {h h' : HostRun} {report : List DetectionIssue}
    (hnext : h.next rt approvedRanges network = some (h', report)) : h'.Settled := by
  have hsettled : ∀ moved, h.next rt approvedRanges network = some moved → moved.1.Settled := by
    intro moved hmoved
    unfold HostRun.next at hmoved
    split at hmoved
    · obtain ⟨addresses, hm⟩ := moved_lookup approvedRanges h (network.lookup h.host)
      exact Option.some.inj hmoved ▸ hm.settled
    · exact Option.some.inj hmoved ▸ (moved_probe h _ _ _).settled
    · exact Option.some.inj hmoved ▸ (moved_probe h _ _ _).settled
    · cases hmoved
  exact hsettled _ hnext

/-! ## Tasks end -/

theorem next_of_probeNext {h : HostRun} {address : Str} {rest : List Str}
    (htask : h.task = probeNext (address :: rest)) : h.next rt approvedRanges network =
      some (h.probe rt address rest (network.rootdse address h.probePort)) := by
  unfold HostRun.next
  rw [htask]
  rfl

theorem next_of_finished {h : HostRun} (htask : h.task = .finished) :
    h.next rt approvedRanges network = none := by
  unfold HostRun.next
  rw [htask]

theorem next_of_raised {h : HostRun} {exc : Exc} (htask : h.task = .raised exc) :
    h.next rt approvedRanges network = none := by
  unfold HostRun.next
  rw [htask]

/-- The addresses of a task run out. -/
theorem HostRun.Moved.ends {addresses : List Str} {h : HostRun} (hm : h.Moved addresses) :
    Components.Ends (HostRun.next rt approvedRanges network) h := by
  induction addresses generalizing h with
  | nil =>
    rcases hm with htask | ⟨exc, htask⟩ | htask
    · exact ⟨[], h, .nil h, next_of_finished htask⟩
    · exact ⟨[], h, .nil h, next_of_raised htask⟩
    · exact ⟨[], h, .nil h, next_of_finished htask⟩
  | cons address rest ih =>
    rcases hm with htask | ⟨exc, htask⟩ | htask
    · exact ⟨[], h, .nil h, next_of_finished htask⟩
    · exact ⟨[], h, .nil h, next_of_raised htask⟩
    · exact .of_next (next_of_probeNext htask) (ih (moved_probe h _ _ _))

theorem ends_start (h : HostRun) :
    Components.Ends (HostRun.next rt approvedRanges network) (h.start approvedRanges).1 := by
  unfold HostRun.start
  split
  · let resolving : HostRun := { h with task := .resolving }
    have hnext : resolving.next rt approvedRanges network =
        some (resolving.lookup approvedRanges (network.lookup h.host)) := rfl
    obtain ⟨addresses, hm⟩ := moved_lookup approvedRanges resolving
      (network.lookup h.host)
    exact .of_next hnext hm.ends
  · obtain ⟨addresses, hm⟩ := moved_approve approvedRanges h
    exact hm.ends

/-! ## Runs are orders of moves -/

/-- The components of a state and their log. -/
def Detection.components (s : Detection) : List HostRun × List DetectionIssue :=
  (s.hosts.map HostRun.queued, s.issues)

theorem advance_components (s : Detection) (i : Nat) (moved : HostRun × List DetectionIssue) :
    (s.advance i moved).components =
      ((s.hosts.map HostRun.queued).set i moved.1.queued, s.issues ++ moved.2) := by
  unfold Detection.components Detection.advance
  rw [List.map_set]

/-- An event is a move of a component, or only lets its task through the semaphore. -/
theorem step_simulated {concurrency : Nat} {s s' : Detection} {event : DetectionEvent}
    (hanswered : Answered network s event)
    (hstep : detectionStep rt approvedRanges concurrency s event = some s') :
    s'.components = s.components ∨
      Components.Step (HostRun.next rt approvedRanges network) s.components s'.components := by
  cases event with
  | acquire i =>
    left
    obtain ⟨h, hget, hstep⟩ := Option.bind_eq_some_iff.mp hstep
    split at hstep
    · next address rest htask =>
      split at hstep
      · cases hstep
        have hqueued : (s.hosts.map HostRun.queued)[i]? = some h := by
          rw [List.getElem?_map, hget, Option.map_some]
          unfold HostRun.queued
          rw [htask]
        have hset : HostRun.queued { h with task := .probing address rest } = h := by
          show HostRun.mk h.domain h.host h.state (.waiting (address :: rest)) = h
          rw [← htask]
        refine (advance_components s i _).trans ?_
        rw [hset, List.append_nil]
        obtain ⟨hlt, heq⟩ := List.getElem?_eq_some_iff.mp hqueued
        conv_lhs => rw [← heq, List.set_getElem_self]
        rfl
      · cases hstep
    · cases hstep
  | lookup i answer =>
    right
    obtain ⟨h, hget, hstep⟩ := Option.bind_eq_some_iff.mp hstep
    split at hstep
    · next htask =>
      cases hstep
      obtain ⟨addresses, hm⟩ := moved_lookup approvedRanges h answer
      rw [advance_components, hm.settled.queued]
      refine .move (c := h) i ?_ ?_
      · rw [List.getElem?_map, hget, Option.map_some]
        unfold HostRun.queued
        rw [htask]
      · unfold HostRun.next
        rw [htask, hanswered h hget]
    · cases hstep
  | probe i answer =>
    right
    obtain ⟨h, hget, hstep⟩ := Option.bind_eq_some_iff.mp hstep
    split at hstep
    · next address rest htask =>
      cases hstep
      rw [advance_components, (moved_probe h address rest answer).settled.queued]
      refine .move (c := { h with task := .waiting (address :: rest) }) i ?_ ?_
      · rw [List.getElem?_map, hget, Option.map_some]
        unfold HostRun.queued
        rw [htask]
      · rw [hanswered h address rest hget htask]
        rfl
    · cases hstep

theorem leads_simulated {concurrency : Nat} {s s' : Detection}
    (h : Leads rt approvedRanges network concurrency s s') :
    ReflTransGen (Components.Step (HostRun.next rt approvedRanges network)) s.components
      s'.components := by
  obtain ⟨events, halong, hrun⟩ := h
  induction events generalizing s with
  | nil =>
    cases hrun
    exact .refl
  | cons event events ih =>
    obtain ⟨s₁, hs₁, hrun⟩ := Machine.run_cons.mp hrun
    have hrest := ih (halong.2 s₁ hs₁) hrun
    rcases step_simulated halong.1 hs₁ with heq | hmove
    · rwa [heq] at hrest
    · exact .head hmove hrest

/-! ## Orders of moves are runs -/

theorem Leads.trans {concurrency : Nat} {s t u : Detection}
    (h : Leads rt approvedRanges network concurrency s t)
    (h' : Leads rt approvedRanges network concurrency t u) :
    Leads rt approvedRanges network concurrency s u := by
  obtain ⟨events, halong, hrun⟩ := h
  obtain ⟨events', halong', hrun'⟩ := h'
  refine ⟨events ++ events', Machine.along_append.mpr ⟨halong, fun t' ht' => ?_⟩,
    Machine.run_append.mpr ⟨t, hrun, hrun'⟩⟩
  cases hrun.symm.trans ht'
  exact halong'

theorem Leads.single {concurrency : Nat} {s t : Detection} (event : DetectionEvent)
    (hanswered : Answered network s event)
    (hstep : detectionStep rt approvedRanges concurrency s event = some t) :
    Leads rt approvedRanges network concurrency s t :=
  ⟨[event], ⟨hanswered, fun _ _ => trivial⟩, Machine.run_cons.mpr ⟨t, hstep, rfl⟩⟩

/-- A move is made while no other task is at a probe, so the semaphore lets it through. -/
theorem step_realized {s : Detection} (hs : ∀ h ∈ s.hosts, h.Settled)
    {t : List HostRun × List DetectionIssue}
    (hstep : Components.Step (HostRun.next rt approvedRanges network) (s.hosts, s.issues) t) :
    ∃ s', Leads rt approvedRanges network 1 s s' ∧ (s'.hosts, s'.issues) = t ∧
      ∀ h ∈ s'.hosts, h.Settled := by
  obtain @⟨_, _, report, h, h', i, hget, hnext⟩ := hstep
  have hsettled : ∀ h₁ ∈ s.hosts.set i h', h₁.Settled := by
    intro h₁ hmem
    rcases List.mem_or_eq_of_mem_set hmem with hmem | rfl
    · exact hs h₁ hmem
    · exact settled_next hnext
  have hself := hs h (List.mem_of_getElem? hget)
  unfold HostRun.next at hnext
  split at hnext
  · next htask =>
    have hmoved := Option.some.inj hnext
    refine ⟨s.advance i (h', report), .single (.lookup i (network.lookup h.host)) ?_ ?_,
      rfl, hsettled⟩
    · intro h₁ hget₁
      cases hget.symm.trans hget₁
      rfl
    · refine Option.bind_eq_some_iff.mpr ⟨h, hget, ?_⟩
      rw [htask, hmoved]
  · next address rest htask =>
    have hmoved := Option.some.inj hnext
    have hfree : s.hosts.countP HostRun.isProbing < 1 := by
      rw [Nat.lt_one_iff, List.countP_eq_zero]
      intro h₁ hmem
      rw [(hs h₁ hmem).not_probing]
      exact Bool.false_ne_true
    have hlt : i < s.hosts.length := (List.getElem?_eq_some_iff.mp hget).1
    let probing : HostRun := { h with task := .probing address rest }
    let s₁ : Detection := { s.advance i (probing, []) with
      queries := s.queries ++ [(address, h.probePort)] }
    have hget₁ : s₁.hosts[i]? = some probing := List.getElem?_set_self hlt
    have hacquire : Leads rt approvedRanges network 1 s s₁ := by
      refine .single (.acquire i) trivial (Option.bind_eq_some_iff.mpr ⟨h, hget, ?_⟩)
      rw [htask]
      exact if_pos hfree
    refine ⟨s₁.advance i (h', report), hacquire.trans
      (.single (.probe i (network.rootdse address h.probePort)) ?_ ?_), ?_, ?_⟩
    · intro h₁ address₁ rest₁ hget' htask'
      cases hget₁.symm.trans hget'
      cases htask'
      rfl
    · refine Option.bind_eq_some_iff.mpr ⟨probing, hget₁, ?_⟩
      exact congrArg (fun moved => some (s₁.advance i moved)) hmoved
    · show ((s.hosts.set i probing).set i h', s.issues ++ [] ++ report) = _
      rw [List.set_set, List.append_nil]
    · show ∀ h₁ ∈ (s.hosts.set i probing).set i h', h₁.Settled
      rw [List.set_set]
      exact hsettled
  · next address rest htask =>
    unfold HostRun.Settled at hself
    rw [htask] at hself
    exact absurd hself id
  · cases hnext

theorem moves_realized {s : Detection} (hs : ∀ h ∈ s.hosts, h.Settled)
    {t : List HostRun × List DetectionIssue}
    (ht : ReflTransGen (Components.Step (HostRun.next rt approvedRanges network))
      (s.hosts, s.issues) t) :
    ∃ s', Leads rt approvedRanges network 1 s s' ∧ (s'.hosts, s'.issues) = t ∧
      ∀ h ∈ s'.hosts, h.Settled := by
  induction ht with
  | refl => exact ⟨s, ⟨[], trivial, rfl⟩, rfl, hs⟩
  | tail _ hstep ih =>
    obtain ⟨s₁, hlead, rfl, hsettled⟩ := ih
    obtain ⟨s₂, hlead', ht, hsettled'⟩ := step_realized hsettled hstep
    exact ⟨s₂, hlead.trans hlead', ht, hsettled'⟩

/-! ## The result -/

theorem settled_startDetection (e : Evidence) :
    ∀ h ∈ (startDetection approvedRanges e).hosts, h.Settled := by
  intro h hmem
  obtain ⟨started, hstarted, rfl⟩ := List.mem_map.mp hmem
  obtain ⟨item, -, rfl⟩ := List.mem_map.mp hstarted
  exact settled_start _

theorem ends_startDetection (e : Evidence) : ∀ h ∈ (startDetection approvedRanges e).hosts,
    Components.Ends (HostRun.next rt approvedRanges network) h := by
  intro h hmem
  obtain ⟨started, hstarted, rfl⟩ := List.mem_map.mp hmem
  obtain ⟨item, -, rfl⟩ := List.mem_map.mp hstarted
  exact ends_start _

theorem components_of_settled {s : Detection} (hs : ∀ h ∈ s.hosts, h.Settled) :
    s.components = (s.hosts, s.issues) := by
  unfold Detection.components
  rw [List.map_congr_left (fun h hmem => (hs h hmem).queued), List.map_id']

theorem HostRun.isFinished_iff {h : HostRun} : h.isFinished = true ↔ h.task = .finished := by
  unfold HostRun.isFinished
  cases h.task <;> simp

theorem Detection.result_eq_some {domains : List Str} {s : Detection} {result : ADDetectionResult} :
    s.result domains = some result ↔ (∀ h ∈ s.hosts, h.task = .finished) ∧
      result = ⟨domains, s.hosts.filterMap HostRun.candidate, s.issues⟩ := by
  unfold Detection.result
  have hall : s.hosts.all HostRun.isFinished = true ↔ ∀ h ∈ s.hosts, h.task = .finished := by
    rw [List.all_eq_true]
    exact forall₂_congr fun _ _ => HostRun.isFinished_iff
  split
  · next hfinished =>
    rw [Option.some.injEq, eq_comm]
    exact ⟨fun h => ⟨hall.mp hfinished, h⟩, fun h => h.2⟩
  · next hnot =>
    rw [hall] at hnot
    exact ⟨fun h => absurd h (by simp), fun h => absurd h.1 hnot⟩

/-- A state with a result has its tasks where they end. -/
theorem Detection.components_of_result (rt : Runtime) (approvedRanges : List Str)
    (network : Network) {domains : List Str} {s : Detection} {result : ADDetectionResult}
    (h : s.result domains = some result) :
    s.components = (s.hosts, s.issues) ∧
      Components.Final (HostRun.next rt approvedRanges network) s.hosts := by
  obtain ⟨hfinished, -⟩ := Detection.result_eq_some.mp h
  refine ⟨components_of_settled fun h hmem => ?_, fun h hmem => ?_⟩
  · unfold HostRun.Settled
    rw [hfinished h hmem]
    trivial
  · unfold HostRun.next
    rw [hfinished h hmem]

namespace Sample

/-- No address lookup is answered. -/
def silent : Network :=
  ⟨srvAnswers, fun _ => .error (.adDetectionUnreachable []), fun _ _ => .ok []⟩

/-- The issues of a detection whose two lookups end in the given order. -/
def issuesOf (i j : Nat) : Option (List Str × Option (List Str)) :=
  gathered.toOption.map fun p => (p.1,
    ((runDetection tables ranges 4 (startDetection ranges p.2)
      [.lookup i (.error (.adDetectionUnreachable [])),
        .lookup j (.error (.adDetectionUnreachable []))]).bind
      (Detection.result p.1)).map fun result => result.issues.map DetectionIssue.subject)

theorem detects (i j : Nat) {subjects : List Str}
    (h : issuesOf i j = some ([str "a.b"], some subjects)) :
    ∃ result, Detects tables ranges silent [str "A.b"] [] [] result ∧
      result.issues.map DetectionIssue.subject = subjects := by
  obtain ⟨⟨domains, e⟩, he, hrun⟩ := Option.map_eq_some_iff.mp h
  obtain ⟨rfl, hrun⟩ := Prod.mk.inj hrun
  obtain ⟨result, hresult, hissues⟩ := Option.map_eq_some_iff.mp hrun
  obtain ⟨s, hs, hresult⟩ := Option.bind_eq_some_iff.mp hresult
  rw [Except.toOption_eq_some] at he
  have hlead : Leads tables ranges silent 4 (startDetection ranges e) s := by
    refine ⟨_, ?_, hs⟩
    exact ⟨fun _ _ => rfl, fun _ _ => ⟨fun _ _ => rfl, fun _ _ => trivial⟩⟩
  exact ⟨result, ⟨_, e, 4, s, he, by decide, by decide, hlead, hresult⟩, hissues⟩

end Sample

/-- Two lookups that fail are reported in the order in which they fail. -/
theorem detection_order_matters : ¬ ∀ rt approvedRanges network domains sites evidence r r',
    Detects rt approvedRanges network domains sites evidence r →
      Detects rt approvedRanges network domains sites evidence r' → r = r' := by
  intro h
  obtain ⟨r, hr, hsubjects⟩ := Sample.detects 0 1
    (by decide +kernel : Sample.issuesOf 0 1 = some (_, some [str "x.a.b", str "y.a.b"]))
  obtain ⟨r', hr', hsubjects'⟩ := Sample.detects 1 0
    (by decide +kernel : Sample.issuesOf 1 0 = some (_, some [str "y.a.b", str "x.a.b"]))
  rw [h _ _ _ _ _ _ r r' hr hr', hsubjects'] at hsubjects
  exact absurd hsubjects (by decide)

/-- With fixed answers, `detect` returns one result in every order of the lookups and probes exactly
when the issues that different hosts report commute, or a task raises. -/
theorem detect_deterministic_iff (rt : Runtime) (approvedRanges : List Str) (network : Network)
    (domains sites : List Str) (evidence : List ServiceEvidence) :
    (∀ r r', Detects rt approvedRanges network domains sites evidence r →
      Detects rt approvedRanges network domains sites evidence r' → r = r') ↔
    ∀ approvedDomains e,
      gatherEvidence rt network.srv domains sites evidence = .ok (approvedDomains, e) →
      (∃ h ∈ (startDetection approvedRanges e).hosts, h.Raises rt approvedRanges network) ∨
        Components.Commuting (HostRun.next rt approvedRanges network)
          (startDetection approvedRanges e).hosts := by
  constructor
  · intro hsame approvedDomains e he
    refine or_iff_not_imp_left.mpr fun hraises => ?_
    let start := startDetection approvedRanges e
    have hsettled : ∀ h ∈ start.hosts, h.Settled := settled_startDetection e
    -- an order of moves that ends is a run with a result
    have hreturns : ∀ t, ReflTransGen (Components.Step (HostRun.next rt approvedRanges network))
        (start.hosts, start.issues) t →
        Components.Final (HostRun.next rt approvedRanges network) t.1 →
        ∃ result, Detects rt approvedRanges network domains sites evidence result ∧
          result.issues = t.2 := by
      intro t ht hfinal
      obtain ⟨s, hlead, rfl, hsettled'⟩ := moves_realized hsettled ht
      refine ⟨_, ⟨approvedDomains, e, 1, s, he, le_rfl, by decide, hlead,
        Detection.result_eq_some.mpr ⟨fun h hmem => ?_, rfl⟩⟩, rfl⟩
      have hnone := hfinal h hmem
      have hshape := hsettled' h hmem
      unfold HostRun.next at hnone
      unfold HostRun.Settled at hshape
      cases htask : h.task with
      | finished => rfl
      | resolving =>
        rw [htask] at hnone
        cases hnone
      | probing address rest =>
        rw [htask] at hnone
        cases hnone
      | waiting addresses =>
        rw [htask] at hnone hshape
        cases addresses with
        | nil => exact absurd hshape id
        | cons address rest => cases hnone
      | raised exc =>
        obtain ⟨c, hc, reports, hrun⟩ := Components.exists_run_of_mem ht hmem
        exact absurd ⟨c, hc, reports, h, exc, hrun, htask⟩ hraises
    refine Components.commuting_of_unique start.issues (ends_startDetection e) ?_
    intro t u ht hu htfinal hufinal
    obtain ⟨r, hr, hrt⟩ := hreturns t ht htfinal
    obtain ⟨r', hr', hru⟩ := hreturns u hu hufinal
    rw [← hrt, ← hru, hsame r r' hr hr']
  · rintro hcond r r' ⟨approvedDomains, e, c, s, he, -, -, hlead, hresult⟩
      ⟨approvedDomains', e', c', s', he', -, -, hlead', hresult'⟩
    cases he.symm.trans he'
    have hs := leads_simulated hlead
    have hs' := leads_simulated hlead'
    rw [components_of_settled (settled_startDetection e)] at hs hs'
    obtain ⟨heq, hfinal⟩ := Detection.components_of_result rt approvedRanges network hresult
    obtain ⟨heq', hfinal'⟩ := Detection.components_of_result rt approvedRanges network hresult'
    rw [heq] at hs
    rw [heq'] at hs'
    obtain ⟨hfinished, rfl⟩ := Detection.result_eq_some.mp hresult
    obtain ⟨-, rfl⟩ := Detection.result_eq_some.mp hresult'
    rcases hcond approvedDomains e he with ⟨h, hmem, reports, h', exc, hrun, htask⟩ | hcommuting
    · -- a task that raises has not returned
      obtain ⟨i, hi⟩ := List.getElem?_of_mem hmem
      obtain ⟨reports', d, hrun', hd⟩ := Components.run_of_reflTransGen hs hi
      have hd' := hfinished d (List.mem_of_getElem? hd)
      have hend : h'.next rt approvedRanges network = none := by
        unfold HostRun.next
        rw [htask]
      cases hrun.unique hrun' hend (hfinal d (List.mem_of_getElem? hd))
      rw [htask] at hd'
      cases hd'
    · obtain ⟨hhosts, hissues⟩ := Prod.mk.inj (hcommuting.unique hs hs' hfinal hfinal')
      rw [hhosts, hissues]

end FieldDiscovery.ActiveDirectory
