import FieldDiscovery.ActiveDirectory.Detection

/-!
# Detection stays in scope

Addresses come from DNS answers and from stored services. Before a host is asked anything, its task
keeps those of its addresses that `approve_target` accepts. The invariant follows an address from its
source (`Evidence.InDomains`) through the task of its host (`HostRun.InScope`) to the queries and the
candidates.
-/

namespace FieldDiscovery.ActiveDirectory

open Py Collectors

/-- A host name strictly below a domain. -/
def Below (host domain : Str) : Prop := ∃ labels, labels ≠ [] ∧ host = labels ++ cp '.' :: domain

/-- The text of an address. -/
def Canonical (address : Str) : Prop := ∃ n < 2 ^ 32, address = dottedQuad n

/-! ## The evidence -/

/-- The hosts of the evidence are below approved domains, and its addresses are canonical. -/
def Evidence.InDomains (domains : List Str) (e : Evidence) : Prop :=
  ∀ item ∈ e.states, item.1.1 ∈ domains ∧ Below item.1.2 item.1.1 ∧
    ∀ address ∈ item.2.addresses, Canonical address

variable {domains : List Str} {e e' : Evidence}

theorem Evidence.InDomains.report (h : e.InDomains domains) (category : String) (subject : Str)
    (detail : String) : (e.report category subject detail).InDomains domains := h

theorem Evidence.InDomains.update (h : e.InDomains domains) {domain host : Str}
    (hdomain : domain ∈ domains) (hbelow : Below host domain)
    {f : CandidateState → CandidateState}
    (hf : ∀ state address, address ∈ (f state).addresses →
      address ∈ state.addresses ∨ Canonical address) :
    (e.update (domain, host) f).InDomains domains := by
  intro item hitem
  rcases Dict.mem_set hitem with hitem | rfl
  · exact h item hitem
  · refine ⟨hdomain, hbelow, fun address haddress => ?_⟩
    rcases hf _ _ haddress with hold | hnew
    · cases hstate : e.states.get (domain, host) with
      | none =>
        rw [hstate] at hold
        cases hold
      | some state =>
        rw [hstate] at hold
        exact (h _ (Dict.mem_of_get hstate)).2.2 address hold
    · exact hnew

variable {rt : Runtime} {resolveSrv : Str → Except Exc (List SrvAnswer)}

theorem readSrv_inDomains {domain : Str} (hdomain : domain ∈ domains) {query : SrvQuery}
    {record : SrvAnswer} (h : e.InDomains domains)
    (hstep : readSrv rt domain query e record = .ok e') : e'.InDomains domains := by
  unfold readSrv at hstep
  split at hstep
  · cases hstep
    exact h.report _ _ _
  · cases hstep
    exact h.report _ _ _
  · cases hstep
    exact h.report _ _ _
  · cases hstep
  · next normalized hnormalized =>
    cases hstep
    refine h.update hdomain ?_ fun state address haddress => Or.inl haddress
    unfold validateSrv at hnormalized
    split at hnormalized
    · split at hnormalized
      · cases hnormalized
      · split at hnormalized
        · cases hnormalized
        · split at hnormalized
          · cases hnormalized
          · obtain ⟨target, htarget, hnormalized⟩ := Except.bind_eq_ok.mp hnormalized
            cases hnormalized
            exact hostname_below htarget
    · cases hnormalized

theorem askSrv_inDomains {domain : Str} (hdomain : domain ∈ domains) {query : SrvQuery}
    (h : e.InDomains domains) (hstep : askSrv rt resolveSrv domain e query = .ok e') :
    e'.InDomains domains := by
  unfold askSrv at hstep
  split at hstep
  · cases hstep
    exact h.report _ _ _
  · cases hstep
    exact h.report _ _ _
  · cases hstep
  · split at hstep
    · cases hstep
      exact h.report _ _ _
    · exact Except.foldlM_invariant h (fun _ _ _ _ h => readSrv_inDomains hdomain h) hstep

theorem serviceHost_spec {item : ServiceEvidence} {domain host address : Str}
    (h : serviceHost rt domains item = .ok (some ((domain, host), address))) :
    domain ∈ domains ∧ Below host domain ∧ Canonical address := by
  unfold serviceHost at h
  obtain ⟨domain', -, h⟩ := Except.bind_eq_ok.mp h
  split at h
  · cases h
  · next hdomain =>
    obtain ⟨host', hhost, h⟩ := Except.bind_eq_ok.mp h
    split at h
    · cases h
    · next n hn =>
      split at h
      · cases h
      · cases h
        exact ⟨not_not.mp hdomain, hostname_below hhost, n, addressValue_lt hn, rfl⟩

theorem readService_inDomains {item : ServiceEvidence} (h : e.InDomains domains)
    (hstep : readService rt domains e item = .ok e') : e'.InDomains domains := by
  unfold readService at hstep
  split at hstep
  · cases hstep
    exact h.report _ _ _
  · cases hstep
    exact h.report _ _ _
  · cases hstep
    exact h.report _ _ _
  · cases hstep
    exact h.report _ _ _
  · cases hstep
  · cases hstep
    exact h
  · next domain host address hhost =>
    cases hstep
    obtain ⟨hdomain, hbelow, hcanonical⟩ := serviceHost_spec hhost
    refine h.update hdomain hbelow fun state address' haddress => ?_
    rcases List.mem_insert_iff.mp haddress with rfl | hold
    · exact Or.inr hcanonical
    · exact Or.inl hold

/-- The evidence is about the approved domains, which are domains that were asked for. -/
theorem gatherEvidence_spec {domains sites approvedDomains : List Str}
    {evidence : List ServiceEvidence}
    (h : gatherEvidence rt resolveSrv domains sites evidence = .ok (approvedDomains, e)) :
    e.InDomains approvedDomains ∧
      ∀ domain ∈ approvedDomains, ∃ value ∈ domains, normalizeDomain rt value = .ok domain := by
  unfold gatherEvidence at h
  obtain ⟨names, hnames, h⟩ := Except.bind_eq_ok.mp h
  obtain ⟨approvedSites, -, h⟩ := Except.bind_eq_ok.mp h
  simp only at h
  split at h
  · cases h
  · split at h
    · cases h
    · obtain ⟨e₁, he₁, h⟩ := Except.bind_eq_ok.mp h
      obtain ⟨e₂, he₂, h⟩ := Except.bind_eq_ok.mp h
      cases h
      have hdns : e₁.InDomains (sortedSet names) := by
        refine Except.foldlM_invariant (fun item hitem => absurd hitem List.not_mem_nil) ?_ he₁
        intro domain hdomain e e' hinv hstep
        exact Except.foldlM_invariant hinv (fun _ _ _ _ h => askSrv_inDomains hdomain h) hstep
      refine ⟨?_, fun domain hdomain => ?_⟩
      · refine Except.foldlM_invariant ?_ (fun _ _ _ _ h => readService_inDomains h) he₂
        split
        · exact hdns.report _ _ _
        · exact hdns
      · exact (Except.mapM_eq_ok.mp hnames).exists_of_mem_right (mem_sortedSet.mp hdomain)

/-! ## The task of a host -/

variable {approvedRanges : List Str}

/-- A task asks approved addresses only, and keeps no others once it has looked at them. -/
structure HostRun.InScope (approvedRanges domains : List Str) (h : HostRun) : Prop where
  domain : h.domain ∈ domains
  below : Below h.host h.domain
  task : match h.task with
    | .resolving => h.state.addresses = []
    | .waiting addresses => ∀ address ∈ addresses, InRange approvedRanges address
    | .probing address rest => ∀ address' ∈ address :: rest, InRange approvedRanges address'
    | _ => True
  addresses : (∀ exc, h.task ≠ .raised exc) →
    ∀ address ∈ h.state.addresses, InRange approvedRanges address

theorem probeNext_inScope {addresses : List Str}
    (h : ∀ address ∈ addresses, InRange approvedRanges address) :
    match probeNext addresses with
    | .waiting addresses => ∀ address ∈ addresses, InRange approvedRanges address
    | .finished => True
    | _ => False := by
  cases addresses with
  | nil => trivial
  | cons address addresses => exact h

/-- What `approve_target` let through is approved. -/
theorem foldl_approveAddress (host : Str) (addresses : List Str) (a : Approval)
    (hcanonical : ∀ address ∈ addresses, Canonical address)
    (ha : ∀ address ∈ a.approved, InRange approvedRanges address) :
    ∀ address ∈ (addresses.foldl (approveAddress approvedRanges host) a).approved,
      InRange approvedRanges address := by
  induction addresses generalizing a with
  | nil => exact ha
  | cons address addresses ih =>
    refine ih _ (fun address' h => hcanonical address' (List.mem_cons_of_mem _ h)) ?_
    obtain ⟨n, hn, rfl⟩ := hcanonical _ List.mem_cons_self
    unfold approveAddress
    split
    · exact ha
    · split
      · next canonical hok =>
        intro address' hmem
        rcases List.mem_append.mp hmem with hmem | hmem
        · exact ha address' hmem
        · rw [List.mem_singleton.mp hmem]
          exact (approveTarget_dottedQuad hn hok).2
      · exact ha
      · exact ha
      · exact ha

theorem approve_inScope {h : HostRun} (hdomain : h.domain ∈ domains)
    (hbelow : Below h.host h.domain)
    (hcanonical : ∀ address ∈ h.state.addresses, Canonical address) :
    (h.approve approvedRanges).1.InScope approvedRanges domains := by
  have happroved : ∀ address ∈ ((sortedSet h.state.addresses).foldl
      (approveAddress approvedRanges h.host) {}).approved, InRange approvedRanges address :=
    foldl_approveAddress h.host _ {}
      (fun address hmem => hcanonical address (mem_sortedSet.mp hmem))
      (fun _ hmem => absurd hmem List.not_mem_nil)
  unfold HostRun.approve
  simp only
  split
  · exact ⟨hdomain, hbelow, trivial, fun hne => absurd rfl (hne _)⟩
  · refine ⟨hdomain, hbelow, ?_, fun _ address hmem => ?_⟩
    · have hnext := probeNext_inScope happroved
      split at hnext
      · next heq =>
        simp only [heq]
        exact hnext
      · next heq => simp only [heq]
      · exact absurd hnext id
    · exact happroved address (of_decide_eq_true (List.mem_filter.mp hmem).2)

theorem start_inScope {h : HostRun} (hdomain : h.domain ∈ domains) (hbelow : Below h.host h.domain)
    (hcanonical : ∀ address ∈ h.state.addresses, Canonical address) :
    (h.start approvedRanges).1.InScope approvedRanges domains := by
  unfold HostRun.start
  split
  · next hnone =>
    refine ⟨hdomain, hbelow, hnone, fun _ address hmem => ?_⟩
    rw [hnone] at hmem
    cases hmem
  · exact approve_inScope hdomain hbelow hcanonical

/-- Reading an answer adds canonical addresses to the host. -/
theorem foldl_readAddress (answer : List Str) (read : HostRun × List DetectionIssue)
    (hread : ∀ address ∈ read.1.state.addresses, Canonical address) :
    let read' := answer.foldl HostRun.readAddress read
    read'.1.domain = read.1.domain ∧ read'.1.host = read.1.host ∧
      ∀ address ∈ read'.1.state.addresses, Canonical address := by
  induction answer generalizing read with
  | nil => exact ⟨rfl, rfl, hread⟩
  | cons text answer ih =>
    unfold List.foldl HostRun.readAddress
    cases hn : addressValue text with
    | none => exact ih _ hread
    | some n =>
      refine ih _ fun address hmem => ?_
      rcases List.mem_insert_iff.mp hmem with rfl | hmem
      · exact ⟨n, addressValue_lt hn, rfl⟩
      · exact hread address hmem

theorem lookup_inScope {h : HostRun} (hinv : h.InScope approvedRanges domains)
    (htask : h.task = .resolving) (answer : Except Exc (List Str)) :
    (h.lookup approvedRanges answer).1.InScope approvedRanges domains := by
  have hnone : h.state.addresses = [] := by
    have := hinv.task
    rwa [htask] at this
  have hempty : ∀ address ∈ h.state.addresses, InRange approvedRanges address := by
    simp [hnone]
  unfold HostRun.lookup
  split
  · exact ⟨hinv.domain, hinv.below, trivial, fun _ => hempty⟩
  · exact ⟨hinv.domain, hinv.below, trivial, fun _ => hempty⟩
  · exact ⟨hinv.domain, hinv.below, trivial, fun hne => absurd rfl (hne _)⟩
  · next addresses =>
    obtain ⟨hdomain, hhost, hcanonical⟩ :=
      foldl_readAddress (addresses.take maxRecords) (h, []) (by simp [hnone])
    exact approve_inScope (hdomain ▸ hinv.domain) (hdomain ▸ hhost ▸ hinv.below) hcanonical

theorem probe_inScope {h : HostRun} (hinv : h.InScope approvedRanges domains) {address : Str}
    {rest : List Str} (htask : h.task = .probing address rest) (answer : Except Exc Entry) :
    (h.probe rt address rest answer).1.InScope approvedRanges domains := by
  have hrest : ∀ address ∈ rest, InRange approvedRanges address := by
    have := hinv.task
    rw [htask] at this
    exact fun address hmem => this address (List.mem_cons_of_mem _ hmem)
  have haddresses := hinv.addresses (by simp [htask])
  have hnext : HostRun.InScope approvedRanges domains { h with task := probeNext rest } := by
    refine ⟨hinv.domain, hinv.below, ?_, fun _ => haddresses⟩
    have hnext := probeNext_inScope hrest
    split at hnext
    · next heq =>
      simp only [heq]
      exact hnext
    · next heq => simp only [heq]
    · exact absurd hnext id
  unfold HostRun.probe
  split
  · exact hnext
  · exact hnext
  · exact ⟨hinv.domain, hinv.below, trivial, fun hne => absurd rfl (hne _)⟩
  · split
    · exact ⟨hinv.domain, hinv.below, trivial, fun _ => haddresses⟩
    · exact hnext

/-! ## The tasks together -/

/-- Every task stays in scope, and every query that was made did. -/
structure Detection.InScope (approvedRanges domains : List Str) (s : Detection) : Prop where
  hosts : ∀ h ∈ s.hosts, h.InScope approvedRanges domains
  queries : ∀ query ∈ s.queries, InRange approvedRanges query.1

theorem Detection.InScope.advance {s : Detection} (hs : s.InScope approvedRanges domains) (i : Nat)
    (moved : HostRun × List DetectionIssue) (hmoved : moved.1.InScope approvedRanges domains) :
    (s.advance i moved).InScope approvedRanges domains where
  hosts h hmem := by
    rcases List.mem_or_eq_of_mem_set hmem with hmem | rfl
    · exact hs.hosts h hmem
    · exact hmoved
  queries := hs.queries

theorem startDetection_inScope (he : e.InDomains domains) :
    (startDetection approvedRanges e).InScope approvedRanges domains where
  hosts h hmem := by
    obtain ⟨started, hstarted, rfl⟩ := List.mem_map.mp hmem
    obtain ⟨item, hitem, rfl⟩ := List.mem_map.mp hstarted
    obtain ⟨hdomain, hbelow, hcanonical⟩ := he item (mem_sortedBy.mp hitem)
    exact start_inScope hdomain hbelow hcanonical
  queries _ hmem := absurd hmem List.not_mem_nil

theorem step_inScope {concurrency : Nat} {s s' : Detection} {event : DetectionEvent}
    (hs : s.InScope approvedRanges domains)
    (hstep : detectionStep rt approvedRanges concurrency s event = some s') :
    s'.InScope approvedRanges domains := by
  cases event with
  | acquire i =>
    obtain ⟨h, hget, hstep⟩ := Option.bind_eq_some_iff.mp hstep
    have hh := hs.hosts h (List.mem_of_getElem? hget)
    split at hstep
    · next address rest htask =>
      split at hstep
      · cases hstep
        have hall := hh.task
        rw [htask] at hall
        have hmoved : HostRun.InScope approvedRanges domains
            { h with task := .probing address rest } :=
          ⟨hh.domain, hh.below, hall, fun _ => hh.addresses (by simp [htask])⟩
        refine ⟨(hs.advance i ({ h with task := .probing address rest }, []) hmoved).hosts, ?_⟩
        intro query hquery
        rcases List.mem_append.mp hquery with hquery | hquery
        · exact hs.queries query hquery
        · rw [List.mem_singleton.mp hquery]
          exact hall address List.mem_cons_self
      · cases hstep
    · cases hstep
  | lookup i answer =>
    obtain ⟨h, hget, hstep⟩ := Option.bind_eq_some_iff.mp hstep
    split at hstep
    · next htask =>
      cases hstep
      exact hs.advance i _ (lookup_inScope (hs.hosts h (List.mem_of_getElem? hget)) htask answer)
    · cases hstep
  | probe i answer =>
    obtain ⟨h, hget, hstep⟩ := Option.bind_eq_some_iff.mp hstep
    split at hstep
    · next address rest htask =>
      cases hstep
      exact hs.advance i _ (probe_inScope (hs.hosts h (List.mem_of_getElem? hget)) htask answer)
    · cases hstep

/-- What a detection asked and returned is in scope. -/
structure StaysInScope (rt : Runtime) (approvedRanges domains approvedDomains : List Str)
    (s : Detection) : Prop where
  /-- Every RootDSE query went to an approved address. -/
  queries : ∀ query ∈ s.queries, InRange approvedRanges query.1
  /-- Every candidate is below one of the domains and has approved addresses only. -/
  candidates : ∀ result, s.result approvedDomains = some result → ∀ c ∈ result.candidates,
    (∃ value ∈ domains, normalizeDomain rt value = .ok c.domain) ∧ Below c.hostname c.domain ∧
      ∀ address ∈ c.addresses, InRange approvedRanges address

theorem Detection.InScope.candidate {h : HostRun} (hh : h.InScope approvedRanges domains)
    (hfinished : h.isFinished = true) {c : DomainControllerCandidate} (hc : h.candidate = some c) :
    c.domain ∈ domains ∧ Below c.hostname c.domain ∧
      ∀ address ∈ c.addresses, InRange approvedRanges address := by
  unfold HostRun.candidate at hc
  split at hc
  · cases hc
    refine ⟨hh.domain, hh.below, fun address hmem => hh.addresses ?_ address
      (mem_sortedSet.mp (mem_sortedBy.mp hmem))⟩
    intro exc htask
    unfold HostRun.isFinished at hfinished
    rw [htask] at hfinished
    cases hfinished
  · cases hc

/-- In every order of the lookups and probes and with every answer, a detection asks approved
addresses only, and returns hosts below approved domains at approved addresses. -/
theorem detection_stays_in_scope {rt : Runtime} {approvedRanges domains sites : List Str}
    {resolveSrv : Str → Except Exc (List SrvAnswer)} {evidence : List ServiceEvidence}
    {approvedDomains : List Str} {e : Evidence} {concurrency : Nat}
    {events : List DetectionEvent} {s : Detection}
    (hevidence : gatherEvidence rt resolveSrv domains sites evidence = .ok (approvedDomains, e))
    (hrun : runDetection rt approvedRanges concurrency (startDetection approvedRanges e) events =
      some s) : StaysInScope rt approvedRanges domains approvedDomains s := by
  obtain ⟨he, hdomains⟩ := gatherEvidence_spec hevidence
  have hs : s.InScope approvedRanges approvedDomains :=
    Machine.run_invariant (P := fun _ _ => True) (fun _ _ _ hs _ => step_inScope hs)
      (startDetection_inScope he) (Machine.along_of_forall fun _ _ => trivial) hrun
  refine ⟨hs.queries, fun result hresult c hc => ?_⟩
  unfold Detection.result at hresult
  split at hresult
  · next hall =>
    cases hresult
    obtain ⟨h, hmem, hcandidate⟩ := List.mem_filterMap.mp hc
    obtain ⟨hdomain, hbelow, haddresses⟩ := Detection.InScope.candidate (hs.hosts h hmem)
      (List.all_eq_true.mp hall h hmem) hcandidate
    exact ⟨hdomains _ hdomain, hbelow, haddresses⟩
  · cases hresult

namespace Sample

/-- Tables of ASCII text only. -/
def tables : Runtime := Runtime.ofDigests []

def ranges : List Str := [str "10.0.0.0/8"]

/-- Two domain controllers that DNS names. -/
def srvAnswers (owner : Str) : Except Exc (List SrvAnswer) :=
  if owner = str "_ldap._tcp.dc._msdcs.a.b" then
    .ok [⟨some 0, some 0, some 389, some (str "X.a.b.")⟩,
      ⟨some 0, some 0, some 389, some (str "y.a.b.")⟩]
  else .ok []

def gathered : Except Exc (List Str × Evidence) :=
  gatherEvidence tables srvAnswers [str "A.b"] [] []

/-- An approved and a refused address of one host, and no answer for the other. -/
def events : List DetectionEvent :=
  [.lookup 0 (.ok [str "192.168.0.1", str "10.0.0.1"]), .acquire 0,
    .lookup 1 (.error (.adDetectionUnreachable [])), .probe 0 (.ok [])]

end Sample

theorem detection_stays_in_scope_sample : ∃ e s,
    gatherEvidence Sample.tables Sample.srvAnswers [str "A.b"] [] [] = .ok ([str "a.b"], e) ∧
    runDetection Sample.tables Sample.ranges 4 (startDetection Sample.ranges e) Sample.events =
      some s ∧ s.queries = [(str "10.0.0.1", 389)] ∧
    StaysInScope Sample.tables Sample.ranges [str "A.b"] [str "a.b"] s := by
  have hrun : (Sample.gathered.toOption.map fun p => (p.1,
      (runDetection Sample.tables Sample.ranges 4 (startDetection Sample.ranges p.2)
        Sample.events).map Detection.queries)) =
      some ([str "a.b"], some [(str "10.0.0.1", 389)]) := by decide +kernel
  obtain ⟨⟨domains, e⟩, he, hrun⟩ := Option.map_eq_some_iff.mp hrun
  obtain ⟨rfl, hrun⟩ := Prod.mk.inj hrun
  obtain ⟨s, hs, hqueries⟩ := Option.map_eq_some_iff.mp hrun
  rw [Except.toOption_eq_some] at he
  exact ⟨e, s, he, hs, hqueries, detection_stays_in_scope he hs⟩

end FieldDiscovery.ActiveDirectory
