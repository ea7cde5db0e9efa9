import FieldDiscovery.Topology.Shape

/-!
# What the edges rest on

Every edge that an observation claims has the source and the times of the observation, and joins
nodes that the observation proposes, this device, subnets or VLANs (`observationClaims_spec`).
-/

namespace FieldDiscovery.Topology

open Py Correlation Passive List

section

variable {rt : Runtime}

/-- The conflict that an observation discloses by itself. -/
def Seen.conflict (o : Seen) : Option TopologyConflict :=
  if o.observation.kind = str "link_layer_neighbor" then
    match stringField o.observation.fields "chassis_id", stringField o.observation.fields "port_id" with
    | some _, some _ => none
    | _, _ => some (incompleteConflict o)
  else if o.observation.kind ∈ reuseKinds then some (reuseConflict o)
  else none

/-- The edge has the source and the times of the observation. -/
structure Seen.Supports (o : Seen) (e : TopologyEdge) : Prop where
  source : e.evidenceSource.val = strip o.source
  observedAt : e.validity.observedAt = o.observedAt
  validUntil : e.validity.validUntil = o.expiresAt

/-- What `TopologyEdge(...)` stores. -/
theorem edge_new_spec {a b kind source : Str} {c : ℚ} {inferred : Bool} {t : Utc}
    {valid : Option Utc} {e : TopologyEdge}
    (h : TopologyEdge.new a b kind source c inferred t valid = .ok e) :
    e.sourceNode = a ∧ e.targetNode = b ∧ e.evidenceSource.val = strip source ∧
      e.validity.observedAt = t ∧ e.validity.validUntil = valid := by
  unfold TopologyEdge.new at h
  split at h
  · cases h
  · obtain ⟨kind', -, h⟩ := Except.bind_eq_ok.mp h
    obtain ⟨source', hsource, h⟩ := Except.bind_eq_ok.mp h
    obtain ⟨c', -, h⟩ := Except.bind_eq_ok.mp h
    have hval : source'.val = strip source := by
      unfold text at hsource
      split at hsource
      · cases hsource
        rfl
      · cases hsource
    cases valid with
    | none =>
      cases h
      exact ⟨rfl, rfl, hval, rfl, rfl⟩
    | some u =>
      obtain ⟨u', hu, h⟩ := Except.bind_eq_ok.mp h
      cases h
      refine ⟨rfl, rfl, hval, rfl, ?_⟩
      unfold validUntil utc Utc.stamp at hu
      simp only [Utc.astimezone, Except.ok_bind] at hu
      split at hu
      · cases hu
        rfl
      · cases hu

theorem edgeOf_spec {o : Seen} {a b : Str} {kind : String} {c : ℚ} {inferred : Bool}
    {e : TopologyEdge} (h : edgeOf o a b kind c inferred = .ok e) :
    o.Supports e ∧ e.sourceNode = a ∧ e.targetNode = b := by
  obtain ⟨ha, hb, hsource, hobserved, hvalid⟩ := edge_new_spec h
  exact ⟨⟨hsource, hobserved, hvalid⟩, ha, hb⟩

/-- A node of the graph that an observation contributes to: this device, one that the observation
proposes, a subnet or a VLAN. -/
inductive Anchor (rt : Runtime) (ctx : Context) (nodes : List TopologyNode) : Str → Prop
  | localNode : Anchor rt ctx nodes ctx.localNode
  | proposed (n : TopologyNode) : n ∈ nodes → Anchor rt ctx nodes n.nodeId
  | subnet (s : SubnetEvidence) (n : TopologyNode) : s ∈ ctx.subnets →
      proposeNode rt (str "subnet") s.network.cidr = .ok n → Anchor rt ctx nodes n.nodeId
  | vlan (v : Fin 4095) (n : TopologyNode) (label : Str) : v ∈ ctx.vlans →
      proposeNode rt (str "vlan") (natStr v) (some label) = .ok n → Anchor rt ctx nodes n.nodeId

/-- The claims rest on the observation. -/
structure Claims.RestOn (rt : Runtime) (ctx : Context) (o : Seen) (c : Claims) : Prop where
  edges : ∀ e ∈ c.edges, o.Supports e ∧ Anchor rt ctx c.nodes e.sourceNode ∧
    Anchor rt ctx c.nodes e.targetNode
  conflicts : c.conflicts = o.conflict.toList

variable {ctx : Context} {o : Seen}

theorem membershipEdges_spec {device address : Str} {c : ℚ} {es : List TopologyEdge}
    {nodes : List TopologyNode} (hdevice : Anchor rt ctx nodes device)
    (h : membershipEdges rt ctx o device address c = .ok es) : ∀ e ∈ es, o.Supports e ∧
      Anchor rt ctx nodes e.sourceNode ∧ Anchor rt ctx nodes e.targetNode := by
  unfold membershipEdges at h
  cases hs : subnetFor address ctx.subnets with
  | none =>
    rw [hs] at h
    cases h
    simp
  | some s =>
    rw [hs] at h
    obtain ⟨node, hnode, h⟩ := Except.bind_eq_ok.mp h
    obtain ⟨e, he, h⟩ := Except.bind_eq_ok.mp h
    cases h
    intro e' he'
    rw [mem_singleton] at he'
    subst he'
    obtain ⟨hsupports, hsource, htarget⟩ := edgeOf_spec he
    obtain ⟨-, -, -, -, hfind⟩ := subnetFor_spec hs
    rw [hsource, htarget]
    exact ⟨hsupports, hdevice, .subnet s node (mem_of_find?_eq_some hfind) hnode⟩

theorem linkLayerClaims_spec {c : Claims} (hkind : o.observation.kind = str "link_layer_neighbor")
    (h : linkLayerClaims rt ctx o = .ok c) : c.RestOn rt ctx o := by
  unfold linkLayerClaims at h
  simp only at h
  cases hchassis : stringField o.observation.fields "chassis_id" with
  | none =>
    rw [hchassis] at h
    cases h
    exact ⟨by simp, by simp [Seen.conflict, hkind, hchassis]⟩
  | some chassis =>
    rw [hchassis] at h
    cases hport : stringField o.observation.fields "port_id" with
    | none =>
      rw [hport] at h
      cases h
      exact ⟨by simp, by simp [Seen.conflict, hkind, hchassis, hport]⟩
    | some port =>
      rw [hport] at h
      have hconflict : o.conflict = none := by simp [Seen.conflict, hkind, hchassis, hport]
      obtain ⟨remote, hremote, h⟩ := Except.bind_eq_ok.mp h
      obtain ⟨e, he, h⟩ := Except.bind_eq_ok.mp h
      obtain ⟨hsupports, hsource, htarget⟩ := edgeOf_spec he
      cases hvlan : vlanField o.observation.fields with
      | none =>
        rw [hvlan] at h
        cases h
        refine ⟨?_, by simp [hconflict]⟩
        intro e' he'
        rw [mem_singleton] at he'
        subst he'
        rw [hsource, htarget]
        exact ⟨hsupports, .localNode, .proposed remote mem_cons_self⟩
      | some vlan =>
        rw [hvlan] at h
        obtain ⟨vlanNode, hvlanNode, h⟩ := Except.bind_eq_ok.mp h
        obtain ⟨e₂, he₂, h⟩ := Except.bind_eq_ok.mp h
        obtain ⟨hsupports₂, hsource₂, htarget₂⟩ := edgeOf_spec he₂
        cases h
        refine ⟨?_, by simp [hconflict]⟩
        intro e' he'
        rcases mem_cons.mp he' with rfl | he'
        · rw [hsource, htarget]
          exact ⟨hsupports, .localNode, .proposed remote mem_cons_self⟩
        · rw [mem_singleton] at he'
          subst he'
          rw [hsource₂, htarget₂]
          refine ⟨hsupports₂, .proposed remote mem_cons_self, ?_⟩
          by_cases hmem : vlan ∈ ctx.vlans
          · exact .vlan vlan vlanNode _ hmem hvlanNode
          · exact .proposed vlanNode (by simp [hmem])

/-- The claims of a branch without conflicts of its own. -/
theorem restOn_of_edges {c : Claims} (hconflict : o.conflict = none) (hnone : c.conflicts = [])
    (h : ∀ e ∈ c.edges, o.Supports e ∧ Anchor rt ctx c.nodes e.sourceNode ∧
      Anchor rt ctx c.nodes e.targetNode) : c.RestOn rt ctx o :=
  ⟨h, by simp [hconflict, hnone]⟩

/-- A single edge between two proposed nodes. -/
theorem restOn_edge {m n : TopologyNode} {kind : String} {conf : ℚ} {inferred : Bool}
    {e : TopologyEdge} (hconflict : o.conflict = none)
    (he : edgeOf o m.nodeId n.nodeId kind conf inferred = .ok e) :
    Claims.RestOn rt ctx o { nodes := [m, n], edges := [e] } := by
  apply restOn_of_edges hconflict rfl
  intro e' he'
  rw [mem_singleton] at he'
  subst he'
  obtain ⟨hsupports, hsource, htarget⟩ := edgeOf_spec he
  rw [hsource, htarget]
  exact ⟨hsupports, .proposed m mem_cons_self, .proposed n (mem_cons_of_mem _ mem_cons_self)⟩

theorem restOn_empty (hconflict : o.conflict = none) : Claims.RestOn rt ctx o {} :=
  restOn_of_edges hconflict rfl (by simp)

theorem mdnsClaims_spec {c : Claims} (hconflict : o.conflict = none)
    (h : mdnsClaims rt ctx o = .ok c) : c.RestOn rt ctx o := by
  unfold mdnsClaims at h
  simp only at h
  split at h
  · cases h
    exact restOn_empty hconflict
  split at h
  · cases hservice : stringField o.observation.fields "service_type" with
    | none =>
      rw [hservice] at h
      cases h
      exact restOn_empty hconflict
    | some serviceType =>
      rw [hservice] at h
      cases hinstance : stringField o.observation.fields "instance" with
      | none =>
        rw [hinstance] at h
        cases h
        exact restOn_empty hconflict
      | some inst =>
        rw [hinstance] at h
        obtain ⟨m, -, h⟩ := Except.bind_eq_ok.mp h
        obtain ⟨n, -, h⟩ := Except.bind_eq_ok.mp h
        obtain ⟨e, he, h⟩ := Except.bind_eq_ok.mp h
        cases h
        exact restOn_edge hconflict he
  split at h
  · cases hinstance : stringField o.observation.fields "instance" with
    | none =>
      rw [hinstance] at h
      cases h
      exact restOn_empty hconflict
    | some inst =>
      rw [hinstance] at h
      cases hhostname : stringField o.observation.fields "hostname" with
      | none =>
        rw [hhostname] at h
        cases h
        exact restOn_empty hconflict
      | some hostname =>
        rw [hhostname] at h
        obtain ⟨m, -, h⟩ := Except.bind_eq_ok.mp h
        obtain ⟨n, -, h⟩ := Except.bind_eq_ok.mp h
        obtain ⟨e, he, h⟩ := Except.bind_eq_ok.mp h
        cases h
        exact restOn_edge hconflict he
  · cases hhostname : stringField o.observation.fields "hostname" with
    | none =>
      rw [hhostname] at h
      cases h
      exact restOn_empty hconflict
    | some hostname =>
      rw [hhostname] at h
      cases haddress : stringField o.observation.fields "address" with
      | none =>
        rw [haddress] at h
        cases h
        exact restOn_empty hconflict
      | some address =>
        rw [haddress] at h
        obtain ⟨n, -, h⟩ := Except.bind_eq_ok.mp h
        obtain ⟨es, hes, h⟩ := Except.bind_eq_ok.mp h
        cases h
        exact restOn_of_edges hconflict rfl
          (membershipEdges_spec (.proposed n mem_cons_self) hes)

theorem dhcpClaims_spec {c : Claims} (hconflict : o.conflict = none)
    (h : dhcpClaims rt ctx o = .ok c) : c.RestOn rt ctx o := by
  unfold dhcpClaims at h
  simp only at h
  split at h
  · cases h
    exact restOn_empty hconflict
  cases haddress : stringField o.observation.fields "assigned_address" with
  | none =>
    rw [haddress] at h
    cases h
    exact restOn_empty hconflict
  | some address =>
    rw [haddress] at h
    cases hidentity : dhcpIdentity o.observation.fields with
    | none =>
      rw [hidentity] at h
      cases h
      exact restOn_empty hconflict
    | some identity =>
      rw [hidentity] at h
      obtain ⟨client, -, h⟩ := Except.bind_eq_ok.mp h
      obtain ⟨es, hes, h⟩ := Except.bind_eq_ok.mp h
      cases hserver : stringField o.observation.fields "server_identifier" with
      | none =>
        rw [hserver] at h
        cases h
        exact restOn_of_edges hconflict rfl
          (membershipEdges_spec (.proposed client mem_cons_self) hes)
      | some server =>
        rw [hserver] at h
        obtain ⟨serverNode, -, h⟩ := Except.bind_eq_ok.mp h
        obtain ⟨e, he, h⟩ := Except.bind_eq_ok.mp h
        cases h
        apply restOn_of_edges hconflict rfl
        intro e' he'
        rcases mem_append.mp he' with he' | he'
        · exact membershipEdges_spec (.proposed client mem_cons_self) hes e' he'
        · rw [mem_singleton] at he'
          subst he'
          obtain ⟨hsupports, hsource, htarget⟩ := edgeOf_spec he
          rw [hsource, htarget]
          exact ⟨hsupports, .proposed serverNode (by simp), .proposed client mem_cons_self⟩

theorem neighborClaims_spec {c : Claims} (hconflict : o.conflict = none)
    (h : neighborClaims rt ctx o = .ok c) : c.RestOn rt ctx o := by
  unfold neighborClaims at h
  simp only at h
  cases haddress : stringField o.observation.fields "address" with
  | none =>
    rw [haddress] at h
    cases h
    exact restOn_empty hconflict
  | some address =>
    rw [haddress] at h
    cases hmac : stringField o.observation.fields "mac_address" with
    | none =>
      rw [hmac] at h
      cases h
      exact restOn_empty hconflict
    | some mac =>
      rw [hmac] at h
      obtain ⟨device, -, h⟩ := Except.bind_eq_ok.mp h
      obtain ⟨es, hes, h⟩ := Except.bind_eq_ok.mp h
      cases h
      exact restOn_of_edges hconflict rfl
        (membershipEdges_spec (.proposed device mem_cons_self) hes)

theorem conflict_eq_none (hlink : o.observation.kind ≠ str "link_layer_neighbor")
    (hreuse : o.observation.kind ∉ reuseKinds) : o.conflict = none := by
  unfold Seen.conflict
  rw [if_neg hlink, if_neg hreuse]

/-- The claims of an observation rest on it. -/
theorem observationClaims_spec {c : Claims} (h : observationClaims rt ctx o = .ok c) :
    c.RestOn rt ctx o := by
  have hreuse : str "mdns_service" ∉ reuseKinds ∧ str "mdns_instance" ∉ reuseKinds ∧
      str "mdns_address" ∉ reuseKinds ∧ str "dhcp_message" ∉ reuseKinds ∧
      str "neighbor_observation" ∉ reuseKinds := by decide +kernel
  obtain ⟨hservice, hinstance, haddress, hdhcp, hneighbor⟩ := hreuse
  unfold observationClaims at h
  simp only at h
  split at h
  · next hlink => exact linkLayerClaims_spec hlink h
  next hlink =>
  split at h
  · next hmdns =>
    apply mdnsClaims_spec (conflict_eq_none hlink _) h
    rcases hmdns with hmdns | hmdns | hmdns
    · rw [hmdns]
      exact hservice
    · rw [hmdns]
      exact hinstance
    · rw [hmdns]
      exact haddress
  split at h
  · next hkind =>
    apply dhcpClaims_spec (conflict_eq_none hlink _) h
    rw [hkind]
    exact hdhcp
  split at h
  · next hkind =>
    apply neighborClaims_spec (conflict_eq_none hlink _) h
    rw [hkind]
    exact hneighbor
  split at h
  · next hkind =>
    cases h
    exact ⟨by simp, by simp [Seen.conflict, hlink, hkind]⟩
  · next hkind =>
    cases h
    exact restOn_empty (conflict_eq_none hlink hkind)

end

end FieldDiscovery.Topology
