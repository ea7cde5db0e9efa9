import FieldDiscovery.Topology.Sound

/-!
# What the program names

The kinds of nodes, edges and conflicts are words of the program, and the identifier of a node is
its kind with a digest, whatever the observations say (`graph_node_known`, `graph_edge_kind`,
`graph_conflict_kind`).
-/

namespace FieldDiscovery.Topology

open Py Correlation Passive List

/-- The kinds of nodes. -/
def nodeKinds : List Str :=
  [str "device", str "subnet", str "vlan", str "service", str "service_instance"]

/-- The kinds of edges. -/
def edgeKinds : List Str :=
  [str "link_layer_neighbor", str "observed_vlan", str "advertises", str "service_host",
    str "dhcp_lease", str "inferred_subnet_membership", str "vlan_subnet"]

/-- The kinds of conflicts. -/
def conflictKinds : List Str :=
  str "incomplete_link_evidence" :: str "vlan_disagreement" :: reuseKinds

section

variable {rt : Runtime}

/-- The kind of a node is one of the program's, and its identifier belongs to the kind. -/
structure TopologyNode.Known (rt : Runtime) (n : TopologyNode) : Prop where
  kind : n.kind ∈ nodeKinds
  identified : ∃ identity, Topology.nodeId rt n.kind identity = .ok n.nodeId

/-- All that an item claims has a kind of the program's. -/
structure Claims.Known (rt : Runtime) (c : Claims) : Prop where
  nodes : ∀ n ∈ c.nodes, n.Known rt
  edges : ∀ e ∈ c.edges, e.kind.val ∈ edgeKinds

theorem Claims.known_empty : Claims.Known rt {} := ⟨by simp, by simp⟩

theorem Claims.known_conflicts (conflicts : List TopologyConflict) :
    Claims.Known rt { conflicts } := ⟨by simp, by simp⟩

/-! ## One node, one edge -/

theorem proposeNode_known {kind identity : Str} {label : Option Str} {n : TopologyNode}
    (hkind : kind ∈ nodeKinds) (h : proposeNode rt kind identity label = .ok n) : n.Known rt := by
  obtain ⟨hid, hk⟩ := proposeNode_nodeId rt h
  rw [← hk] at hid hkind
  exact ⟨hkind, _, hid⟩

theorem proposeDevice_known {identityKind identity : Str} {label : Option Str} {n : TopologyNode}
    (h : proposeDevice rt identityKind identity label = .ok n) : n.Known rt :=
  proposeNode_known (by decide +kernel) h

theorem edge_new_kind {a b kind source : Str} {c : ℚ} {inferred : Bool} {t : Utc}
    {valid : Option Utc} {e : TopologyEdge}
    (h : TopologyEdge.new a b kind source c inferred t valid = .ok e) :
    e.kind.val = strip kind := by
  unfold TopologyEdge.new at h
  split at h
  · cases h
  · obtain ⟨kind', hkind, h⟩ := Except.bind_eq_ok.mp h
    obtain ⟨source', -, h⟩ := Except.bind_eq_ok.mp h
    obtain ⟨c', -, h⟩ := Except.bind_eq_ok.mp h
    cases valid with
    | none =>
      cases h
      exact text_isText hkind
    | some u =>
      obtain ⟨u', -, h⟩ := Except.bind_eq_ok.mp h
      cases h
      exact text_isText hkind

variable {o : Seen} {ctx : Context}

theorem edgeOf_known {a b : Str} {kind : String} {c : ℚ} {inferred : Bool} {e : TopologyEdge}
    (hkind : strip (str kind) ∈ edgeKinds) (h : edgeOf o a b kind c inferred = .ok e) :
    e.kind.val ∈ edgeKinds := by
  rw [edge_new_kind h]
  exact hkind

/-! ## The claims of each branch -/

theorem membershipEdges_known {device address : Str} {c : ℚ} {es : List TopologyEdge}
    (h : membershipEdges rt ctx o device address c = .ok es) :
    ∀ e ∈ es, e.kind.val ∈ edgeKinds := by
  unfold membershipEdges at h
  split at h
  · cases h
    simp
  · obtain ⟨node, -, h⟩ := Except.bind_eq_ok.mp h
    obtain ⟨e, he, h⟩ := Except.bind_eq_ok.mp h
    cases h
    rw [forall_mem_singleton]
    exact edgeOf_known (by decide +kernel) he

theorem linkLayerClaims_known {c : Claims} (h : linkLayerClaims rt ctx o = .ok c) :
    c.Known rt := by
  unfold linkLayerClaims at h
  simp only at h
  split at h
  · obtain ⟨remote, hremote, h⟩ := Except.bind_eq_ok.mp h
    obtain ⟨e, he, h⟩ := Except.bind_eq_ok.mp h
    have hnode := proposeDevice_known hremote
    have hedge := edgeOf_known (by decide +kernel) he
    split at h
    · cases h
      exact ⟨forall_mem_singleton.mpr hnode, forall_mem_singleton.mpr hedge⟩
    · obtain ⟨vlanNode, hvlanNode, h⟩ := Except.bind_eq_ok.mp h
      obtain ⟨e', he', h⟩ := Except.bind_eq_ok.mp h
      cases h
      have hvlan := proposeNode_known (by decide +kernel) hvlanNode
      have hedge' := edgeOf_known (by decide +kernel) he'
      refine ⟨forall_mem_cons.mpr ⟨hnode, ?_⟩,
        forall_mem_cons.mpr ⟨hedge, forall_mem_singleton.mpr hedge'⟩⟩
      split
      · simp
      · exact forall_mem_singleton.mpr hvlan
  · cases h
    exact Claims.known_conflicts _

theorem mdnsClaims_known {c : Claims} (h : mdnsClaims rt ctx o = .ok c) : c.Known rt := by
  unfold mdnsClaims at h
  simp only at h
  split at h
  · cases h
    exact Claims.known_empty
  split at h
  · split at h
    · obtain ⟨m, hm, h⟩ := Except.bind_eq_ok.mp h
      obtain ⟨n, hn, h⟩ := Except.bind_eq_ok.mp h
      obtain ⟨e, he, h⟩ := Except.bind_eq_ok.mp h
      cases h
      have hservice := proposeNode_known (by decide +kernel) hm
      have hinstance := proposeNode_known (by decide +kernel) hn
      exact ⟨forall_mem_cons.mpr ⟨hservice, forall_mem_singleton.mpr hinstance⟩,
        forall_mem_singleton.mpr (edgeOf_known (by decide +kernel) he)⟩
    · cases h
      exact Claims.known_empty
  split at h
  · split at h
    · obtain ⟨m, hm, h⟩ := Except.bind_eq_ok.mp h
      obtain ⟨n, hn, h⟩ := Except.bind_eq_ok.mp h
      obtain ⟨e, he, h⟩ := Except.bind_eq_ok.mp h
      cases h
      have hinstance := proposeNode_known (by decide +kernel) hm
      exact ⟨forall_mem_cons.mpr ⟨hinstance, forall_mem_singleton.mpr (proposeDevice_known hn)⟩,
        forall_mem_singleton.mpr (edgeOf_known (by decide +kernel) he)⟩
    · cases h
      exact Claims.known_empty
  · split at h
    · obtain ⟨n, hn, h⟩ := Except.bind_eq_ok.mp h
      obtain ⟨es, hes, h⟩ := Except.bind_eq_ok.mp h
      cases h
      exact ⟨forall_mem_singleton.mpr (proposeDevice_known hn), membershipEdges_known hes⟩
    · cases h
      exact Claims.known_empty

theorem dhcpClaims_known {c : Claims} (h : dhcpClaims rt ctx o = .ok c) : c.Known rt := by
  unfold dhcpClaims at h
  simp only at h
  split at h
  · cases h
    exact Claims.known_empty
  split at h
  · obtain ⟨client, hclient, h⟩ := Except.bind_eq_ok.mp h
    obtain ⟨es, hes, h⟩ := Except.bind_eq_ok.mp h
    have hnode := proposeDevice_known hclient
    have hedges := membershipEdges_known hes
    split at h
    · cases h
      exact ⟨forall_mem_singleton.mpr hnode, hedges⟩
    · obtain ⟨server, hserver, h⟩ := Except.bind_eq_ok.mp h
      obtain ⟨e, he, h⟩ := Except.bind_eq_ok.mp h
      cases h
      have hedge := edgeOf_known (by decide +kernel) he
      exact ⟨forall_mem_cons.mpr ⟨hnode, forall_mem_singleton.mpr (proposeDevice_known hserver)⟩,
        forall_mem_append.mpr ⟨hedges, forall_mem_singleton.mpr hedge⟩⟩
  · cases h
    exact Claims.known_empty

theorem neighborClaims_known {c : Claims} (h : neighborClaims rt ctx o = .ok c) :
    c.Known rt := by
  unfold neighborClaims at h
  simp only at h
  split at h
  · obtain ⟨device, hdevice, h⟩ := Except.bind_eq_ok.mp h
    obtain ⟨es, hes, h⟩ := Except.bind_eq_ok.mp h
    cases h
    exact ⟨forall_mem_singleton.mpr (proposeDevice_known hdevice), membershipEdges_known hes⟩
  · cases h
    exact Claims.known_empty

theorem observationClaims_known {c : Claims} (h : observationClaims rt ctx o = .ok c) :
    c.Known rt := by
  unfold observationClaims at h
  simp only at h
  split at h
  · exact linkLayerClaims_known h
  split at h
  · exact mdnsClaims_known h
  split at h
  · exact dhcpClaims_known h
  split at h
  · exact neighborClaims_known h
  split at h
  · cases h
    exact Claims.known_conflicts _
  · cases h
    exact Claims.known_empty

theorem subnetClaims_known {s : SubnetEvidence} {c : Claims} (h : subnetClaims rt s = .ok c) :
    c.Known rt := by
  obtain ⟨node, hnode, h⟩ := Except.bind_eq_ok.mp h
  cases h
  exact ⟨forall_mem_singleton.mpr (proposeNode_known (by decide +kernel) hnode), by simp⟩

theorem vlanClaims_known {v : VlanEvidence} {c : Claims} (h : vlanClaims rt v = .ok c) :
    c.Known rt := by
  obtain ⟨node, hnode, h⟩ := Except.bind_eq_ok.mp h
  have hvlan := proposeNode_known (by decide +kernel) hnode
  split at h
  · cases h
    exact ⟨forall_mem_singleton.mpr hvlan, by simp⟩
  · obtain ⟨subnet, hsubnet, h⟩ := Except.bind_eq_ok.mp h
    obtain ⟨e, he, h⟩ := Except.bind_eq_ok.mp h
    cases h
    have hnode := proposeNode_known (by decide +kernel) hsubnet
    refine ⟨forall_mem_cons.mpr ⟨hvlan, forall_mem_singleton.mpr hnode⟩,
      forall_mem_singleton.mpr ?_⟩
    rw [edge_new_kind he]
    decide +kernel

/-! ## The graph -/

variable {r : Reading} {subnets : List SubnetEvidence} {vlans : List VlanEvidence}

theorem read_localNode_known {observations : List PassiveObservation} {localIdentity : Str}
    {asOf : Option Stamp} {localLabel : Option Str}
    (h : read rt observations localIdentity asOf localLabel = .ok r) : r.localNode.Known rt := by
  unfold read at h
  split at h
  · cases h
  · obtain ⟨asOf, -, h⟩ := Except.bind_eq_ok.mp h
    obtain ⟨identity, -, h⟩ := Except.bind_eq_ok.mp h
    obtain ⟨localNode, hlocalNode, h⟩ := Except.bind_eq_ok.mp h
    obtain ⟨seen, -, h⟩ := Except.bind_eq_ok.mp h
    cases h
    exact proposeDevice_known hlocalNode

/-- What an item claims, whichever it is. -/
theorem claimed_known (hlocal : r.localNode.Known rt) {i : Item}
    (hi : i ∈ r.items subnets vlans) : (i.claimed rt ctx).Known rt := by
  cases hc : i.claims rt ctx with
  | error e =>
    unfold Item.claimed
    rw [hc]
    exact Claims.known_empty
  | ok c =>
    rw [claimed_of_ok hc]
    rcases mem_items.mp hi with rfl | ⟨s, -, rfl⟩ | ⟨v, -, rfl⟩ | ⟨o, -, rfl⟩
    · cases hc
      exact ⟨forall_mem_singleton.mpr hlocal, by simp⟩
    · exact subnetClaims_known hc
    · exact vlanClaims_known hc
    · exact observationClaims_known hc

theorem graph_node_known (hlocal : r.localNode.Known rt) {n : TopologyNode}
    (hn : n ∈ (r.graph rt subnets vlans).nodes) : n.Known rt := by
  obtain ⟨p, hp, rfl⟩ := mem_map.mp (mem_sortedBy.mp hn)
  obtain ⟨i, hi, hmem⟩ := mem_mergeItems hp
  obtain ⟨m, hm, rfl⟩ := mem_map.mp hmem
  exact (claimed_known hlocal hi).nodes m hm

theorem graph_edge_kind (hlocal : r.localNode.Known rt) {e : TopologyEdge}
    (he : e ∈ (r.graph rt subnets vlans).edges) : e.kind.val ∈ edgeKinds := by
  obtain ⟨i, hi, hderives⟩ := sound he
  exact (claimed_known hlocal hi).edges e (derives_iff.mp hderives)

theorem conflict_kind {o : Seen} {c : TopologyConflict} (h : o.conflict = some c) :
    c.kind ∈ conflictKinds := by
  unfold Seen.conflict at h
  split at h
  · split at h
    · cases h
    · cases h
      exact mem_cons_self
  · split at h
    · next hreuse =>
      cases h
      exact mem_cons_of_mem _ (mem_cons_of_mem _ hreuse)
    · cases h

theorem vlanConflicts_kind {claims : List (Str × List (Fin 4095 × Str))} {c : TopologyConflict}
    (h : c ∈ vlanConflicts claims) : c.kind ∈ conflictKinds := by
  obtain ⟨entry, -, h⟩ := mem_filterMap.mp h
  simp only at h
  split at h
  · cases h
    exact mem_cons_of_mem _ mem_cons_self
  · cases h

theorem graph_conflict_kind (hall : ∀ o ∈ activeSeen r.asOf r.seen,
    ∃ c, observationClaims rt (r.context subnets vlans) o = .ok c) {c : TopologyConflict}
    (hc : c ∈ (r.graph rt subnets vlans).conflicts) : c.kind ∈ conflictKinds := by
  rw [graph_conflicts hall, mem_sortedBy] at hc
  rcases mem_append.mp hc with hc | hc
  · obtain ⟨o, -, ho⟩ := mem_filterMap.mp hc
    exact conflict_kind ho
  · exact vlanConflicts_kind hc

end

end FieldDiscovery.Topology
