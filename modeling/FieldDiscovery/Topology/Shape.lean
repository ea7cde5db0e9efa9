import FieldDiscovery.Lib.Leaders
import FieldDiscovery.Topology.Items

/-!
# What the order of the evidence can change

The claims of an observation depend on the subnets through one thing only: which of the active items
of evidence for the subnet of its address comes first, because the confidence of an
`inferred_subnet_membership` edge is capped by the confidence of that item. Everything else (nodes,
conflicts, VLAN memberships, the keys of the edges) depends on the sets of subnets and VLANs
(`observationClaims_similar`).
-/

namespace FieldDiscovery.Topology

open Py Correlation Passive List

/-! ## The subnet of an address -/

theorem subnetFor_eq (address : Str) (subnets : List SubnetEvidence) :
    subnetFor address subnets = (addressValue address).bind fun a =>
      firstBest (fun s => s.network.prefixlen) (subnets.filter fun s => s.network.contains a) := by
  unfold subnetFor addressValue
  cases ipv4Address address <;> rfl

/-- A network is determined by its prefix length and an address in it. -/
theorem Ipv4Network.eq_of_contains {m n : Ipv4Network} {a : Nat} (hm : m.contains a = true)
    (hn : n.contains a = true) (h : m.prefixlen = n.prefixlen) : m = n := by
  obtain ⟨x, p, hp, hx, hdvd⟩ := m
  obtain ⟨y, q, hq, hy, hdvd'⟩ := n
  simp only at h
  subst h
  simp only [Ipv4Network.contains, decide_eq_true_eq] at hm hn
  have hxy : x = y := by
    rw [← Nat.div_mul_cancel hdvd, ← Nat.div_mul_cancel hdvd', ← hm, ← hn]
  subst hxy
  rfl

/-- The subnet of an address is a most specific one, under the first of its items of evidence. -/
theorem subnetFor_spec {address : Str} {subnets : List SubnetEvidence} {s : SubnetEvidence}
    (h : subnetFor address subnets = some s) : ∃ a, addressValue address = some a ∧
      s.network.contains a = true ∧
      (∀ t ∈ subnets, t.network.contains a = true → t.network.prefixlen ≤ s.network.prefixlen) ∧
      subnets.find? (fun t => t.network = s.network) = some s := by
  rw [subnetFor_eq] at h
  obtain ⟨a, ha, h⟩ := Option.bind_eq_some_iff.mp h
  have hcontains : s.network.contains a = true := (mem_filter.mp (firstBest_mem h)).2
  refine ⟨a, ha, hcontains, ?_, ?_⟩
  · intro t ht hta
    exact firstBest_max h t (mem_filter.mpr ⟨ht, hta⟩)
  · have hfind : subnets.find? (fun t => t.network = s.network) =
        (subnets.filter fun t => t.network.contains a).find? fun t => t.network = s.network := by
      rw [find?_filter]
      congr 1
      funext t
      by_cases ht : t.network = s.network
      · simp [ht, hcontains]
      · simp [ht]
    obtain ⟨before, after, hsplit, hbefore, -⟩ := firstBest_eq_some.mp h
    rw [hfind, hsplit, find?_append]
    have hnone : before.find? (fun t => decide (t.network = s.network)) = none := by
      rw [find?_eq_none]
      intro t ht heq
      have hlt := hbefore t ht
      rw [of_decide_eq_true heq] at hlt
      exact lt_irrefl _ hlt
    rw [hnone]
    simp

/-- The networks of some evidence. -/
def networks (subnets : List SubnetEvidence) : List Ipv4Network :=
  subnets.map SubnetEvidence.network

/-- Evidence for the same networks puts an address in the same network. -/
theorem subnetFor_network {address : Str} {l l' : List SubnetEvidence}
    (h : ∀ n, n ∈ networks l ↔ n ∈ networks l') :
    Option.Rel (fun s s' => s.network = s'.network) (subnetFor address l) (subnetFor address l') := by
  have hnone : ∀ {l l' : List SubnetEvidence}, (∀ n, n ∈ networks l → n ∈ networks l') →
      ∀ s, subnetFor address l = some s → ∃ s', subnetFor address l' = some s' ∧
        s.network.prefixlen ≤ s'.network.prefixlen := by
    intro l l' h s hs
    obtain ⟨a, ha, hcontains, -, hfind⟩ := subnetFor_spec hs
    obtain ⟨t, ht, hts⟩ := mem_map.mp (h s.network (mem_map_of_mem (mem_of_find?_eq_some hfind)))
    have hmem : t ∈ l'.filter fun t => t.network.contains a := by
      rw [mem_filter, hts]
      exact ⟨ht, hcontains⟩
    cases hs' : subnetFor address l' with
    | none =>
      rw [subnetFor_eq, ha, Option.bind_some, firstBest_eq_none] at hs'
      rw [hs'] at hmem
      cases hmem
    | some s' =>
      refine ⟨s', rfl, ?_⟩
      obtain ⟨a', ha', -, hmax, -⟩ := subnetFor_spec hs'
      cases ha.symm.trans ha'
      rw [← hts]
      exact hmax t ht (mem_filter.mp hmem).2
  cases hs : subnetFor address l with
  | none =>
    cases hs' : subnetFor address l' with
    | none => exact .none
    | some s' =>
      obtain ⟨s, h', -⟩ := hnone (fun n => (h n).mpr) s' hs'
      rw [hs] at h'
      cases h'
  | some s =>
    obtain ⟨s', hs', hle⟩ := hnone (fun n => (h n).mp) s hs
    obtain ⟨s'', hs'', hge⟩ := hnone (fun n => (h n).mpr) s' hs'
    cases hs.symm.trans hs''
    rw [hs']
    obtain ⟨a, ha, hcontains, -⟩ := subnetFor_spec hs
    obtain ⟨a', ha', hcontains', -⟩ := subnetFor_spec hs'
    cases ha.symm.trans ha'
    exact .some (Ipv4Network.eq_of_contains hcontains hcontains' (le_antisymm hle hge))

/-- The subnet of an address depends on the first item of evidence for each network. -/
theorem subnetFor_congr {address : Str} {l l' : List SubnetEvidence}
    (h : ∀ n, l.find? (fun t => t.network = n) = l'.find? fun t => t.network = n) :
    subnetFor address l = subnetFor address l' := by
  have hnetworks : ∀ {l l' : List SubnetEvidence},
      (∀ n, l.find? (fun t => t.network = n) = l'.find? fun t => t.network = n) →
      ∀ n, n ∈ networks l → n ∈ networks l' := by
    intro l l' h n hn
    obtain ⟨s, hs, rfl⟩ := mem_map.mp hn
    cases hfind : l.find? fun t => t.network = s.network with
    | none => exact absurd (decide_eq_true rfl) (find?_eq_none.mp hfind s hs)
    | some t =>
      rw [h] at hfind
      have ht : t.network = s.network := by simpa using find?_some hfind
      exact mem_map.mpr ⟨t, mem_of_find?_eq_some hfind, ht⟩
  have hrel := @subnetFor_network address _ _
    fun n => ⟨hnetworks h n, hnetworks (fun n => (h n).symm) n⟩
  cases hs : subnetFor address l with
  | none =>
    rw [hs] at hrel
    cases hs' : subnetFor address l' with
    | none => rfl
    | some s' =>
      rw [hs'] at hrel
      cases hrel
  | some s =>
    rw [hs] at hrel
    cases hs' : subnetFor address l' with
    | none =>
      rw [hs'] at hrel
      cases hrel
    | some s' =>
      rw [hs'] at hrel
      cases hrel with
      | some hnetwork =>
        obtain ⟨-, -, -, -, hfind⟩ := subnetFor_spec hs
        obtain ⟨-, -, -, -, hfind'⟩ := subnetFor_spec hs'
        rw [h, hnetwork, hfind'] at hfind
        exact hfind.symm

/-! ## Claims in two contexts -/

/-- The contexts have the same node for this device, the same VLANs and evidence for the same
subnets. -/
structure Context.Similar (ctx ctx' : Context) : Prop where
  localNode : ctx.localNode = ctx'.localNode
  subnets : ∀ n, n ∈ networks ctx.subnets ↔ n ∈ networks ctx'.subnets
  vlans : ∀ v, v ∈ ctx.vlans ↔ v ∈ ctx'.vlans

/-- The claims agree, but for the confidences of the edges. -/
structure Claims.Similar (c c' : Claims) : Prop where
  nodes : c.nodes = c'.nodes
  edges : Forall₂ (fun e e' => e.key = e'.key) c.edges c'.edges
  conflicts : c.conflicts = c'.conflicts
  vlans : c.vlans = c'.vlans

theorem Claims.Similar.refl (c : Claims) : c.Similar c :=
  ⟨rfl, forall₂_same.mpr fun _ _ => rfl, rfl, rfl⟩

theorem similar_of_eq {x y : Except Exc Claims} (h : x = y) : Except.Rel Claims.Similar x y := by
  subst h
  cases x with
  | error e => exact .error e
  | ok c => exact .ok (.refl c)

section

variable {rt : Runtime} {ctx ctx' : Context}

/-- Whether an edge can be built, and its key, do not depend on its confidence. -/
theorem edgeOf_similar (o : Seen) (sourceNode targetNode : Str) (kind : String) (inferred : Bool)
    {c c' : ℚ} (hc : 0 ≤ c ∧ c ≤ 1) (hc' : 0 ≤ c' ∧ c' ≤ 1) :
    Except.Rel (fun e e' => e.key = e'.key) (edgeOf o sourceNode targetNode kind c inferred)
      (edgeOf o sourceNode targetNode kind c' inferred) := by
  unfold edgeOf TopologyEdge.new checkConfidence
  rw [dif_pos hc, dif_pos hc']
  by_cases hloop : sourceNode = targetNode
  · simp only [hloop, dif_pos]
    exact .error _
  · simp only [hloop, dif_neg, not_false_eq_true, Except.ok_bind]
    cases text (str kind) "edge kind" 128 with
    | error e => exact .error e
    | ok kind =>
      cases text o.source "edge evidence source" 128 with
      | error e => exact .error e
      | ok source =>
        simp only [Except.ok_bind]
        cases o.expiresAt with
        | none => exact .ok rfl
        | some t =>
          simp only
          cases validUntil t.stamp o.observedAt with
          | error e => exact .error e
          | ok t => exact .ok rfl

theorem capped_valid {c : ℚ} (hc : 0 ≤ c ∧ c ≤ 1) (s : SubnetEvidence) :
    0 ≤ min c s.confidence ∧ min c s.confidence ≤ 1 :=
  ⟨le_min hc.1 s.confidence.2.1, (min_le_left _ _).trans hc.2⟩

theorem membershipEdges_similar (h : ctx.Similar ctx') (o : Seen) (device address : Str) {c : ℚ}
    (hc : 0 ≤ c ∧ c ≤ 1) :
    Except.Rel (Forall₂ fun e e' => e.key = e'.key) (membershipEdges rt ctx o device address c)
      (membershipEdges rt ctx' o device address c) := by
  unfold membershipEdges
  have hrel := @subnetFor_network address _ _ h.subnets
  cases hs : subnetFor address ctx.subnets with
  | none =>
    rw [hs] at hrel
    cases hs' : subnetFor address ctx'.subnets with
    | none => exact .ok .nil
    | some s' =>
      rw [hs'] at hrel
      cases hrel
  | some s =>
    rw [hs] at hrel
    cases hs' : subnetFor address ctx'.subnets with
    | none =>
      rw [hs'] at hrel
      cases hrel
    | some s' =>
      rw [hs'] at hrel
      cases hrel with
      | some hnetwork =>
        simp only [hnetwork]
        cases proposeNode rt (str "subnet") s'.network.cidr with
        | error e => exact .error e
        | ok node =>
          simp only [Except.ok_bind]
          apply (edgeOf_similar o device node.nodeId _ true (capped_valid hc s)
            (capped_valid hc s')).bind
          intro e e' he
          exact .ok (.cons he .nil)

theorem literals_valid : (0 ≤ leaseConfidence ∧ leaseConfidence ≤ 1) ∧
    (0 ≤ neighborConfidence ∧ neighborConfidence ≤ 1) ∧
    0 ≤ addressConfidence ∧ addressConfidence ≤ 1 := by
  unfold leaseConfidence neighborConfidence addressConfidence
  norm_num

/-- The claims of an observation in similar contexts. -/
theorem observationClaims_similar (h : ctx.Similar ctx') (o : Seen) :
    Except.Rel Claims.Similar (observationClaims rt ctx o) (observationClaims rt ctx' o) := by
  obtain ⟨hlease, hneighbor, haddress⟩ := literals_valid
  have hmembership : ∀ (nodes : List TopologyNode) (device address : Str) {c : ℚ},
      0 ≤ c ∧ c ≤ 1 → Except.Rel Claims.Similar
        (membershipEdges rt ctx o device address c >>= fun edges => .ok { nodes, edges })
        (membershipEdges rt ctx' o device address c >>= fun edges => .ok { nodes, edges }) := by
    intro nodes device address c hc
    apply (membershipEdges_similar h o device address hc).bind
    intro edges edges' hedges
    exact .ok ⟨rfl, hedges, rfl, rfl⟩
  unfold observationClaims
  simp only
  by_cases hlink : o.observation.kind = str "link_layer_neighbor"
  · rw [if_pos hlink, if_pos hlink]
    apply similar_of_eq
    unfold linkLayerClaims
    simp only [h.localNode, h.vlans]
  rw [if_neg hlink, if_neg hlink]
  by_cases hmdns : o.observation.kind = str "mdns_service" ∨
      o.observation.kind = str "mdns_instance" ∨ o.observation.kind = str "mdns_address"
  · rw [if_pos hmdns, if_pos hmdns]
    unfold mdnsClaims
    simp only
    split
    · exact similar_of_eq rfl
    split
    · exact similar_of_eq rfl
    split
    · exact similar_of_eq rfl
    cases stringField o.observation.fields "hostname" with
    | none => exact similar_of_eq rfl
    | some hostname =>
      cases stringField o.observation.fields "address" with
      | none => exact similar_of_eq rfl
      | some address =>
        simp only
        cases proposeDevice rt (str "hostname") hostname (some hostname) with
        | error e => exact .error e
        | ok node => exact hmembership _ _ _ haddress
  rw [if_neg hmdns, if_neg hmdns]
  by_cases hdhcp : o.observation.kind = str "dhcp_message"
  · rw [if_pos hdhcp, if_pos hdhcp]
    unfold dhcpClaims
    simp only
    split
    · exact similar_of_eq rfl
    cases stringField o.observation.fields "assigned_address" with
    | none => exact similar_of_eq rfl
    | some address =>
      cases dhcpIdentity o.observation.fields with
      | none => exact similar_of_eq rfl
      | some identity =>
        simp only
        cases proposeDevice rt identity.1 identity.2
            (some ((stringField o.observation.fields "hostname").getD identity.2)) with
        | error e => exact .error e
        | ok client =>
          simp only [Except.ok_bind]
          cases stringField o.observation.fields "server_identifier" with
          | none => exact hmembership _ _ _ hlease
          | some server =>
            apply (membershipEdges_similar h o client.nodeId address hlease).bind
            intro edges edges' hedges
            simp only
            cases proposeDevice rt (str "ipv4_observation") server
                (some (str "DHCP " ++ server)) with
            | error e => exact .error e
            | ok serverNode =>
              simp only [Except.ok_bind]
              cases edgeOf o serverNode.nodeId client.nodeId "dhcp_lease" leaseConfidence with
              | error e => exact .error e
              | ok e => exact .ok ⟨rfl, rel_append hedges (.cons rfl .nil), rfl, rfl⟩
  rw [if_neg hdhcp, if_neg hdhcp]
  by_cases hneighborKind : o.observation.kind = str "neighbor_observation"
  · rw [if_pos hneighborKind, if_pos hneighborKind]
    unfold neighborClaims
    simp only
    cases stringField o.observation.fields "address" with
    | none => exact similar_of_eq rfl
    | some address =>
      cases stringField o.observation.fields "mac_address" with
      | none => exact similar_of_eq rfl
      | some mac =>
        simp only
        cases proposeDevice rt (str "mac") mac (some mac) with
        | error e => exact .error e
        | ok device => exact hmembership _ _ _ hneighbor
  rw [if_neg hneighborKind, if_neg hneighborKind]
  exact similar_of_eq rfl

/-- The claims of an observation depend on the subnets through the subnet of each address. -/
theorem observationClaims_congr (hlocalNode : ctx.localNode = ctx'.localNode)
    (hvlans : ∀ v, v ∈ ctx.vlans ↔ v ∈ ctx'.vlans)
    (hsubnets : ∀ address, subnetFor address ctx.subnets = subnetFor address ctx'.subnets)
    (o : Seen) : observationClaims rt ctx o = observationClaims rt ctx' o := by
  unfold observationClaims linkLayerClaims mdnsClaims dhcpClaims neighborClaims membershipEdges
  simp only [hlocalNode, hvlans, hsubnets]

end

end FieldDiscovery.Topology
