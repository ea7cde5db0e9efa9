import FieldDiscovery.Lib.Leaders
import FieldDiscovery.Topology.Refine

/-!
# The graph of the claims

`Item` is one item of evidence, and `graphOf` merges the claims of all active items: for each
identifier the first node of least folded label, for each key the first edge of greatest rank, and
every conflict. `buildTopology_eq_ok` says that `build_topology` returns exactly when its inputs can
be read and every active item has claims, and that it returns their graph.
-/

namespace FieldDiscovery.Topology

open Py Correlation Passive List

/-! ## Reading the observations -/

/-- Both times of an observation that has its first. -/
def lookAt (o : Utc × PassiveObservation) : Except Exc Seen := do
  let valid ← expiresAt o.2 o.1
  .ok ⟨o.2, o.1, valid⟩

/-- An observation with its times. -/
def look (o : PassiveObservation) : Except Exc Seen := do
  let timed ← stamped o
  lookAt timed

theorem utc_stamp (t : Utc) : utc t.stamp = .ok t := by
  unfold utc Utc.stamp
  simp only [Utc.astimezone]

/-- The key by which observations are sorted. -/
def Seen.key (o : Seen) : Str ×ₗ Str ×ₗ Str ×ₗ Str :=
  observationKey (o.observedAt, o.observation)

/-! ## Activity -/

/-- The observation lies in the future of `asOf`. -/
def isFuture (asOf observedAt : Utc) : Bool := decide (asOf < observedAt)

/-- The item has expired by `asOf`. -/
def isExpired (asOf observedAt : Utc) (valid : Option Utc) : Bool :=
  !isFuture asOf observedAt && valid.any fun t => decide (t ≤ asOf)

/-- `observed_at <= as_of`, and `as_of < valid_until` when one is set. -/
def isActive (asOf observedAt : Utc) (valid : Option Utc) : Bool :=
  decide (observedAt ≤ asOf) && valid.all fun t => decide (asOf < t)

/-- More excluded items. -/
def Builder.tally (b : Builder) (future expired : Nat) : Builder :=
  { b with
    excludedFuture := b.excludedFuture + future
    excludedExpired := b.excludedExpired + expired }

theorem active_eq (b : Builder) (asOf observedAt : Utc) (valid : Option Utc) :
    b.active asOf observedAt valid =
      (b.tally (isFuture asOf observedAt).toNat (isExpired asOf observedAt valid).toNat,
        isActive asOf observedAt valid) := by
  unfold Builder.active isExpired isActive isFuture Builder.tally
  by_cases hfuture : asOf < observedAt
  · simp [hfuture]
  · have hle := not_lt.mp hfuture
    cases valid with
    | none => simp [hfuture, hle]
    | some t =>
      by_cases ht : t ≤ asOf
      · simp [hfuture, ht]
      · simp [hfuture, ht, hle, not_le.mp ht]

/-- The items whose validity satisfies `p`. -/
def countValidity {α : Type} (p : Utc → Option Utc → Bool) (validity : α → Validity)
    (items : List α) : Nat :=
  items.countP fun i => p (validity i).observedAt (validity i).validUntil

theorem filterActive_eq {α : Type} (asOf : Utc) (validity : α → Validity) (b : Builder)
    (items : List α) : filterActive asOf validity b items =
      (b.tally (countValidity (fun t _ => isFuture asOf t) validity items)
          (countValidity (isExpired asOf) validity items),
        items.filter fun i => isActive asOf (validity i).observedAt (validity i).validUntil) := by
  unfold filterActive
  induction items using List.reverseRecOn with
  | nil => simp [countValidity, Builder.tally]
  | append_singleton items item ih =>
    rw [foldl_append, ih, foldl_cons, foldl_nil, active_eq]
    simp only [countValidity, countP_append, filter_append, countP_singleton, filter_singleton]
    unfold Builder.tally
    split <;> split <;> split <;> simp_all [Nat.add_assoc]

/-! ## Several claims at once -/

/-- All claims in order. -/
def Claims.concat (cs : List Claims) : Claims :=
  ⟨cs.flatMap Claims.nodes, cs.flatMap Claims.edges, cs.flatMap Claims.conflicts,
    cs.flatMap Claims.vlans⟩

@[simp] theorem Claims.concat_nil : Claims.concat [] = {} := rfl

theorem Claims.concat_cons (c : Claims) (cs : List Claims) :
    Claims.concat (c :: cs) = c.append (Claims.concat cs) := rfl

theorem Claims.concat_append (cs cs' : List Claims) :
    Claims.concat (cs ++ cs') = (Claims.concat cs).append (Claims.concat cs') := by
  simp [Claims.concat, Claims.append]

theorem apply_tally (rt : Runtime) (b : Builder) (c : Claims) (future expired : Nat) :
    (b.tally future expired).apply rt c = (b.apply rt c).tally future expired := rfl

theorem tally_tally (b : Builder) (f e f' e' : Nat) :
    (b.tally f e).tally f' e' = b.tally (f + f') (e + e') := by
  simp [Builder.tally, Nat.add_assoc]

/-! ## The claims of subnets and VLANs -/

section

variable (rt : Runtime)

/-- The claims of a subnet. -/
def subnetClaims (s : SubnetEvidence) : Except Exc Claims := do
  let node ← proposeNode rt (str "subnet") s.network.cidr
  .ok { nodes := [node] }

/-- The claims of a VLAN. -/
def vlanClaims (v : VlanEvidence) : Except Exc Claims := do
  let node ← proposeNode rt (str "vlan") (natStr v.vlanId) (some (vlanLabel v))
  match v.subnetCidr with
  | none => .ok { nodes := [node] }
  | some network => do
    let subnet ← proposeNode rt (str "subnet") network.cidr
    let e ← vlanEdge v node.nodeId subnet.nodeId
    .ok { nodes := [node, subnet], edges := [e] }

theorem proposeNode_nodeId {kind identity : Str} {label : Option Str} {node : TopologyNode}
    (h : proposeNode rt kind identity label = .ok node) :
    nodeId rt kind identity = .ok node.nodeId ∧ node.kind = kind := by
  obtain ⟨id, hid, h⟩ := Except.bind_eq_ok.mp h
  obtain ⟨label, -, h⟩ := Except.bind_eq_ok.mp h
  cases h
  exact ⟨hid, rfl⟩

/-- The kind of a node can be read off its identifier. -/
theorem nodeId_kind {kind identity id : Str} (h : nodeId rt kind identity = .ok id) :
    ∃ digest, digest.length = 16 ∧ digest.all isHex = true ∧
      id = str "n_" ++ rt.casefold (strip kind) ++ str "_" ++ digest := by
  obtain ⟨k, hk, h⟩ := Except.bind_eq_ok.mp h
  obtain ⟨i, -, h⟩ := Except.bind_eq_ok.mp h
  simp only at h
  split at h
  · cases h
    refine ⟨_, ?_, ?_, by rw [text_isText hk]⟩
    · rw [length_take, rt.sha256_length]
      rfl
    · exact all_eq_true.mpr fun c hc => all_eq_true.mp (rt.sha256_hex _) c (mem_of_mem_take hc)
  · cases h

theorem vlan_ne_subnet {v s a b : Str} (hv : nodeId rt (str "vlan") v = .ok a)
    (hs : nodeId rt (str "subnet") s = .ok b) : a ≠ b := by
  obtain ⟨d, hd, -, rfl⟩ := nodeId_kind rt hv
  obtain ⟨d', hd', -, rfl⟩ := nodeId_kind rt hs
  intro h
  have hlen := congrArg List.length h
  have hvlan : rt.casefold (strip (str "vlan")) = str "vlan" := by rfl
  have hsubnet : rt.casefold (strip (str "subnet")) = str "subnet" := by rfl
  rw [hvlan, hsubnet] at hlen
  simp only [length_append, hd, hd'] at hlen
  exact absurd hlen (by decide)

/-- An edge between two nodes is always built when its texts and times are already checked. -/
theorem edge_new_ok {a b : Str} (hne : a ≠ b) {kind : Str} (hkind : IsText 128 kind)
    (source : BoundedText 128) (confidence : Confidence) (inferred : Bool) (v : Validity) :
    TopologyEdge.new a b kind source.val confidence inferred v.observedAt v.validUntil =
      .ok ⟨a, b, ⟨kind, hkind⟩, source, confidence, inferred, v, hne⟩ := by
  have hconf : checkConfidence (confidence : ℚ) = .ok confidence := dif_pos confidence.2
  obtain ⟨t, valid, hordered⟩ := v
  unfold TopologyEdge.new
  rw [dif_neg hne, text_of_isText hkind, Except.ok_bind, text_of_isText source.2, Except.ok_bind,
    hconf, Except.ok_bind]
  cases valid with
  | none => rfl
  | some u =>
    have hu : t ≤ u := hordered u rfl
    have hvalid : validUntil u.stamp t = .ok ⟨u, hu⟩ := by
      unfold validUntil utc Utc.stamp
      simp only [Utc.astimezone, Except.ok_bind]
      exact dif_pos hu
    simp only [hvalid, Except.ok_bind]

theorem vlanEdge_ok (v : VlanEvidence) {a b : Str} (hne : a ≠ b) :
    ∃ e, vlanEdge v a b = .ok e :=
  ⟨_, edge_new_ok hne (by decide +kernel) v.source v.confidence false v.validity⟩

theorem subnetClaims_ok (s : SubnetEvidence) : ∃ c, subnetClaims rt s = .ok c := by
  obtain ⟨node, hnode⟩ := proposeNode_subnet rt s.network
  exact ⟨_, by rw [subnetClaims, hnode, Except.ok_bind]⟩

theorem vlanClaims_ok (v : VlanEvidence) : ∃ c, vlanClaims rt v = .ok c := by
  obtain ⟨node, hnode⟩ := proposeNode_vlanEvidence rt v
  unfold vlanClaims
  rw [hnode, Except.ok_bind]
  cases v.subnetCidr with
  | none => exact ⟨_, rfl⟩
  | some network =>
    obtain ⟨subnet, hsubnet⟩ := proposeNode_subnet rt network
    have hne := vlan_ne_subnet rt (proposeNode_nodeId rt hnode).1 (proposeNode_nodeId rt hsubnet).1
    obtain ⟨e, he⟩ := vlanEdge_ok v hne
    simp only [hsubnet, Except.ok_bind, he]
    exact ⟨_, rfl⟩

/-! ## The loops over subnets and VLANs -/

/-- What the tables hold when `subnets` and `vlans` have been read. -/
structure Tables (subnets : List SubnetEvidence) (vlans : List (Fin 4095)) (w : Work) : Prop where
  /-- A subnet in the table has its own node, which has been proposed. -/
  subnetNodes : ∀ network id, w.subnetNodes.get (Ipv4Network.cidr network) = some id → ∀ node,
    proposeNode rt (str "subnet") network.cidr = .ok node → node.nodeId = id ∧
      ∃ b, w.builder.nodes.get id = some b ∧ node.rank rt ≤ b.rank rt
  subnets : ∀ s ∈ subnets, ∃ id, w.subnetNodes.get s.network.cidr = some id
  vlanNodes : ∀ v id, w.vlanNodes.get v = some id →
    v ∈ vlans ∧ nodeId rt (str "vlan") (natStr v.val) = .ok id
  vlans : ∀ v ∈ vlans, ∃ id, w.vlanNodes.get v = some id

variable {rt} {w : Work} {subnets : List SubnetEvidence} {vlans : List (Fin 4095)}

theorem Tables.merge (h : Tables rt subnets vlans w) (c : Claims) :
    Tables rt subnets vlans (w.merge rt c) := by
  refine ⟨?_, h.subnets, h.vlanNodes, h.vlans⟩
  intro network id hid node hnode
  obtain ⟨hnid, b, hb, hle⟩ := h.subnetNodes network id hid node hnode
  obtain ⟨b', hb', hle'⟩ :=
    get_keepAll_ge (TopologyNode.rank rt) hb (keyedNodes c.nodes)
  exact ⟨hnid, b', hb', hle.trans hle'⟩

/-- A node that has just been merged is in the builder, or one with a smaller label is. -/
theorem get_merge_node (w : Work) (n : TopologyNode) : ∃ b,
    (w.merge rt { nodes := [n] }).builder.nodes.get n.nodeId = some b ∧ n.rank rt ≤ b.rank rt := by
  show ∃ b, (keep (TopologyNode.rank rt) w.builder.nodes n.nodeId n).get n.nodeId = some b ∧ _
  rw [get_keep, if_pos rfl]
  cases w.builder.nodes.get n.nodeId with
  | none => exact ⟨n, rfl, le_rfl⟩
  | some m =>
    unfold better
    simp only
    split
    · exact ⟨n, rfl, le_rfl⟩
    · next hlt => exact ⟨m, rfl, not_lt.mp hlt⟩

/-- The node of a subnet enters the table once it has been proposed. -/
theorem Tables.setSubnet (h : Tables rt subnets vlans w) {network : Ipv4Network}
    {node : TopologyNode} (hnode : proposeNode rt (str "subnet") network.cidr = .ok node)
    (hproposed : ∃ b, w.builder.nodes.get node.nodeId = some b ∧ node.rank rt ≤ b.rank rt) :
    Tables rt subnets vlans
      { w with subnetNodes := w.subnetNodes.set network.cidr node.nodeId } := by
  refine ⟨?_, ?_, h.vlanNodes, h.vlans⟩
  · intro other id hid n hn
    simp only [Dict.get_set] at hid
    split at hid
    · next heq =>
      cases hid
      rw [← heq, hnode] at hn
      cases hn
      exact ⟨rfl, hproposed⟩
    · exact h.subnetNodes other id hid n hn
  · intro s hs
    simp only [Dict.get_set]
    split
    · exact ⟨_, rfl⟩
    · exact h.subnets s hs

theorem addSubnet_run (h : Tables rt subnets vlans w) (s : SubnetEvidence) :
    ∃ w' c, addSubnet rt w s = .ok w' ∧ subnetClaims rt s = .ok c ∧
      Tables rt (subnets ++ [s]) vlans w' ∧ w'.builder = w.builder.apply rt c ∧
      w'.vlanClaims = w.vlanClaims := by
  obtain ⟨node, hnode⟩ := proposeNode_subnet rt s.network
  have hset := (h.merge { nodes := [node] }).setSubnet hnode (get_merge_node w node)
  refine ⟨_, { nodes := [node] }, by rw [addSubnet, node_eq, hnode]; rfl,
    by rw [subnetClaims, hnode]; rfl, ⟨hset.subnetNodes, ?_, hset.vlanNodes, hset.vlans⟩, rfl, rfl⟩
  intro t ht
  rcases mem_append.mp ht with ht | ht
  · exact hset.subnets t ht
  · rw [mem_singleton.mp ht]
    exact ⟨node.nodeId, by simp⟩

/-- The subnet of a VLAN has its node, proposed now or earlier. -/
theorem subnetNode_run (h : Tables rt subnets vlans w) {network : Ipv4Network}
    {node : TopologyNode} (hnode : proposeNode rt (str "subnet") network.cidr = .ok node) :
    ∃ w', subnetNode rt w network = .ok (w', node.nodeId) ∧
      Tables rt subnets vlans { w' with
        subnetNodes := w'.subnetNodes.set network.cidr node.nodeId } ∧
      w'.builder = w.builder.apply rt { nodes := [node] } ∧ w'.vlanClaims = w.vlanClaims := by
  unfold subnetNode
  cases hid : w.subnetNodes.get network.cidr with
  | some id =>
    obtain ⟨rfl, b, hb, hle⟩ := h.subnetNodes network id hid node hnode
    exact ⟨w, rfl, h.setSubnet hnode ⟨b, hb, hle⟩, (apply_dominated _ hb hle).symm, rfl⟩
  | none =>
    simp only [node_eq, hnode, Except.ok_bind]
    exact ⟨_, rfl, (h.merge _).setSubnet hnode (get_merge_node w node), rfl, rfl⟩

theorem addVlan_run (h : Tables rt subnets vlans w) (v : VlanEvidence) :
    ∃ w' c, addVlan rt w v = .ok w' ∧ vlanClaims rt v = .ok c ∧
      Tables rt subnets (vlans ++ [v.vlanId]) w' ∧ w'.builder = w.builder.apply rt c ∧
      w'.vlanClaims = w.vlanClaims := by
  obtain ⟨node, hnode⟩ := proposeNode_vlanEvidence rt v
  have hid := (proposeNode_nodeId rt hnode).1
  -- the tables once the node of the VLAN is in
  have hvlan : Tables rt subnets (vlans ++ [v.vlanId]) { w.merge rt { nodes := [node] } with
      vlanNodes := w.vlanNodes.set v.vlanId node.nodeId } := by
    have hmerge := h.merge { nodes := [node] }
    refine ⟨hmerge.subnetNodes, hmerge.subnets, ?_, ?_⟩
    · intro x id hx
      simp only [Dict.get_set] at hx
      split at hx
      · next heq =>
        cases hx
        exact ⟨by simp [← heq], heq ▸ hid⟩
      · exact ⟨mem_append_left _ (h.vlanNodes x id hx).1, (h.vlanNodes x id hx).2⟩
    · intro x hx
      simp only [Dict.get_set]
      split
      · exact ⟨_, rfl⟩
      · next hne =>
        rcases mem_append.mp hx with hx | hx
        · exact h.vlans x hx
        · exact absurd (mem_singleton.mp hx).symm hne
  unfold addVlan vlanClaims
  simp only [node_eq, hnode, Except.ok_bind]
  cases v.subnetCidr with
  | none => exact ⟨_, { nodes := [node] }, rfl, rfl, hvlan, rfl, rfl⟩
  | some network =>
    obtain ⟨subnet, hsubnet⟩ := proposeNode_subnet rt network
    obtain ⟨w', hw', hset, hbuilder, hclaims⟩ := subnetNode_run hvlan hsubnet
    have hne := vlan_ne_subnet rt hid (proposeNode_nodeId rt hsubnet).1
    obtain ⟨e, he⟩ := vlanEdge_ok v hne
    have hw'' : subnetNode rt { w.merge rt { nodes := [node] } with
        vlanNodes := (w.merge rt { nodes := [node] }).vlanNodes.set v.vlanId node.nodeId } network =
          .ok (w', subnet.nodeId) := hw'
    simp only [hw'', hsubnet, Except.ok_bind, he]
    refine ⟨_, { nodes := [node, subnet], edges := [e] }, rfl, rfl, ?_, ?_, hclaims⟩
    · have := hset.merge { edges := [e] }
      exact ⟨this.subnetNodes, this.subnets, this.vlanNodes, this.vlans⟩
    · show w'.builder.edge e = _
      rw [hbuilder]
      simp [Work.merge, Builder.apply, Builder.edge, keyedNodes, keyedEdges, keepAll]

end

end FieldDiscovery.Topology
