import FieldDiscovery.Topology.Ties

/-!
# Soundness and completeness

Every edge of the graph is derived by an active item of evidence, the best derived edge of each key
is kept, and both its end points are nodes, so that the renderer finds their positions.
-/

namespace FieldDiscovery.Topology

open Py Correlation Passive List

section

variable {rt : Runtime}

/-- The claims of the item list the edge. -/
def Derives (rt : Runtime) (ctx : Context) (i : Item) (e : TopologyEdge) : Prop :=
  ∃ c, i.claims rt ctx = .ok c ∧ e ∈ c.edges

/-- The source of an item of evidence, stripped, and its times. -/
def Item.origin : Item → Option (Str × Utc × Option Utc)
  | .device _ => none
  | .subnet s => some (s.source.val, s.validity.observedAt, s.validity.validUntil)
  | .vlan v => some (v.source.val, v.validity.observedAt, v.validity.validUntil)
  | .observation o => some (strip o.source, o.observedAt, o.expiresAt)

/-- The origin of an edge. -/
def TopologyEdge.origin (e : TopologyEdge) : Str × Utc × Option Utc :=
  (e.evidenceSource.val, e.validity.observedAt, e.validity.validUntil)

theorem derives_iff {ctx : Context} {i : Item} {e : TopologyEdge} :
    Derives rt ctx i e ↔ e ∈ (i.claimed rt ctx).edges := by
  unfold Derives Item.claimed
  cases i.claims rt ctx with
  | error x => simp [Except.toOption]
  | ok c => simp [Except.toOption]

theorem mem_edges_iff {ctx : Context} {i : Item} {k : EdgeKey} {e : TopologyEdge} :
    (k, e) ∈ i.edges rt ctx ↔ Derives rt ctx i e ∧ e.key = k := by
  rw [derives_iff, Item.edges, keyedEdges, mem_map]
  constructor
  · rintro ⟨e', he', h⟩
    cases h
    exact ⟨he', rfl⟩
  · rintro ⟨he, rfl⟩
    exact ⟨e, he, rfl⟩

/-! ## Where an edge comes from -/

theorem vlanClaims_spec {v : VlanEvidence} {c : Claims} (h : vlanClaims rt v = .ok c) :
    ∀ e ∈ c.edges, e.origin = (v.source.val, v.validity.observedAt, v.validity.validUntil) ∧
      (∃ n ∈ c.nodes, n.nodeId = e.sourceNode) ∧ ∃ n ∈ c.nodes, n.nodeId = e.targetNode := by
  obtain ⟨node, -, h⟩ := Except.bind_eq_ok.mp h
  cases hv : v.subnetCidr with
  | none =>
    simp only [hv] at h
    cases h
    simp
  | some network =>
    simp only [hv] at h
    obtain ⟨subnet, -, h⟩ := Except.bind_eq_ok.mp h
    obtain ⟨e, he, h⟩ := Except.bind_eq_ok.mp h
    cases h
    obtain ⟨hsource, htarget, hevidence, hobserved, hvalid⟩ := edge_new_spec he
    intro e' he'
    rw [mem_singleton.mp he']
    refine ⟨?_, ⟨node, by simp, hsource.symm⟩, ⟨subnet, by simp, htarget.symm⟩⟩
    rw [TopologyEdge.origin, hevidence, hobserved, hvalid, v.source.2.1]

/-- An edge has the origin of the item that derives it. -/
theorem Derives.origin {ctx : Context} {i : Item} {e : TopologyEdge} (h : Derives rt ctx i e) :
    i.origin = some e.origin := by
  obtain ⟨c, hc, he⟩ := h
  cases i with
  | device node =>
    cases hc
    cases he
  | subnet s =>
    obtain ⟨node, -, hc⟩ := Except.bind_eq_ok.mp hc
    cases hc
    cases he
  | vlan v => exact congrArg some (vlanClaims_spec hc e he).1.symm
  | observation o =>
    obtain ⟨hsource, hobserved, hvalid⟩ := ((observationClaims_spec hc).edges e he).1
    rw [TopologyEdge.origin, hsource, hobserved, hvalid]
    rfl

theorem active_of_mem_items {r : Reading} {subnets : List SubnetEvidence}
    {vlans : List VlanEvidence} {i : Item} (hi : i ∈ r.items subnets vlans)
    {origin : Str × Utc × Option Utc} (h : i.origin = some origin) :
    origin.2.1 ≤ r.asOf ∧ ∀ t ∈ origin.2.2, r.asOf < t := by
  have hactive : ∀ {t valid}, isActive r.asOf t valid = true →
      t ≤ r.asOf ∧ ∀ u ∈ valid, r.asOf < u := by
    intro t valid hactive
    cases valid <;> simpa [isActive] using hactive
  rcases mem_items.mp hi with rfl | ⟨s, hs, rfl⟩ | ⟨v, hv, rfl⟩ | ⟨o, ho, rfl⟩
  · cases h
  · cases h
    exact hactive (mem_activeEvidence.mp hs).2
  · cases h
    exact hactive (mem_activeEvidence.mp hv).2
  · cases h
    exact hactive (mem_activeSeen.mp ho).2

/-! ## What is kept -/

variable {r : Reading} {subnets : List SubnetEvidence} {vlans : List VlanEvidence}

theorem mem_graph_edges {e : TopologyEdge} : e ∈ (r.graph rt subnets vlans).edges ↔
    (mergeItems TopologyEdge.rank Item.order (Item.edges rt (r.context subnets vlans))
      (r.items subnets vlans)).get e.key = some e := by
  show e ∈ sortedBy _ ((mergeItems TopologyEdge.rank Item.order
    (Item.edges rt (r.context subnets vlans)) (r.items subnets vlans)).map Prod.snd) ↔ _
  rw [mem_sortedBy, mem_map]
  constructor
  · rintro ⟨p, hp, rfl⟩
    obtain ⟨i, -, hi⟩ := mem_mergeItems hp
    obtain ⟨k, e⟩ := p
    obtain ⟨-, rfl⟩ := mem_edges_iff.mp hi
    exact Dict.get_of_mem (keysNodup_mergeItems _) hp
  · intro h
    exact ⟨_, Dict.mem_of_get h, rfl⟩

theorem sound {e : TopologyEdge} (he : e ∈ (r.graph rt subnets vlans).edges) :
    ∃ i ∈ r.items subnets vlans, Derives rt (r.context subnets vlans) i e := by
  obtain ⟨i, hi, hmem⟩ := mem_mergeItems (Dict.mem_of_get (mem_graph_edges.mp he))
  exact ⟨i, hi, (mem_edges_iff.mp hmem).1⟩

/-- One edge is kept for each key that is derived, and none that is derived beats it. -/
theorem complete {i : Item} (hi : i ∈ r.items subnets vlans) {e : TopologyEdge}
    (he : Derives rt (r.context subnets vlans) i e) : ∃ kept,
      (r.graph rt subnets vlans).edges.filter (fun e' => e'.key = e.key) = [kept] ∧
      ∀ j ∈ r.items subnets vlans, ∀ e', Derives rt (r.context subnets vlans) j e' →
        e'.key = e.key → e'.rank ≤ kept.rank := by
  have hmem : e ∈ candidates e.key (i.edges rt (r.context subnets vlans)) :=
    mem_candidates.mpr (mem_edges_iff.mpr ⟨he, rfl⟩)
  cases hget : (mergeItems TopologyEdge.rank Item.order (Item.edges rt (r.context subnets vlans))
      (r.items subnets vlans)).get e.key with
  | none =>
    rw [get_mergeItems_eq_none.mp hget i hi] at hmem
    cases hmem
  | some kept =>
    have hkey : kept.key = e.key := by
      obtain ⟨j, -, hj⟩ := mem_mergeItems (Dict.mem_of_get hget)
      exact (mem_edges_iff.mp hj).2
    refine ⟨kept, ?_, ?_⟩
    · have hkept : ∀ e', e' ∈ (r.graph rt subnets vlans).edges.filter
          (fun e' => e'.key = e.key) ↔ e' = kept := by
        intro e'
        rw [mem_filter, mem_graph_edges]
        constructor
        · rintro ⟨h, hkey'⟩
          rw [of_decide_eq_true hkey', hget] at h
          exact (Option.some.inj h).symm
        · rintro rfl
          rw [hkey]
          exact ⟨hget, by simp⟩
      apply perm_singleton.mp
      apply (perm_ext_iff_of_nodup _ (nodup_singleton _)).mpr
      · intro e'
        rw [hkept, mem_singleton]
      · have hdistinct : ((mergeItems TopologyEdge.rank Item.order
            (Item.edges rt (r.context subnets vlans)) (r.items subnets vlans)).map
              Prod.snd).Pairwise fun a b : TopologyEdge => a.key ≠ b.key := by
          apply entries_pairwise (keysNodup_mergeItems _)
          intro p hp
          obtain ⟨j, -, hj⟩ := mem_mergeItems hp
          exact (mem_edges_iff.mp hj).2
        apply Nodup.filter
        apply ((sortedBy_perm _ _).nodup_iff).mpr
        exact hdistinct.imp fun hne heq => hne (congrArg _ heq)
    · intro j hj e' he' hkey'
      obtain ⟨m, ⟨-, a, ha, hlead⟩, hbest⟩ := exists_leads hget
      cases ha.symm.trans hbest
      have hmem' : e' ∈ candidates e.key (j.edges rt (r.context subnets vlans)) :=
        mem_candidates.mpr (mem_edges_iff.mpr ⟨he', hkey'⟩)
      obtain ⟨b, hb, hle⟩ := best_isSome TopologyEdge.rank hmem'
      rcases hlead j hj b hb with hlt | ⟨heq, -⟩
      · exact hle.trans hlt.le
      · exact hle.trans heq.le

/-! ## The end points -/

/-- A node that an item proposes is in the graph, perhaps under another label. -/
theorem node_in_graph {i : Item} (hi : i ∈ r.items subnets vlans) {n : TopologyNode}
    (hn : n ∈ (i.claimed rt (r.context subnets vlans)).nodes) :
    ∃ m ∈ (r.graph rt subnets vlans).nodes, m.nodeId = n.nodeId := by
  have hmem : n ∈ candidates n.nodeId (i.nodes rt (r.context subnets vlans)) :=
    mem_candidates.mpr (mem_map.mpr ⟨n, hn, rfl⟩)
  cases hget : (mergeItems (TopologyNode.rank rt) Item.order
      (Item.nodes rt (r.context subnets vlans)) (r.items subnets vlans)).get n.nodeId with
  | none =>
    rw [get_mergeItems_eq_none.mp hget i hi] at hmem
    cases hmem
  | some m =>
    have hm := Dict.mem_of_get hget
    refine ⟨m, mem_sortedBy.mpr (mem_map.mpr ⟨_, hm, rfl⟩), ?_⟩
    obtain ⟨j, -, hj⟩ := mem_mergeItems hm
    obtain ⟨m', -, h⟩ := mem_map.mp hj
    obtain ⟨hid, rfl⟩ := Prod.mk.inj h
    exact hid

theorem claimed_of_ok {ctx : Context} {i : Item} {c : Claims} (h : i.claims rt ctx = .ok c) :
    i.claimed rt ctx = c := by
  unfold Item.claimed
  rw [h]
  rfl

/-- What an observation can refer to is in the graph. -/
theorem anchor_in_graph {o : Seen} (ho : o ∈ activeSeen r.asOf r.seen) {c : Claims}
    (hc : observationClaims rt (r.context subnets vlans) o = .ok c) {id : Str}
    (h : Anchor rt (r.context subnets vlans) c.nodes id) :
    ∃ m ∈ (r.graph rt subnets vlans).nodes, m.nodeId = id := by
  cases h with
  | localNode =>
    apply node_in_graph (mem_items.mpr (Or.inl rfl)) (n := r.localNode)
    exact mem_cons_self
  | proposed n hn =>
    apply node_in_graph (mem_items.mpr (Or.inr (Or.inr (Or.inr ⟨o, ho, rfl⟩))))
    rw [claimed_of_ok (i := .observation o) hc]
    exact hn
  | subnet s n hs hn =>
    apply node_in_graph (mem_items.mpr (Or.inr (Or.inl ⟨s, mem_activeSubnets.mp hs, rfl⟩)))
    have hclaims : (Item.subnet s).claims rt (r.context subnets vlans) = .ok { nodes := [n] } := by
      show subnetClaims rt s = _
      rw [subnetClaims, hn, Except.ok_bind]
    rw [claimed_of_ok hclaims]
    exact mem_cons_self
  | vlan v n label hv hn =>
    obtain ⟨e, hv', rfl⟩ := mem_map.mp hv
    obtain ⟨c', hc'⟩ := vlanClaims_ok rt e
    obtain ⟨node, hnode, hrest⟩ := Except.bind_eq_ok.mp hc'
    have hid : node.nodeId = n.nodeId := by
      have h₁ := (proposeNode_nodeId rt hnode).1
      rw [(proposeNode_nodeId rt hn).1] at h₁
      exact (Except.ok.inj h₁).symm
    have hmem : node ∈ c'.nodes := by
      cases hcidr : e.subnetCidr with
      | none =>
        simp only [hcidr] at hrest
        cases hrest
        exact mem_cons_self
      | some network =>
        simp only [hcidr] at hrest
        obtain ⟨subnet, -, hrest⟩ := Except.bind_eq_ok.mp hrest
        obtain ⟨edge, -, hrest⟩ := Except.bind_eq_ok.mp hrest
        cases hrest
        exact mem_cons_self
    rw [← hid]
    apply node_in_graph (mem_items.mpr (Or.inr (Or.inr (Or.inl ⟨e, mem_activeVlans.mp hv', rfl⟩))))
    rw [claimed_of_ok (i := .vlan e) hc']
    exact hmem

/-- Both end points of every edge are nodes. -/
theorem closed {e : TopologyEdge} (he : e ∈ (r.graph rt subnets vlans).edges) :
    (∃ n ∈ (r.graph rt subnets vlans).nodes, n.nodeId = e.sourceNode) ∧
      ∃ n ∈ (r.graph rt subnets vlans).nodes, n.nodeId = e.targetNode := by
  obtain ⟨i, hi, c, hc, hmem⟩ := sound he
  rcases mem_items.mp hi with rfl | ⟨s, -, rfl⟩ | ⟨v, -, rfl⟩ | ⟨o, ho, rfl⟩
  · cases hc
    cases hmem
  · obtain ⟨node, -, hc⟩ := Except.bind_eq_ok.mp hc
    cases hc
    cases hmem
  · obtain ⟨-, ⟨m, hm, hsource⟩, ⟨n, hn, htarget⟩⟩ := vlanClaims_spec hc e hmem
    rw [← hsource, ← htarget]
    rw [← claimed_of_ok hc] at hm hn
    exact ⟨node_in_graph hi hm, node_in_graph hi hn⟩
  · obtain ⟨-, hsource, htarget⟩ := (observationClaims_spec hc).edges e hmem
    exact ⟨anchor_in_graph ho hc hsource, anchor_in_graph ho hc htarget⟩

/-! ## The counts -/

theorem countP_partition {α : Type} (asOf : Utc) (times : α → Utc × Option Utc) (l : List α) :
    (l.filter fun a => isActive asOf (times a).1 (times a).2).length +
      l.countP (fun a => isExpired asOf (times a).1 (times a).2) +
      l.countP (fun a => isFuture asOf (times a).1) = l.length := by
  have hone : ∀ (t : Utc) (valid : Option Utc), (isActive asOf t valid).toNat +
      (isExpired asOf t valid).toNat + (isFuture asOf t).toNat = 1 := by
    intro t valid
    unfold isActive isExpired isFuture
    by_cases hfuture : asOf < t
    · simp [hfuture, not_le.mpr hfuture]
    · cases valid with
      | none => simp [hfuture, not_lt.mp hfuture]
      | some u =>
        by_cases hu : u ≤ asOf
        · simp [hfuture, not_lt.mp hfuture, hu, not_lt.mpr hu]
        · simp [hfuture, not_lt.mp hfuture, hu, not_le.mp hu]
  have hcons : ∀ (p : α → Bool) (a : α) (l : List α),
      (a :: l).countP p = l.countP p + (p a).toNat := by
    intro p a l
    rw [countP_cons]
    cases p a <;> rfl
  rw [← countP_eq_length_filter]
  induction l with
  | nil => rfl
  | cons a l ih =>
    have h := hone (times a).1 (times a).2
    rw [hcons, hcons, hcons, length_cons]
    omega

/-- Every item of evidence is active, expired or in the future; this device is an item besides. -/
theorem counts (r : Reading) (subnets : List SubnetEvidence) (vlans : List VlanEvidence) :
    (r.items subnets vlans).length + r.count subnets vlans (isExpired r.asOf) +
        r.count subnets vlans (fun t _ => isFuture r.asOf t) =
      r.seen.length + subnets.length + vlans.length + 1 := by
  have hsubnets := countP_partition r.asOf
    (fun s : SubnetEvidence => (s.validity.observedAt, s.validity.validUntil)) subnets
  have hvlans := countP_partition r.asOf
    (fun v : VlanEvidence => (v.validity.observedAt, v.validity.validUntil)) vlans
  have hseen := countP_partition r.asOf (fun o : Seen => (o.observedAt, o.expiresAt)) r.seen
  unfold Reading.items Reading.count countValidity countSeen activeEvidence activeSeen
  simp only [length_cons, length_append, length_map] at hsubnets hvlans hseen ⊢
  omega

/-! ## The renderer -/

/-- The `positions` of `render_svg`. -/
def svgPositions (g : TopologyGraph) : Dict Str (Nat × Nat) :=
  g.nodes.zipIdx.foldl
    (fun d p => d.set p.1.nodeId (80 + p.2 % 3 * 360, 60 + p.2 / 3 * 150)) []

/-- The end points of the lines that `render_svg` draws for the edges. -/
def svgLines (g : TopologyGraph) : Except Exc (List ((Nat × Nat) × (Nat × Nat))) :=
  g.edges.mapM fun e => do
    let (x₁, y₁) ← lookup e.sourceNode
    let (x₂, y₂) ← lookup e.targetNode
    .ok ((x₁ + 130, y₁ + 30), (x₂ + 130, y₂ + 30))
where
  /-- `positions[id]` -/
  lookup (id : Str) : Except Exc (Nat × Nat) :=
    match (svgPositions g).get id with
    | some p => .ok p
    | none => .error .key

theorem svgPositions_get {g : TopologyGraph} {n : TopologyNode} (hn : n ∈ g.nodes) :
    ∃ p, (svgPositions g).get n.nodeId = some p := by
  have hall : ∀ (l : List (TopologyNode × Nat)) (d : Dict Str (Nat × Nat)),
      ((∃ p, d.get n.nodeId = some p) ∨ ∃ q ∈ l, q.1.nodeId = n.nodeId) →
      ∃ p, (l.foldl (fun d q => d.set q.1.nodeId (80 + q.2 % 3 * 360, 60 + q.2 / 3 * 150)) d).get
        n.nodeId = some p := by
    intro l
    induction l with
    | nil =>
      rintro d (h | ⟨q, hq, -⟩)
      · exact h
      · cases hq
    | cons q l ih =>
      intro d h
      apply ih
      by_cases hq : q.1.nodeId = n.nodeId
      · left
        rw [Dict.get_set, if_pos hq]
        exact ⟨_, rfl⟩
      · rcases h with h | ⟨q', hq', h⟩
        · left
          rw [Dict.get_set, if_neg hq]
          exact h
        · rcases mem_cons.mp hq' with rfl | hq'
          · exact absurd h hq
          · exact Or.inr ⟨q', hq', h⟩
  apply hall
  right
  obtain ⟨k, hk⟩ := getElem?_of_mem hn
  exact ⟨(n, k), mem_zipIdx_iff_getElem?.mpr (by simpa using hk), rfl⟩

/-- The renderer finds every position when the graph is closed. -/
theorem svgLines_returns {g : TopologyGraph} (h : ∀ e ∈ g.edges,
    (∃ n ∈ g.nodes, n.nodeId = e.sourceNode) ∧ ∃ n ∈ g.nodes, n.nodeId = e.targetNode) :
    ∃ lines, svgLines g = .ok lines := by
  unfold svgLines
  rw [Except.exists_mapM_eq_ok]
  intro e he
  obtain ⟨⟨m, hm, hsource⟩, n, hn, htarget⟩ := h e he
  obtain ⟨p, hp⟩ := svgPositions_get hm
  obtain ⟨q, hq⟩ := svgPositions_get hn
  rw [hsource] at hp
  rw [htarget] at hq
  simp only [svgLines.lookup, hp, hq, Except.ok_bind]
  exact ⟨_, rfl⟩

/-- The graph that `build_topology` returns: every edge is derived by an active item of its evidence
source, the best edge of every derived key is kept alone, end points are nodes and have positions,
and no item is lost from the counts. -/
theorem buildTopology_sound_complete {observations : List PassiveObservation} {localIdentity : Str}
    {asOf : Option Stamp} {localLabel : Option Str} {subnets : List SubnetEvidence}
    {vlans : List VlanEvidence} {g : TopologyGraph}
    (h : buildTopology rt observations localIdentity asOf localLabel subnets vlans = .ok g) :
    ∃ r, read rt observations localIdentity asOf localLabel = .ok r ∧
      (∀ e ∈ g.edges, ∃ i ∈ r.items subnets vlans, Derives rt (r.context subnets vlans) i e ∧
        i.origin = some e.origin ∧ e.validity.observedAt ≤ r.asOf ∧
        ∀ t ∈ e.validity.validUntil, r.asOf < t) ∧
      (∀ i ∈ r.items subnets vlans, ∀ e, Derives rt (r.context subnets vlans) i e → ∃ kept,
        g.edges.filter (fun e' => e'.key = e.key) = [kept] ∧
        ∀ j ∈ r.items subnets vlans, ∀ e', Derives rt (r.context subnets vlans) j e' →
          e'.key = e.key → e'.rank ≤ kept.rank) ∧
      (∀ e ∈ g.edges, (∃ n ∈ g.nodes, n.nodeId = e.sourceNode) ∧
        ∃ n ∈ g.nodes, n.nodeId = e.targetNode) ∧
      (∃ lines, svgLines g = .ok lines) ∧
      (r.items subnets vlans).length + g.excludedExpired + g.excludedFuture =
        observations.length + subnets.length + vlans.length + 1 := by
  obtain ⟨r, hread, -, rfl⟩ := buildTopology_eq_ok.mp h
  refine ⟨r, hread, ?_, ?_, ?_, ?_, ?_⟩
  · intro e he
    obtain ⟨i, hi, hderives⟩ := sound he
    obtain ⟨hobserved, hvalid⟩ := active_of_mem_items hi hderives.origin
    exact ⟨i, hi, hderives, hderives.origin, hobserved, hvalid⟩
  · intro i hi e he
    exact complete hi he
  · intro e he
    exact closed he
  · exact svgLines_returns fun e he => closed he
  · have hlength := (Except.mapM_eq_ok.mp (read_eq_ok.mp hread).2).length_eq
    rw [hlength]
    exact counts r subnets vlans

end

/-! ## The end of time -/

/-- VLAN 20 on `10.0.0.0/24`, as long as `valid` says. -/
def officeVlan (valid : Option Utc) (h : ∀ t ∈ valid, epoch ≤ t) : VlanEvidence where
  vlanId := 20
  source := ⟨str "switch", by decide +kernel⟩
  validity := ⟨epoch, valid, h⟩
  subnetCidr := some ⟨10 * 2 ^ 24, 24, lan_prefixlen, lan_lt, lan_canonical⟩
  name := none
  confidence := full

/-- One item expires at `datetime.max`, the other never. -/
def officeVlans : List VlanEvidence :=
  [officeVlan (some Utc.max) (by simpa using Utc.le_max epoch), officeVlan none (openEnded epoch)]

/-- `(confidence, observed_at, valid_until)` with open-ended validity after every time. -/
def TopologyEdge.openLast (e : TopologyEdge) : Confidence ×ₗ Utc ×ₗ WithTop Utc :=
  toLex (e.confidence, toLex (e.validity.observedAt, e.validity.validUntil))

/-- What identifies and ranks an edge. -/
def TopologyEdge.summary (e : TopologyEdge) : List Str × ℚ × Utc × Option Utc :=
  ([e.sourceNode, e.targetNode, e.kind.val, e.evidenceSource.val], e.confidence,
    e.validity.observedAt, e.validity.validUntil)

/-- The key of the edge from the VLAN to its subnet. -/
def officeKey : List Str :=
  [str "n_vlan_dfc2f662c3e8c25b", str "n_subnet_58aa1436d5648d23", str "vlan_subnet", str "switch"]

/-- Open-ended evidence does not replace evidence that expires at `datetime.max`. -/
theorem openEnded_not_last : ∃ g r,
    buildTopology sampleRuntime [] (str "scanner") (some epoch.stamp) none [] officeVlans = .ok g ∧
    read sampleRuntime [] (str "scanner") (some epoch.stamp) none = .ok r ∧
    ∃ kept ∈ g.edges, ∃ i ∈ r.items [] officeVlans, ∃ e,
      Derives sampleRuntime (r.context [] officeVlans) i e ∧ e.key = kept.key ∧
        kept.openLast < e.openLast := by
  have hgraph : (buildTopology sampleRuntime [] (str "scanner") (some epoch.stamp) none []
      officeVlans).toOption.map (fun g => g.edges.map TopologyEdge.summary) =
        some [(officeKey, 1, epoch, some Utc.max)] := by decide +kernel
  have hvlan : (vlanClaims sampleRuntime (officeVlan none (by simp))).toOption.map
      (fun c => c.edges.map TopologyEdge.summary) = some [(officeKey, 1, epoch, none)] := by
    decide +kernel
  have hone : ∀ {es : List TopologyEdge} {p : List Str × ℚ × Utc × Option Utc},
      es.map TopologyEdge.summary = [p] → ∃ e ∈ es, e.summary = p := by
    intro es p h
    obtain ⟨e, rfl, he⟩ := map_eq_singleton_iff.mp h
    exact ⟨e, mem_cons_self, he⟩
  cases hrun : buildTopology sampleRuntime [] (str "scanner") (some epoch.stamp) none []
      officeVlans with
  | error e =>
    rw [hrun] at hgraph
    cases hgraph
  | ok g =>
    obtain ⟨r, hread, -, -⟩ := buildTopology_eq_ok.mp hrun
    cases hc : vlanClaims sampleRuntime (officeVlan none (by simp)) with
    | error e =>
      rw [hc] at hvlan
      cases hvlan
    | ok c =>
      rw [hrun] at hgraph
      rw [hc] at hvlan
      obtain ⟨kept, hkept, hkept'⟩ := hone (Option.some.inj hgraph)
      obtain ⟨e, he, he'⟩ := hone (Option.some.inj hvlan)
      simp only [TopologyEdge.summary, Prod.mk.injEq] at hkept' he'
      have hactive : officeVlan none (by simp) ∈
          activeEvidence r.asOf VlanEvidence.validity officeVlans := by
        have hasOf : (read sampleRuntime [] (str "scanner") (some epoch.stamp) none).toOption.map
            Reading.asOf = some epoch := by decide +kernel
        rw [hread] at hasOf
        rw [mem_activeEvidence, Option.some.inj hasOf]
        exact ⟨by simp [officeVlans], by decide⟩
      refine ⟨g, r, rfl, hread, kept, hkept, .vlan (officeVlan none (by simp)),
        mem_items.mpr (Or.inr (Or.inr (Or.inl ⟨_, hactive, rfl⟩))), e, ⟨c, hc, he⟩,
        ?_, ?_⟩
      · have hkey := he'.1.trans hkept'.1.symm
        simp only [cons.injEq, and_true] at hkey
        unfold TopologyEdge.key
        rw [hkey.1, hkey.2.1, hkey.2.2.1, hkey.2.2.2]
      · have hconfidence : kept.confidence = e.confidence :=
          Subtype.ext (hkept'.2.1.trans he'.2.1.symm)
        unfold TopologyEdge.openLast
        rw [hkept'.2.2.1, hkept'.2.2.2, he'.2.2.1, he'.2.2.2, hconfidence,
          Prod.Lex.toLex_lt_toLex, Prod.Lex.toLex_lt_toLex]
        exact Or.inr ⟨rfl, Or.inr ⟨rfl, WithTop.coe_lt_top _⟩⟩

theorem buildTopology_sound_complete_sample : ∃ g,
    buildTopology sampleRuntime [arpReply] (str "scanner") (some epoch.stamp) none
      [lanEvidence half] officeVlans = .ok g ∧ (∃ lines, svgLines g = .ok lines) := by
  obtain ⟨g, hg⟩ := Except.exists_of_isOk (show (buildTopology sampleRuntime [arpReply]
    (str "scanner") (some epoch.stamp) none [lanEvidence half] officeVlans).isOk = true by
      decide +kernel)
  obtain ⟨r, -, -, -, -, hlines, -⟩ := buildTopology_sound_complete hg
  exact ⟨g, hg, hlines⟩

end FieldDiscovery.Topology
