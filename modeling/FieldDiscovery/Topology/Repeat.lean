import FieldDiscovery.Topology.Ties

/-!
# Repeated observations

Nodes, edges and VLAN disagreements absorb repeated observations, up to ties. The other conflicts are
appended once for each observation and never merged, so every repeat adds one.
-/

namespace FieldDiscovery.Topology

open Py Correlation Passive List

section

variable {rt : Runtime} {observations : List PassiveObservation} {localIdentity : Str}
  {asOf : Option Stamp} {localLabel : Option Str} {subnets : List SubnetEvidence}
  {vlans : List VlanEvidence}

/-- Repeats have nothing to add: no active observation discloses a conflict, and the active
observations that lead a node or an edge propose the same one. -/
structure RepeatFree (rt : Runtime) (r : Reading) (subnets : List SubnetEvidence)
    (vlans : List VlanEvidence) : Prop where
  conflicts : ∀ o ∈ activeSeen r.asOf r.seen, o.conflict = none
  nodes : ∀ k o o',
    Leads (TopologyNode.rank rt) Item.order (Item.nodes rt (r.context subnets vlans))
      (r.items subnets vlans) k (.observation o) →
    Leads (TopologyNode.rank rt) Item.order (Item.nodes rt (r.context subnets vlans))
      (r.items subnets vlans) k (.observation o') →
    best (TopologyNode.rank rt) (Item.nodes rt (r.context subnets vlans)) k (.observation o) =
      best (TopologyNode.rank rt) (Item.nodes rt (r.context subnets vlans)) k (.observation o')
  edges : ∀ k o o',
    Leads TopologyEdge.rank Item.order (Item.edges rt (r.context subnets vlans))
      (r.items subnets vlans) k (.observation o) →
    Leads TopologyEdge.rank Item.order (Item.edges rt (r.context subnets vlans))
      (r.items subnets vlans) k (.observation o') →
    best TopologyEdge.rank (Item.edges rt (r.context subnets vlans)) k (.observation o) =
      best TopologyEdge.rank (Item.edges rt (r.context subnets vlans)) k (.observation o')

/-- The items that are not observations. -/
def Reading.evidence (r : Reading) (subnets : List SubnetEvidence) (vlans : List VlanEvidence) :
    List Item :=
  .device r.localNode :: ((activeEvidence r.asOf SubnetEvidence.validity subnets).map .subnet ++
    (activeEvidence r.asOf VlanEvidence.validity vlans).map .vlan)

theorem items_eq (r : Reading) (subnets : List SubnetEvidence) (vlans : List VlanEvidence) :
    r.items subnets vlans = r.evidence subnets vlans ++
      (activeSeen r.asOf r.seen).map .observation := by
  unfold Reading.items Reading.evidence
  rw [cons_append, append_assoc]

theorem evidence_order_lt {r : Reading} {seen : List Seen} {i j : Item}
    (hi : i ∈ r.evidence subnets vlans) (hj : j ∈ (activeSeen r.asOf seen).map Item.observation) :
    i.order < j.order := by
  obtain ⟨o, -, rfl⟩ := mem_map.mp hj
  have hlt : ∀ {i : Item}, (ofLex i.order).1 < 3 → i.order < (Item.observation o).order :=
    fun h => Prod.Lex.lt_iff.mpr (Or.inl h)
  rcases mem_cons.mp hi with rfl | hi
  · exact hlt (show 0 < 3 by norm_num)
  rcases mem_append.mp hi with hi | hi
  · obtain ⟨s, -, rfl⟩ := mem_map.mp hi
    exact hlt (show 1 < 3 by norm_num)
  · obtain ⟨v, -, rfl⟩ := mem_map.mp hi
    exact hlt (show 2 < 3 by norm_num)

theorem mem_observations {asOf : Utc} {seen seen' : List Seen} (h : ∀ o, o ∈ seen' ↔ o ∈ seen)
    (i : Item) : i ∈ (activeSeen asOf seen').map Item.observation ↔
      i ∈ (activeSeen asOf seen).map Item.observation := by
  simp only [mem_map, mem_activeSeen, h]

/-- Without ties among observations, nodes and edges absorb repeats. -/
theorem RepeatFree.merges {r : Reading} (h : RepeatFree rt r subnets vlans) {seen : List Seen}
    (hseen : ∀ o, o ∈ seen ↔ o ∈ r.seen) :
    (Reading.graph rt { r with seen := seen } subnets vlans).nodes =
        (r.graph rt subnets vlans).nodes ∧
      (Reading.graph rt { r with seen := seen } subnets vlans).edges =
        (r.graph rt subnets vlans).edges := by
  constructor
  · rw [graph_nodes_eq_iff]
    intro k
    have hagree : ∀ i ∈ (activeSeen r.asOf r.seen).map Item.observation,
        ∀ j ∈ (activeSeen r.asOf r.seen).map Item.observation,
        Leads (TopologyNode.rank rt) Item.order (Item.nodes rt (r.context subnets vlans))
          (r.evidence subnets vlans ++ (activeSeen r.asOf r.seen).map .observation) k i →
        Leads (TopologyNode.rank rt) Item.order (Item.nodes rt (r.context subnets vlans))
          (r.evidence subnets vlans ++ (activeSeen r.asOf r.seen).map .observation) k j →
        best (TopologyNode.rank rt) (Item.nodes rt (r.context subnets vlans)) k i =
          best (TopologyNode.rank rt) (Item.nodes rt (r.context subnets vlans)) k j := by
      intro i hi j hj
      obtain ⟨o, -, rfl⟩ := mem_map.mp hi
      obtain ⟨o', -, rfl⟩ := mem_map.mp hj
      rw [← items_eq]
      exact h.nodes k o o'
    rw [items_eq, items_eq r]
    exact get_mergeItems_append_congr (fun i hi j hj => evidence_order_lt hi hj)
      (mem_observations hseen) hagree
  · rw [graph_edges_eq_iff]
    intro k
    have hagree : ∀ i ∈ (activeSeen r.asOf r.seen).map Item.observation,
        ∀ j ∈ (activeSeen r.asOf r.seen).map Item.observation,
        Leads TopologyEdge.rank Item.order (Item.edges rt (r.context subnets vlans))
          (r.evidence subnets vlans ++ (activeSeen r.asOf r.seen).map .observation) k i →
        Leads TopologyEdge.rank Item.order (Item.edges rt (r.context subnets vlans))
          (r.evidence subnets vlans ++ (activeSeen r.asOf r.seen).map .observation) k j →
        best TopologyEdge.rank (Item.edges rt (r.context subnets vlans)) k i =
          best TopologyEdge.rank (Item.edges rt (r.context subnets vlans)) k j := by
      intro i hi j hj
      obtain ⟨o, -, rfl⟩ := mem_map.mp hi
      obtain ⟨o', -, rfl⟩ := mem_map.mp hj
      rw [← items_eq]
      exact h.edges k o o'
    rw [items_eq, items_eq r]
    exact get_mergeItems_append_congr (fun i hi j hj => evidence_order_lt hi hj)
      (mem_observations hseen) hagree

/-- The VLAN disagreements absorb repeats. -/
theorem memberships_repeat {r : Reading} {ctx : Context} {seen : List Seen}
    (hseen : ∀ o, o ∈ seen ↔ o ∈ r.seen) (p : Str × (Fin 4095 × Str)) :
    p ∈ Reading.memberships rt { r with seen := seen } ctx ↔ p ∈ r.memberships rt ctx := by
  unfold Reading.memberships
  simp only [mem_flatMap, mem_activeSeen, mem_sortedBy, hseen]

/-- The graph of repeated observations is returned when that of the original ones is. -/
theorem reading_repeat {observations' : List PassiveObservation} {r : Reading}
    (hsub : ∀ o, o ∈ observations' ↔ o ∈ observations)
    (h : read rt observations localIdentity asOf localLabel = .ok r)
    (hall : ∀ o ∈ activeSeen r.asOf r.seen,
      ∃ c, observationClaims rt (r.context subnets vlans) o = .ok c) :
    ∃ seen, observations'.mapM look = .ok seen ∧ (∀ o, o ∈ seen ↔ o ∈ r.seen) ∧
      buildTopology rt observations' localIdentity asOf localLabel subnets vlans =
        .ok (Reading.graph rt { r with seen := seen } subnets vlans) := by
  have hlook := (read_eq_ok.mp h).2
  obtain ⟨seen, hseen, hle⟩ := Except.mapM_subset (fun o ho => (hsub o).mp ho) hlook
  obtain ⟨seen', hseen', hge⟩ := Except.mapM_subset (fun o ho => (hsub o).mpr ho) hseen
  cases hlook.symm.trans hseen'
  have hmem : ∀ o, o ∈ seen ↔ o ∈ r.seen := fun o => ⟨fun ho => hle ho, fun ho => hge ho⟩
  refine ⟨seen, hseen, hmem, buildTopology_eq_ok.mpr ⟨_, read_other h hseen, ?_, rfl⟩⟩
  intro o ho
  obtain ⟨ho, hactive⟩ := mem_activeSeen.mp ho
  exact hall o (mem_activeSeen.mpr ⟨(hmem o).mp ho, hactive⟩)

/-- Every active observation counts once among the conflicts if it discloses one. -/
theorem length_conflicts {r : Reading} (hall : ∀ o ∈ activeSeen r.asOf r.seen,
      ∃ c, observationClaims rt (r.context subnets vlans) o = .ok c) :
    (r.graph rt subnets vlans).conflicts.length =
      ((activeSeen r.asOf r.seen).filterMap Seen.conflict).length +
        (vlanConflicts ((r.memberships rt (r.context subnets vlans)).foldl
          (fun d p => push d p.1 p.2) [])).length := by
  have hperm : (activeSeen r.asOf (sortedBy Seen.key r.seen)).Perm (activeSeen r.asOf r.seen) :=
    (sortedBy_perm _ _).filter _
  rw [graph_conflicts hall, length_sortedBy, length_append, (hperm.filterMap _).length_eq]

/-- The graph when one more copy of an observation is put in front. -/
theorem reading_again {r : Reading} (h : read rt observations localIdentity asOf localLabel = .ok r)
    (hall : ∀ o ∈ activeSeen r.asOf r.seen,
      ∃ c, observationClaims rt (r.context subnets vlans) o = .ok c) {o : Seen} (ho : o ∈ r.seen) :
    ∃ x ∈ observations,
      buildTopology rt (x :: observations) localIdentity asOf localLabel subnets vlans =
        .ok (Reading.graph rt { r with seen := o :: r.seen } subnets vlans) := by
  have hlook := (read_eq_ok.mp h).2
  obtain ⟨x, hx, hxo⟩ := (Except.mapM_eq_ok.mp hlook).exists_of_mem_right ho
  refine ⟨x, hx, ?_⟩
  have hmem : ∀ o, o ∈ x :: observations ↔ o ∈ observations := by
    intro o
    rw [mem_cons]
    exact ⟨fun ho => ho.elim (fun ho => ho ▸ hx) id, Or.inr⟩
  obtain ⟨seen, hseen, -, hbuild⟩ := reading_repeat hmem h hall
  rw [Except.mapM_cons_eq, hxo, Except.ok_bind, hlook, Except.ok_bind] at hseen
  cases hseen
  exact hbuild

/-- A repeat in front puts its item in front of the others of its order key. -/
theorem items_again {r : Reading} {o : Seen} (hactive : isActive r.asOf o.observedAt o.expiresAt = true) :
    Reading.items { r with seen := o :: r.seen } subnets vlans =
      r.evidence subnets vlans ++ .observation o :: (activeSeen r.asOf r.seen).map .observation := by
  rw [items_eq]
  show r.evidence subnets vlans ++ (activeSeen r.asOf (o :: r.seen)).map .observation = _
  rw [activeSeen_cons, if_pos hactive, map_cons]

/-- Where no repeat changes the graph, repeats have nothing to add. -/
theorem repeatFree_of_again {r : Reading} (hall : ∀ o ∈ activeSeen r.asOf r.seen,
      ∃ c, observationClaims rt (r.context subnets vlans) o = .ok c)
    (hinv : ∀ o ∈ r.seen, ∃ g, g = Reading.graph rt { r with seen := o :: r.seen } subnets vlans ∧
      g.nodes = (r.graph rt subnets vlans).nodes ∧ g.edges = (r.graph rt subnets vlans).edges ∧
      g.conflicts = (r.graph rt subnets vlans).conflicts) : RepeatFree rt r subnets vlans := by
  have hmem : ∀ {o}, o ∈ r.seen → ∀ p, p ∈ o :: r.seen ↔ p ∈ r.seen := by
    intro o ho p
    rw [mem_cons]
    exact ⟨fun hp => hp.elim (fun hp => hp ▸ ho) id, Or.inr⟩
  have hsplit : ∀ j ∈ r.evidence subnets vlans ++
      (activeSeen r.asOf r.seen).map Item.observation, j ∈ r.items subnets vlans := by
    intro j hj
    rw [items_eq]
    exact hj
  have hfront : ∀ {o}, o ∈ activeSeen r.asOf r.seen → ∀ j ∈ r.evidence subnets vlans,
      j.order ≠ (Item.observation o).order :=
    fun ho j hj => (evidence_order_lt hj (mem_map_of_mem ho)).ne
  have hleader : ∀ {o : Seen}, Item.observation o ∈ r.items subnets vlans →
      o ∈ activeSeen r.asOf r.seen := by
    intro o ho
    rcases mem_items.mp ho with ho | ⟨s, -, ho⟩ | ⟨v, -, ho⟩ | ⟨o', ho', ho⟩
    · cases ho
    · cases ho
    · cases ho
    · cases ho
      exact ho'
  refine ⟨?_, ?_, ?_⟩
  · intro o ho
    obtain ⟨hseen, hactive⟩ := mem_activeSeen.mp ho
    cases hc : o.conflict with
    | none => rfl
    | some c =>
      exfalso
      obtain ⟨g, rfl, -, -, hconflicts⟩ := hinv o hseen
      have hlength := congrArg List.length hconflicts
      have hall' : ∀ p ∈ activeSeen r.asOf (o :: r.seen), ∃ c, observationClaims rt
          (Reading.context { r with seen := o :: r.seen } subnets vlans) p = .ok c := by
        intro p hp
        obtain ⟨hp, hp'⟩ := mem_activeSeen.mp hp
        exact hall p (mem_activeSeen.mpr ⟨(hmem hseen p).mp hp, hp'⟩)
      rw [length_conflicts hall', length_conflicts hall,
        vlanConflicts_congr (memberships_repeat (hmem hseen))] at hlength
      have hcount : ((activeSeen r.asOf (o :: r.seen)).filterMap Seen.conflict).length =
          ((activeSeen r.asOf r.seen).filterMap Seen.conflict).length + 1 := by
        rw [activeSeen_cons, if_pos hactive, filterMap_cons_some hc, length_cons]
      have hsame : ((activeSeen r.asOf (o :: r.seen)).filterMap Seen.conflict).length =
          ((activeSeen r.asOf r.seen).filterMap Seen.conflict).length := Nat.add_right_cancel hlength
      omega
  · have hwin : ∀ k o, Leads (TopologyNode.rank rt) Item.order
        (Item.nodes rt (r.context subnets vlans)) (r.items subnets vlans) k (.observation o) →
        best (TopologyNode.rank rt) (Item.nodes rt (r.context subnets vlans)) k (.observation o) =
          (mergeItems (TopologyNode.rank rt) Item.order
            (Item.nodes rt (r.context subnets vlans)) (r.items subnets vlans)).get k := by
      intro k o hleads
      have ho := hleader hleads.1
      obtain ⟨hseen, hactive⟩ := mem_activeSeen.mp ho
      obtain ⟨g, rfl, hnodes, -, -⟩ := hinv o hseen
      rw [← graph_nodes_eq_iff.mp hnodes k, items_again hactive]
      exact (get_mergeItems_split hleads (hfront ho) hsplit).symm
    intro k o o' ho ho'
    rw [hwin k o ho, hwin k o' ho']
  · have hwin : ∀ k o, Leads TopologyEdge.rank Item.order
        (Item.edges rt (r.context subnets vlans)) (r.items subnets vlans) k (.observation o) →
        best TopologyEdge.rank (Item.edges rt (r.context subnets vlans)) k (.observation o) =
          (mergeItems TopologyEdge.rank Item.order
            (Item.edges rt (r.context subnets vlans)) (r.items subnets vlans)).get k := by
      intro k o hleads
      have ho := hleader hleads.1
      obtain ⟨hseen, hactive⟩ := mem_activeSeen.mp ho
      obtain ⟨g, rfl, -, hedges, -⟩ := hinv o hseen
      rw [← graph_edges_eq_iff.mp hedges k, items_again hactive]
      exact (get_mergeItems_split hleads (hfront ho) hsplit).symm
    intro k o o' ho ho'
    rw [hwin k o ho, hwin k o' ho']

/-- Repeating observations changes no node, edge or conflict exactly when `build_topology` raises or
repeats have nothing to add. -/
theorem buildTopology_repeat_iff (rt : Runtime) (observations : List PassiveObservation)
    (localIdentity : Str) (asOf : Option Stamp) (localLabel : Option Str)
    (subnets : List SubnetEvidence) (vlans : List VlanEvidence) :
    (∀ g, buildTopology rt observations localIdentity asOf localLabel subnets vlans = .ok g →
      ∀ observations' : List PassiveObservation, observations <+ observations' →
        observations' ⊆ observations →
        ∃ g', buildTopology rt observations' localIdentity asOf localLabel subnets vlans = .ok g' ∧
          g'.nodes = g.nodes ∧ g'.edges = g.edges ∧ g'.conflicts = g.conflicts) ↔
    ∀ r, read rt observations localIdentity asOf localLabel = .ok r →
      (∀ o ∈ activeSeen r.asOf r.seen,
        ∃ c, observationClaims rt (r.context subnets vlans) o = .ok c) →
      RepeatFree rt r subnets vlans := by
  constructor
  · intro hinv r h hall
    apply repeatFree_of_again hall
    intro o ho
    have hbuild := buildTopology_eq_ok.mpr ⟨r, h, hall, rfl⟩
    obtain ⟨x, hx, hagain⟩ := reading_again h hall ho
    obtain ⟨g', hg', hsame⟩ := hinv _ hbuild (x :: observations) (sublist_cons_self _ _)
      (cons_subset.mpr ⟨hx, Subset.refl _⟩)
    rw [hagain] at hg'
    cases hg'
    exact ⟨_, rfl, hsame⟩
  · intro hfree g hg observations' hsub hle
    obtain ⟨r, h, hall, rfl⟩ := buildTopology_eq_ok.mp hg
    have hrepeat := hfree r h hall
    obtain ⟨seen, hseen, hmem, hbuild⟩ :=
      reading_repeat (fun o => ⟨fun ho => hle ho, fun ho => hsub.subset ho⟩) h hall
    refine ⟨_, hbuild, (hrepeat.merges hmem).1, (hrepeat.merges hmem).2, ?_⟩
    have hnone : ∀ l : List Seen, (∀ o ∈ l, o ∈ r.seen) →
        (activeSeen r.asOf l).filterMap Seen.conflict = [] := by
      intro l hl
      rw [filterMap_eq_nil_iff]
      intro o ho
      obtain ⟨ho, hactive⟩ := mem_activeSeen.mp ho
      exact hrepeat.conflicts o (mem_activeSeen.mpr ⟨hl o ho, hactive⟩)
    have hall' : ∀ o ∈ activeSeen r.asOf seen, ∃ c, observationClaims rt
        (Reading.context { r with seen := seen } subnets vlans) o = .ok c := by
      intro o ho
      obtain ⟨ho, hactive⟩ := mem_activeSeen.mp ho
      exact hall o (mem_activeSeen.mpr ⟨(hmem o).mp ho, hactive⟩)
    rw [graph_conflicts hall', graph_conflicts hall,
      vlanConflicts_congr (memberships_repeat hmem),
      hnone _ fun o ho => mem_sortedBy.mp ho]
    rw [hnone (sortedBy Seen.key seen) fun o ho => (hmem o).mp (mem_sortedBy.mp ho)]
    rfl

end

/-! ## A repeat that adds a conflict -/

/-- A DHCP server has leased an address again. -/
def reusedLease : PassiveObservation where
  kind := str "dhcp_address_reuse"
  fields := [(str "address", .string (str "10.0.0.5")),
    (str "previous_client", .string (str "00:11:22:33:44:55")),
    (str "current_client", .string (str "00:11:22:33:44:66")), (str "interface", .null)]
  source := str "passive.dhcp"
  observedAt := some epoch.stamp

/-- The number of conflicts that some observations leave. -/
def sampleConflicts (observations : List PassiveObservation) : Option Nat :=
  (buildTopology sampleRuntime observations (str "scanner") (some epoch.stamp) none [] []).toOption.map
    fun g => g.conflicts.length

/-- The same frame heard twice is two conflicts. -/
theorem repeat_adds_conflict : ¬ ∀ (rt : Runtime) (observations observations' :
      List PassiveObservation) (localIdentity : Str) (asOf : Option Stamp) (localLabel : Option Str)
    (subnets : List SubnetEvidence) (vlans : List VlanEvidence) (g : TopologyGraph),
    buildTopology rt observations localIdentity asOf localLabel subnets vlans = .ok g →
    observations <+ observations' → observations' ⊆ observations →
    ∃ g', buildTopology rt observations' localIdentity asOf localLabel subnets vlans = .ok g' ∧
      g'.nodes = g.nodes ∧ g'.edges = g.edges ∧ g'.conflicts = g.conflicts := by
  intro h
  have honce : sampleConflicts [reusedLease] = some 1 := by decide +kernel
  have htwice : sampleConflicts [reusedLease, reusedLease] = some 2 := by decide +kernel
  cases hrun : buildTopology sampleRuntime [reusedLease] (str "scanner") (some epoch.stamp) none
      [] [] with
  | error e => simp [sampleConflicts, hrun, Except.toOption] at honce
  | ok g =>
    obtain ⟨g', hg', -, -, hconflicts⟩ := h sampleRuntime _ [reusedLease, reusedLease] _ _ _ _ _ g hrun
      (sublist_cons_self _ _) (by simp)
    rw [sampleConflicts, hrun] at honce
    rw [sampleConflicts, hg'] at htwice
    simp only [Except.toOption, Option.map_some, Option.some.injEq] at honce htwice
    rw [hconflicts] at htwice
    omega

end FieldDiscovery.Topology
