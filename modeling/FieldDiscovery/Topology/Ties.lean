import FieldDiscovery.Topology.Order

/-!
# Ties

Nodes and edges are merged by keep-the-best rules whose ties go to whatever comes first, and the
sort keys of the evidence leave ties too. `TieFree` says that no tie matters; it is exactly when
`build_topology` is a function of the multisets of its evidence (`buildTopology_perm_iff`).
-/

namespace FieldDiscovery.Topology

open Py Correlation Passive List

section

variable {rt : Runtime}

/-! ## The evidence that stands for a subnet -/

/-- One item of evidence stands for each subnet. -/
structure Representative (active : List SubnetEvidence) (f : SubnetEvidence → SubnetEvidence) :
    Prop where
  mem : ∀ s ∈ active, f s ∈ active
  network : ∀ s ∈ active, (f s).network = s.network
  agree : ∀ s ∈ active, ∀ t ∈ active, s.network = t.network → f s = f t

theorem find_map_representative {active : List SubnetEvidence}
    {f : SubnetEvidence → SubnetEvidence} (hf : Representative active f) (n : Ipv4Network) :
    (active.map f).find? (fun s => s.network = n) =
      (active.find? fun s => s.network = n).map f := by
  rw [find?_map]
  congr 1
  apply find?_congr
  intro s hs
  simp only [Function.comp_apply, hf.network s hs]

theorem Representative.congr {active active' : List SubnetEvidence}
    {f : SubnetEvidence → SubnetEvidence} (hf : Representative active f)
    (h : ∀ s, s ∈ active' ↔ s ∈ active) : Representative active' f := by
  refine ⟨?_, ?_, ?_⟩
  · exact fun s hs => (h _).mpr (hf.mem s ((h s).mp hs))
  · exact fun s hs => hf.network s ((h s).mp hs)
  · exact fun s hs t ht => hf.agree s ((h s).mp hs) t ((h t).mp ht)

/-- Which evidence stands for a subnet does not depend on the order of the evidence. -/
theorem find_map_congr {active active' : List SubnetEvidence}
    {f : SubnetEvidence → SubnetEvidence} (hf : Representative active f)
    (h : ∀ s, s ∈ active' ↔ s ∈ active) (n : Ipv4Network) :
    (active'.map f).find? (fun s => s.network = n) =
      (active.map f).find? fun s => s.network = n := by
  rw [find_map_representative hf, find_map_representative (hf.congr h)]
  have hfound : ∀ {l l' : List SubnetEvidence}, (∀ s, s ∈ l → s ∈ l') → ∀ s,
      l.find? (fun s => s.network = n) = some s →
        ∃ t, l'.find? (fun s => s.network = n) = some t := by
    intro l l' hsub s hs
    cases hfind : l'.find? fun s => s.network = n with
    | none =>
      exact absurd (find?_some hs) (find?_eq_none.mp hfind s (hsub s (mem_of_find?_eq_some hs)))
    | some t => exact ⟨t, rfl⟩
  cases hs : active'.find? fun s => s.network = n with
  | none =>
    cases ht : active.find? fun s => s.network = n with
    | none => rfl
    | some t =>
      obtain ⟨s, hs'⟩ := hfound (fun s => (h s).mpr) t ht
      rw [hs] at hs'
      cases hs'
  | some s =>
    obtain ⟨t, ht⟩ := hfound (fun s => (h s).mp) s hs
    rw [ht, Option.map_some, Option.map_some]
    have hsn : s.network = n := by simpa using find?_some hs
    have htn : t.network = n := by simpa using find?_some ht
    rw [hf.agree s ((h s).mp (mem_of_find?_eq_some hs)) t (mem_of_find?_eq_some ht)
      (hsn.trans htn.symm)]

/-- The first item of evidence for the subnet of an item. -/
def firstOf (active : List SubnetEvidence) (s : SubnetEvidence) : SubnetEvidence :=
  (active.find? fun t => t.network = s.network).getD s

theorem firstOf_spec {active : List SubnetEvidence} {s : SubnetEvidence} (hs : s ∈ active) :
    active.find? (fun t => t.network = s.network) = some (firstOf active s) := by
  unfold firstOf
  cases hfind : active.find? fun t => t.network = s.network with
  | none => exact absurd (decide_eq_true rfl) (find?_eq_none.mp hfind s hs)
  | some t => rfl

theorem representative_firstOf (active : List SubnetEvidence) :
    Representative active (firstOf active) := by
  refine ⟨?_, ?_, ?_⟩
  · intro s hs
    exact mem_of_find?_eq_some (firstOf_spec hs)
  · intro s hs
    simpa using find?_some (firstOf_spec hs)
  · intro s hs t ht h
    have hst := firstOf_spec hs
    rw [h, firstOf_spec ht] at hst
    exact (Option.some.inj hst).symm

theorem find_map_firstOf (active : List SubnetEvidence) (n : Ipv4Network) :
    (active.map (firstOf active)).find? (fun s => s.network = n) =
      active.find? fun s => s.network = n := by
  rw [find_map_representative (representative_firstOf active)]
  cases hfind : active.find? fun s => s.network = n with
  | none => rfl
  | some s =>
    have hn : s.network = n := by simpa using find?_some hfind
    subst hn
    rw [Option.map_some, ← firstOf_spec (mem_of_find?_eq_some hfind), hfind]

/-- The first item of evidence for a subnet is the first one in the list given. -/
theorem find_activeSubnets (r : Reading) (subnets : List SubnetEvidence) (n : Ipv4Network) :
    (r.activeSubnets subnets).find? (fun s => s.network = n) =
      (activeEvidence r.asOf SubnetEvidence.validity subnets).find? fun s => s.network = n := by
  unfold Reading.activeSubnets activeEvidence
  rw [filter_sortedBy, ← head?_filter, ← head?_filter, filter_sortedBy]
  rw [sortedBy_eq_self]
  apply pairwise_of_forall_mem_list
  intro s hs t ht
  have hsn : s.network = n := by simpa using (mem_filter.mp hs).2
  have htn : t.network = n := by simpa using (mem_filter.mp ht).2
  rw [hsn, htn]

/-- Any item of evidence for each subnet can come first. -/
theorem exists_first (asOf : Utc) (subnets : List SubnetEvidence)
    {f : SubnetEvidence → SubnetEvidence}
    (hf : Representative (activeEvidence asOf SubnetEvidence.validity subnets) f) :
    ∃ subnets', subnets'.Perm subnets ∧ ∀ n,
      (activeEvidence asOf SubnetEvidence.validity subnets').find? (fun s => s.network = n) =
        ((activeEvidence asOf SubnetEvidence.validity subnets).map f).find?
          fun s => s.network = n := by
  classical
  refine ⟨subnets.filter (fun s => f s = s) ++ subnets.filter (fun s => ¬ f s = s), ?_, ?_⟩
  · simpa using filter_append_perm (fun s => decide (f s = s)) subnets
  · intro n
    rw [find_map_representative hf]
    have hsplit : activeEvidence asOf SubnetEvidence.validity
        (subnets.filter (fun s => f s = s) ++ subnets.filter (fun s => ¬ f s = s)) =
          (activeEvidence asOf SubnetEvidence.validity subnets).filter (fun s => f s = s) ++
            (activeEvidence asOf SubnetEvidence.validity subnets).filter (fun s => ¬ f s = s) := by
      unfold activeEvidence
      rw [filter_append, filter_comm, filter_comm (fun s => decide ¬ f s = s)]
    rw [hsplit, find?_append]
    generalize activeEvidence asOf SubnetEvidence.validity subnets = active at hf
    cases hfind : active.find? fun s => s.network = n with
    | none =>
      have hnone : ∀ l : List SubnetEvidence, (∀ s ∈ l, s ∈ active) →
          l.find? (fun s => s.network = n) = none := by
        intro l hl
        rw [find?_eq_none] at hfind ⊢
        exact fun s hs => hfind s (hl s hs)
      rw [hnone _ fun s hs => mem_of_mem_filter hs, hnone _ fun s hs => mem_of_mem_filter hs]
      rfl
    | some s =>
      have hs := mem_of_find?_eq_some hfind
      have hn : s.network = n := by simpa using find?_some hfind
      have hfix : f (f s) = f s := hf.agree _ (hf.mem s hs) s hs (hf.network s hs)
      have hmem : f s ∈ active.filter fun s => f s = s :=
        mem_filter.mpr ⟨hf.mem s hs, by simpa using hfix⟩
      cases hfirst : (active.filter fun s => f s = s).find? fun s => s.network = n with
      | none =>
        refine absurd ?_ (find?_eq_none.mp hfirst _ hmem)
        simpa using (hf.network s hs).trans hn
      | some t =>
        have ht := mem_filter.mp (mem_of_find?_eq_some hfirst)
        have htn : t.network = n := by simpa using find?_some hfirst
        have htt : f t = t := by simpa using ht.2
        rw [Option.some_or, Option.map_some, ← htt, hf.agree t ht.1 s hs (htn.trans hn.symm)]

/-! ## Ties -/

/-- The context in which `f` picks the evidence for each subnet. -/
def Reading.contextBy (r : Reading) (subnets : List SubnetEvidence) (vlans : List VlanEvidence)
    (f : SubnetEvidence → SubnetEvidence) : Context :=
  { r.context subnets vlans with
    subnets := (activeEvidence r.asOf SubnetEvidence.validity subnets).map f }

/-- No tie matters: the items that lead a node or an edge propose the same one, whichever active
evidence stands for each subnet. -/
structure TieFree (rt : Runtime) (r : Reading) (subnets : List SubnetEvidence)
    (vlans : List VlanEvidence) : Prop where
  nodes : ∀ k i j,
    Leads (TopologyNode.rank rt) Item.order (Item.nodes rt (r.context subnets vlans))
      (r.items subnets vlans) k i →
    Leads (TopologyNode.rank rt) Item.order (Item.nodes rt (r.context subnets vlans))
      (r.items subnets vlans) k j →
    best (TopologyNode.rank rt) (Item.nodes rt (r.context subnets vlans)) k i =
      best (TopologyNode.rank rt) (Item.nodes rt (r.context subnets vlans)) k j
  edges : ∀ f f', Representative (activeEvidence r.asOf SubnetEvidence.validity subnets) f →
    Representative (activeEvidence r.asOf SubnetEvidence.validity subnets) f' → ∀ k i j,
    Leads TopologyEdge.rank Item.order (Item.edges rt (r.contextBy subnets vlans f))
      (r.items subnets vlans) k i →
    Leads TopologyEdge.rank Item.order (Item.edges rt (r.contextBy subnets vlans f'))
      (r.items subnets vlans) k j →
    best TopologyEdge.rank (Item.edges rt (r.contextBy subnets vlans f)) k i =
      best TopologyEdge.rank (Item.edges rt (r.contextBy subnets vlans f')) k j

theorem edges_contextBy {r r' : Reading} {subnets subnets' : List SubnetEvidence}
    {vlans vlans' : List VlanEvidence} {f : SubnetEvidence → SubnetEvidence}
    (hasOf : r'.asOf = r.asOf) (hnode : r'.localNode = r.localNode)
    (hvlans : ∀ v, v ∈ vlans' ↔ v ∈ vlans)
    (hfind : ∀ n, (activeEvidence r'.asOf SubnetEvidence.validity subnets').find?
        (fun s => s.network = n) =
      ((activeEvidence r.asOf SubnetEvidence.validity subnets).map f).find?
        fun s => s.network = n) :
    Item.edges rt (r'.context subnets' vlans') = Item.edges rt (r.contextBy subnets vlans f) := by
  funext i
  cases i with
  | device node => rfl
  | subnet s => rfl
  | vlan v => rfl
  | observation o =>
    have hclaims : observationClaims rt (r'.context subnets' vlans') o =
        observationClaims rt (r.contextBy subnets vlans f) o := by
      apply observationClaims_congr
      · exact congrArg TopologyNode.nodeId hnode
      · intro v
        simp only [Reading.contextBy, Reading.context, mem_map, mem_activeVlans,
          mem_activeEvidence, hvlans, hasOf]
      · intro address
        apply subnetFor_congr
        intro n
        exact (find_activeSubnets r' subnets' n).trans (hfind n)
    unfold Item.edges Item.claimed Item.claims
    simp only [hclaims]

theorem order_ne {i j : Item} (h : (ofLex i.order).1 ≠ (ofLex j.order).1) : i.order ≠ j.order :=
  fun heq => h (congrArg (fun k => (ofLex k).1) heq)

section

variable {observations : List PassiveObservation} {localIdentity : Str} {asOf : Option Stamp}
  {localLabel : Option Str} {subnets : List SubnetEvidence} {vlans : List VlanEvidence}

/-- Any item can be made the first of its order key by a permutation. -/
theorem exists_front {r : Reading} (h : read rt observations localIdentity asOf localLabel = .ok r)
    {i : Item} (hi : i ∈ r.items subnets vlans) : ∃ (observations' : List PassiveObservation)
      (subnets' : List SubnetEvidence) (vlans' : List VlanEvidence) (seen : List Seen),
      observations'.Perm observations ∧ subnets'.Perm subnets ∧ vlans'.Perm vlans ∧
      observations'.mapM look = .ok seen ∧ seen.Perm r.seen ∧
      ((∀ s, i ≠ .subnet s) → subnets' = subnets) ∧
      ∃ front back, Reading.items { r with seen := seen } subnets' vlans' = front ++ i :: back ∧
        ∀ j ∈ front, j.order ≠ i.order := by
  have hseen := (read_eq_ok.mp h).2
  rcases mem_items.mp hi with rfl | ⟨s, hs, rfl⟩ | ⟨v, hv, rfl⟩ | ⟨o, ho, rfl⟩
  · exact ⟨observations, subnets, vlans, r.seen, .refl _, .refl _, .refl _, hseen, .refl _,
      fun _ => rfl, [], _, rfl, by simp⟩
  · obtain ⟨hmem, hactive⟩ := mem_activeEvidence.mp hs
    obtain ⟨before, after, rfl⟩ := append_of_mem hmem
    refine ⟨observations, s :: (before ++ after), vlans, r.seen, .refl _, perm_middle.symm,
      .refl _, hseen, .refl _, fun hne => absurd rfl (hne s), [.device r.localNode],
      (activeEvidence r.asOf SubnetEvidence.validity (before ++ after)).map .subnet ++
        ((activeEvidence r.asOf VlanEvidence.validity vlans).map .vlan ++
          (activeSeen r.asOf r.seen).map .observation), ?_, ?_⟩
    · unfold Reading.items
      have hcons : activeEvidence r.asOf SubnetEvidence.validity (s :: (before ++ after)) =
          s :: activeEvidence r.asOf SubnetEvidence.validity (before ++ after) :=
        filter_cons_of_pos (by simpa using hactive)
      rw [hcons, map_cons]
      rfl
    · intro j hj
      rw [mem_singleton.mp hj]
      exact order_ne (show 0 ≠ 1 by decide)
  · obtain ⟨hmem, hactive⟩ := mem_activeEvidence.mp hv
    obtain ⟨before, after, rfl⟩ := append_of_mem hmem
    refine ⟨observations, subnets, v :: (before ++ after), r.seen, .refl _, .refl _,
      perm_middle.symm, hseen, .refl _, fun _ => rfl, .device r.localNode ::
        (activeEvidence r.asOf SubnetEvidence.validity subnets).map .subnet,
      (activeEvidence r.asOf VlanEvidence.validity (before ++ after)).map .vlan ++
        (activeSeen r.asOf r.seen).map .observation, ?_, ?_⟩
    · unfold Reading.items
      have hcons : activeEvidence r.asOf VlanEvidence.validity (v :: (before ++ after)) =
          v :: activeEvidence r.asOf VlanEvidence.validity (before ++ after) :=
        filter_cons_of_pos (by simpa using hactive)
      rw [hcons, map_cons]
      rfl
    · intro j hj
      rcases mem_cons.mp hj with rfl | hj
      · exact order_ne (show 0 ≠ 2 by decide)
      · obtain ⟨s, -, rfl⟩ := mem_map.mp hj
        exact order_ne (show 1 ≠ 2 by decide)
  · obtain ⟨hmem, hactive⟩ := mem_activeSeen.mp ho
    obtain ⟨x, rest, seen, hp, hx, hrest, hp'⟩ := Except.mapM_front hseen hmem
    refine ⟨x :: rest, subnets, vlans, o :: seen, hp.symm, .refl _, .refl _, ?_, hp'.symm,
      fun _ => rfl, .device r.localNode ::
        ((activeEvidence r.asOf SubnetEvidence.validity subnets).map .subnet ++
          (activeEvidence r.asOf VlanEvidence.validity vlans).map .vlan),
      (activeSeen r.asOf seen).map .observation, ?_, ?_⟩
    · rw [Except.mapM_cons_eq, hx, Except.ok_bind, hrest, Except.ok_bind]
    · unfold Reading.items
      simp only
      rw [activeSeen_cons, if_pos hactive, map_cons, cons_append, append_assoc]
    · intro j hj
      rcases mem_cons.mp hj with rfl | hj
      · exact order_ne (show 0 ≠ 3 by decide)
      rcases mem_append.mp hj with hj | hj
      · obtain ⟨s, -, rfl⟩ := mem_map.mp hj
        exact order_ne (show 1 ≠ 3 by decide)
      · obtain ⟨v, -, rfl⟩ := mem_map.mp hj
        exact order_ne (show 2 ≠ 3 by decide)

/-- Claims exist in one context when they exist in a similar one. -/
theorem claims_similar {ctx ctx' : Context} (h : ctx.Similar ctx') {o : Seen}
    (hc : ∃ c, observationClaims rt ctx o = .ok c) : ∃ c, observationClaims rt ctx' o = .ok c := by
  obtain ⟨c, hc⟩ := hc
  have hrel := @observationClaims_similar rt _ _ h o
  rw [hc] at hrel
  generalize observationClaims rt ctx' o = x at hrel
  cases hrel with
  | @ok _ c' _ => exact ⟨c', rfl⟩

theorem graph_ext {r r' : Reading} {subnets' : List SubnetEvidence} {vlans' : List VlanEvidence}
    (hnodes : (r'.graph rt subnets' vlans').nodes = (r.graph rt subnets vlans).nodes)
    (hedges : (r'.graph rt subnets' vlans').edges = (r.graph rt subnets vlans).edges)
    (hconflicts : (r'.graph rt subnets' vlans').conflicts = (r.graph rt subnets vlans).conflicts)
    (hasOf : r'.asOf = r.asOf)
    (hfuture : r'.count subnets' vlans' (fun t _ => isFuture r'.asOf t) =
      r.count subnets vlans fun t _ => isFuture r.asOf t)
    (hexpired : r'.count subnets' vlans' (isExpired r'.asOf) =
      r.count subnets vlans (isExpired r.asOf)) :
    r'.graph rt subnets' vlans' = r.graph rt subnets vlans := by
  unfold Reading.graph graphOf Builder.result Builder.limitations at *
  simp only at hnodes hedges hconflicts
  rw [TopologyGraph.mk.injEq]
  refine ⟨hnodes, hedges, hconflicts, hasOf, hexpired, hfuture, ?_⟩
  rw [hasOf] at hfuture hexpired
  simp only [hasOf, hfuture, hexpired]

/-- Permuted evidence is returned on when the original is. -/
theorem reading_perm {observations' : List PassiveObservation} {subnets' : List SubnetEvidence}
    {vlans' : List VlanEvidence} (hobservations : observations'.Perm observations)
    (hsubnets : subnets'.Perm subnets) (hvlans : vlans'.Perm vlans) {r : Reading}
    (h : read rt observations localIdentity asOf localLabel = .ok r)
    (hall : ∀ o ∈ activeSeen r.asOf r.seen,
      ∃ c, observationClaims rt (r.context subnets vlans) o = .ok c) :
    ∃ seen, seen.Perm r.seen ∧
      read rt observations' localIdentity asOf localLabel = .ok { r with seen := seen } ∧
      buildTopology rt observations' localIdentity asOf localLabel subnets' vlans' =
        .ok (Reading.graph rt { r with seen := seen } subnets' vlans') := by
  obtain ⟨seen, hseen, hp⟩ := Except.mapM_perm hobservations.symm (read_eq_ok.mp h).2
  refine ⟨seen, hp.symm, read_other h hseen, ?_⟩
  apply buildTopology_eq_ok.mpr
  refine ⟨_, read_other h hseen, ?_, rfl⟩
  intro o ho
  obtain ⟨hmem, hactive⟩ := mem_activeSeen.mp ho
  apply claims_similar _ (hall o (mem_activeSeen.mpr ⟨hp.mem_iff.mpr hmem, hactive⟩))
  exact context_similar rfl rfl (fun _ => hsubnets.mem_iff.symm) fun _ => hvlans.mem_iff.symm

/-- Without ties the graph does not depend on the order of the evidence. -/
theorem graph_perm {r : Reading} {seen : List Seen} {subnets' : List SubnetEvidence}
    {vlans' : List VlanEvidence} (hseen : seen.Perm r.seen) (hsubnets : subnets'.Perm subnets)
    (hvlans : vlans'.Perm vlans) (hall : ∀ o ∈ activeSeen r.asOf r.seen,
      ∃ c, observationClaims rt (r.context subnets vlans) o = .ok c)
    (htie : TieFree rt r subnets vlans) :
    Reading.graph rt { r with seen := seen } subnets' vlans' = r.graph rt subnets vlans := by
  have hsimilar : (r.context subnets vlans).Similar
      (Reading.context { r with seen := seen } subnets' vlans') :=
    context_similar rfl rfl (fun _ => hsubnets.mem_iff.symm) fun _ => hvlans.mem_iff.symm
  have hitems := items_perm hseen hsubnets hvlans
  have hnodes : (Reading.graph rt { r with seen := seen } subnets' vlans').nodes =
      (r.graph rt subnets vlans).nodes := by
    rw [graph_nodes_eq_iff]
    intro k
    rw [← nodes_similar hsimilar]
    exact get_mergeItems_congr (htie.nodes k) hitems fun _ _ => Iff.rfl
  have hedges : (Reading.graph rt { r with seen := seen } subnets' vlans').edges =
      (r.graph rt subnets vlans).edges := by
    rw [graph_edges_eq_iff]
    intro k
    have hactive : ∀ s, s ∈ activeEvidence r.asOf SubnetEvidence.validity subnets' ↔
        s ∈ activeEvidence r.asOf SubnetEvidence.validity subnets := by
      intro s
      rw [mem_activeEvidence, mem_activeEvidence, hsubnets.mem_iff]
    have hfirst := representative_firstOf (activeEvidence r.asOf SubnetEvidence.validity subnets)
    have hfirst' := (representative_firstOf
      (activeEvidence r.asOf SubnetEvidence.validity subnets')).congr fun s => (hactive s).symm
    have hedges : Item.edges rt (r.context subnets vlans) = Item.edges rt (r.contextBy subnets
        vlans (firstOf (activeEvidence r.asOf SubnetEvidence.validity subnets))) :=
      edges_contextBy rfl rfl (fun _ => Iff.rfl) fun n => (find_map_firstOf _ n).symm
    have hedges' : Item.edges rt (Reading.context { r with seen := seen } subnets' vlans') =
        Item.edges rt (r.contextBy subnets vlans
          (firstOf (activeEvidence r.asOf SubnetEvidence.validity subnets'))) := by
      apply edges_contextBy rfl rfl fun _ => hvlans.mem_iff
      intro n
      rw [← find_map_congr hfirst' hactive n]
      exact (find_map_firstOf _ n).symm
    have hkeys : ∀ i ∈ r.items subnets vlans,
        candidates k (i.edges rt (Reading.context { r with seen := seen } subnets' vlans')) = [] ↔
          candidates k (i.edges rt (r.context subnets vlans)) = [] :=
      fun i _ => (edges_similar hsimilar i k).symm
    rw [hedges, hedges'] at hkeys ⊢
    exact get_mergeItems_congr (htie.edges _ _ hfirst hfirst' k) hitems hkeys
  have hconflicts : (Reading.graph rt { r with seen := seen } subnets' vlans').conflicts =
      (r.graph rt subnets vlans).conflicts := by
    have hall' : ∀ o ∈ activeSeen r.asOf seen, ∃ c, observationClaims rt
        (Reading.context { r with seen := seen } subnets' vlans') o = .ok c := by
      intro o ho
      obtain ⟨hmem, hactive⟩ := mem_activeSeen.mp ho
      exact claims_similar hsimilar (hall o (mem_activeSeen.mpr ⟨hseen.mem_iff.mp hmem, hactive⟩))
    have hvlans : ∀ p, p ∈ Reading.memberships rt { r with seen := seen }
        (Reading.context { r with seen := seen } subnets' vlans') ↔
          p ∈ r.memberships rt (r.context subnets vlans) := by
      intro p
      unfold Reading.memberships
      simp only [mem_flatMap, mem_activeSeen, mem_sortedBy, hseen.mem_iff,
        (claimed_similar hsimilar _).vlans]
    rw [graph_conflicts hall', graph_conflicts hall, vlanConflicts_congr hvlans]
    exact conflicts_perm hseen _
  have hcount : ∀ p, Reading.count { r with seen := seen } subnets' vlans' p =
      r.count subnets vlans p := by
    intro p
    unfold Reading.count countValidity countSeen
    rw [hsubnets.countP_eq, hvlans.countP_eq, hseen.countP_eq]
  exact graph_ext hnodes hedges hconflicts rfl (hcount _) (hcount _)

/-- Where no permutation of the evidence changes the graph, no tie matters. -/
theorem tieFree_of_perm {r : Reading}
    (h : read rt observations localIdentity asOf localLabel = .ok r)
    (hinv : ∀ (subnets' : List SubnetEvidence) (vlans' : List VlanEvidence) (seen : List Seen),
      subnets'.Perm subnets → vlans'.Perm vlans → seen.Perm r.seen →
      (∃ observations' : List PassiveObservation, observations'.Perm observations ∧
        observations'.mapM look = .ok seen) →
      Reading.graph rt { r with seen := seen } subnets' vlans' = r.graph rt subnets vlans) :
    TieFree rt r subnets vlans := by
  constructor
  · have hwin : ∀ k i, Leads (TopologyNode.rank rt) Item.order
        (Item.nodes rt (r.context subnets vlans)) (r.items subnets vlans) k i →
        best (TopologyNode.rank rt) (Item.nodes rt (r.context subnets vlans)) k i =
          (mergeItems (TopologyNode.rank rt) Item.order
            (Item.nodes rt (r.context subnets vlans)) (r.items subnets vlans)).get k := by
      intro k i hi
      obtain ⟨observations', subnets', vlans', seen, hobservations, hsubnets, hvlans, hlook, hseen,
        -, front, back, hitems, hfront⟩ := exists_front h hi.1
      have hgraph := hinv subnets' vlans' seen hsubnets hvlans hseen
        ⟨observations', hobservations, hlook⟩
      have hsimilar : (r.context subnets vlans).Similar
          (Reading.context { r with seen := seen } subnets' vlans') :=
        context_similar rfl rfl (fun _ => hsubnets.mem_iff.symm) fun _ => hvlans.mem_iff.symm
      have hget := graph_nodes_eq_iff.mp (congrArg TopologyGraph.nodes hgraph) k
      rw [← nodes_similar hsimilar, hitems] at hget
      rw [← hget]
      symm
      apply get_mergeItems_split hi hfront
      intro j hj
      have hmem : j ∈ Reading.items { r with seen := seen } subnets' vlans' := by
        rw [hitems]
        exact mem_append.mpr ((mem_append.mp hj).imp_right (mem_cons_of_mem _))
      exact (items_perm hseen hsubnets hvlans j).mp hmem
    intro k i j hi hj
    rw [hwin k i hi, hwin k j hj]
  · have hwin : ∀ f, Representative (activeEvidence r.asOf SubnetEvidence.validity subnets) f →
        ∀ k i, Leads TopologyEdge.rank Item.order (Item.edges rt (r.contextBy subnets vlans f))
          (r.items subnets vlans) k i →
        best TopologyEdge.rank (Item.edges rt (r.contextBy subnets vlans f)) k i =
          (mergeItems TopologyEdge.rank Item.order
            (Item.edges rt (r.context subnets vlans)) (r.items subnets vlans)).get k := by
      intro f hf k i hi
      obtain ⟨subnets₁, hsubnets₁, hfind⟩ := exists_first r.asOf subnets hf
      have hitems₁ : ∀ j, j ∈ r.items subnets₁ vlans ↔ j ∈ r.items subnets vlans :=
        items_congr rfl rfl (fun _ => Iff.rfl) (fun _ => hsubnets₁.mem_iff) fun _ => Iff.rfl
      have hne : ∀ s, i ≠ .subnet s := by
        rintro s rfl
        obtain ⟨-, a, ha, -⟩ := hi
        have hedge := mem_candidates.mp (firstBest_mem ha)
        rw [edges_subnet] at hedge
        cases hedge
      obtain ⟨observations', subnets', vlans', seen, hobservations, hsubnets, hvlans, hlook, hseen,
        hsame, front, back, hitems, hfront⟩ := exists_front h ((hitems₁ i).mpr hi.1)
      cases hsame hne
      have hgraph := hinv subnets₁ vlans' seen hsubnets₁ hvlans hseen
        ⟨observations', hobservations, hlook⟩
      have hget := graph_edges_eq_iff.mp (congrArg TopologyGraph.edges hgraph) k
      have hedges : Item.edges rt (Reading.context { r with seen := seen } subnets₁ vlans') =
          Item.edges rt (r.contextBy subnets vlans f) :=
        edges_contextBy rfl rfl (fun _ => hvlans.mem_iff) hfind
      rw [hedges, hitems] at hget
      rw [← hget]
      symm
      apply get_mergeItems_split hi hfront
      intro j hj
      have hmem : j ∈ Reading.items { r with seen := seen } subnets₁ vlans' := by
        rw [hitems]
        exact mem_append.mpr ((mem_append.mp hj).imp_right (mem_cons_of_mem _))
      exact (items_perm hseen hsubnets₁ hvlans j).mp hmem
    intro f f' hf hf' k i j hi hj
    rw [hwin f hf k i hi, hwin f' hf' k j hj]

/-- `build_topology` is a function of the multisets of its evidence exactly when it raises or no tie
matters. -/
theorem buildTopology_perm_iff (rt : Runtime) (observations : List PassiveObservation)
    (localIdentity : Str) (asOf : Option Stamp) (localLabel : Option Str)
    (subnets : List SubnetEvidence) (vlans : List VlanEvidence) :
    (∀ (observations' : List PassiveObservation) (subnets' : List SubnetEvidence)
      (vlans' : List VlanEvidence), observations'.Perm observations → subnets'.Perm subnets →
      vlans'.Perm vlans →
      (buildTopology rt observations' localIdentity asOf localLabel subnets' vlans').toOption =
        (buildTopology rt observations localIdentity asOf localLabel subnets vlans).toOption) ↔
    ∀ r, read rt observations localIdentity asOf localLabel = .ok r →
      (∀ o ∈ activeSeen r.asOf r.seen,
        ∃ c, observationClaims rt (r.context subnets vlans) o = .ok c) →
      TieFree rt r subnets vlans := by
  constructor
  · intro hinv r h hall
    have hgraph : buildTopology rt observations localIdentity asOf localLabel subnets vlans =
        .ok (r.graph rt subnets vlans) := buildTopology_eq_ok.mpr ⟨r, h, hall, rfl⟩
    apply tieFree_of_perm h
    rintro subnets' vlans' seen hsubnets hvlans - ⟨observations', hobservations, hlook⟩
    obtain ⟨seen', -, hread, hbuild⟩ := reading_perm hobservations hsubnets hvlans h hall
    have hsame := hinv observations' subnets' vlans' hobservations hsubnets hvlans
    cases (read_eq_ok.mp hread).2.symm.trans hlook
    rw [hbuild, hgraph] at hsame
    exact Option.some.inj hsame
  · intro htie observations' subnets' vlans' hobservations hsubnets hvlans
    cases hbuild : buildTopology rt observations localIdentity asOf localLabel subnets vlans with
    | ok g =>
      obtain ⟨r, h, hall, rfl⟩ := buildTopology_eq_ok.mp hbuild
      obtain ⟨seen, hseen, -, hbuild'⟩ := reading_perm hobservations hsubnets hvlans h hall
      rw [hbuild', graph_perm hseen hsubnets hvlans hall (htie r h hall)]
    | error e =>
      cases hbuild' : buildTopology rt observations' localIdentity asOf localLabel subnets'
          vlans' with
      | error e' => rfl
      | ok g =>
        obtain ⟨r, h, hall, -⟩ := buildTopology_eq_ok.mp hbuild'
        obtain ⟨seen, -, -, hbuild''⟩ :=
          reading_perm hobservations.symm hsubnets.symm hvlans.symm h hall
        rw [hbuild] at hbuild''
        cases hbuild''

end

end

/-! ## A tie that matters -/

/-- The digests of the nodes of the sample. -/
def sampleRuntime : Runtime := .ofDigests [
  (str "device:local:scanner", str "1a64901627a19a5601d5b218fe4086d38d1f0b0a263140618d8537ae8905b6fb"),
  (str "device:mac:00:11:22:33:44:55",
    str "82cb01af5f56ad948ae9ae0cd0476171c27ec6a09da27590404541917acaa57d"),
  (str "subnet:10.0.0.0/24", str "58aa1436d5648d2386569df9e4686851400bacd14377d7af32beca5d985ac11b"),
  (str "vlan:20", str "dfc2f662c3e8c25bfb1ef73bc2ffb11fd9ba70c8fe8712fa4dde0ddcbe2a94a1")]

/-- `1970-01-01T00:00:00+00:00` -/
def epoch : Utc := ⟨epochDay * microsPerDay, epoch_inCalendar⟩

theorem openEnded (t : Utc) : ∀ u ∈ (none : Option Utc), t ≤ u := by simp

/-! `10.0.0.0/24` is a network. -/

theorem lan_prefixlen : 24 ≤ 32 := by decide

theorem lan_lt : 10 * 2 ^ 24 < 2 ^ 32 := by decide

theorem lan_canonical : 2 ^ (32 - 24) ∣ 10 * 2 ^ 24 := by decide

/-- Evidence for `10.0.0.0/24`. -/
def lanEvidence (confidence : Confidence) : SubnetEvidence where
  network := ⟨10 * 2 ^ 24, 24, lan_prefixlen, lan_lt, lan_canonical⟩
  source := ⟨str "dhcp", by decide +kernel⟩
  validity := ⟨epoch, none, openEnded epoch⟩
  confidence := confidence

def half : Confidence := ⟨1 / 2, by norm_num⟩

def full : Confidence := ⟨1, by norm_num⟩

/-- An address resolution seen on that network. -/
def arpReply : PassiveObservation where
  kind := str "neighbor_observation"
  fields := [(str "address", .string (str "10.0.0.5")),
    (str "mac_address", .string (str "00:11:22:33:44:55"))]
  source := str "arp"
  observedAt := some epoch.stamp

/-- The confidences of the edges, for evidence in the given order. -/
def sampleConfidences (subnets : List SubnetEvidence) : Option (List ℚ) :=
  (buildTopology sampleRuntime [arpReply] (str "scanner") (some epoch.stamp) none subnets []).toOption.map
    fun g => g.edges.map fun e => (e.confidence : ℚ)

/-- Two items of evidence for one subnet: whichever comes first caps the membership. -/
theorem evidence_order_matters : ¬ ∀ (rt : Runtime) (observations observations' :
      List PassiveObservation) (localIdentity : Str) (asOf : Option Stamp) (localLabel : Option Str)
    (subnets subnets' : List SubnetEvidence) (vlans vlans' : List VlanEvidence),
    observations'.Perm observations → subnets'.Perm subnets → vlans'.Perm vlans →
    ∀ g, buildTopology rt observations localIdentity asOf localLabel subnets vlans = .ok g →
      buildTopology rt observations' localIdentity asOf localLabel subnets' vlans' = .ok g := by
  intro h
  have hfirst : sampleConfidences [lanEvidence half, lanEvidence full] = some [1 / 2] := by
    decide +kernel
  have hsecond : sampleConfidences [lanEvidence full, lanEvidence half] = some [3 / 4] := by
    decide +kernel
  cases hrun : buildTopology sampleRuntime [arpReply] (str "scanner") (some epoch.stamp) none
      [lanEvidence half, lanEvidence full] [] with
  | error e => simp [sampleConfidences, hrun, Except.toOption] at hfirst
  | ok g =>
    have hrun' := h sampleRuntime _ _ _ _ _ _ [lanEvidence full, lanEvidence half] _ _ (.refl _)
      (.swap _ _ _) (.refl _) g hrun
    rw [sampleConfidences, hrun] at hfirst
    rw [sampleConfidences, hrun', hfirst] at hsecond
    norm_num at hsecond

end FieldDiscovery.Topology
