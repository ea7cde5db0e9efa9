import FieldDiscovery.Topology.Support

/-!
# The graph and the order of its evidence

Nodes and edges are merged per key, conflicts are listed per observation and sorted. The nodes and
edges of two graphs agree when the merges agree (`graph_nodes_eq_iff`, `graph_edges_eq_iff`), and the
conflicts never depend on the order of the evidence (`conflicts_perm`, `vlanConflicts_congr`).
-/

namespace FieldDiscovery.Topology

open Py Correlation Passive List

section

variable {rt : Runtime}

/-! ## Reading other lists -/

/-- Reading does not look at the observations together. -/
theorem read_eq_ok {observations : List PassiveObservation} {localIdentity : Str}
    {asOf : Option Stamp} {localLabel : Option Str} {r : Reading} :
    read rt observations localIdentity asOf localLabel = .ok r ↔
      read rt [] localIdentity asOf localLabel = .ok ⟨r.asOf, r.localNode, []⟩ ∧
        observations.mapM look = .ok r.seen := by
  unfold read
  cases asOf with
  | none => simp [topologyError]
  | some asOf =>
    simp only
    cases utc asOf with
    | error e => simp
    | ok snapshot =>
      simp only [Except.ok_bind]
      cases text localIdentity "local identity" with
      | error e => simp
      | ok identity =>
        simp only [Except.ok_bind]
        cases proposeDevice rt (str "local") identity.val localLabel with
        | error e => simp
        | ok localNode =>
          simp only [Except.ok_bind]
          cases observations.mapM look with
          | error e => simp
          | ok seen =>
            obtain ⟨t, n, s⟩ := r
            constructor
            · intro h
              cases h
              exact ⟨rfl, rfl⟩
            · rintro ⟨h, hseen⟩
              cases h
              cases hseen
              rfl

theorem read_other {observations observations' : List PassiveObservation} {localIdentity : Str}
    {asOf : Option Stamp} {localLabel : Option Str} {r : Reading} {seen : List Seen}
    (h : read rt observations localIdentity asOf localLabel = .ok r)
    (hseen : observations'.mapM look = .ok seen) :
    read rt observations' localIdentity asOf localLabel = .ok { r with seen := seen } :=
  read_eq_ok.mpr ⟨(read_eq_ok.mp h).1, hseen⟩

theorem mem_activeSeen {asOf : Utc} {seen : List Seen} {o : Seen} :
    o ∈ activeSeen asOf seen ↔ o ∈ seen ∧ isActive asOf o.observedAt o.expiresAt = true :=
  mem_filter

theorem mem_activeEvidence {α : Type} {asOf : Utc} {validity : α → Validity} {l : List α} {a : α} :
    a ∈ activeEvidence asOf validity l ↔
      a ∈ l ∧ isActive asOf (validity a).observedAt (validity a).validUntil = true := mem_filter

theorem mem_activeSubnets {r : Reading} {subnets : List SubnetEvidence} {s : SubnetEvidence} :
    s ∈ r.activeSubnets subnets ↔ s ∈ activeEvidence r.asOf SubnetEvidence.validity subnets := by
  unfold Reading.activeSubnets
  rw [mem_activeEvidence, mem_activeEvidence, mem_sortedBy]

theorem mem_activeVlans {r : Reading} {vlans : List VlanEvidence} {v : VlanEvidence} :
    v ∈ r.activeVlans vlans ↔ v ∈ activeEvidence r.asOf VlanEvidence.validity vlans := by
  unfold Reading.activeVlans
  rw [mem_activeEvidence, mem_activeEvidence, mem_sortedBy]

/-- Evidence with the same members makes similar contexts. -/
theorem context_similar {r r' : Reading} {subnets subnets' : List SubnetEvidence}
    {vlans vlans' : List VlanEvidence} (hasOf : r.asOf = r'.asOf) (hnode : r.localNode = r'.localNode)
    (hsubnets : ∀ s, s ∈ subnets ↔ s ∈ subnets') (hvlans : ∀ v, v ∈ vlans ↔ v ∈ vlans') :
    (r.context subnets vlans).Similar (r'.context subnets' vlans') := by
  refine ⟨congrArg TopologyNode.nodeId hnode, ?_, ?_⟩
  · intro n
    simp only [Reading.context, networks, mem_map, mem_activeSubnets, mem_activeEvidence, hsubnets,
      hasOf]
  · intro v
    simp only [Reading.context, mem_map, mem_activeVlans, mem_activeEvidence, hvlans, hasOf]

theorem mem_items {r : Reading} {subnets : List SubnetEvidence} {vlans : List VlanEvidence}
    {i : Item} : i ∈ r.items subnets vlans ↔ i = .device r.localNode ∨
      (∃ s ∈ activeEvidence r.asOf SubnetEvidence.validity subnets, i = .subnet s) ∨
      (∃ v ∈ activeEvidence r.asOf VlanEvidence.validity vlans, i = .vlan v) ∨
      ∃ o ∈ activeSeen r.asOf r.seen, i = .observation o := by
  simp only [Reading.items, mem_cons, mem_append, mem_map, eq_comm]

/-- Evidence with the same members makes the same items. -/
theorem items_congr {r r' : Reading} {subnets subnets' : List SubnetEvidence}
    {vlans vlans' : List VlanEvidence} (hasOf : r.asOf = r'.asOf) (hnode : r.localNode = r'.localNode)
    (hseen : ∀ o, o ∈ r.seen ↔ o ∈ r'.seen) (hsubnets : ∀ s, s ∈ subnets ↔ s ∈ subnets')
    (hvlans : ∀ v, v ∈ vlans ↔ v ∈ vlans') (i : Item) :
    i ∈ r.items subnets vlans ↔ i ∈ r'.items subnets' vlans' := by
  simp only [mem_items, mem_activeSeen, mem_activeEvidence, hasOf, hnode, hseen, hsubnets, hvlans]

theorem items_perm {r : Reading} {seen : List Seen} {subnets subnets' : List SubnetEvidence}
    {vlans vlans' : List VlanEvidence} (hseen : seen.Perm r.seen) (hsubnets : subnets'.Perm subnets)
    (hvlans : vlans'.Perm vlans) (i : Item) :
    i ∈ Reading.items { r with seen := seen } subnets' vlans' ↔ i ∈ r.items subnets vlans :=
  @items_congr { r with seen := seen } r _ _ _ _ rfl rfl (fun _ => hseen.mem_iff)
    (fun _ => hsubnets.mem_iff) (fun _ => hvlans.mem_iff) i

/-! ## Items in similar contexts -/

theorem claimed_similar {ctx ctx' : Context} (h : ctx.Similar ctx') (i : Item) :
    (i.claimed rt ctx).Similar (i.claimed rt ctx') := by
  cases i with
  | device node => exact .refl _
  | subnet s => exact .refl _
  | vlan v => exact .refl _
  | observation o =>
    have hrel := @observationClaims_similar rt _ _ h o
    unfold Item.claimed Item.claims
    simp only
    generalize observationClaims rt ctx o = x at hrel
    generalize observationClaims rt ctx' o = y at hrel
    cases hrel with
    | ok hsimilar => exact hsimilar
    | error e => exact .refl _

theorem nodes_similar {ctx ctx' : Context} (h : ctx.Similar ctx') :
    Item.nodes rt ctx = Item.nodes rt ctx' := by
  funext i
  unfold Item.nodes
  rw [(claimed_similar h i).nodes]

theorem edges_similar {ctx ctx' : Context} (h : ctx.Similar ctx') (i : Item) (k : EdgeKey) :
    candidates k (i.edges rt ctx) = [] ↔ candidates k (i.edges rt ctx') = [] := by
  have hedges := (@claimed_similar rt _ _ h i).edges
  unfold Item.edges keyedEdges candidates
  generalize (i.claimed rt ctx).edges = es at hedges
  generalize (i.claimed rt ctx').edges = es' at hedges
  induction hedges with
  | nil => exact Iff.rfl
  | cons hkey _ ih =>
    rw [map_cons, map_cons, filterMap_cons, filterMap_cons]
    simp only [hkey]
    split <;> simp_all

/-! ## The parts of the graph -/

theorem graph_nodes_eq_iff {r r' : Reading} {subnets subnets' : List SubnetEvidence}
    {vlans vlans' : List VlanEvidence} :
    (r.graph rt subnets vlans).nodes = (r'.graph rt subnets' vlans').nodes ↔
      ∀ k, (mergeItems (TopologyNode.rank rt) Item.order
          (Item.nodes rt (r.context subnets vlans)) (r.items subnets vlans)).get k =
        (mergeItems (TopologyNode.rank rt) Item.order
          (Item.nodes rt (r'.context subnets' vlans')) (r'.items subnets' vlans')).get k := by
  have hkey : ∀ {ctx : Context} {l : List Item}, ∀ p ∈ mergeItems (TopologyNode.rank rt)
      Item.order (Item.nodes rt ctx) l, p.2.nodeId = p.1 := by
    intro ctx l p hp
    obtain ⟨i, -, hi⟩ := mem_mergeItems hp
    obtain ⟨n, -, rfl⟩ := mem_map.mp hi
    rfl
  exact sortedBy_entries_eq_iff (fun _ _ h => h) (keysNodup_mergeItems _) (keysNodup_mergeItems _)
    hkey hkey

theorem graph_edges_eq_iff {r r' : Reading} {subnets subnets' : List SubnetEvidence}
    {vlans vlans' : List VlanEvidence} :
    (r.graph rt subnets vlans).edges = (r'.graph rt subnets' vlans').edges ↔
      ∀ k, (mergeItems TopologyEdge.rank Item.order
          (Item.edges rt (r.context subnets vlans)) (r.items subnets vlans)).get k =
        (mergeItems TopologyEdge.rank Item.order
          (Item.edges rt (r'.context subnets' vlans')) (r'.items subnets' vlans')).get k := by
  have hkey : ∀ {ctx : Context} {l : List Item}, ∀ p ∈ mergeItems TopologyEdge.rank
      Item.order (Item.edges rt ctx) l, p.2.key = p.1 := by
    intro ctx l p hp
    obtain ⟨i, -, hi⟩ := mem_mergeItems hp
    obtain ⟨n, -, rfl⟩ := mem_map.mp hi
    rfl
  exact sortedBy_entries_eq_iff (fun _ _ h => h) (keysNodup_mergeItems _) (keysNodup_mergeItems _)
    hkey hkey

theorem foldl_push (l : List (Str × (Fin 4095 × Str))) :
    l.foldl (fun d p => push d p.1 p.2) [] =
      (groupBy Prod.fst l).map fun p => (p.1, p.2.map Prod.snd) := by
  induction l using List.reverseRecOn with
  | nil => rfl
  | append_singleton l p ih =>
    rw [foldl_append, ih, foldl_cons, foldl_nil, groupBy_append_singleton, ← push_map]

/-- The disagreements among VLAN claims depend on the set of claims. -/
theorem vlanConflicts_congr {l l' : List (Str × (Fin 4095 × Str))} (h : ∀ p, p ∈ l ↔ p ∈ l') :
    vlanConflicts (l.foldl (fun d p => push d p.1 p.2) []) =
      vlanConflicts (l'.foldl (fun d p => push d p.1 p.2) []) := by
  have hkeys : sortedSet (l.map Prod.fst) = sortedSet (l'.map Prod.fst) := by
    apply sortedSet_congr
    intro k
    simp only [mem_map, h]
  have hclaims : ∀ {β : Type} [LinearOrder β] (k : Str) (f : Fin 4095 × Str → β),
      sortedSet (((l.filter (Prod.fst · = k)).map Prod.snd).map f) =
        sortedSet (((l'.filter (Prod.fst · = k)).map Prod.snd).map f) := by
    intro β _ k f
    apply sortedSet_congr
    intro b
    simp only [mem_map, mem_filter, h]
  unfold vlanConflicts
  rw [foldl_push, foldl_push, sortedBy_map, sortedBy_map]
  show (List.map _ (sortedBy Prod.fst (groupBy Prod.fst l))).filterMap _ =
    (List.map _ (sortedBy Prod.fst (groupBy Prod.fst l'))).filterMap _
  rw [sortedBy_groupBy, sortedBy_groupBy, hkeys, map_map, map_map, filterMap_map, filterMap_map]
  apply filterMap_congr
  intro k _
  simp only [Function.comp_apply, hclaims]

/-- The VLAN memberships that the observations claim. -/
def Reading.memberships (rt : Runtime) (r : Reading) (ctx : Context) :
    List (Str × (Fin 4095 × Str)) :=
  (activeSeen r.asOf (sortedBy Seen.key r.seen)).flatMap fun o =>
    ((Item.observation o).claimed rt ctx).vlans

theorem claimed_subnet (ctx : Context) (s : SubnetEvidence) :
    ((Item.subnet s).claimed rt ctx).conflicts = [] ∧
      ((Item.subnet s).claimed rt ctx).vlans = [] := by
  unfold Item.claimed Item.claims
  obtain ⟨c, hc⟩ := subnetClaims_ok rt s
  simp only [hc]
  obtain ⟨node, -, h⟩ := Except.bind_eq_ok.mp hc
  cases h
  exact ⟨rfl, rfl⟩

theorem edges_subnet (ctx : Context) (s : SubnetEvidence) :
    (Item.subnet s).edges rt ctx = [] := by
  unfold Item.edges Item.claimed Item.claims
  obtain ⟨c, hc⟩ := subnetClaims_ok rt s
  simp only [hc]
  obtain ⟨node, -, h⟩ := Except.bind_eq_ok.mp hc
  cases h
  rfl

theorem claimed_vlan (ctx : Context) (v : VlanEvidence) :
    ((Item.vlan v).claimed rt ctx).conflicts = [] ∧ ((Item.vlan v).claimed rt ctx).vlans = [] := by
  unfold Item.claimed Item.claims
  obtain ⟨c, hc⟩ := vlanClaims_ok rt v
  simp only [hc]
  refine ⟨?_, vlanClaims_vlans hc⟩
  obtain ⟨node, -, h⟩ := Except.bind_eq_ok.mp hc
  cases hv : v.subnetCidr with
  | none =>
    simp only [hv] at h
    cases h
    rfl
  | some network =>
    simp only [hv] at h
    obtain ⟨subnet, -, h⟩ := Except.bind_eq_ok.mp h
    obtain ⟨e, -, h⟩ := Except.bind_eq_ok.mp h
    cases h
    rfl

/-- The conflicts are those of the observations, and the VLAN disagreements. -/
theorem graph_conflicts {r : Reading} {subnets : List SubnetEvidence} {vlans : List VlanEvidence}
    (hall : ∀ o ∈ activeSeen r.asOf r.seen,
      ∃ c, observationClaims rt (r.context subnets vlans) o = .ok c) :
    (r.graph rt subnets vlans).conflicts = sortedBy Builder.conflictKey
      ((activeSeen r.asOf (sortedBy Seen.key r.seen)).filterMap Seen.conflict ++
        vlanConflicts ((r.memberships rt (r.context subnets vlans)).foldl
          (fun d p => push d p.1 p.2) [])) := by
  have hconflicts : (activeSeen r.asOf (sortedBy Seen.key r.seen)).flatMap (fun o =>
      ((Item.observation o).claimed rt (r.context subnets vlans)).conflicts) =
        (activeSeen r.asOf (sortedBy Seen.key r.seen)).filterMap Seen.conflict := by
    rw [filterMap_eq_flatMap_toList]
    apply flatMap_congr
    intro o ho
    obtain ⟨hmem, hactive⟩ := mem_activeSeen.mp ho
    obtain ⟨c, hc⟩ := hall o (mem_activeSeen.mpr ⟨mem_sortedBy.mp hmem, hactive⟩)
    unfold Item.claimed Item.claims
    simp only [hc]
    exact (observationClaims_spec hc).conflicts
  have hnil : ∀ {α β : Type} (l : List α), l.flatMap (fun _ => ([] : List β)) = [] := by simp
  show sortedBy Builder.conflictKey ((Claims.concat ((sortedBy Item.order
    (r.items subnets vlans)).map (Item.claimed rt (r.context subnets vlans)))).conflicts ++ _) = _
  rw [sortedBy_items]
  simp only [Claims.concat, flatMap_map, map_cons, map_append, flatMap_cons, flatMap_append,
    map_map, Function.comp_apply, claimed_subnet, claimed_vlan, hconflicts, hnil, nil_append]
  rfl

/-! ## Permutations -/

theorem conflict_sources {o : Seen} {c : TopologyConflict} (h : o.conflict = some c) :
    c.sources = [o.source] := by
  unfold Seen.conflict at h
  split at h
  · split at h
    · cases h
    · cases h
      rfl
  · split at h
    · cases h
      rfl
    · cases h

/-- The sources of a conflict with the sort key `k` come in the order of the observations, which is
the order of their sort keys. -/
theorem conflicts_perm {asOf : Utc} {seen seen' : List Seen} (h : seen.Perm seen')
    (vlan : List TopologyConflict) :
    sortedBy Builder.conflictKey
        ((activeSeen asOf (sortedBy Seen.key seen)).filterMap Seen.conflict ++ vlan) =
      sortedBy Builder.conflictKey
        ((activeSeen asOf (sortedBy Seen.key seen')).filterMap Seen.conflict ++ vlan) := by
  apply sortedBy_eq_of_filter
  intro k
  rw [filter_append, filter_append]
  congr 1
  let conflictOf (key : Str ×ₗ Str ×ₗ Str ×ₗ Str) : TopologyConflict :=
    ⟨(ofLex k).1, (ofLex (ofLex k).2).1, (ofLex (ofLex k).2).2,
      [(ofLex (ofLex (ofLex key).2).2).1]⟩
  let discloses (o : Seen) : Bool := o.conflict.any fun c => Builder.conflictKey c = k
  have hclosed : ∀ p : TopologyConflict → Bool, (∀ c, p c = true ↔ Builder.conflictKey c = k) →
      ∀ seen, ((activeSeen asOf (sortedBy Seen.key seen)).filterMap Seen.conflict).filter p =
        ((sortedBy Seen.key ((activeSeen asOf seen).filter discloses)).map Seen.key).map
          conflictOf := by
    intro p hp seen
    have hfilter : ∀ l : List Seen, (l.filterMap Seen.conflict).filter p =
        (l.filter discloses).map fun o => conflictOf o.key := by
      intro l
      induction l with
      | nil => rfl
      | cons o l ih =>
        cases hc : o.conflict with
        | none =>
          rw [filterMap_cons_none hc, ih, filter_cons_of_neg (by simp [discloses, hc])]
        | some c =>
          rw [filterMap_cons_some hc]
          by_cases hk : Builder.conflictKey c = k
          · rw [filter_cons_of_pos ((hp c).mpr hk),
              filter_cons_of_pos (by simpa [discloses, hc] using hk), map_cons, ih]
            congr 1
            have hsources := conflict_sources hc
            obtain ⟨kind, subject, details, sources⟩ := c
            subst hk
            simp only at hsources
            subst hsources
            rfl
          · rw [filter_cons_of_neg (fun h => hk ((hp c).mp h)),
              filter_cons_of_neg (by simpa [discloses, hc] using hk), ih]
    rw [hfilter, activeSeen, filter_sortedBy, filter_sortedBy, map_map]
    rfl
  refine (hclosed _ ?_ seen).trans (Eq.trans ?_ (hclosed _ ?_ seen').symm)
  · simp
  · have hperm : ((activeSeen asOf seen).filter discloses).Perm
        ((activeSeen asOf seen').filter discloses) := (h.filter _).filter _
    rw [map_sortedBy_of_perm hperm]
  · simp

end

end FieldDiscovery.Topology
