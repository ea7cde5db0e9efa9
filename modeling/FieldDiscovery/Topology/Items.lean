import FieldDiscovery.Topology.Merge

/-!
# The topology as a merge of items

`Item` is one item of evidence: this device, a subnet, a VLAN or an observation. `graphOf` merges
the claims of the active items in the order in which `build_topology` reads them, and
`buildTopology_eq_ok` says that `build_topology` returns exactly when everything can be read and
every active observation has claims, and that it returns that graph.
-/

namespace FieldDiscovery.Topology

open Py Correlation Passive List

section

variable {rt : Runtime}

/-! ## The loops -/

/-- A loop whose rounds merge the claims of one item each. -/
theorem loop_run {α : Type} {step : Work → α → Except Exc Work} {claims : α → Except Exc Claims}
    {I : List α → Work → Prop}
    (hstep : ∀ done w a, I done w → ∃ w' c, step w a = .ok w' ∧ claims a = .ok c ∧
      I (done ++ [a]) w' ∧ w'.builder = w.builder.apply rt c ∧ w'.vlanClaims = w.vlanClaims)
    (l done : List α) (w : Work) (h : I done w) : ∃ w' cs, l.foldlM step w = .ok w' ∧
      l.mapM claims = .ok cs ∧ I (done ++ l) w' ∧
      w'.builder = w.builder.apply rt (Claims.concat cs) ∧ w'.vlanClaims = w.vlanClaims := by
  induction l generalizing done w with
  | nil => exact ⟨w, [], rfl, rfl, by simpa using h, by simp, rfl⟩
  | cons a l ih =>
    obtain ⟨w₁, c, hw₁, hc, hinv, hbuilder, hclaims⟩ := hstep done w a h
    obtain ⟨w', cs, hw', hcs, hinv', hbuilder', hclaims'⟩ := ih _ w₁ hinv
    refine ⟨w', c :: cs, ?_, ?_, by simpa using hinv', ?_, hclaims'.trans hclaims⟩
    · rw [foldlM_cons, hw₁]
      exact hw'
    · rw [Except.mapM_cons_eq, hc, Except.ok_bind, hcs, Except.ok_bind]
    · rw [hbuilder', hbuilder, Claims.concat_cons, Builder.apply_append]

/-- The active ones among observations. -/
def activeSeen (asOf : Utc) (seen : List Seen) : List Seen :=
  seen.filter fun o => isActive asOf o.observedAt o.expiresAt

theorem activeSeen_cons (asOf : Utc) (o : Seen) (seen : List Seen) :
    activeSeen asOf (o :: seen) = if isActive asOf o.observedAt o.expiresAt then
      o :: activeSeen asOf seen else activeSeen asOf seen := filter_cons

/-- More excluded items. -/
def Work.tally (w : Work) (future expired : Nat) : Work :=
  { w with builder := w.builder.tally future expired }

theorem addObservation_eq (asOf : Utc) (localNode : Str) (subnets : List SubnetEvidence)
    (w : Work) (o : Utc × PassiveObservation) :
    addObservation rt asOf localNode subnets w o = lookAt o >>= fun s =>
      let w' := w.tally (isFuture asOf s.observedAt).toNat
        (isExpired asOf s.observedAt s.expiresAt).toNat
      if isActive asOf s.observedAt s.expiresAt then dispatch rt w' localNode s subnets
      else .ok w' := by
  unfold addObservation lookAt
  rw [bind_assoc]
  apply bind_congr
  intro valid
  simp only [Except.ok_bind, active_eq]
  rfl

/-- How many observations are in the future of `asOf`, and how many have expired. -/
def countSeen (p : Utc → Option Utc → Bool) (seen : List Seen) : Nat :=
  seen.countP fun o => p o.observedAt o.expiresAt

theorem Ready.tally {ctx : Context} {w : Work} (h : Ready rt ctx w) (f e : Nat) :
    Ready rt ctx (w.tally f e) := ⟨h.subnetNodes, h.vlanNodes, h.vlans⟩

/-- The loop over the observations merges the claims of the active ones. -/
theorem observations_run {asOf : Utc} {ctx : Context} (timed : List (Utc × PassiveObservation))
    {w w' : Work} (h : Ready rt ctx w)
    (hrun : timed.foldlM (addObservation rt asOf ctx.localNode ctx.subnets) w = .ok w') :
    ∃ seen cs, timed.mapM lookAt = .ok seen ∧
      (activeSeen asOf seen).mapM (observationClaims rt ctx) = .ok cs ∧
      w'.builder = (w.builder.apply rt (Claims.concat cs)).tally
        (countSeen (fun t _ => isFuture asOf t) seen) (countSeen (isExpired asOf) seen) ∧
      w'.vlanClaims = (Claims.concat cs).vlans.foldl (fun d p => push d p.1 p.2) w.vlanClaims := by
  induction timed generalizing w with
  | nil =>
    cases hrun
    exact ⟨[], [], rfl, rfl, by simp [countSeen, Builder.tally], rfl⟩
  | cons o timed ih =>
    rw [foldlM_cons, addObservation_eq, bind_assoc] at hrun
    obtain ⟨s, hs, hrun⟩ := Except.bind_eq_ok.mp hrun
    obtain ⟨w₁, hw₁, hrun⟩ := Except.bind_eq_ok.mp hrun
    simp only at hw₁
    have htally := h.tally (isFuture asOf s.observedAt).toNat
      (isExpired asOf s.observedAt s.expiresAt).toNat
    have hlook : ∀ seen, timed.mapM lookAt = .ok seen → (o :: timed).mapM lookAt = .ok (s :: seen) := by
      intro seen hseen
      rw [Except.mapM_cons_eq, hs, Except.ok_bind, hseen, Except.ok_bind]
    have hcount : ∀ (p : Utc → Option Utc → Bool) seen, countSeen p (s :: seen) =
        (p s.observedAt s.expiresAt).toNat + countSeen p seen := by
      intro p seen
      unfold countSeen
      rw [countP_cons, Nat.add_comm]
      cases p s.observedAt s.expiresAt <;> rfl
    by_cases hactive : isActive asOf s.observedAt s.expiresAt = true
    · rw [if_pos hactive] at hw₁
      have hrel := dispatch_rel htally s
      rw [hw₁] at hrel
      cases hc : observationClaims rt ctx s with
      | error e =>
        rw [hc] at hrel
        cases hrel
      | ok c =>
        rw [hc] at hrel
        cases hrel with
        | ok hmerged =>
          obtain ⟨seen, cs, hseen, hcs, hbuilder, hclaims⟩ := ih hmerged.ready hrun
          refine ⟨s :: seen, c :: cs, hlook seen hseen, ?_, ?_, ?_⟩
          · rw [activeSeen_cons, if_pos hactive, Except.mapM_cons_eq, hc, Except.ok_bind, hcs,
              Except.ok_bind]
          · rw [hbuilder, hmerged.builder, hcount, hcount, Claims.concat_cons,
              Builder.apply_append, Work.tally, apply_tally, apply_tally, tally_tally]
          · rw [hclaims, hmerged.vlanClaims, Claims.concat_cons]
            simp [Claims.append, foldl_append, Work.tally]
    · rw [if_neg hactive] at hw₁
      cases hw₁
      obtain ⟨seen, cs, hseen, hcs, hbuilder, hclaims⟩ := ih htally hrun
      refine ⟨s :: seen, cs, hlook seen hseen, ?_, ?_, hclaims⟩
      · rw [activeSeen_cons, if_neg hactive]
        exact hcs
      · rw [hbuilder, hcount, hcount, Work.tally, apply_tally, tally_tally]

/-- The loop over the observations returns when every active one has claims. -/
theorem observations_return {asOf : Utc} {ctx : Context}
    (timed : List (Utc × PassiveObservation)) {w : Work} (h : Ready rt ctx w) {seen : List Seen}
    (hseen : timed.mapM lookAt = .ok seen)
    (hclaims : ∀ o ∈ activeSeen asOf seen, ∃ c, observationClaims rt ctx o = .ok c) :
    ∃ w', timed.foldlM (addObservation rt asOf ctx.localNode ctx.subnets) w = .ok w' := by
  induction timed generalizing w seen with
  | nil => exact ⟨w, rfl⟩
  | cons o timed ih =>
    rw [Except.mapM_cons_eq] at hseen
    obtain ⟨s, hs, hseen⟩ := Except.bind_eq_ok.mp hseen
    obtain ⟨rest, hrest, hseen⟩ := Except.bind_eq_ok.mp hseen
    cases hseen
    have hlater : ∀ x ∈ activeSeen asOf rest, ∃ c, observationClaims rt ctx x = .ok c := by
      intro x hx
      apply hclaims
      rw [activeSeen_cons]
      split
      · exact mem_cons_of_mem _ hx
      · exact hx
    have htally := h.tally (isFuture asOf s.observedAt).toNat
      (isExpired asOf s.observedAt s.expiresAt).toNat
    rw [foldlM_cons, addObservation_eq, hs, Except.ok_bind]
    simp only
    by_cases hactive : isActive asOf s.observedAt s.expiresAt = true
    · rw [if_pos hactive]
      obtain ⟨c, hc⟩ := hclaims s (by
        rw [activeSeen_cons, if_pos hactive]
        exact mem_cons_self)
      have hrel := dispatch_rel htally s
      rw [hc] at hrel
      generalize dispatch rt _ ctx.localNode s ctx.subnets = x at hrel
      cases hrel with
      | ok hmerged => exact ih hmerged.ready hrest hlater
    · rw [if_neg hactive]
      exact ih htally hrest hlater

end

/-! ## Items -/

/-- One item of evidence. -/
inductive Item where
  /-- This device, under the node proposed for it. -/
  | device (node : TopologyNode)
  | subnet (s : SubnetEvidence)
  | vlan (v : VlanEvidence)
  | observation (o : Seen)

namespace Item

/-- The order in which items are merged. -/
def order : Item → ℕ ×ₗ ℕ ×ₗ Str ×ₗ Str ×ₗ Str ×ₗ Str
  | device _ => toLex (0, toLex (0, toLex ([], toLex ([], toLex ([], [])))))
  | subnet s => toLex (1, toLex (0, toLex (s.network.cidr, toLex ([], toLex ([], [])))))
  | vlan v => toLex (2, toLex (v.vlanId.val, toLex (v.source.val, toLex ([], toLex ([], [])))))
  | observation o => toLex (3, toLex (0, o.key))

/-- The claims of an item. -/
def claims (rt : Runtime) (ctx : Context) : Item → Except Exc Claims
  | device node => .ok { nodes := [node] }
  | subnet s => subnetClaims rt s
  | vlan v => vlanClaims rt v
  | observation o => observationClaims rt ctx o

/-- The claims of an item that has some. -/
def claimed (rt : Runtime) (ctx : Context) (i : Item) : Claims :=
  ((i.claims rt ctx).toOption).getD {}

/-- The nodes that an item proposes, under their identifiers. -/
def nodes (rt : Runtime) (ctx : Context) (i : Item) : List (Str × TopologyNode) :=
  keyedNodes (i.claimed rt ctx).nodes

/-- The edges that an item derives, under their keys. -/
def edges (rt : Runtime) (ctx : Context) (i : Item) : List (EdgeKey × TopologyEdge) :=
  keyedEdges (i.claimed rt ctx).edges

end Item

/-- What `build_topology` has read of its inputs. -/
structure Reading where
  asOf : Utc
  localNode : TopologyNode
  seen : List Seen

/-- Everything that `build_topology` reads besides the subnets and VLANs. -/
def read (rt : Runtime) (observations : List PassiveObservation) (localIdentity : Str)
    (asOf : Option Stamp) (localLabel : Option Str) : Except Exc Reading :=
  match asOf with
  | none => topologyError (str "an explicit as_of timestamp is required for active topology")
  | some asOf => do
    let asOf ← utc asOf
    let identity ← text localIdentity "local identity"
    let localNode ← proposeDevice rt (str "local") identity.val localLabel
    let seen ← observations.mapM look
    .ok ⟨asOf, localNode, seen⟩

/-- The active ones of subnets or VLANs. -/
def activeEvidence {α : Type} (asOf : Utc) (validity : α → Validity) (l : List α) : List α :=
  l.filter fun i => isActive asOf (validity i).observedAt (validity i).validUntil

namespace Reading

variable (r : Reading) (subnets : List SubnetEvidence) (vlans : List VlanEvidence)

/-- The active subnets in the order of `build_topology`. -/
def activeSubnets : List SubnetEvidence :=
  activeEvidence r.asOf SubnetEvidence.validity (sortedBy (fun s => s.network.cidr) subnets)

/-- The active VLANs in the order of `build_topology`. -/
def activeVlans : List VlanEvidence :=
  activeEvidence r.asOf VlanEvidence.validity
    (sortedBy (fun v => toLex (v.vlanId, v.source.val)) vlans)

/-- What the claims of the observations depend on. -/
def context : Context :=
  ⟨r.localNode.nodeId, r.activeSubnets subnets, (r.activeVlans vlans).map VlanEvidence.vlanId⟩

/-- The active items. -/
def items : List Item :=
  .device r.localNode ::
    ((activeEvidence r.asOf SubnetEvidence.validity subnets).map .subnet ++
      ((activeEvidence r.asOf VlanEvidence.validity vlans).map .vlan ++
        (activeSeen r.asOf r.seen).map .observation))

/-- The number of items that `p` holds of. -/
def count (p : Utc → Option Utc → Bool) : Nat :=
  countValidity p SubnetEvidence.validity subnets + countValidity p VlanEvidence.validity vlans +
    countSeen p r.seen

end Reading

/-- The graph that merges the claims of items. -/
def graphOf (rt : Runtime) (ctx : Context) (asOf : Utc) (items : List Item)
    (future expired : Nat) : TopologyGraph :=
  let sorted := Claims.concat ((sortedBy Item.order items).map (Item.claimed rt ctx))
  Builder.result
    { nodes := mergeItems (TopologyNode.rank rt) Item.order (Item.nodes rt ctx) items
      edges := mergeItems TopologyEdge.rank Item.order (Item.edges rt ctx) items
      conflicts := sorted.conflicts ++
        vlanConflicts (sorted.vlans.foldl (fun d p => push d p.1 p.2) [])
      excludedExpired := expired
      excludedFuture := future } asOf

/-- The graph of everything that was read. -/
def Reading.graph (rt : Runtime) (r : Reading) (subnets : List SubnetEvidence)
    (vlans : List VlanEvidence) : TopologyGraph :=
  graphOf rt (r.context subnets vlans) r.asOf (r.items subnets vlans)
    (r.count subnets vlans fun t _ => isFuture r.asOf t)
    (r.count subnets vlans (isExpired r.asOf))

/-! ## The order of the items -/

theorem order_lt {i j : Item} (h : (ofLex i.order).1 < (ofLex j.order).1) : i.order ≤ j.order :=
  (Prod.Lex.le_iff.mpr (Or.inl h))

theorem order_subnet (s t : SubnetEvidence) :
    (Item.subnet s).order ≤ (Item.subnet t).order ↔ s.network.cidr ≤ t.network.cidr := by
  simp only [Item.order, Prod.Lex.toLex_le_toLex, lt_self_iff_false, le_refl, and_true, true_and,
    false_or]
  exact le_iff_lt_or_eq.symm

theorem order_vlan (v w : VlanEvidence) : (Item.vlan v).order ≤ (Item.vlan w).order ↔
    (toLex (v.vlanId, v.source.val) : Fin 4095 ×ₗ Str) ≤ toLex (w.vlanId, w.source.val) := by
  simp only [Item.order, Prod.Lex.toLex_le_toLex, lt_self_iff_false, le_refl, and_true, true_and,
    false_or, Fin.lt_def, Fin.ext_iff]
  rw [← le_iff_lt_or_eq]

theorem order_observation (o p : Seen) :
    (Item.observation o).order ≤ (Item.observation p).order ↔ o.key ≤ p.key := by
  simp only [Item.order, Prod.Lex.toLex_le_toLex, lt_self_iff_false, true_and, false_or]

/-- The items come as this device, the subnets, the VLANs, the observations, each in its order. -/
theorem sortedBy_items (r : Reading) (subnets : List SubnetEvidence) (vlans : List VlanEvidence) :
    sortedBy Item.order (r.items subnets vlans) = .device r.localNode ::
      ((r.activeSubnets subnets).map .subnet ++ ((r.activeVlans vlans).map .vlan ++
        (activeSeen r.asOf (sortedBy Seen.key r.seen)).map .observation)) := by
  unfold Reading.items
  rw [← singleton_append, sortedBy_append, sortedBy_append, sortedBy_append, sortedBy_map,
    sortedBy_map, sortedBy_map, sortedBy_congr order_subnet, sortedBy_congr order_vlan,
    sortedBy_congr order_observation]
  · simp only [Reading.activeSubnets, Reading.activeVlans, activeEvidence, activeSeen,
      filter_sortedBy]
    rfl
  · intro a ha b hb
    obtain ⟨v, -, rfl⟩ := mem_map.mp ha
    obtain ⟨o, -, rfl⟩ := mem_map.mp hb
    exact order_lt (show 2 < 3 by norm_num)
  · intro a ha b hb
    obtain ⟨s, -, rfl⟩ := mem_map.mp ha
    apply order_lt
    rcases mem_append.mp hb with hb | hb
    · obtain ⟨v, -, rfl⟩ := mem_map.mp hb
      exact (show 1 < 2 by norm_num)
    · obtain ⟨o, -, rfl⟩ := mem_map.mp hb
      exact (show 1 < 3 by norm_num)
  · intro a ha b hb
    rw [mem_singleton.mp ha]
    apply order_lt
    rcases mem_append.mp hb with hb | hb
    · obtain ⟨s, -, rfl⟩ := mem_map.mp hb
      exact (show 0 < 1 by norm_num)
    · rcases mem_append.mp hb with hb | hb
      · obtain ⟨v, -, rfl⟩ := mem_map.mp hb
        exact (show 0 < 2 by norm_num)
      · obtain ⟨o, -, rfl⟩ := mem_map.mp hb
        exact (show 0 < 3 by norm_num)

/-! ## The whole run -/

section

variable {rt : Runtime}

theorem lookAt_key {o : Utc × PassiveObservation} {s : Seen} (h : lookAt o = .ok s) :
    observationKey o = s.key := by
  obtain ⟨valid, -, h⟩ := Except.bind_eq_ok.mp h
  cases h
  rfl

/-- Reading the times before or after sorting is the same. -/
theorem mapM_look {observations : List PassiveObservation} {seen : List Seen} :
    observations.mapM look = .ok seen ↔ ∃ timed, observations.mapM stamped = .ok timed ∧
      (sortedBy observationKey timed).mapM lookAt = .ok (sortedBy Seen.key seen) ∧
      timed.mapM lookAt = .ok seen := by
  constructor
  · intro h
    have hlook := Except.mapM_eq_ok.mp h
    obtain ⟨timed, htimed⟩ : ∃ timed, observations.mapM stamped = .ok timed := by
      rw [Except.exists_mapM_eq_ok]
      intro o ho
      obtain ⟨s, -, hs⟩ := hlook.exists_of_mem_left ho
      obtain ⟨p, hp, -⟩ := Except.bind_eq_ok.mp hs
      exact ⟨p, hp⟩
    have hstamped := Except.mapM_eq_ok.mp htimed
    have hseen : Forall₂ (fun p s => lookAt p = .ok s) timed seen := by
      clear h htimed
      induction hstamped generalizing seen with
      | nil =>
        cases hlook
        exact .nil
      | cons hp _ ih =>
        cases hlook with
        | cons hs hrest =>
          rw [look, hp, Except.ok_bind] at hs
          exact .cons hs (ih hrest)
    have hsorted : Forall₂ (fun p s => lookAt p = .ok s) (sortedBy observationKey timed)
        (sortedBy Seen.key seen) := sortedBy_forall₂ (fun _ _ h => lookAt_key h) hseen
    exact ⟨timed, htimed, Except.mapM_eq_ok.mpr hsorted, Except.mapM_eq_ok.mpr hseen⟩
  · rintro ⟨timed, htimed, -, hseen⟩
    have hstamped := Except.mapM_eq_ok.mp htimed
    have hlook := Except.mapM_eq_ok.mp hseen
    rw [Except.mapM_eq_ok]
    clear htimed hseen
    induction hstamped generalizing seen with
    | nil =>
      cases hlook
      exact .nil
    | cons hp _ ih =>
      cases hlook with
      | cons hs hrest =>
        refine .cons ?_ (ih hrest)
        rw [look, hp, Except.ok_bind]
        exact hs

/-- The tables are empty before the loops. -/
theorem tables_empty (b : Builder) : Tables rt [] [] { builder := b } := by
  refine ⟨?_, by simp, ?_, by simp⟩
  · intro network id h
    simp [Dict.get] at h
  · intro v id h
    simp [Dict.get] at h

theorem Tables.ready {r : Reading} {subnets : List SubnetEvidence} {vlans : List VlanEvidence}
    {w : Work} (h : Tables rt (r.activeSubnets subnets)
      ((r.activeVlans vlans).map VlanEvidence.vlanId) w) : Ready rt (r.context subnets vlans) w := by
  refine ⟨?_, ?_, h.vlans⟩
  · intro s hs node hnode
    obtain ⟨id, hid⟩ := h.subnets s hs
    rw [hid, (h.subnetNodes s.network id hid node hnode).1]
  · intro v id hid node hnode
    obtain ⟨hmem, hnid⟩ := h.vlanNodes v id hid
    rw [(proposeNode_nodeId rt hnode).1] at hnid
    cases hnid
    exact ⟨rfl, Or.inl hmem⟩

/-- The loops over the subnets and the VLANs. -/
theorem evidence_run (r : Reading) (subnets : List SubnetEvidence) (vlans : List VlanEvidence)
    (b : Builder) : ∃ w₁ w cs cs',
      (r.activeSubnets subnets).foldlM (addSubnet rt) { builder := b } = .ok w₁ ∧
      (r.activeVlans vlans).foldlM (addVlan rt) w₁ = .ok w ∧
      (r.activeSubnets subnets).mapM (subnetClaims rt) = .ok cs ∧
      (r.activeVlans vlans).mapM (vlanClaims rt) = .ok cs' ∧
      Ready rt (r.context subnets vlans) w ∧
      w.builder = (b.apply rt (Claims.concat cs)).apply rt (Claims.concat cs') ∧
      w.vlanClaims = [] := by
  obtain ⟨w₁, cs, hw₁, hcs, htables, hbuilder, hclaims⟩ := loop_run
    (I := fun done w => Tables rt done [] w)
    (fun done w s h => addSubnet_run h s) (r.activeSubnets subnets) [] _ (tables_empty b)
  obtain ⟨w, cs', hw, hcs', htables', hbuilder', hclaims'⟩ := loop_run
    (I := fun done w => Tables rt (r.activeSubnets subnets) (done.map VlanEvidence.vlanId) w)
    (fun done w v h => by simpa using addVlan_run h v) (r.activeVlans vlans) [] w₁ htables
  refine ⟨w₁, w, cs, cs', hw₁, hw, hcs, hcs', htables'.ready, ?_, ?_⟩
  · rw [hbuilder', hbuilder]
  · rw [hclaims', hclaims]

/-- Only observations claim VLAN memberships. -/
theorem subnetClaims_vlans {s : SubnetEvidence} {c : Claims} (h : subnetClaims rt s = .ok c) :
    c.vlans = [] := by
  obtain ⟨node, -, h⟩ := Except.bind_eq_ok.mp h
  cases h
  rfl

theorem vlanClaims_vlans {v : VlanEvidence} {c : Claims} (h : vlanClaims rt v = .ok c) :
    c.vlans = [] := by
  obtain ⟨node, -, h⟩ := Except.bind_eq_ok.mp h
  cases hv : v.subnetCidr with
  | none =>
    simp only [hv] at h
    cases h
    rfl
  | some network =>
    simp only [hv] at h
    obtain ⟨subnet, -, h⟩ := Except.bind_eq_ok.mp h
    obtain ⟨e, -, h⟩ := Except.bind_eq_ok.mp h
    cases h
    rfl

theorem concat_vlans_nil {α : Type} {f : α → Except Exc Claims} {l : List α} {cs : List Claims}
    (hf : ∀ a c, f a = .ok c → c.vlans = []) (h : l.mapM f = .ok cs) :
    (Claims.concat cs).vlans = [] := by
  apply flatMap_eq_nil_iff.mpr
  intro c hc
  obtain ⟨a, -, ha⟩ := (Except.mapM_eq_ok.mp h).exists_of_mem_right hc
  exact hf a c ha

theorem map_claimed {α : Type} {ctx : Context} {f : α → Item} {l : List α} {cs : List Claims}
    (h : l.mapM (fun a => (f a).claims rt ctx) = .ok cs) :
    (l.map f).map (Item.claimed rt ctx) = cs := by
  have hall := Except.mapM_eq_ok.mp h
  clear h
  induction hall with
  | nil => rfl
  | cons hc _ ih =>
    simp only [map_cons, ih]
    rw [Item.claimed, hc]
    rfl

/-- The conflicts of a builder after more of them. -/
theorem foldl_conflict (cs : List TopologyConflict) (b : Builder) :
    cs.foldl Builder.conflict b = { b with conflicts := b.conflicts ++ cs } := by
  induction cs generalizing b with
  | nil => simp
  | cons c cs ih =>
    rw [foldl_cons, ih]
    simp [Builder.conflict]

/-- The graph, from the builder that has merged all claims at once. -/
theorem graph_eq (r : Reading) (subnets : List SubnetEvidence) (vlans : List VlanEvidence)
    {total : Claims} (h : Claims.concat ((sortedBy Item.order (r.items subnets vlans)).map
      (Item.claimed rt (r.context subnets vlans))) = total) :
    r.graph rt subnets vlans = Builder.result
      ((vlanConflicts (total.vlans.foldl (fun d p => push d p.1 p.2) [])).foldl Builder.conflict
        ((({} : Builder).apply rt total).tally
          (r.count subnets vlans fun t _ => isFuture r.asOf t)
          (r.count subnets vlans (isExpired r.asOf)))) r.asOf := by
  have hnodes : (sortedBy Item.order (r.items subnets vlans)).flatMap
      (Item.nodes rt (r.context subnets vlans)) = keyedNodes total.nodes := by
    rw [← h]
    simp only [Claims.concat, keyedNodes, map_flatMap, flatMap_map]
    rfl
  have hedges : (sortedBy Item.order (r.items subnets vlans)).flatMap
      (Item.edges rt (r.context subnets vlans)) = keyedEdges total.edges := by
    rw [← h]
    simp only [Claims.concat, keyedEdges, map_flatMap, flatMap_map]
    rfl
  unfold Reading.graph graphOf mergeItems
  rw [hnodes, hedges, foldl_conflict, h]
  simp [Builder.apply, Builder.tally]

/-- The claims of all items are those of the device and of the three loops. -/
theorem concat_items {r : Reading} {subnets : List SubnetEvidence} {vlans : List VlanEvidence}
    {cs cs' cs'' : List Claims} (hcs : (r.activeSubnets subnets).mapM (subnetClaims rt) = .ok cs)
    (hcs' : (r.activeVlans vlans).mapM (vlanClaims rt) = .ok cs')
    (hcs'' : (activeSeen r.asOf (sortedBy Seen.key r.seen)).mapM
      (observationClaims rt (r.context subnets vlans)) = .ok cs'') :
    Claims.concat ((sortedBy Item.order (r.items subnets vlans)).map
      (Item.claimed rt (r.context subnets vlans))) = Claims.append { nodes := [r.localNode] }
        ((Claims.concat cs).append ((Claims.concat cs').append (Claims.concat cs''))) := by
  have hdevice : Item.claimed rt (r.context subnets vlans) (.device r.localNode) =
      { nodes := [r.localNode] } := rfl
  rw [sortedBy_items, map_cons, map_append, map_append, map_claimed (f := Item.subnet) hcs,
    map_claimed (f := Item.vlan) hcs', map_claimed (f := Item.observation) hcs'',
    Claims.concat_cons, Claims.concat_append, Claims.concat_append, hdevice]

/-- The builder once this device is merged and the subnets and VLANs are filtered. -/
def start (rt : Runtime) (asOf : Utc) (localNode : TopologyNode) (subnets : List SubnetEvidence)
    (vlans : List VlanEvidence) : Builder :=
  ((({} : Builder).apply rt { nodes := [localNode] }).tally
    (countValidity (fun t _ => isFuture asOf t) SubnetEvidence.validity
      (sortedBy (fun s => s.network.cidr) subnets))
    (countValidity (isExpired asOf) SubnetEvidence.validity
      (sortedBy (fun s => s.network.cidr) subnets))).tally
    (countValidity (fun t _ => isFuture asOf t) VlanEvidence.validity
      (sortedBy (fun v => toLex (v.vlanId, v.source.val)) vlans))
    (countValidity (isExpired asOf) VlanEvidence.validity
      (sortedBy (fun v => toLex (v.vlanId, v.source.val)) vlans))

/-- The three loops and the conflicts of the VLANs. -/
def loops (rt : Runtime) (observations : List PassiveObservation) (asOf : Utc)
    (localNode : TopologyNode) (subnets : List SubnetEvidence) (vlans : List VlanEvidence) :
    Except Exc TopologyGraph := do
  let r : Reading := ⟨asOf, localNode, []⟩
  let w ← (r.activeSubnets subnets).foldlM (addSubnet rt)
    { builder := start rt asOf localNode subnets vlans }
  let w ← (r.activeVlans vlans).foldlM (addVlan rt) w
  let timed ← observations.mapM stamped
  let w ← (sortedBy observationKey timed).foldlM
    (addObservation rt asOf localNode.nodeId (r.activeSubnets subnets)) w
  .ok (((vlanConflicts w.vlanClaims).foldl Builder.conflict w.builder).result asOf)

theorem countSeen_sorted (p : Utc → Option Utc → Bool) (seen : List Seen) :
    countSeen p (sortedBy Seen.key seen) = countSeen p seen :=
  (sortedBy_perm _ _).countP_eq _

theorem countValidity_sorted {α κ : Type} [LinearOrder κ] (p : Utc → Option Utc → Bool)
    (validity : α → Validity) (key : α → κ) (l : List α) :
    countValidity p validity (sortedBy key l) = countValidity p validity l :=
  (sortedBy_perm _ _).countP_eq _

/-- The graph that the loops return. -/
theorem loops_graph {r : Reading} {subnets : List SubnetEvidence} {vlans : List VlanEvidence}
    {w w' : Work} {cs cs' cs'' : List Claims}
    (hcs : (r.activeSubnets subnets).mapM (subnetClaims rt) = .ok cs)
    (hcs' : (r.activeVlans vlans).mapM (vlanClaims rt) = .ok cs')
    (hcs'' : (activeSeen r.asOf (sortedBy Seen.key r.seen)).mapM
      (observationClaims rt (r.context subnets vlans)) = .ok cs'')
    (hbuilder : w.builder = ((start rt r.asOf r.localNode subnets vlans).apply rt
      (Claims.concat cs)).apply rt (Claims.concat cs'))
    (hclaims : w.vlanClaims = [])
    (hbuilder' : w'.builder = (w.builder.apply rt (Claims.concat cs'')).tally
      (countSeen (fun t _ => isFuture r.asOf t) (sortedBy Seen.key r.seen))
      (countSeen (isExpired r.asOf) (sortedBy Seen.key r.seen)))
    (hclaims' : w'.vlanClaims =
      (Claims.concat cs'').vlans.foldl (fun d p => push d p.1 p.2) w.vlanClaims) :
    r.graph rt subnets vlans =
      ((vlanConflicts w'.vlanClaims).foldl Builder.conflict w'.builder).result r.asOf := by
  have hvlans : (Claims.append { nodes := [r.localNode] } ((Claims.concat cs).append
      ((Claims.concat cs').append (Claims.concat cs'')))).vlans = (Claims.concat cs'').vlans := by
    simp only [Claims.append, concat_vlans_nil (fun _ _ h => subnetClaims_vlans h) hcs,
      concat_vlans_nil (fun _ _ h => vlanClaims_vlans h) hcs', nil_append]
  rw [graph_eq r subnets vlans (concat_items hcs hcs' hcs''), hvlans, hbuilder', hclaims',
    hbuilder, hclaims]
  simp only [start, countSeen_sorted, countValidity_sorted, apply_tally, tally_tally,
    Builder.apply_append]
  rfl

/-- The times can be read when they can be read in order. -/
theorem mapM_look_of_sorted {observations : List PassiveObservation}
    {timed : List (Utc × PassiveObservation)} {sorted : List Seen}
    (htimed : observations.mapM stamped = .ok timed)
    (hsorted : (sortedBy observationKey timed).mapM lookAt = .ok sorted) :
    ∃ seen, observations.mapM look = .ok seen ∧ sorted = sortedBy Seen.key seen := by
  obtain ⟨seen, hseen⟩ : ∃ seen, timed.mapM lookAt = .ok seen := by
    rw [Except.exists_mapM_eq_ok]
    intro o ho
    obtain ⟨s, -, hs⟩ := (Except.mapM_eq_ok.mp hsorted).exists_of_mem_left (mem_sortedBy.mpr ho)
    exact ⟨s, hs⟩
  have hsorted' : (sortedBy observationKey timed).mapM lookAt = .ok (sortedBy Seen.key seen) :=
    Except.mapM_eq_ok.mpr
      (sortedBy_forall₂ (fun _ _ h => lookAt_key h) (Except.mapM_eq_ok.mp hseen))
  refine ⟨seen, mapM_look.mpr ⟨timed, htimed, hsorted', hseen⟩, ?_⟩
  rw [hsorted] at hsorted'
  exact Except.ok.inj hsorted'

/-- The loops return exactly when the times can be read and every active observation has claims. -/
theorem loops_eq_ok {observations : List PassiveObservation} {asOf : Utc}
    {localNode : TopologyNode} {subnets : List SubnetEvidence} {vlans : List VlanEvidence}
    {g : TopologyGraph} : loops rt observations asOf localNode subnets vlans = .ok g ↔
      ∃ seen, observations.mapM look = .ok seen ∧
        (∀ o ∈ activeSeen asOf seen,
          ∃ c, observationClaims rt (Reading.context ⟨asOf, localNode, seen⟩ subnets vlans) o =
            .ok c) ∧
        g = Reading.graph rt ⟨asOf, localNode, seen⟩ subnets vlans := by
  obtain ⟨w₁, w, cs, cs', hw₁, hw, hcs, hcs', hready, hbuilder, hclaims⟩ :=
    @evidence_run rt ⟨asOf, localNode, []⟩ subnets vlans
      (start rt asOf localNode subnets vlans)
  have hactive : ∀ seen, activeSeen asOf (sortedBy Seen.key seen) =
      sortedBy Seen.key (activeSeen asOf seen) := fun seen => filter_sortedBy ..
  simp only [loops, hw₁, hw, Except.ok_bind]
  constructor
  · intro h
    obtain ⟨timed, htimed, h⟩ := Except.bind_eq_ok.mp h
    obtain ⟨w', hw', h⟩ := Except.bind_eq_ok.mp h
    cases h
    obtain ⟨sorted, cs'', hsorted, hcs'', hbuilder', hclaims'⟩ := observations_run _ hready hw'
    obtain ⟨seen, hseen, rfl⟩ := mapM_look_of_sorted htimed hsorted
    refine ⟨seen, hseen, ?_, ?_⟩
    · intro o ho
      have ho' : o ∈ activeSeen asOf (sortedBy Seen.key seen) := by
        rw [hactive]
        exact mem_sortedBy.mpr ho
      obtain ⟨c, -, hc⟩ := (Except.mapM_eq_ok.mp hcs'').exists_of_mem_left ho'
      exact ⟨c, hc⟩
    · rw [loops_graph (r := ⟨asOf, localNode, seen⟩) hcs hcs' hcs'' hbuilder hclaims hbuilder'
        hclaims']
  · rintro ⟨seen, hseen, hall, rfl⟩
    obtain ⟨timed, htimed, hsorted, -⟩ := mapM_look.mp hseen
    obtain ⟨w', hw'⟩ := observations_return _ hready hsorted (by
      intro o ho
      rw [hactive, mem_sortedBy] at ho
      exact hall o ho)
    obtain ⟨sorted, cs'', hsorted', hcs'', hbuilder', hclaims'⟩ := observations_run _ hready hw'
    cases hsorted.symm.trans hsorted'
    rw [htimed, Except.ok_bind]
    erw [hw', Except.ok_bind]
    rw [loops_graph (r := ⟨asOf, localNode, seen⟩) hcs hcs' hcs'' hbuilder hclaims hbuilder'
      hclaims']

/-- `build_topology` returns exactly when everything can be read and every active observation has
claims, and it returns the graph that merges the claims. -/
theorem buildTopology_eq_ok {observations : List PassiveObservation} {localIdentity : Str}
    {asOf : Option Stamp} {localLabel : Option Str} {subnets : List SubnetEvidence}
    {vlans : List VlanEvidence} {g : TopologyGraph} :
    buildTopology rt observations localIdentity asOf localLabel subnets vlans = .ok g ↔
      ∃ r, read rt observations localIdentity asOf localLabel = .ok r ∧
        (∀ o ∈ activeSeen r.asOf r.seen,
          ∃ c, observationClaims rt (r.context subnets vlans) o = .ok c) ∧
        g = r.graph rt subnets vlans := by
  cases asOf with
  | none => simp [buildTopology, read, topologyError]
  | some asOf =>
    unfold buildTopology read
    simp only
    cases hsnapshot : utc asOf with
    | error e => simp
    | ok snapshot =>
      simp only [Except.ok_bind]
      cases hidentity : text localIdentity "local identity" with
      | error e => simp
      | ok identity =>
        simp only [Except.ok_bind, deviceNode_eq]
        cases hlocal : proposeDevice rt (str "local") identity.val localLabel with
        | error e => simp
        | ok localNode =>
          simp only [Except.ok_bind, filterActive_eq]
          refine (@loops_eq_ok rt observations snapshot localNode subnets vlans g).trans ?_
          constructor
          · rintro ⟨seen, hseen, hall, rfl⟩
            exact ⟨_, by rw [hseen]; rfl, hall, rfl⟩
          · rintro ⟨r, hr, hall, rfl⟩
            obtain ⟨seen, hseen, hr⟩ := Except.bind_eq_ok.mp hr
            cases hr
            exact ⟨seen, hseen, hall, rfl⟩

end

end FieldDiscovery.Topology
