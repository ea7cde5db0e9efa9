import FieldDiscovery.Topology.Claims

/-!
# The builder merges the claims

`Ready` is what the tables beside the builder hold when the observations are read: every active
subnet has its node, and a VLAN has one exactly when evidence or an earlier observation proposed it.
Under it a branch of `build_topology` and the claims of its observation raise alike, and where they
return the branch has merged the claims (`dispatch_rel`).
-/

namespace FieldDiscovery.Topology

open Py Correlation Passive List

section

variable (rt : Runtime)

/-! ## Nodes that are always proposed -/

theorem text_of_isText {maximum : Nat} {s : Str} (h : IsText maximum s) (field : String) :
    text s field maximum = .ok ⟨s, h⟩ := by
  obtain ⟨hstrip, hne, hlen, hnul⟩ := h
  unfold text
  simp only [hstrip]
  rw [dif_pos ⟨hne, hlen, hnul⟩]

theorem text_isText {maximum : Nat} {s : Str} {field : String} {t : BoundedText maximum}
    (h : text s field maximum = .ok t) : t.val = strip s := by
  unfold text at h
  split at h
  · cases h
    rfl
  · cases h

/-- Printable ASCII without the space. -/
def Plain (s : Str) : Prop :=
  s ≠ [] ∧ (s.all fun c => decide (33 ≤ c.val ∧ c.val ≤ 126)) = true

theorem Plain.bounds {s : Str} (h : Plain s) {c : CodePoint} (hc : c ∈ s) :
    33 ≤ c.val ∧ c.val ≤ 126 := of_decide_eq_true (List.all_eq_true.mp h.2 c hc)

theorem Plain.isText {s : Str} (h : Plain s) {maximum : Nat} (hlen : s.length ≤ maximum) :
    IsText maximum s := by
  have hspace : ∀ c ∈ s, isSpace c = false := by
    intro c hc
    have := h.bounds hc
    simp only [isSpace]
    simp
    omega
  refine ⟨stripBy_eq_self ?_ ?_, h.1, hlen, ?_⟩
  · exact fun c hc => hspace c (List.mem_of_mem_head? hc)
  · exact fun c hc => hspace c (List.mem_of_mem_getLast? hc)
  · intro hnul
    have := (h.bounds hnul).1
    simp [cp] at this

theorem Plain.casefold {s : Str} (h : Plain s) : ∀ c ∈ rt.casefold s, c.val < 128 := by
  intro c hc
  obtain ⟨d, hd, hc⟩ := mem_flatMap.mp hc
  have hbound := (h.bounds hd).2
  have hascii : isAscii d = true := by
    simp only [isAscii, decide_eq_true_eq]
    omega
  rw [hascii, if_pos rfl, mem_singleton] at hc
  subst hc
  unfold lowerAscii
  split
  · next hup =>
    simp only [isUpper, Bool.and_eq_true, decide_eq_true_eq] at hup
    simp only [Fin.val_ofNat]
    omega
  · omega

theorem nodeId_plain {kind identity : Str} (hkind : Plain kind) (hidentity : Plain identity)
    (hk : kind.length ≤ 64) (hi : identity.length ≤ 512) :
    ∃ id, nodeId rt kind identity = .ok id := by
  unfold nodeId
  rw [text_of_isText (hkind.isText hk), Except.ok_bind, text_of_isText (hidentity.isText hi),
    Except.ok_bind]
  have hascii : Encodable (rt.casefold kind ++ str ":" ++ rt.casefold identity) := by
    intro c hc
    have hc128 : c.val < 128 := by
      simp only [mem_append] at hc
      rcases hc with (hc | hc) | hc
      · exact hkind.casefold rt c hc
      · rw [show str ":" = [cp ':'] from rfl, mem_singleton] at hc
        subst hc
        decide
      · exact hidentity.casefold rt c hc
    simp only [isSurrogate, Bool.and_eq_false_iff, decide_eq_false_iff_not]
    omega
  cases hdata : encodeUtf8 (rt.casefold kind ++ str ":" ++ rt.casefold identity) with
  | some data =>
    simp only [hdata]
    exact ⟨_, rfl⟩
  | none => exact absurd hascii (encodeUtf8_eq_none.mp hdata)

theorem plain_natStr (n : Nat) : Plain (natStr n) := by
  constructor
  · unfold natStr
    split
    · simp
    · next hn => simpa [Nat.digits_ne_nil_iff_ne_zero] using hn
  · rw [List.all_eq_true]
    intro c hc
    have := List.all_eq_true.mp (natStr_digits n) c hc
    simp only [isDigit, Bool.and_eq_true, decide_eq_true_eq] at this ⊢
    omega

theorem plain_cidr (n : Ipv4Network) : Plain n.cidr ∧ n.cidr.length ≤ 18 := by
  have hoctet : ∀ m, (natStr (m % 256)).length ≤ 3 := by
    intro m
    apply natStr_length_le (by norm_num)
    have := Nat.mod_lt m (show 0 < 256 by norm_num)
    omega
  have hlen : (natStr n.prefixlen).length ≤ 2 := by
    apply natStr_length_le (by norm_num)
    have := n.prefixlen_le
    omega
  have hjoin : n.cidr = natStr (n.address / 2 ^ 24 % 256) ++ str "." ++
      natStr (n.address / 2 ^ 16 % 256) ++ str "." ++ natStr (n.address / 2 ^ 8 % 256) ++
      str "." ++ natStr (n.address / 2 ^ 0 % 256) ++ str "/" ++ natStr n.prefixlen := by
    simp [Ipv4Network.cidr, join, List.intercalate]
  have hdot : Plain (str ".") ∧ Plain (str "/") := by
    unfold Plain
    decide +kernel
  rw [hjoin]
  refine ⟨⟨?_, ?_⟩, ?_⟩
  · simp [(plain_natStr _).1]
  · simp only [all_append, (plain_natStr _).2, hdot.1.2, hdot.2.2, Bool.and_self]
  · simp only [length_append]
    have h1 := hoctet (n.address / 2 ^ 24)
    have h2 := hoctet (n.address / 2 ^ 16)
    have h3 := hoctet (n.address / 2 ^ 8)
    have h4 := hoctet (n.address / 2 ^ 0)
    have hs1 : (str ".").length = 1 := rfl
    have hs2 : (str "/").length = 1 := rfl
    omega

/-- The node of a subnet is always proposed. -/
theorem proposeNode_subnet (n : Ipv4Network) :
    ∃ node, proposeNode rt (str "subnet") n.cidr = .ok node := by
  obtain ⟨hplain, hlen⟩ := plain_cidr n
  have hkind : Plain (str "subnet") := by
    unfold Plain
    decide +kernel
  obtain ⟨id, hid⟩ := nodeId_plain rt hkind hplain (by decide) (by omega)
  unfold proposeNode
  rw [hid, Except.ok_bind, Builder.labelOr, text_of_isText (hplain.isText (by omega))]
  exact ⟨_, rfl⟩

theorem nodeId_vlan (v : Fin 4095) :
    ∃ id, nodeId rt (str "vlan") (natStr v) = .ok id := by
  have hlen : (natStr v).length ≤ 4 := natStr_length_le (by norm_num) (by omega)
  exact nodeId_plain rt (by unfold Plain; decide +kernel) (plain_natStr v) (by decide) (by omega)

/-- A label that starts with `VLAN` and ends with a name or a number is kept as it is. -/
theorem isText_vlanLabel (v : VlanEvidence) : IsText 512 (vlanLabel v) := by
  have hlen : (natStr v.vlanId).length ≤ 4 := natStr_length_le (by norm_num) (by omega)
  have hdigits := (plain_natStr v.vlanId)
  have hhead : ∀ c ∈ (vlanLabel v).head?, isSpace c = false := by
    intro c hc
    have : c = cp 'V' := by
      simpa [vlanLabel, str] using hc.symm
    subst this
    decide
  unfold vlanLabel at *
  cases hname : v.name with
  | none =>
    rw [hname] at hhead
    simp only [append_nil] at hhead ⊢
    refine ⟨stripBy_eq_self hhead ?_, by simp [str], ?_, ?_⟩
    · intro c hc
      rw [getLast?_append_of_ne_nil _ hdigits.1] at hc
      have := hdigits.bounds (List.mem_of_mem_getLast? hc)
      simp only [isSpace]
      simp
      omega
    · have : (str "VLAN ").length = 5 := rfl
      rw [length_append]
      omega
    · intro hnul
      rcases mem_append.mp hnul with hnul | hnul
      · exact absurd hnul (by decide)
      · have := (hdigits.bounds hnul).1
        simp [cp] at this
  | some name =>
    obtain ⟨t, hstrip, hne, hbound, hfree⟩ := name
    rw [hname] at hhead
    simp only at hhead ⊢
    refine ⟨stripBy_eq_self hhead ?_, by simp [str], ?_, ?_⟩
    · intro c hc
      have hne' : str " — " ++ t ≠ [] := by simp [str]
      rw [getLast?_append_of_ne_nil _ hne', getLast?_append_of_ne_nil _ hne] at hc
      rw [← hstrip] at hc
      exact rdropWhile_getLast isSpace _ c hc
    · have h5 : (str "VLAN ").length = 5 := rfl
      have h3 : (str " — ").length = 3 := rfl
      simp only [length_append]
      omega
    · intro hnul
      simp only [mem_append] at hnul
      rcases hnul with (hnul | hnul) | hnul | hnul
      · exact absurd hnul (by decide)
      · have := (hdigits.bounds hnul).1
        simp [cp] at this
      · exact absurd hnul (by decide)
      · exact hfree hnul

theorem proposeNode_vlanEvidence (v : VlanEvidence) :
    ∃ node, proposeNode rt (str "vlan") (natStr v.vlanId) (some (vlanLabel v)) = .ok node := by
  obtain ⟨id, hid⟩ := nodeId_vlan rt v.vlanId
  have hne : vlanLabel v ≠ [] := (isText_vlanLabel v).2.1
  unfold proposeNode
  rw [hid, Except.ok_bind, Builder.labelOr]
  simp only [hne, if_false]
  rw [text_of_isText (isText_vlanLabel v)]
  exact ⟨_, rfl⟩

/-- The node of a VLAN that an observation names is always proposed. -/
theorem proposeNode_vlan (v : Fin 4095) : ∃ node,
    proposeNode rt (str "vlan") (natStr v) (some (str "VLAN " ++ natStr v)) = .ok node := by
  have source : IsText 128 (str "s") := by decide
  obtain ⟨node, h⟩ := proposeNode_vlanEvidence rt
    ⟨v, ⟨str "s", source⟩, ⟨Utc.max, none, by simp⟩, none, none, defaultConfidence⟩
  exact ⟨node, by simpa [vlanLabel] using h⟩

/-! ## One step of a branch -/

/-- The claims of an item, merged into the builder and the table of VLAN claims. -/
def Work.merge (w : Work) (c : Claims) : Work :=
  { w with
    builder := w.builder.apply rt c
    vlanClaims := c.vlans.foldl (fun d p => push d p.1 p.2) w.vlanClaims }

theorem merge_append (w : Work) (c d : Claims) :
    w.merge rt (c.append d) = (w.merge rt c).merge rt d := by
  unfold Work.merge
  rw [Builder.apply_append]
  simp [Claims.append, foldl_append]

@[simp] theorem merge_empty (w : Work) : w.merge rt {} = w := by
  simp [Work.merge]

theorem node_eq (w : Work) (kind identity : Str) (label : Option Str) :
    w.node rt kind identity label =
      proposeNode rt kind identity label >>= fun n => .ok (w.merge rt { nodes := [n] }, n.nodeId) := by
  unfold Work.node Builder.node proposeNode
  cases hid : nodeId rt kind identity with
  | error e => rfl
  | ok id =>
    simp only [Except.ok_bind]
    cases hlabel : text (Builder.labelOr label identity) "node label" with
    | error e => rfl
    | ok label => simp [Work.merge, Builder.apply, keyedNodes, keyedEdges, keepAll]

theorem deviceNode_eq (w : Work) (identityKind identity : Str) (label : Option Str) :
    deviceNode rt w identityKind identity label = proposeDevice rt identityKind identity label >>=
      fun n => .ok (w.merge rt { nodes := [n] }, n.nodeId) := node_eq rt w _ _ _

theorem edge_eq (w : Work) (o : Seen) (sourceNode targetNode : Str) (kind : String)
    (confidence : ℚ) (inferred : Bool) : w.edge o sourceNode targetNode kind confidence inferred =
      edgeOf o sourceNode targetNode kind confidence inferred >>=
        fun e => .ok (w.merge rt { edges := [e] }) := by
  unfold Work.edge edgeOf
  apply bind_congr
  intro e
  simp [Work.merge, Builder.apply, Builder.edge, keyedNodes, keyedEdges, keepAll]

/-! ## The tables beside the builder -/

/-- What the tables hold when the observations are read. -/
structure Ready (ctx : Context) (w : Work) : Prop where
  /-- Every active subnet has its node. -/
  subnetNodes : ∀ s ∈ ctx.subnets, ∀ node,
    proposeNode rt (str "subnet") s.network.cidr = .ok node →
      w.subnetNodes.get s.network.cidr = some node.nodeId
  /-- A VLAN in the table has its own node, which evidence or an observation has proposed. -/
  vlanNodes : ∀ v id, w.vlanNodes.get v = some id → ∀ node,
    proposeNode rt (str "vlan") (natStr v.val) (some (str "VLAN " ++ natStr v.val)) = .ok node →
      node.nodeId = id ∧ (v ∈ ctx.vlans ∨ ∃ b, w.builder.nodes.get id = some b ∧
        node.rank rt ≤ b.rank rt)
  /-- Every VLAN with evidence is in the table. -/
  vlans : ∀ v ∈ ctx.vlans, ∃ id, w.vlanNodes.get v = some id

variable {ctx : Context} {w : Work} {rt}

theorem Ready.merge (h : Ready rt ctx w) (c : Claims) : Ready rt ctx (w.merge rt c) := by
  refine ⟨h.subnetNodes, ?_, h.vlans⟩
  intro v id hid node hnode
  obtain ⟨hnid, hproposed⟩ := h.vlanNodes v id hid node hnode
  refine ⟨hnid, hproposed.imp_right ?_⟩
  rintro ⟨b, hb, hle⟩
  obtain ⟨b', hb', hle'⟩ :=
    get_keepAll_ge (TopologyNode.rank rt) hb (keyedNodes c.nodes)
  exact ⟨b', hb', hle.trans hle'⟩

/-! ## The branches -/

theorem membership_eq (h : Ready rt ctx w) (o : Seen) (device address : Str) (confidence : ℚ) :
    membership w o device address confidence ctx.subnets =
      membershipEdges rt ctx o device address confidence >>=
        fun es => .ok (w.merge rt { edges := es }) := by
  unfold membership membershipEdges
  cases hsubnet : subnetFor address ctx.subnets with
  | none => simp
  | some subnet =>
    have hmem : subnet ∈ ctx.subnets := by
      unfold subnetFor at hsubnet
      split at hsubnet
      · cases hsubnet
      · exact List.mem_of_mem_filter (firstBest_mem hsubnet)
    obtain ⟨node, hnode⟩ := proposeNode_subnet rt subnet.network
    simp only [h.subnetNodes subnet hmem node hnode, hnode, Except.ok_bind, edge_eq rt, bind_assoc]

theorem mdns_eq (h : Ready rt ctx w) (o : Seen) :
    mdns rt w o ctx.subnets = mdnsClaims rt ctx o >>= fun c => .ok (w.merge rt c) := by
  unfold mdns mdnsClaims
  simp only
  generalize o.observation.fields = fields
  by_cases hactive : activeMdns fields = false
  · simp [hactive]
  rw [if_neg hactive, if_neg hactive]
  by_cases hservice : o.observation.kind = str "mdns_service"
  · rw [if_pos hservice, if_pos hservice]
    cases stringField fields "service_type" with
    | none => simp
    | some serviceType =>
      cases stringField fields "instance" with
      | none => simp
      | some inst =>
        simp only [node_eq, edge_eq rt, bind_assoc, Except.ok_bind, ← merge_append, Claims.append,
          List.nil_append, List.append_nil, List.cons_append]
  rw [if_neg hservice, if_neg hservice]
  by_cases hinstance : o.observation.kind = str "mdns_instance"
  · rw [if_pos hinstance, if_pos hinstance]
    cases stringField fields "instance" with
    | none => simp
    | some inst =>
      cases stringField fields "hostname" with
      | none => simp
      | some hostname =>
        simp only [node_eq, deviceNode_eq, edge_eq rt, bind_assoc, Except.ok_bind,
          ← merge_append, Claims.append, List.nil_append, List.append_nil, List.cons_append]
  rw [if_neg hinstance, if_neg hinstance]
  cases stringField fields "hostname" with
  | none => simp
  | some hostname =>
    cases stringField fields "address" with
    | none => simp
    | some address =>
      simp only [deviceNode_eq, bind_assoc, Except.ok_bind, membership_eq (h.merge _),
        ← merge_append, Claims.append, List.nil_append, List.append_nil]

theorem neighbor_eq (h : Ready rt ctx w) (o : Seen) :
    neighbor rt w o ctx.subnets = neighborClaims rt ctx o >>= fun c => .ok (w.merge rt c) := by
  unfold neighbor neighborClaims
  simp only
  generalize o.observation.fields = fields
  cases stringField fields "address" with
  | none => simp
  | some address =>
    cases stringField fields "mac_address" with
    | none => simp
    | some mac =>
      simp only [deviceNode_eq, bind_assoc, Except.ok_bind, membership_eq (h.merge _),
        ← merge_append, Claims.append, List.nil_append, List.append_nil]

theorem dhcp_eq (h : Ready rt ctx w) (o : Seen) :
    dhcp rt w o ctx.subnets = dhcpClaims rt ctx o >>= fun c => .ok (w.merge rt c) := by
  unfold dhcp dhcpClaims
  simp only
  generalize o.observation.fields = fields
  by_cases hack : isAck fields = false
  · simp [hack]
  rw [if_neg hack, if_neg hack]
  cases stringField fields "assigned_address" with
  | none => simp
  | some address =>
    cases dhcpIdentity fields with
    | none => simp
    | some identity =>
      cases stringField fields "server_identifier" with
      | none =>
        simp only [deviceNode_eq, bind_assoc, Except.ok_bind, membership_eq (h.merge _),
          ← merge_append, Claims.append, List.nil_append, List.append_nil]
      | some server =>
        simp only [deviceNode_eq, edge_eq rt, bind_assoc, Except.ok_bind,
          membership_eq (h.merge _), ← merge_append, Claims.append, List.nil_append,
          List.append_nil, List.cons_append]

/-- A branch that ran on `w` has merged `c`, and the tables are ready for the next one. -/
structure Merged (rt : Runtime) (ctx : Context) (w w' : Work) (c : Claims) : Prop where
  ready : Ready rt ctx w'
  builder : w'.builder = w.builder.apply rt c
  vlanClaims : w'.vlanClaims = c.vlans.foldl (fun d p => push d p.1 p.2) w.vlanClaims

theorem Ready.merged (h : Ready rt ctx w) (c : Claims) : Merged rt ctx w (w.merge rt c) c :=
  ⟨h.merge c, rfl, rfl⟩

theorem merged_of_eq (h : Ready rt ctx w) {x : Except Exc Work} {y : Except Exc Claims}
    (heq : x = y >>= fun c => .ok (w.merge rt c)) : Except.Rel (Merged rt ctx w) x y := by
  subst heq
  cases y with
  | error e => exact .error e
  | ok c => exact .ok (h.merged c)

/-- The table after the node of a VLAN was looked up or proposed. -/
theorem Ready.setVlan (h : Ready rt ctx w) {vlan : Fin 4095} {vlanNode : TopologyNode}
    (hvlan : proposeNode rt (str "vlan") (natStr vlan.val) (some (str "VLAN " ++ natStr vlan.val)) =
      .ok vlanNode)
    (hproposed : vlan ∈ ctx.vlans ∨ ∃ b, w.builder.nodes.get vlanNode.nodeId = some b ∧
      vlanNode.rank rt ≤ b.rank rt) :
    Ready rt ctx { w with vlanNodes := w.vlanNodes.set vlan vlanNode.nodeId } := by
  refine ⟨h.subnetNodes, ?_, ?_⟩
  · intro v id hid node hnode
    simp only [Dict.get_set] at hid
    split at hid
    · next hv =>
      cases hid
      rw [← hv, hvlan] at hnode
      cases hnode
      exact ⟨rfl, hv ▸ hproposed⟩
    · exact h.vlanNodes v id hid node hnode
  · intro v hv
    simp only [Dict.get_set]
    split
    · exact ⟨_, rfl⟩
    · exact h.vlans v hv

/-- Proposing a node again changes nothing. -/
theorem apply_dominated (b : Builder) {n : TopologyNode} {m : TopologyNode}
    (hm : b.nodes.get n.nodeId = some m) (hle : n.rank rt ≤ m.rank rt) :
    b.apply rt { nodes := [n] } = b := by
  simp [Builder.apply, keyedNodes, keyedEdges, keepAll, keep_of_le hm hle]

theorem observedVlan_rel (h : Ready rt ctx w) (o : Seen) (c : Claims) (remote : TopologyNode)
    (vlan : Fin 4095) : Except.Rel (Merged rt ctx w)
      (observedVlan rt (w.merge rt c) o remote.nodeId vlan)
      (do
        let vlanNode ← proposeNode rt (str "vlan") (natStr vlan) (some (str "VLAN " ++ natStr vlan))
        let e' ← edgeOf o remote.nodeId vlanNode.nodeId "observed_vlan" serviceConfidence
        .ok { nodes := c.nodes ++ if vlan ∈ ctx.vlans then [] else [vlanNode]
              edges := c.edges ++ [e']
              conflicts := c.conflicts
              vlans := c.vlans ++ [(remote.nodeId, (vlan, o.source))] }) := by
  obtain ⟨node, hnode⟩ := proposeNode_vlan rt vlan
  have hready := h.merge c
  -- the node is either in the table already or proposed now
  have hstep : ∃ w', vlanNode rt (w.merge rt c) vlan = .ok (w', node.nodeId) ∧
      Ready rt ctx { w' with vlanNodes := w'.vlanNodes.set vlan node.nodeId } ∧
      w'.builder = (w.merge rt c).builder.apply rt
        { nodes := if vlan ∈ ctx.vlans then [] else [node] } ∧
      w'.vlanClaims = (w.merge rt c).vlanClaims := by
    unfold vlanNode
    cases hid : (w.merge rt c).vlanNodes.get vlan with
    | some id =>
      obtain ⟨rfl, hproposed⟩ := hready.vlanNodes vlan id hid node hnode
      refine ⟨_, rfl, hready.setVlan hnode hproposed, ?_, rfl⟩
      by_cases hvlan : vlan ∈ ctx.vlans
      · simp [hvlan]
      · obtain ⟨b, hb, hle⟩ := hproposed.resolve_left hvlan
        rw [if_neg hvlan, apply_dominated _ hb hle]
    | none =>
      have hvlan : vlan ∉ ctx.vlans := by
        intro hvlan
        obtain ⟨id, hsome⟩ := hready.vlans vlan hvlan
        rw [hid] at hsome
        cases hsome
      simp only [node_eq, hnode, Except.ok_bind]
      refine ⟨_, rfl, (hready.merge { nodes := [node] }).setVlan hnode ?_, ?_, rfl⟩
      · right
        obtain ⟨b, hb, hle⟩ : ∃ b, (keep (TopologyNode.rank rt) (w.merge rt c).builder.nodes
            node.nodeId node).get node.nodeId = some b ∧ node.rank rt ≤ b.rank rt := by
          rw [get_keep, if_pos rfl]
          cases (w.merge rt c).builder.nodes.get node.nodeId with
          | none => exact ⟨node, rfl, le_rfl⟩
          | some m =>
            unfold better
            simp only
            split
            · exact ⟨node, rfl, le_rfl⟩
            · next hlt => exact ⟨m, rfl, not_lt.mp hlt⟩
        exact ⟨b, hb, hle⟩
      · rw [if_neg hvlan]
        rfl
  obtain ⟨w', hw', hset, hbuilder, hclaims⟩ := hstep
  unfold observedVlan
  simp only [hw', hnode, Except.ok_bind, edge_eq rt, bind_assoc]
  cases edgeOf o remote.nodeId node.nodeId "observed_vlan" serviceConfidence with
  | error e => exact .error e
  | ok e' =>
    refine .ok ⟨?_, ?_, ?_⟩
    · have := hset.merge { edges := [e'] }
      exact ⟨this.subnetNodes, this.vlanNodes, this.vlans⟩
    · show (w'.builder.apply rt { edges := [e'] }) = _
      rw [hbuilder]
      show ((w.builder.apply rt c).apply rt _).apply rt _ = _
      rw [← Builder.apply_append, ← Builder.apply_append]
      simp [Claims.append, Builder.apply]
    · show push w'.vlanClaims remote.nodeId (vlan, o.source) = _
      rw [hclaims]
      simp [Work.merge, foldl_append]

theorem linkLayer_rel (h : Ready rt ctx w) (o : Seen) :
    Except.Rel (Merged rt ctx w) (linkLayer rt w ctx.localNode o) (linkLayerClaims rt ctx o) := by
  unfold linkLayer linkLayerClaims
  simp only
  generalize o.observation.fields = fields
  have hincomplete : Merged rt ctx w
      { w with builder := w.builder.conflict (incompleteConflict o) }
      { conflicts := [incompleteConflict o] } := by
    convert h.merged { conflicts := [incompleteConflict o] } using 1
    simp [Work.merge, Builder.apply, Builder.conflict, keyedNodes, keyedEdges, keepAll]
  cases stringField fields "chassis_id" with
  | none => exact .ok hincomplete
  | some chassis =>
    cases stringField fields "port_id" with
    | none => exact .ok hincomplete
    | some port =>
      simp only [deviceNode_eq, edge_eq rt, bind_assoc, Except.ok_bind]
      cases proposeDevice rt ((stringField fields "chassis_id_subtype").getD (str "chassis"))
          chassis (some ((stringField fields "system_name").getD chassis)) with
      | error e => exact .error e
      | ok remote =>
        simp only [Except.ok_bind]
        cases edgeOf o ctx.localNode remote.nodeId "link_layer_neighbor" linkConfidence with
        | error e => exact .error e
        | ok e =>
          simp only [Except.ok_bind, ← merge_append, Claims.append, List.nil_append,
            List.append_nil]
          cases vlanField fields with
          | none => exact .ok (h.merged _)
          | some vlan => exact observedVlan_rel h o _ remote vlan

theorem dispatch_rel (h : Ready rt ctx w) (o : Seen) :
    Except.Rel (Merged rt ctx w) (dispatch rt w ctx.localNode o ctx.subnets)
      (observationClaims rt ctx o) := by
  unfold dispatch observationClaims
  simp only
  split
  · exact linkLayer_rel h o
  split
  · exact merged_of_eq h (mdns_eq h o)
  split
  · exact merged_of_eq h (dhcp_eq h o)
  split
  · exact merged_of_eq h (neighbor_eq h o)
  split
  · apply Except.Rel.ok
    convert h.merged { conflicts := [reuseConflict o] } using 1
    simp [Work.merge, Builder.apply, Builder.conflict, keyedNodes, keyedEdges, keepAll]
  · apply Except.Rel.ok
    convert h.merged {} using 1
    simp

end

end FieldDiscovery.Topology
