import FieldDiscovery.Passive.Dhcp
import FieldDiscovery.Topology.Ties

/-!
# When a topology can be built

`build_topology` raises as soon as one active observation has a text that no node or edge can carry.
`Presentable` is what it needs of each observation, and it returns exactly when all of them are
(`buildTopology_returns_iff`). What the pipeline stores need not be: a DHCP server may send a host
name with a NUL in it.
-/

namespace FieldDiscovery.Topology

open Py Correlation Passive

/-! ## Texts -/

/-- `_text` accepts the value. -/
def Fits (maximum : Nat) (s : Str) : Prop := IsText maximum (strip s)

instance (maximum : Nat) (s : Str) : Decidable (Fits maximum s) :=
  inferInstanceAs (Decidable (IsText maximum (strip s)))

theorem text_returns {maximum : Nat} {s : Str} {field : String} :
    (∃ t, text s field maximum = .ok t) ↔ Fits maximum s := by
  unfold text Fits IsText
  constructor
  · rintro ⟨t, h⟩
    split at h
    · next hfits => exact ⟨stripBy_idem _ _, hfits⟩
    · cases h
  · rintro ⟨-, hfits⟩
    rw [dif_pos hfits]
    exact ⟨_, rfl⟩

/-! ## Nodes -/

/-- A node under the identity can carry the label. -/
structure Drawable (rt : Runtime) (identity label : Str) : Prop where
  named : Fits 512 identity
  encodable : Encodable (rt.casefold (strip identity))
  labelled : Fits 512 label

/-- The identity under which `_device_node` draws a device. -/
def deviceIdentity (rt : Runtime) (identityKind identity : Str) : Str :=
  identityKind ++ str ":" ++ rt.casefold identity

section

variable {rt : Runtime}

theorem encodable_append {s t : Str} : Encodable (s ++ t) ↔ Encodable s ∧ Encodable t :=
  List.forall_mem_append

theorem encodable_of_ascii {s : Str} (h : ∀ c ∈ s, c.val < 128) : Encodable s := by
  intro c hc
  have := h c hc
  simp only [isSurrogate, Bool.and_eq_false_iff, decide_eq_false_iff_not]
  omega

theorem nodeId_eq_ok {kind identity id : Str} (hkind : Plain kind) (hlen : kind.length ≤ 64) :
    nodeId rt kind identity = .ok id ↔
      Fits 512 identity ∧ Encodable (rt.casefold (strip identity)) ∧
        id = str "n_" ++ rt.casefold kind ++ str "_" ++ (rt.sha256 ((rt.casefold kind ++ str ":" ++
          rt.casefold (strip identity)).flatMap utf8Char)).take 16 := by
  unfold nodeId
  rw [text_of_isText (hkind.isText hlen), Except.ok_bind]
  simp only
  have hfront : Encodable (rt.casefold kind ++ str ":") :=
    encodable_append.mpr ⟨encodable_of_ascii (hkind.casefold rt), by decide⟩
  cases hidentity : text identity "node identity" with
  | error e =>
    have hno : ¬ Fits 512 identity := by
      intro hfits
      obtain ⟨t, ht⟩ := text_returns.mpr hfits
      rw [hidentity] at ht
      cases ht
    simp [hno]
  | ok t =>
    have hfits : Fits 512 identity := text_returns.mp ⟨t, hidentity⟩
    rw [Except.ok_bind, text_isText hidentity]
    cases hdata : encodeUtf8 (rt.casefold kind ++ str ":" ++ rt.casefold (strip identity)) with
    | none =>
      have hno : ¬ Encodable (rt.casefold (strip identity)) := fun h =>
        encodeUtf8_eq_none.mp hdata (encodable_append.mpr ⟨hfront, h⟩)
      simp [hno]
    | some data =>
      obtain ⟨hencodable, rfl⟩ := encodeUtf8_eq_some.mp hdata
      have hid := (encodable_append.mp hencodable).2
      simp only [Except.ok.injEq, hfits, hid, true_and, eq_comm]

/-- Nodes of different kinds are different. -/
theorem nodeId_ne {kind kind' identity identity' id id' : Str} (hkind : Plain kind)
    (hlen : kind.length ≤ 64) (hkind' : Plain kind') (hlen' : kind'.length ≤ 64)
    (hne : rt.casefold kind ≠ rt.casefold kind') (h : nodeId rt kind identity = .ok id)
    (h' : nodeId rt kind' identity' = .ok id') : id ≠ id' := by
  obtain ⟨-, -, rfl⟩ := (nodeId_eq_ok hkind hlen).mp h
  obtain ⟨-, -, rfl⟩ := (nodeId_eq_ok hkind' hlen').mp h'
  intro heq
  have hfront := List.append_inj_left' heq (by simp only [List.length_take, rt.sha256_length])
  exact hne (List.append_cancel_left (List.append_cancel_right hfront))

theorem proposeNode_returns {kind identity : Str} {label : Option Str} (hkind : Plain kind)
    (hlen : kind.length ≤ 64) : (∃ n, proposeNode rt kind identity label = .ok n) ↔
      Drawable rt identity (Builder.labelOr label identity) := by
  unfold proposeNode
  rw [Except.exists_bind_eq_ok (P := Fits 512 (Builder.labelOr label identity))]
  · constructor
    · rintro ⟨⟨id, hid⟩, hlabel⟩
      obtain ⟨hidentity, hencodable, -⟩ := (nodeId_eq_ok hkind hlen).mp hid
      exact ⟨hidentity, hencodable, hlabel⟩
    · rintro ⟨hidentity, hencodable, hlabel⟩
      exact ⟨⟨_, (nodeId_eq_ok hkind hlen).mpr ⟨hidentity, hencodable, rfl⟩⟩, hlabel⟩
  · intro id _
    rw [Except.exists_bind_eq_ok (P := True), and_true, text_returns]
    intro label _
    exact iff_of_true ⟨_, rfl⟩ trivial

theorem plain_device : Plain (str "device") := by
  unfold Plain
  decide +kernel

theorem labelOr_some {label identity : Str} (h : label ≠ []) :
    Builder.labelOr (some label) identity = label := if_neg h

theorem proposeDevice_returns {identityKind identity label : Str} (hlabel : label ≠ []) :
    (∃ n, proposeDevice rt identityKind identity (some label) = .ok n) ↔
      Drawable rt (deviceIdentity rt identityKind identity) label := by
  unfold proposeDevice
  rw [proposeNode_returns plain_device (by decide), labelOr_some hlabel, labelOr_some hlabel]
  rfl

theorem stringField_ne {fields : Fields} {key : String} {s : Str}
    (h : stringField fields key = some s) : s ≠ [] := by
  unfold stringField at h
  split at h
  · split at h
    · cases h
    · next hne =>
      cases h
      rintro rfl
      exact hne rfl
  · cases h

/-! ## Edges -/

/-- An observation as `build_topology` reads it is not over before it was made. -/
theorem look_ordered {o : PassiveObservation} {s : Seen} (h : look o = .ok s) :
    ∀ t ∈ s.expiresAt, s.observedAt ≤ t := by
  obtain ⟨timed, -, h⟩ := Except.bind_eq_ok.mp h
  obtain ⟨valid, hvalid, h⟩ := Except.bind_eq_ok.mp h
  cases h
  unfold expiresAt at hvalid
  cases htime : timed.2.expiresAt with
  | none =>
    rw [htime] at hvalid
    cases hvalid
    simp
  | some t =>
    rw [htime] at hvalid
    obtain ⟨u, -, hvalid⟩ := Except.bind_eq_ok.mp hvalid
    cases hvalid
    simpa using u.2

theorem edgeOf_returns {o : Seen} (ho : ∀ t ∈ o.expiresAt, o.observedAt ≤ t) {a b : Str}
    {kind : String} (hkind : Fits 128 (str kind)) {c : ℚ} (hc : 0 ≤ c ∧ c ≤ 1) {inferred : Bool} :
    (∃ e, edgeOf o a b kind c inferred = .ok e) ↔ a ≠ b ∧ Fits 128 o.source := by
  unfold edgeOf TopologyEdge.new
  by_cases hab : a = b
  · simp [hab, topologyError]
  · obtain ⟨kind', hkind'⟩ : ∃ kind', text (str kind) "edge kind" 128 = .ok kind' :=
      text_returns.mpr hkind
    simp only [hab, dif_neg, not_false_eq_true, ne_eq, true_and, hkind', Except.ok_bind]
    rw [Except.exists_bind_eq_ok (P := True), and_true, text_returns]
    intro source _
    refine iff_of_true ?_ trivial
    unfold checkConfidence
    rw [dif_pos hc, Except.ok_bind]
    cases hvalid : o.expiresAt with
    | none => exact ⟨_, rfl⟩
    | some t =>
      have hle : o.observedAt ≤ t := ho t hvalid
      have huntil : validUntil t.stamp o.observedAt = .ok ⟨t, hle⟩ := by
        unfold validUntil utc Utc.stamp
        simp only [Utc.astimezone, Except.ok_bind]
        rw [dif_pos hle]
      simp only [huntil, Except.ok_bind]
      exact ⟨_, rfl⟩

end

/-! ## Observations -/

section

variable (rt : Runtime) (ctx : Context) (o : Seen)

/-- The edge into the subnet of the address, if there is one, can be drawn. -/
def Joins (address : Str) : Prop :=
  subnetFor address ctx.subnets ≠ none → Fits 128 o.source

/-- What `_link_layer` needs. -/
def ShownLink : Prop :=
  let fields := o.observation.fields
  ∀ chassis port, stringField fields "chassis_id" = some chassis →
    stringField fields "port_id" = some port →
    let remote := deviceIdentity rt
      ((stringField fields "chassis_id_subtype").getD (str "chassis")) chassis
    Drawable rt remote ((stringField fields "system_name").getD chassis) ∧
      nodeId rt (str "device") remote ≠ .ok ctx.localNode ∧ Fits 128 o.source

/-- What `_mdns` needs. -/
def ShownMdns : Prop :=
  let fields := o.observation.fields
  activeMdns fields = true →
    if o.observation.kind = str "mdns_service" then
      ∀ serviceType inst, stringField fields "service_type" = some serviceType →
        stringField fields "instance" = some inst →
        Drawable rt serviceType serviceType ∧ Drawable rt inst inst ∧ Fits 128 o.source
    else if o.observation.kind = str "mdns_instance" then
      ∀ inst hostname, stringField fields "instance" = some inst →
        stringField fields "hostname" = some hostname →
        Drawable rt inst inst ∧ Drawable rt (deviceIdentity rt (str "hostname") hostname) hostname ∧
          Fits 128 o.source
    else
      ∀ hostname address, stringField fields "hostname" = some hostname →
        stringField fields "address" = some address →
        Drawable rt (deviceIdentity rt (str "hostname") hostname) hostname ∧ Joins ctx o address

/-- What `_dhcp` needs. -/
def ShownDhcp : Prop :=
  let fields := o.observation.fields
  isAck fields = true → ∀ address identityKind identity,
    stringField fields "assigned_address" = some address →
    dhcpIdentity fields = some (identityKind, identity) →
    let client := deviceIdentity rt identityKind identity
    Drawable rt client ((stringField fields "hostname").getD identity) ∧ Joins ctx o address ∧
      ∀ server, stringField fields "server_identifier" = some server →
        let serverIdentity := deviceIdentity rt (str "ipv4_observation") server
        Drawable rt serverIdentity (str "DHCP " ++ server) ∧
          nodeId rt (str "device") serverIdentity ≠ nodeId rt (str "device") client ∧
          Fits 128 o.source

/-- What `_neighbor` needs. -/
def ShownNeighbor : Prop :=
  let fields := o.observation.fields
  ∀ address mac, stringField fields "address" = some address →
    stringField fields "mac_address" = some mac →
    Drawable rt (deviceIdentity rt (str "mac") mac) mac ∧ Joins ctx o address

/-- What the branch of an observation needs of its fields. -/
def Shown : Prop :=
  let kind := o.observation.kind
  if kind = str "link_layer_neighbor" then ShownLink rt ctx o
  else if kind = str "mdns_service" ∨ kind = str "mdns_instance" ∨ kind = str "mdns_address" then
    ShownMdns rt ctx o
  else if kind = str "dhcp_message" then ShownDhcp rt ctx o
  else if kind = str "neighbor_observation" then ShownNeighbor rt ctx o
  else True

end

section

variable {rt : Runtime} {ctx : Context} {o : Seen}

/-- The condition on two fields that are there. -/
theorem forall_fields {α β : Type} {a : α} {b : β} {P : α → β → Prop} :
    (∀ x y, some a = some x → some b = some y → P x y) ↔ P a b := by
  constructor
  · exact fun h => h a b rfl rfl
  · rintro h x y hx hy
    cases hx
    cases hy
    exact h

theorem plain_subnet : Plain (str "subnet") := by
  unfold Plain
  decide +kernel

theorem plain_vlan : Plain (str "vlan") := by
  unfold Plain
  decide +kernel

theorem membershipEdges_returns (ho : ∀ t ∈ o.expiresAt, o.observedAt ≤ t)
    {identity device address : Str} (hdevice : nodeId rt (str "device") identity = .ok device)
    {c : ℚ} (hc : 0 ≤ c ∧ c ≤ 1) :
    (∃ es, membershipEdges rt ctx o device address c = .ok es) ↔ Joins ctx o address := by
  unfold membershipEdges Joins
  cases hs : subnetFor address ctx.subnets with
  | none => exact iff_of_true ⟨[], rfl⟩ (fun h => absurd rfl h)
  | some s =>
    obtain ⟨node, hnode⟩ := proposeNode_subnet rt s.network
    have hne : device ≠ node.nodeId :=
      nodeId_ne plain_device (by decide) plain_subnet (by decide) (by
        show ¬ (str "device" = str "subnet")
        decide) hdevice (proposeNode_nodeId rt hnode).1
    simp only [hnode, Except.ok_bind]
    rw [Except.exists_bind_eq_ok (P := True), and_true,
      edgeOf_returns ho (by decide) (capped_valid hc s)]
    · simp [hne]
    · intro e _
      exact iff_of_true ⟨_, rfl⟩ trivial

theorem linkLayer_returns (ho : ∀ t ∈ o.expiresAt, o.observedAt ≤ t) :
    (∃ c, linkLayerClaims rt ctx o = .ok c) ↔ ShownLink rt ctx o := by
  unfold linkLayerClaims ShownLink
  simp only
  cases hchassis : stringField o.observation.fields "chassis_id" with
  | none => simp
  | some chassis =>
    cases hport : stringField o.observation.fields "port_id" with
    | none => simp
    | some port =>
      have hlabel : (stringField o.observation.fields "system_name").getD chassis ≠ [] := by
        cases hname : stringField o.observation.fields "system_name" with
        | none => exact stringField_ne hchassis
        | some name => exact stringField_ne hname
      rw [forall_fields, Except.exists_bind_eq_ok, proposeDevice_returns hlabel]
      intro remote hremote
      have hid : nodeId rt (str "device") (deviceIdentity rt _ chassis) = .ok remote.nodeId :=
        (proposeNode_nodeId rt hremote).1
      rw [hid, Except.exists_bind_eq_ok (P := True), and_true,
        edgeOf_returns ho (by decide) (by unfold linkConfidence; norm_num)]
      · simp [eq_comm]
      · intro e he
        refine iff_of_true ?_ trivial
        have hsource : Fits 128 o.source :=
          ((edgeOf_returns ho (by decide) (by unfold linkConfidence; norm_num)).mp ⟨e, he⟩).2
        cases vlanField o.observation.fields with
        | none => exact ⟨_, rfl⟩
        | some vlan =>
          obtain ⟨node, hnode⟩ := proposeNode_vlan rt vlan
          have hne : remote.nodeId ≠ node.nodeId :=
            nodeId_ne plain_device (by decide) plain_vlan (by decide) (by
              show ¬ (str "device" = str "vlan")
              decide) hid (proposeNode_nodeId rt hnode).1
          obtain ⟨e', he'⟩ : ∃ e', edgeOf o remote.nodeId node.nodeId "observed_vlan"
              serviceConfidence false = .ok e' :=
            (edgeOf_returns ho (by decide) (by unfold serviceConfidence; norm_num)).mpr
              ⟨hne, hsource⟩
          simp only [hnode, Except.ok_bind, he']
          exact ⟨_, rfl⟩

theorem plain_service : Plain (str "service") := by
  unfold Plain
  decide +kernel

theorem plain_instance : Plain (str "service_instance") := by
  unfold Plain
  decide +kernel

/-- A device and its edge into the subnet of an address. -/
theorem deviceMembership_returns (ho : ∀ t ∈ o.expiresAt, o.observedAt ≤ t)
    {identityKind identity label address : Str} (hlabel : label ≠ []) {c : ℚ} (hc : 0 ≤ c ∧ c ≤ 1) :
    (∃ claims : Claims, (do
        let device ← proposeDevice rt identityKind identity (some label)
        let edges ← membershipEdges rt ctx o device.nodeId address c
        .ok { nodes := [device], edges } : Except Exc Claims) = .ok claims) ↔
      Drawable rt (deviceIdentity rt identityKind identity) label ∧ Joins ctx o address := by
  rw [Except.exists_bind_eq_ok, proposeDevice_returns hlabel]
  intro device hdevice
  rw [Except.exists_bind_eq_ok (P := True), and_true,
    membershipEdges_returns ho (proposeNode_nodeId rt hdevice).1 hc]
  intro edges _
  exact iff_of_true ⟨_, rfl⟩ trivial

theorem mdns_returns (ho : ∀ t ∈ o.expiresAt, o.observedAt ≤ t) :
    (∃ c, mdnsClaims rt ctx o = .ok c) ↔ ShownMdns rt ctx o := by
  unfold mdnsClaims ShownMdns
  simp only
  cases activeMdns o.observation.fields with
  | false => simp
  | true =>
    simp only [Bool.true_eq_false, if_false, true_implies]
    split
    · cases hservice : stringField o.observation.fields "service_type" with
      | none => simp
      | some serviceType =>
        cases hinst : stringField o.observation.fields "instance" with
        | none => simp
        | some inst =>
          rw [forall_fields, Except.exists_bind_eq_ok, proposeNode_returns plain_service (by decide)]
          · rfl
          intro service hservice
          rw [Except.exists_bind_eq_ok, proposeNode_returns plain_instance (by decide)]
          · rfl
          intro inst' hinst'
          rw [Except.exists_bind_eq_ok (P := True), and_true,
            edgeOf_returns ho (by decide) (by unfold serviceConfidence; norm_num)]
          · have hne := nodeId_ne plain_service (by decide) plain_instance (by decide) (by
              show ¬ (str "service" = str "service_instance")
              decide) (proposeNode_nodeId rt hservice).1 (proposeNode_nodeId rt hinst').1
            simp [hne]
          · intro e _
            exact iff_of_true ⟨_, rfl⟩ trivial
    · split
      · cases hinst : stringField o.observation.fields "instance" with
        | none => simp
        | some inst =>
          cases hhost : stringField o.observation.fields "hostname" with
          | none => simp
          | some hostname =>
            rw [forall_fields, Except.exists_bind_eq_ok,
              proposeNode_returns plain_instance (by decide)]
            · rfl
            intro inst' hinst'
            rw [Except.exists_bind_eq_ok, proposeDevice_returns (stringField_ne hhost)]
            intro host' hhost'
            rw [Except.exists_bind_eq_ok (P := True), and_true,
              edgeOf_returns ho (by decide) (by unfold serviceConfidence; norm_num)]
            · have hne := nodeId_ne plain_instance (by decide) plain_device (by decide) (by
                show ¬ (str "service_instance" = str "device")
                decide) (proposeNode_nodeId rt hinst').1 (proposeNode_nodeId rt hhost').1
              simp [hne]
            · intro e _
              exact iff_of_true ⟨_, rfl⟩ trivial
      · cases hhost : stringField o.observation.fields "hostname" with
        | none => simp
        | some hostname =>
          cases haddress : stringField o.observation.fields "address" with
          | none => simp
          | some address =>
            rw [forall_fields]
            exact deviceMembership_returns ho (stringField_ne hhost) literals_valid.2.2

theorem neighbor_returns (ho : ∀ t ∈ o.expiresAt, o.observedAt ≤ t) :
    (∃ c, neighborClaims rt ctx o = .ok c) ↔ ShownNeighbor rt ctx o := by
  unfold neighborClaims ShownNeighbor
  simp only
  cases haddress : stringField o.observation.fields "address" with
  | none => simp
  | some address =>
    cases hmac : stringField o.observation.fields "mac_address" with
    | none => simp
    | some mac =>
      rw [forall_fields]
      exact deviceMembership_returns ho (stringField_ne hmac) literals_valid.2.1

theorem dhcpIdentity_ne {fields : Fields} {identityKind identity : Str}
    (h : dhcpIdentity fields = some (identityKind, identity)) : identity ≠ [] := by
  unfold dhcpIdentity at h
  split at h
  · next mac hmac =>
    cases h
    exact stringField_ne hmac
  · obtain ⟨i, hi, h⟩ := Option.map_eq_some_iff.mp h
    cases h
    exact stringField_ne hi

theorem dhcp_returns (ho : ∀ t ∈ o.expiresAt, o.observedAt ≤ t) :
    (∃ c, dhcpClaims rt ctx o = .ok c) ↔ ShownDhcp rt ctx o := by
  unfold dhcpClaims ShownDhcp
  simp only
  cases isAck o.observation.fields with
  | false => simp
  | true =>
    simp only [Bool.true_eq_false, if_false, true_implies]
    cases haddress : stringField o.observation.fields "assigned_address" with
    | none => simp
    | some address =>
      cases hidentity : dhcpIdentity o.observation.fields with
      | none => simp
      | some pair =>
        obtain ⟨identityKind, identity⟩ := pair
        have hlabel : (stringField o.observation.fields "hostname").getD identity ≠ [] := by
          cases hname : stringField o.observation.fields "hostname" with
          | none => exact dhcpIdentity_ne hidentity
          | some name => exact stringField_ne hname
        have hfields : ∀ {P : Str → Str → Str → Prop}, (∀ a k i, some address = some a →
            some (identityKind, identity) = some (k, i) → P a k i) ↔
              P address identityKind identity := by
          intro P
          constructor
          · exact fun h => h _ _ _ rfl rfl
          · rintro h a k i ha hi
            cases ha
            cases hi
            exact h
        rw [hfields]
        simp only
        rw [Except.exists_bind_eq_ok, proposeDevice_returns hlabel]
        intro client hclient
        have hid := (proposeNode_nodeId rt hclient).1
        rw [Except.exists_bind_eq_ok, membershipEdges_returns ho hid literals_valid.1]
        intro edges _
        cases hserver : stringField o.observation.fields "server_identifier" with
        | none => simp
        | some server =>
          have hserverLabel : str "DHCP " ++ server ≠ [] := by simp [str]
          simp only [Option.some.injEq, forall_eq']
          rw [Except.exists_bind_eq_ok, proposeDevice_returns hserverLabel]
          intro serverNode hserverNode
          rw [Except.exists_bind_eq_ok (P := True), and_true,
            edgeOf_returns ho (by decide) (by unfold leaseConfidence; norm_num)]
          · have hserverId : nodeId rt (str "device")
                (deviceIdentity rt (str "ipv4_observation") server) = .ok serverNode.nodeId :=
              (proposeNode_nodeId rt hserverNode).1
            have hclientId : nodeId rt (str "device")
                (deviceIdentity rt identityKind identity) = .ok client.nodeId := hid
            rw [hserverId, hclientId]
            simp
          · intro e _
            exact iff_of_true ⟨_, rfl⟩ trivial

/-- The branch of an observation returns exactly when its fields can be shown. -/
theorem observationClaims_returns (ho : ∀ t ∈ o.expiresAt, o.observedAt ≤ t) :
    (∃ c, observationClaims rt ctx o = .ok c) ↔ Shown rt ctx o := by
  unfold observationClaims Shown
  simp only
  split
  · exact linkLayer_returns ho
  · split
    · exact mdns_returns ho
    · split
      · exact dhcp_returns ho
      · split
        · exact neighbor_returns ho
        · refine iff_of_true ?_ trivial
          split
          · exact ⟨_, rfl⟩
          · exact ⟨_, rfl⟩

/-! ## The graph -/

/-- The pipeline stores the observation. -/
def Stored (o : PassiveObservation) : Prop :=
  ∃ parsed frameTime, normalizeObservation parsed frameTime = .ok o

/-- What `build_topology` needs of a stored observation: it does not expire before it was made, and
if it is active its fields can be shown. -/
structure Presentable (rt : Runtime) (ctx : Context) (asOf : Utc) (o : PassiveObservation) :
    Prop where
  ordered : ∀ t u : Utc, o.observedAt = some t.stamp → o.expiresAt = some u.stamp → t ≤ u
  shown : ∀ t : Utc, ∀ u : Option Utc, o.observedAt = some t.stamp →
    o.expiresAt = u.map Utc.stamp → isActive asOf t u = true → Shown rt ctx ⟨o, t, u⟩

theorem stamp_injective {t u : Utc} (h : t.stamp = u.stamp) : t = u := by
  unfold Utc.stamp at h
  injection h with h
  injection h with h
  exact Fin.ext h

/-- A stored observation has both times in UTC. -/
theorem Stored.times {o : PassiveObservation} (h : Stored o) :
    ∃ (t : Utc) (u : Option Utc), o.observedAt = some t.stamp ∧ o.expiresAt = u.map Utc.stamp := by
  obtain ⟨parsed, frameTime, h⟩ := h
  unfold normalizeObservation at h
  split at h
  · cases h
  · split at h
    · cases h
    · obtain ⟨t, -, h⟩ := Except.bind_eq_ok.mp h
      obtain ⟨u, -, h⟩ := Except.bind_eq_ok.mp h
      cases h
      exact ⟨t, u, rfl, rfl⟩

/-- Reading the times of a stored observation. -/
theorem look_stored {o : PassiveObservation} {t : Utc} {u : Option Utc}
    (ht : o.observedAt = some t.stamp) (hu : o.expiresAt = u.map Utc.stamp) {s : Seen} :
    look o = .ok s ↔ (∀ v ∈ u, t ≤ v) ∧ s = ⟨o, t, u⟩ := by
  unfold look stamped lookAt observedAt
  simp only [ht, utc_stamp, Except.ok_bind, expiresAt, hu]
  cases u with
  | none => simp [eq_comm]
  | some v =>
    simp only [Option.map_some, validUntil, utc_stamp, Except.ok_bind, Option.mem_def,
      Option.some.injEq, forall_eq']
    by_cases hle : t ≤ v
    · simp [hle, eq_comm]
    · simp [hle, topologyError]

/-- One hostile observation makes `build_topology` raise; else it returns a graph. -/
theorem buildTopology_returns_iff (rt : Runtime) (observations : List PassiveObservation)
    (hstored : ∀ o ∈ observations, Stored o) (localIdentity : Str) (asOf : Option Stamp)
    (localLabel : Option Str) (subnets : List SubnetEvidence) (vlans : List VlanEvidence) :
    (∃ g, buildTopology rt observations localIdentity asOf localLabel subnets vlans = .ok g) ↔
      ∃ r, read rt [] localIdentity asOf localLabel = .ok r ∧
        ∀ o ∈ observations, Presentable rt (r.context subnets vlans) r.asOf o := by
  constructor
  · rintro ⟨g, hg⟩
    obtain ⟨r, hread, hall, -⟩ := buildTopology_eq_ok.mp hg
    obtain ⟨hread, hlook⟩ := read_eq_ok.mp hread
    refine ⟨_, hread, ?_⟩
    intro o ho
    obtain ⟨t, u, ht, hu⟩ := (hstored o ho).times
    obtain ⟨s, hs, hos⟩ := (Except.mapM_eq_ok.mp hlook).exists_of_mem_left ho
    obtain ⟨hle, rfl⟩ := (look_stored ht hu).mp hos
    constructor
    · intro t' u' ht' hu'
      rw [ht] at ht'
      rw [hu] at hu'
      cases stamp_injective (Option.some.inj ht')
      obtain ⟨v, hv, hvu⟩ := Option.map_eq_some_iff.mp hu'
      cases stamp_injective hvu
      exact hle _ hv
    · intro t' u' ht' hu' hactive
      have hos' : look o = .ok ⟨o, t', u'⟩ := by
        rw [ht] at ht'
        cases stamp_injective (Option.some.inj ht')
        rw [hu] at hu'
        have heq : u = u' := Option.map_injective (fun _ _ => stamp_injective) hu'
        rw [← heq]
        exact hos
      cases hos.symm.trans hos'
      exact (observationClaims_returns (look_ordered hos)).mp
        (hall _ (mem_activeSeen.mpr ⟨hs, hactive⟩))
  · rintro ⟨r, hread, hall⟩
    obtain ⟨seen, hseen⟩ : ∃ seen, observations.mapM look = .ok seen := by
      rw [Except.exists_mapM_eq_ok]
      intro o ho
      obtain ⟨t, u, ht, hu⟩ := (hstored o ho).times
      refine ⟨_, (look_stored ht hu).mpr ⟨?_, rfl⟩⟩
      rintro v rfl
      exact (hall o ho).ordered t v ht hu
    refine ⟨_, buildTopology_eq_ok.mpr ⟨_, read_other hread hseen, ?_, rfl⟩⟩
    intro s hs
    obtain ⟨hs, hactive⟩ := mem_activeSeen.mp hs
    obtain ⟨o, ho, hos⟩ := (Except.mapM_eq_ok.mp hseen).exists_of_mem_right hs
    obtain ⟨t, u, ht, hu⟩ := (hstored o ho).times
    obtain ⟨-, rfl⟩ := (look_stored ht hu).mp hos
    exact (observationClaims_returns (look_ordered hos)).mpr
      ((hall o ho).shown t u ht hu hactive)

end

/-! ## A hostile host name -/

/-- A DHCP acknowledgement for 10.0.0.5 whose host name is `a`, NUL, `b`. -/
def hostileFrame : PassiveFrame where
  protocol := str "dhcp"
  payload := [2, 1, 6, 0] ++ List.replicate 12 0 ++ [10, 0, 0, 5] ++ List.replicate 8 0 ++
    [0, 17, 34, 51, 68, 85] ++ List.replicate 202 0 ++ [0x63, 0x82, 0x53, 0x63] ++
    [53, 1, 5, 12, 3, 97, 0, 98, 255]
  observedAt := ⟨epochDay * microsPerDay, epoch_inCalendar⟩
  interface := none

/-- What the pipeline stores of it. -/
def hostileStored (rt : Runtime) : Except Exc PassiveObservation := do
  let parsed ← Dhcp.parseDhcp rt ⟨[], []⟩ hostileFrame
  match parsed with
  | [o] => normalizeObservation o hostileFrame.observedAt
  | _ => .error .value

theorem stored_hostile {rt : Runtime} {o : PassiveObservation} (h : hostileStored rt = .ok o) :
    Stored o := by
  obtain ⟨parsed, -, h⟩ := Except.bind_eq_ok.mp h
  split at h
  · exact ⟨_, _, h⟩
  · cases h

/-- The topology of this device and the stored observations. -/
def hostileTopology (observations : List PassiveObservation) : Except Exc TopologyGraph :=
  buildTopology sampleRuntime observations (str "scanner")
    (some (Utc.stamp ⟨epochDay * microsPerDay, epoch_inCalendar⟩)) none [] []

/-- The frame is parsed and stored, and no topology can be built any more. -/
theorem hostile_frame_raises : ∃ o, hostileStored sampleRuntime = .ok o ∧
    (∃ g, hostileTopology [] = .ok g) ∧ hostileTopology [o] =
      .error (.topology (str "node label is empty or exceeds 512 characters")) := by
  obtain ⟨o, ho⟩ := Except.exists_of_isOk
    (by decide +kernel : (hostileStored sampleRuntime).isOk = true)
  have hraises : (match hostileStored sampleRuntime with
      | .ok o =>
        match hostileTopology [o] with
        | .ok _ => none
        | .error e => some e
      | .error _ => none) =
        some (.topology (str "node label is empty or exceeds 512 characters")) := by
    decide +kernel
  refine ⟨o, ho, Except.exists_of_isOk (by decide +kernel), ?_⟩
  rw [ho] at hraises
  simp only at hraises
  cases hrun : hostileTopology [o] with
  | ok g =>
    rw [hrun] at hraises
    cases hraises
  | error e =>
    rw [hrun] at hraises
    exact congrArg Except.error (Option.some.inj hraises)

/-- It cannot be shown. -/
theorem buildTopology_returns_hostile : ∃ o, hostileStored sampleRuntime = .ok o ∧
    ¬ ∃ r, read sampleRuntime [] (str "scanner")
        (some (Utc.stamp ⟨epochDay * microsPerDay, epoch_inCalendar⟩)) none = .ok r ∧
      ∀ o' ∈ [o], Presentable sampleRuntime (r.context [] []) r.asOf o' := by
  have hrun : (hostileStored sampleRuntime).toOption.map (fun o => (hostileTopology [o]).isOk) =
      some false := by
    decide +kernel
  obtain ⟨o, ho, hraises⟩ := Option.map_eq_some_iff.mp hrun
  have hstored := Except.toOption_eq_some.mp ho
  refine ⟨o, hstored, fun hshown => ?_⟩
  obtain ⟨g, hg⟩ := (buildTopology_returns_iff sampleRuntime [o] (fun o' ho' => by
    rw [List.mem_singleton.mp ho']
    exact stored_hostile hstored) _ _ _ _ _).mpr hshown
  rw [show hostileTopology [o] = .ok g from hg] at hraises
  cases hraises

end FieldDiscovery.Topology
