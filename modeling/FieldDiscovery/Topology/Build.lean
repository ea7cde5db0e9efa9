import FieldDiscovery.Topology.Graph

/-!
# Building a topology

`build_topology` and its branches, one for each kind of passive evidence.
-/

namespace FieldDiscovery.Topology

open Py Correlation Passive

/-! ## Reading an observation -/

/-- `_observed_at` -/
def observedAt (o : PassiveObservation) : Except Exc Utc :=
  match o.observedAt with
  | none => topologyError (str "topology observations require an observed_at timestamp")
  | some t => utc t

/-- The `valid_until` of the observation loop. -/
def expiresAt (o : PassiveObservation) (observedAt : Utc) : Except Exc (Option Utc) :=
  match o.expiresAt with
  | none => .ok none
  | some t => do
    let valid ← validUntil t observedAt
    .ok (some valid.val)

/-- `_string` -/
def stringField (fields : Fields) (key : String) : Option Str :=
  match fields.get (str key) with
  | some (.string s) => if strip s = [] then none else some s
  | _ => none

/-- `_subnet_for`: the most specific subnet, the first of them when there are several. -/
def subnetFor (address : Str) (subnets : List SubnetEvidence) : Option SubnetEvidence :=
  match ipv4Address address with
  | none => none
  | some octets =>
    let parsed := octets.foldl (fun n octet => 256 * n + octet) 0
    firstBest (fun s => s.network.prefixlen) (subnets.filter fun s => s.network.contains parsed)

/-- The literal `0.99`. -/
def linkConfidence : ℚ := 4458563631096791 / 4503599627370496

/-- The literal `0.95`. -/
def serviceConfidence : ℚ := 4278419646001971 / 4503599627370496

/-- The literal `0.9`. -/
def leaseConfidence : ℚ := 8106479329266893 / 9007199254740992

/-- The literal `0.75`. -/
def neighborConfidence : ℚ := 3 / 4

/-- The literal `0.7`. -/
def addressConfidence : ℚ := 3152519739159347 / 4503599627370496

/-! ## The branches -/

/-- The builder and the tables that `build_topology` fills beside it. -/
structure Work where
  builder : Builder := {}
  subnetNodes : Dict Str Str := []
  vlanNodes : Dict (Fin 4095) Str := []
  vlanClaims : List (Str × List (Fin 4095 × Str)) := []

/-- An observation of the loop, with the times that the branches read off it. -/
structure Seen where
  observation : PassiveObservation
  observedAt : Utc
  expiresAt : Option Utc

/-- The source of the observation. -/
abbrev Seen.source (o : Seen) : Str := o.observation.source

section

variable (rt : Runtime)

/-- `builder.node(...)` on the builder of `w`. -/
def Work.node (w : Work) (kind identity : Str) (label : Option Str := none) :
    Except Exc (Work × Str) := do
  let (builder, identifier) ← w.builder.node rt kind identity label
  .ok ({ w with builder }, identifier)

/-- `_device_node` -/
def deviceNode (w : Work) (identityKind identity : Str) (label : Option Str) :
    Except Exc (Work × Str) :=
  w.node rt (str "device") (identityKind ++ str ":" ++ rt.casefold identity)
    (some (Builder.labelOr label identity))

/-- `builder.edge(TopologyEdge(...))` for an edge that `o` supports. -/
def Work.edge (w : Work) (o : Seen) (sourceNode targetNode : Str) (kind : String)
    (confidence : ℚ) (inferred : Bool := false) : Except Exc Work := do
  let e ← TopologyEdge.new sourceNode targetNode (str kind) o.source confidence inferred
    o.observedAt o.expiresAt
  .ok { w with builder := w.builder.edge e }

/-- `_membership` -/
def membership (w : Work) (o : Seen) (device address : Str) (confidence : ℚ)
    (subnets : List SubnetEvidence) : Except Exc Work :=
  match subnetFor address subnets with
  | none => .ok w
  | some subnet =>
    match w.subnetNodes.get subnet.network.cidr with
    | none => .error .key
    | some subnetNode =>
      w.edge o device subnetNode "inferred_subnet_membership"
        (min confidence subnet.confidence) true

/-- The conflict of link-layer evidence without its identifiers. -/
def incompleteConflict (o : Seen) : TopologyConflict where
  kind := str "incomplete_link_evidence"
  subject := o.source
  details := [str "missing chassis_id or port_id"]
  sources := [o.source]

/-- The VLAN ID of a link-layer observation. -/
def vlanField (fields : Fields) : Option (Fin 4095) :=
  match fields.get (str "vlan_id") with
  | some (.int n) => if h : 0 ≤ n ∧ n.toNat < 4095 then some ⟨n.toNat, h.2⟩ else none
  | _ => none

/-- `vlan_nodes.get(vlan_value) or builder.node("vlan", ...)` -/
def vlanNode (w : Work) (vlan : Fin 4095) : Except Exc (Work × Str) :=
  match w.vlanNodes.get vlan with
  | some identifier => .ok (w, identifier)
  | none => w.node rt (str "vlan") (natStr vlan) (some (str "VLAN " ++ natStr vlan))

/-- The end of `_link_layer`, for an observation with a VLAN. -/
def observedVlan (w : Work) (o : Seen) (remote : Str) (vlan : Fin 4095) : Except Exc Work := do
  let (w, identifier) ← vlanNode rt w vlan
  let w := { w with vlanNodes := w.vlanNodes.set vlan identifier }
  let w ← w.edge o remote identifier "observed_vlan" serviceConfidence
  .ok { w with vlanClaims := push w.vlanClaims remote (vlan, o.source) }

/-- `_link_layer` -/
def linkLayer (w : Work) (localNode : Str) (o : Seen) : Except Exc Work :=
  let fields := o.observation.fields
  match stringField fields "chassis_id", stringField fields "port_id" with
  | some chassis, some _ => do
    let subtype := (stringField fields "chassis_id_subtype").getD (str "chassis")
    let label := (stringField fields "system_name").getD chassis
    let (w, remote) ← deviceNode rt w subtype chassis (some label)
    let w ← w.edge o localNode remote "link_layer_neighbor" linkConfidence
    match vlanField fields with
    | none => .ok w
    | some vlan => observedVlan rt w o remote vlan
  | _, _ => .ok { w with builder := w.builder.conflict (incompleteConflict o) }

/-- `_active_mdns` -/
def activeMdns (fields : Fields) : Bool :=
  match fields.get (str "action") with
  | none => true
  | some (.string action) => action = str "announce"
  | some _ => false

/-- `_mdns` -/
def mdns (w : Work) (o : Seen) (subnets : List SubnetEvidence) : Except Exc Work :=
  let fields := o.observation.fields
  if activeMdns fields = false then .ok w
  else if o.observation.kind = str "mdns_service" then
    match stringField fields "service_type", stringField fields "instance" with
    | some serviceType, some inst => do
      let (w, serviceNode) ← w.node rt (str "service") serviceType
      let (w, instanceNode) ← w.node rt (str "service_instance") inst
      w.edge o serviceNode instanceNode "advertises" serviceConfidence
    | _, _ => .ok w
  else if o.observation.kind = str "mdns_instance" then
    match stringField fields "instance", stringField fields "hostname" with
    | some inst, some hostname => do
      let (w, instanceNode) ← w.node rt (str "service_instance") inst
      let (w, hostNode) ← deviceNode rt w (str "hostname") hostname (some hostname)
      w.edge o instanceNode hostNode "service_host" serviceConfidence
    | _, _ => .ok w
  else
    match stringField fields "hostname", stringField fields "address" with
    | some hostname, some address => do
      let (w, hostNode) ← deviceNode rt w (str "hostname") hostname (some hostname)
      membership w o hostNode address addressConfidence subnets
    | _, _ => .ok w

/-- `fields.get("message_type") == "ack"` -/
def isAck (fields : Fields) : Bool :=
  match fields.get (str "message_type") with
  | some (.string messageType) => messageType = str "ack"
  | _ => false

/-- The identity of a DHCP client: its MAC address, or else its client identifier. -/
def dhcpIdentity (fields : Fields) : Option (Str × Str) :=
  match stringField fields "client_mac" with
  | some mac => some (str "mac", mac)
  | none => (stringField fields "client_identifier").map fun i => (str "dhcp_client_id", i)

/-- `_dhcp` -/
def dhcp (w : Work) (o : Seen) (subnets : List SubnetEvidence) : Except Exc Work :=
  let fields := o.observation.fields
  if isAck fields = false then .ok w
  else
    match stringField fields "assigned_address", dhcpIdentity fields with
    | some address, some (identityKind, identity) => do
      let (w, client) ← deviceNode rt w identityKind identity
        (some ((stringField fields "hostname").getD identity))
      let w ← membership w o client address leaseConfidence subnets
      match stringField fields "server_identifier" with
      | none => .ok w
      | some server => do
        let (w, serverNode) ← deviceNode rt w (str "ipv4_observation") server
          (some (str "DHCP " ++ server))
        w.edge o serverNode client "dhcp_lease" leaseConfidence
    | _, _ => .ok w

/-- `_neighbor` -/
def neighbor (w : Work) (o : Seen) (subnets : List SubnetEvidence) : Except Exc Work :=
  let fields := o.observation.fields
  match stringField fields "address", stringField fields "mac_address" with
  | some address, some mac => do
    let (w, device) ← deviceNode rt w (str "mac") mac (some mac)
    membership w o device address neighborConfidence subnets
  | _, _ => .ok w

/-- The conflict that a reuse or movement observation discloses. -/
def reuseConflict (o : Seen) : TopologyConflict where
  kind := o.observation.kind
  subject := (stringField o.observation.fields "address").getD (str "unspecified")
  details := (sortedBy Prod.fst o.observation.fields).map fun p =>
    p.1 ++ str "=" ++ p.2.dumps {}
  sources := [o.source]

/-- The kinds of observation that disclose a conflict. -/
def reuseKinds : List Str :=
  [str "dhcp_address_reuse", str "neighbor_ip_reuse", str "neighbor_mac_movement"]

/-- The branch of one active observation. -/
def dispatch (w : Work) (localNode : Str) (o : Seen) (subnets : List SubnetEvidence) :
    Except Exc Work :=
  let kind := o.observation.kind
  if kind = str "link_layer_neighbor" then linkLayer rt w localNode o
  else if kind = str "mdns_service" ∨ kind = str "mdns_instance" ∨ kind = str "mdns_address" then
    mdns rt w o subnets
  else if kind = str "dhcp_message" then dhcp rt w o subnets
  else if kind = str "neighbor_observation" then neighbor rt w o subnets
  else if kind ∈ reuseKinds then .ok { w with builder := w.builder.conflict (reuseConflict o) }
  else .ok w

/-! ## The loops -/

/-- `tuple(item for item in items if builder.active(item.observed_at, item.valid_until))` -/
def filterActive {α : Type} (asOf : Utc) (validity : α → Validity) (b : Builder)
    (items : List α) : Builder × List α :=
  items.foldl (fun acc item =>
    let (b, isActive) := acc.1.active asOf (validity item).observedAt (validity item).validUntil
    (b, if isActive then acc.2 ++ [item] else acc.2)) (b, [])

/-- One round of the loop over the subnets. -/
def addSubnet (w : Work) (s : SubnetEvidence) : Except Exc Work := do
  let (w, identifier) ← w.node rt (str "subnet") s.network.cidr
  .ok { w with subnetNodes := w.subnetNodes.set s.network.cidr identifier }

/-- The label of a VLAN. -/
def vlanLabel (v : VlanEvidence) : Str :=
  str "VLAN " ++ natStr v.vlanId ++
    match v.name with
    | none => []
    | some name => str " — " ++ name.val

/-- `subnet_nodes.get(vlan.subnet_cidr) or builder.node("subnet", vlan.subnet_cidr)` -/
def subnetNode (w : Work) (network : Ipv4Network) : Except Exc (Work × Str) :=
  match w.subnetNodes.get network.cidr with
  | some identifier => .ok (w, identifier)
  | none => w.node rt (str "subnet") network.cidr

/-- The edge from a VLAN to its subnet. -/
def vlanEdge (v : VlanEvidence) (vlanNode subnetNode : Str) : Except Exc TopologyEdge :=
  TopologyEdge.new vlanNode subnetNode (str "vlan_subnet") v.source.val v.confidence false
    v.validity.observedAt v.validity.validUntil

/-- One round of the loop over the VLANs. -/
def addVlan (w : Work) (v : VlanEvidence) : Except Exc Work := do
  let (w, vlanNode) ← w.node rt (str "vlan") (natStr v.vlanId) (some (vlanLabel v))
  let w := { w with vlanNodes := w.vlanNodes.set v.vlanId vlanNode }
  match v.subnetCidr with
  | none => .ok w
  | some network => do
    let (w, subnetNode) ← subnetNode rt w network
    let w := { w with subnetNodes := w.subnetNodes.set network.cidr subnetNode }
    let e ← vlanEdge v vlanNode subnetNode
    .ok { w with builder := w.builder.edge e }

/-- One round of the loop over the observations. -/
def addObservation (asOf : Utc) (localNode : Str) (subnets : List SubnetEvidence) (w : Work)
    (o : Utc × PassiveObservation) : Except Exc Work := do
  let valid ← expiresAt o.2 o.1
  let (builder, isActive) := w.builder.active asOf o.1 valid
  let w := { w with builder }
  if isActive then dispatch rt w localNode ⟨o.2, o.1, valid⟩ subnets else .ok w

/-- An observation under its time. -/
def stamped (o : PassiveObservation) : Except Exc (Utc × PassiveObservation) := do
  let t ← observedAt o
  .ok (t, o)

/-- The key by which observations are sorted. -/
def observationKey (o : Utc × PassiveObservation) : Str ×ₗ Str ×ₗ Str ×ₗ Str :=
  toLex (o.1.isoformat, toLex (o.2.kind, toLex (o.2.source,
    (Json.dict o.2.fields).dumps (.compact true))))

/-- The disagreements among the VLAN claims about one device. -/
def vlanConflicts (claims : List (Str × List (Fin 4095 × Str))) : List TopologyConflict :=
  (sortedBy Prod.fst claims).filterMap fun entry =>
    let values : List (Fin 4095) := sortedSet (entry.2.map Prod.fst)
    if 1 < values.length then
      some ⟨str "vlan_disagreement", entry.1, values.map fun v => natStr v.val,
        sortedSet (entry.2.map Prod.snd)⟩
    else none

/-- `build_topology` -/
def buildTopology (observations : List PassiveObservation) (localIdentity : Str)
    (asOf : Option Stamp) (localLabel : Option Str) (subnets : List SubnetEvidence)
    (vlans : List VlanEvidence) : Except Exc TopologyGraph :=
  match asOf with
  | none =>
    topologyError (str "an explicit as_of timestamp is required for active topology")
  | some asOf => do
    let snapshot ← utc asOf
    let identity ← text localIdentity "local identity"
    let (w, localNode) ← deviceNode rt {} (str "local") identity.val localLabel
    let (builder, subnetItems) := filterActive snapshot SubnetEvidence.validity w.builder
      (sortedBy (fun s => s.network.cidr) subnets)
    let (builder, vlanItems) := filterActive snapshot VlanEvidence.validity builder
      (sortedBy (fun v => toLex (v.vlanId, v.source.val)) vlans)
    let w ← subnetItems.foldlM (addSubnet rt) { w with builder }
    let w ← vlanItems.foldlM (addVlan rt) w
    let timed ← observations.mapM stamped
    let w ← (sortedBy observationKey timed).foldlM
      (addObservation rt snapshot localNode subnetItems) w
    let builder := (vlanConflicts w.vlanClaims).foldl Builder.conflict w.builder
    .ok (builder.result snapshot)

end

end FieldDiscovery.Topology
