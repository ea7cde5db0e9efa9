import FieldDiscovery.Lib.Utf8
import FieldDiscovery.Passive.Ethernet
import FieldDiscovery.Passive.LinkFraming

/-!
# LLDP and CDP neighbors

`parse_lldp` and `parse_cdp` of `link_layer.py`, over the TLVs of their framing. Reading a byte and
rendering an address can raise; the loops stop at the first TLV that makes them raise, and only then
see what else is wrong with the framing.
-/

namespace FieldDiscovery.Passive.Link

open Py Framing Dhcp Capture

/-! ## Tables -/

/-- `_MAX_CDP_BYTES` -/
def maxCdpBytes : Nat := 8192

/-- `_IEEE_8021_OUI` -/
def ieee8021Oui : List Byte := [0x00, 0x80, 0xC2]

/-- `_LLDP_CAPABILITIES` -/
def lldpCapabilityBits : List (Nat × Str) :=
  [(0x0001, str "other"), (0x0002, str "repeater"), (0x0004, str "bridge"),
    (0x0008, str "wlan_access_point"), (0x0010, str "router"), (0x0020, str "telephone"),
    (0x0040, str "docsis"), (0x0080, str "station"), (0x0100, str "customer_vlan"),
    (0x0200, str "service_vlan"), (0x0400, str "two_port_mac_relay")]

/-- `_CDP_CAPABILITIES` -/
def cdpCapabilityBits : List (Nat × Str) :=
  [(0x0001, str "router"), (0x0002, str "transparent_bridge"), (0x0004, str "source_route_bridge"),
    (0x0008, str "switch"), (0x0010, str "host"), (0x0020, str "igmp"), (0x0040, str "repeater"),
    (0x0080, str "telephone"), (0x0100, str "remotely_managed"),
    (0x0200, str "two_port_mac_relay")]

/-! ## Addresses -/

/-- `"%x" % n` -/
def hexNat (n : Nat) : Str :=
  if n = 0 then str "0"
  else (Nat.digits 16 n).reverse.map fun d => lowerAscii (upperHexDigit d)

/-- The longest run of zeros, the first among equals: where it starts, and its length. -/
def longestZeros (hextets : List Nat) : Nat × Nat :=
  (List.range hextets.length).foldl (fun best i =>
    let run := ((hextets.drop i).takeWhile (· = 0)).length
    if best.2 < run then (i, run) else best) (0, 0)

/-- `str(ipaddress.IPv6Address(raw))`, on sixteen bytes. -/
def ipv6Text (raw : List Byte) : Str :=
  let hextets := (raw.toChunks 2).map fromBytes
  let (start, length) := longestZeros hextets
  let colons (l : List Nat) : Str := join (str ":") (l.map hexNat)
  if 1 < length then
    colons (hextets.take start) ++ str "::" ++ colons (hextets.drop (start + length))
  else colons hextets

/-- `str(ipaddress.ip_address(raw))`; the error is a `ValueError`. -/
def ipAddress (raw : List Byte) : Except Exc Str :=
  if raw.length = 4 then .ok (ipv4 raw)
  else if raw.length = 16 then .ok (ipv6Text raw)
  else .error .value

/-- `_network_address` -/
def networkAddress (value : List Byte) (label : Str) : Except Exc Str :=
  if value.length < 2 then
    passiveParseError (str "invalid " ++ label ++ str " network address")
  else do
    let family ← byteAt value 0
    let packed := value.drop 1
    let expected := if family = 1 then 4 else if family = 2 then 16 else 0
    if expected = 0 ∨ packed.length ≠ expected then
      passiveParseError (str "unsupported " ++ label ++ str " address family")
    else
      match ipAddress packed with
      | .error .value => passiveParseError (str "invalid " ++ label ++ str " address")
      | result => result

/-! ## Values -/

/-- `_text` -/
def text (value : List Byte) (maximum : Nat) (label : Str) : Except Exc Str :=
  if value = [] ∨ maximum < value.length ∨ 0 ∈ value then
    passiveParseError (str "invalid " ++ label)
  else
    match decodeUtf8 value with
    | none => passiveParseError (str "invalid UTF-8 in " ++ label)
    | some s => .ok s

/-- `_capability_names` -/
def capabilityNames (value : Nat) (definitions : List (Nat × Str)) : List Json :=
  (definitions.filter fun d => value &&& d.1 ≠ 0).map fun d => .string d.2

/-- What a mandatory TLV of LLDP identifies. -/
inductive Identity where
  | chassis
  | port

namespace Identity

def name : Identity → Str
  | chassis => str "chassis"
  | port => str "port"

/-- `chassis_names` and `port_names` -/
def names : Identity → List (Nat × Str)
  | chassis =>
    [(1, str "chassis_component"), (2, str "interface_alias"), (3, str "port_component"),
      (4, str "mac_address"), (5, str "network_address"), (6, str "interface_name"),
      (7, str "locally_assigned")]
  | port =>
    [(1, str "interface_alias"), (2, str "port_component"), (3, str "mac_address"),
      (4, str "network_address"), (5, str "interface_name"), (6, str "agent_circuit_id"),
      (7, str "locally_assigned")]

def macSubtype : Identity → Nat
  | chassis => 4
  | port => 3

def networkSubtype : Identity → Nat
  | chassis => 5
  | port => 4

end Identity

/-- `_identifier` -/
def identifier (value : List Byte) (identity : Identity) : Except Exc (Str × Str) :=
  if value.length < 2 then
    passiveParseError (str "invalid LLDP " ++ identity.name ++ str " ID")
  else do
    let first ← byteAt value 0
    let subtype := first.val
    let body := value.drop 1
    let identifier ←
      if subtype = identity.macSubtype then
        if body.length ≠ 6 then
          passiveParseError (str "invalid LLDP " ++ identity.name ++ str " MAC")
        else .ok (join (str ":") (body.map fun octet => hexBytes [octet]))
      else if subtype = identity.networkSubtype then
        networkAddress body (str "LLDP " ++ identity.name)
      else text body 255 (str "LLDP " ++ identity.name ++ str " ID")
    .ok ((Dict.get identity.names subtype).getD (str "unknown_" ++ natStr subtype), identifier)

/-- `_lldp_capabilities` -/
def lldpCapabilities (value : List Byte) : Except Exc (List Json × List Json) :=
  if value.length ≠ 4 then passiveParseError (str "invalid LLDP capabilities")
  else
    .ok (capabilityNames (fromBytes (value.take 2)) lldpCapabilityBits,
      capabilityNames (fromBytes (value.drop 2)) lldpCapabilityBits)

/-- `_lldp_management_address` -/
def lldpManagementAddress (value : List Byte) : Except Exc Str :=
  if value.length < 7 then passiveParseError (str "invalid LLDP management address")
  else do
    let addressLength ← byteAt value 0
    if addressLength.val < 2 ∨ value.length < 1 + addressLength.val + 5 then
      passiveParseError (str "truncated LLDP management address")
    else networkAddress (slice value 1 (1 + addressLength.val)) (str "LLDP management")

/-- `_lldp_organizational` -/
def lldpOrganizational (value : List Byte) : Except Exc (Option Nat) :=
  if value.length < 4 then passiveParseError (str "truncated LLDP organizational TLV")
  else do
    let subtype ← byteAt value 3
    if value.take 3 = ieee8021Oui ∧ subtype = 1 then
      if value.length ≠ 6 then passiveParseError (str "invalid LLDP port VLAN TLV")
      else .ok (some (fromBytes (value.drop 4)))
    else .ok none

/-! ## LLDP -/

/-- The local variables of `parse_lldp`. -/
structure LldpState where
  fields : Fields
  required : Finset Nat
  ended : Bool

/-- `fields[key] = value` -/
def LldpState.put (s : LldpState) (key : Str) (value : Json) : LldpState :=
  { s with fields := s.fields.set key value }

/-- The branches of the loop for a TLV that is not the end and no duplicate. -/
def lldpFields (s : LldpState) (code : Nat) (value : List Byte) : Except Exc LldpState :=
  match code with
  | 1 => do
    let (subtype, identifier) ← identifier value .chassis
    .ok ((s.put (str "chassis_id_subtype") (.string subtype)).put (str "chassis_id")
      (.string identifier))
  | 2 => do
    let (subtype, identifier) ← identifier value .port
    .ok ((s.put (str "port_id_subtype") (.string subtype)).put (str "port_id") (.string identifier))
  | 3 =>
    if value.length ≠ 2 then passiveParseError (str "invalid LLDP TTL")
    else .ok (s.put (str "ttl_seconds") (.int (fromBytes value)))
  | 4 => do
    let description ← text value 512 (str "LLDP port description")
    .ok (s.put (str "port_description") (.string description))
  | 5 => do
    let name ← text value 255 (str "LLDP system name")
    .ok (s.put (str "system_name") (.string name))
  | 6 => do
    let description ← text value 1024 (str "LLDP system description")
    .ok (s.put (str "system_description") (.string description))
  | 7 => do
    let (supported, enabled) ← lldpCapabilities value
    .ok ((s.put (str "capabilities_supported") (.list supported)).put (str "capabilities_enabled")
      (.list enabled))
  | 8 => do
    let address ← lldpManagementAddress value
    .ok (s.put (str "management_address") (.string address))
  | 127 => do
    let vlan ← lldpOrganizational value
    .ok (vlan.elim s fun id => s.put (str "vlan_id") (.int id))
  | _ => .ok s

/-- The body of the loop of `parse_lldp`. -/
def lldpTlv (s : LldpState) (t : LldpTlv) : Except Exc LldpState :=
  let code := t.type.val
  if code = 0 then .ok { s with ended := true }
  else if code ∈ [1, 2, 3] then
    if code ∈ s.required then passiveParseError (str "duplicate mandatory LLDP TLV")
    else lldpFields { s with required := insert code s.required } code t.value
  else lldpFields s code t.value

/-- The observation of a neighbor. -/
def neighbor (frame : PassiveFrame) (fields : Fields) (source : Str) (ttl : Nat) :
    Except Exc (List PassiveObservation) :=
  (frame.observedAt.add (ttl * 1000000)).elim (.error .overflow) fun expiresAt =>
    .ok [{ kind := str "link_layer_neighbor"
           fields := fields
           source := source
           observedAt := some frame.observedAt.stamp
           expiresAt := some expiresAt.stamp }]

/-- `fields["local_interface"] = frame.interface` -/
def localInterface (frame : PassiveFrame) : Fields :=
  frame.interface.elim [] fun interface => [(str "local_interface", .string interface)]

/-- `parse_lldp` -/
def parseLldp (frame : PassiveFrame) : Except Exc (List PassiveObservation) :=
  if frame.protocol ≠ str "lldp" then
    passiveParseError (str "LLDP parser received a different protocol")
  else do
    let fields := (str "protocol", Json.string (str "lldp")) :: localInterface frame
    let (tlvs, error) := lldpTlvs frame.payload
    let s ← tlvs.foldlM lldpTlv ⟨fields, ∅, false⟩
    match error with
    | some e => .error e
    | none =>
      if s.ended = false then passiveParseError (str "LLDP end TLV is missing")
      else if s.required ≠ {1, 2, 3} then
        passiveParseError (str "LLDP mandatory TLVs are missing")
      else
        match s.fields.get (str "ttl_seconds") with
        | none => .error .key
        | some (.int ttl) => neighbor frame s.fields (str "passive:lldp") ttl.toNat
        | some _ => .error .assertion

/-- Fields that are set one after the other. -/
def setAll (fields updates : Fields) : Fields := updates.foldl (fun d u => d.set u.1 u.2) fields

theorem get_setAll {fields updates : Fields} {key : Str} (h : key ∉ updates.map Prod.fst) :
    (setAll fields updates).get key = fields.get key := by
  induction updates generalizing fields with
  | nil => rfl
  | cons u updates ih =>
    rw [List.map_cons, List.mem_cons, not_or] at h
    change (setAll (fields.set u.1 u.2) updates).get key = _
    rw [ih h.2, Dict.get_set, if_neg (Ne.symm h.1)]

/-- Some fields have been set, and not that of the TTL. -/
def LldpState.Extends (s s' : LldpState) : Prop :=
  ∃ updates : Fields, s' = { s with fields := setAll s.fields updates } ∧
    str "ttl_seconds" ∉ updates.map Prod.fst

namespace LldpState

theorem extends_self (s : LldpState) : s.Extends s := ⟨[], rfl, List.not_mem_nil⟩

theorem Extends.put {s s' : LldpState} (h : s.Extends s') {key : Str} (hkey : key ≠ str "ttl_seconds")
    (value : Json) : s.Extends (s'.put key value) := by
  obtain ⟨updates, rfl, hnot⟩ := h
  refine ⟨updates ++ [(key, value)], ?_, ?_⟩
  · simp [LldpState.put, setAll]
  · simpa [hnot] using Ne.symm hkey

end LldpState

/-- A branch of the loop sets fields; it is that of the TTL that sets the TTL. -/
theorem lldpFields_extends {s s' : LldpState} {code : Nat} {value : List Byte} (hcode : code ≠ 3)
    (h : lldpFields s code value = .ok s') : s.Extends s' := by
  unfold lldpFields at h
  split at h
  · obtain ⟨_, -, h⟩ := Except.bind_eq_ok.mp h
    exact Except.ok.inj h ▸ (s.extends_self.put (by decide) _).put (by decide) _
  · obtain ⟨_, -, h⟩ := Except.bind_eq_ok.mp h
    exact Except.ok.inj h ▸ (s.extends_self.put (by decide) _).put (by decide) _
  · exact absurd rfl hcode
  · obtain ⟨_, -, h⟩ := Except.bind_eq_ok.mp h
    exact Except.ok.inj h ▸ s.extends_self.put (by decide) _
  · obtain ⟨_, -, h⟩ := Except.bind_eq_ok.mp h
    exact Except.ok.inj h ▸ s.extends_self.put (by decide) _
  · obtain ⟨_, -, h⟩ := Except.bind_eq_ok.mp h
    exact Except.ok.inj h ▸ s.extends_self.put (by decide) _
  · obtain ⟨_, -, h⟩ := Except.bind_eq_ok.mp h
    exact Except.ok.inj h ▸ (s.extends_self.put (by decide) _).put (by decide) _
  · obtain ⟨_, -, h⟩ := Except.bind_eq_ok.mp h
    exact Except.ok.inj h ▸ s.extends_self.put (by decide) _
  · obtain ⟨vlan, -, h⟩ := Except.bind_eq_ok.mp h
    cases vlan with
    | none => exact Except.ok.inj h ▸ s.extends_self
    | some id => exact Except.ok.inj h ▸ s.extends_self.put (by decide) _
  · exact Except.ok.inj h ▸ s.extends_self

/-- The branch of the TTL. -/
theorem lldpFields_ttl {s s' : LldpState} {value : List Byte} (h : lldpFields s 3 value = .ok s') :
    value.length = 2 ∧ s' = s.put (str "ttl_seconds") (.int (fromBytes value)) := by
  simp only [lldpFields] at h
  split at h
  · cases h
  · next hlength => exact ⟨not_not.mp hlength, (Except.ok.inj h).symm⟩

/-! ## CDP -/

/-- An address of a CDP TLV, with the name of its protocol. -/
structure CdpAddress where
  protocol : List Byte
  address : List Byte

/-- One pass of the loop of `_cdp_addresses`, up to the address itself. -/
def readCdpAddress (rest : List Byte) : Except Exc (CdpAddress × List Byte) :=
  if rest.length < 2 then passiveParseError (str "truncated CDP address protocol")
  else do
    let protocolLength ← byteAt rest 1
    let rest := rest.drop 2
    if rest.length < protocolLength.val then
      passiveParseError (str "truncated CDP address protocol value")
    else
      let protocol := rest.take protocolLength.val
      let rest := rest.drop protocolLength.val
      if rest.length < 2 then passiveParseError (str "truncated CDP address length")
      else
        let addressLength := fromBytes (rest.take 2)
        let rest := rest.drop 2
        if rest.length < addressLength then passiveParseError (str "truncated CDP address value")
        else .ok (⟨protocol, rest.take addressLength⟩, rest.drop addressLength)

/-- What an address adds to the result. -/
def renderCdpAddress (a : CdpAddress) : Except Exc (List Json) :=
  if a.protocol = [0xCC] ∨ a.address.length ∈ [4, 16] then do
    let rendered ← ipAddress a.address
    .ok [.string rendered]
  else .ok []

/-- The loop of `_cdp_addresses`: the result, and what is left of the value. -/
def cdpAddressLoop : Nat → List Byte → Except Exc (List Json × List Byte)
  | 0, rest => .ok ([], rest)
  | n + 1, rest => do
    let (address, rest) ← readCdpAddress rest
    let found ← renderCdpAddress address
    let (others, rest) ← cdpAddressLoop n rest
    .ok (found ++ others, rest)

/-- `_cdp_addresses` -/
def cdpAddresses (value : List Byte) : Except Exc (List Json) :=
  if value.length < 4 then passiveParseError (str "truncated CDP addresses")
  else
    let count := fromBytes (value.take 4)
    if 64 < count then passiveParseError (str "too many CDP addresses")
    else do
      let (result, rest) ← cdpAddressLoop count (value.drop 4)
      if rest ≠ [] then passiveParseError (str "trailing bytes in CDP addresses")
      else .ok result

/-- The TLVs with addresses. -/
def addressFields (fields : Fields) (value : List Byte) : Except Exc Fields := do
  let addresses ← cdpAddresses value
  match addresses with
  | [] => .ok fields
  | first :: _ =>
    .ok ((fields.set (str "management_address") first).set (str "management_addresses")
      (.list addresses))

/-- The body of the loop of `parse_cdp`. -/
def cdpTlv (fields : Fields) (t : CdpTlv) : Except Exc Fields :=
  match t.type.val with
  | 0x0001 => do
    let id ← text t.value 255 (str "CDP device ID")
    .ok (((fields.set (str "chassis_id_subtype") (.string (str "device_name"))).set
      (str "chassis_id") (.string id)).set (str "system_name") (.string id))
  | 0x0002 => addressFields fields t.value
  | 0x0003 => do
    let id ← text t.value 255 (str "CDP port ID")
    .ok ((fields.set (str "port_id_subtype") (.string (str "interface_name"))).set (str "port_id")
      (.string id))
  | 0x0004 =>
    if t.value.length ≠ 4 then passiveParseError (str "invalid CDP capabilities")
    else
      .ok (fields.set (str "capabilities_enabled")
        (.list (capabilityNames (fromBytes t.value) cdpCapabilityBits)))
  | 0x0005 => do
    let version ← text t.value 1024 (str "CDP software version")
    .ok (fields.set (str "system_description") (.string version))
  | 0x0006 => do
    let platform ← text t.value 255 (str "CDP platform")
    .ok (fields.set (str "platform") (.string platform))
  | 0x000A =>
    if t.value.length ≠ 2 then passiveParseError (str "invalid CDP native VLAN")
    else .ok (fields.set (str "vlan_id") (.int (fromBytes t.value)))
  | 0x0016 => addressFields fields t.value
  | _ => .ok fields

/-- The fields of a CDP frame before its TLVs. -/
def cdpHeader (frame : PassiveFrame) (version ttl : Byte) : Fields :=
  [(str "protocol", .string (str "cdp")), (str "protocol_version", .int version.val),
    (str "ttl_seconds", .int ttl.val)] ++ localInterface frame

/-- `parse_cdp` -/
def parseCdp (frame : PassiveFrame) : Except Exc (List PassiveObservation) :=
  let payload := frame.payload
  if frame.protocol ≠ str "cdp" then
    passiveParseError (str "CDP parser received a different protocol")
  else if ¬ (4 ≤ payload.length ∧ payload.length ≤ maxCdpBytes) then
    passiveParseError (str "CDP frame length is invalid")
  else do
    let version ← byteAt payload 0
    let ttl ← byteAt payload 1
    if version.val ∉ [1, 2] then passiveParseError (str "unsupported CDP version")
    else do
      let (tlvs, error) := cdpTlvs (payload.drop 4)
      let fields ← tlvs.foldlM cdpTlv (cdpHeader frame version ttl)
      match error with
      | some e => .error e
      | none =>
        if fields.get (str "chassis_id") = none ∨ fields.get (str "port_id") = none then
          passiveParseError (str "CDP device or port identity is missing")
        else neighbor frame fields (str "passive:cdp") ttl.val

end FieldDiscovery.Passive.Link
