import FieldDiscovery.Passive.Observation
import FieldDiscovery.Redaction.Redactor

/-!
# DHCP frames

`parse_dhcp`: a captured BOOTP payload becomes one structured observation.
-/

namespace FieldDiscovery.Passive

open Py Redaction

/-- `raise PassiveParseError(message)` -/
def passiveParseError {α : Type} (message : Str) : Except Exc α := .error (.passiveParse message)

namespace Dhcp

/-! ## Constants -/

/-- `BOOTP_HEADER_BYTES` -/
def bootpHeaderBytes : Nat := 236

/-- `DHCP_FIXED_BYTES` -/
def dhcpFixedBytes : Nat := 240

/-- `DHCP_MAGIC_COOKIE` -/
def magicCookie : List Byte := [0x63, 0x82, 0x53, 0x63]

/-- `MAX_DHCP_FRAME_BYTES` -/
def maxDhcpFrameBytes : Nat := 4096

/-- `_MESSAGE_TYPES` -/
inductive MessageType where
  | discover
  | offer
  | request
  | decline
  | ack
  | nak
  | release
  | inform
  deriving DecidableEq

namespace MessageType

def ofCode (code : Byte) : Option MessageType :=
  [discover, offer, request, decline, ack, nak, release, inform][code.val - 1]?.filter
    fun _ => code ≠ 0

def value : MessageType → Str
  | discover => str "discover"
  | offer => str "offer"
  | request => str "request"
  | decline => str "decline"
  | ack => str "ack"
  | nak => str "nak"
  | release => str "release"
  | inform => str "inform"

/-- `_CLIENT_MESSAGES` -/
def isClient (m : MessageType) : Bool := m ∈ [discover, request, decline, release, inform]

/-- `_SERVER_MESSAGES` -/
def isServer (m : MessageType) : Bool := m ∈ [offer, ack, nak]

end MessageType

/-! ## Options -/

/-- `_ipv4`, on four bytes. -/
def ipv4 (raw : List Byte) : Str := join (str ".") (raw.map fun b => natStr b.val)

/-- `_nonzero_ipv4` -/
def nonzeroIpv4 (raw : List Byte) : Option Str :=
  let value := ipv4 raw
  if value = str "0.0.0.0" then none else some value

/-- Option values under their codes. -/
abbrev Options := Dict Byte (List Byte)

/-- The loop of `_options` over the bytes that are left. -/
def optionLoop : Nat → List Byte → Options → Except Exc Options
  | fuel + 1, code :: rest, result =>
    if code = 0 then optionLoop fuel rest result
    else if code = 255 then .ok result
    else
      match rest with
      | [] => passiveParseError (str "DHCP option length is truncated")
      | length :: rest =>
        if rest.length < length.val then
          passiveParseError (str "DHCP option value is truncated")
        else if (result.get code).isSome then
          passiveParseError (str "duplicate DHCP option " ++ natStr code.val)
        else optionLoop fuel (rest.drop length.val) (result.set code (rest.take length.val))
  | _, _, _ => passiveParseError (str "DHCP options have no end marker")

/-- `_options`; every round takes a byte. -/
def options (payload : List Byte) : Except Exc Options :=
  optionLoop payload.length (payload.drop dhcpFixedBytes) []

/-- `_fixed` -/
def fixed (options : Options) (code : Byte) (length : Nat) : Except Exc (Option (List Byte)) :=
  match options.get code with
  | none => .ok none
  | some value =>
    if value.length ≠ length then
      passiveParseError (str "DHCP option " ++ natStr code.val ++ str " must be " ++
        natStr length ++ str " bytes")
    else .ok (some value)

/-- `_seconds` -/
def seconds (options : Options) (code : Byte) : Except Exc (Option Nat) := do
  let value ← fixed options code 4
  .ok (value.map fun raw => raw.foldl (fun n b => 256 * n + b.val) 0)

/-- `_address_list` -/
def addressList (options : Options) (code : Byte) : Except Exc (List Json) :=
  match options.get code with
  | none => .ok []
  | some value =>
    if value = [] ∨ value.length % 4 ≠ 0 then
      passiveParseError (str "DHCP option " ++ natStr code.val ++ str " must contain IPv4 addresses")
    else .ok ((value.toChunks 4).map fun raw => .string (ipv4 raw))

section

variable (rt : Runtime) (r : Redactor)

/-- `_text` -/
def text (options : Options) (code : Byte) : Except Exc (Option Str) :=
  match options.get code with
  | none => .ok none
  | some value =>
    if value = [] then
      passiveParseError (str "DHCP option " ++ natStr code.val ++ str " must not be empty")
    else
      let decoded := stripBy (· = cp '\x00') (strip (decodeUtf8Replace value))
      if decoded = [] then
        passiveParseError (str "DHCP option " ++ natStr code.val ++ str " has no usable text")
      else do
        let redacted ← r.text rt decoded
        .ok (some redacted)

/-! ## The parser -/

/-- A value that may be absent. -/
def optional {α : Type} (toJson : α → Json) (value : Option α) : Json :=
  match value with
  | none => .null
  | some a => toJson a

/-- The checks of `parse_dhcp` on the fixed header. -/
def checkHeader (frame : PassiveFrame) : Except Exc Unit :=
  let payload := frame.payload
  if rt.casefold frame.protocol ≠ str "dhcp" then
    passiveParseError (str "DHCP parser received a different protocol")
  else if payload.length < dhcpFixedBytes then
    passiveParseError (str "DHCP frame is shorter than the fixed header")
  else if maxDhcpFrameBytes < payload.length then
    passiveParseError (str "DHCP frame exceeds the parser size limit")
  else if (payload.take dhcpFixedBytes).drop bootpHeaderBytes ≠ magicCookie then
    passiveParseError (str "DHCP magic cookie is missing")
  else if ¬ (payload.getD 0 0 ∈ [1, 2] ∧ 1 ≤ (payload.getD 2 0).val ∧
      (payload.getD 2 0).val ≤ 16) then
    passiveParseError (str "BOOTP operation or hardware length is invalid")
  else .ok ()

/-- The message type, which has to agree with the BOOTP operation. -/
def messageType (operation : Byte) (options : Options) : Except Exc MessageType := do
  let value ← fixed options 53 1
  match (value.bind List.head?).bind MessageType.ofCode with
  | none => passiveParseError (str "DHCP message type is missing or unsupported")
  | some m =>
    if m.isClient ∧ operation ≠ 1 ∨ m.isServer ∧ operation ≠ 2 then
      passiveParseError (str "DHCP message type conflicts with BOOTP operation")
    else .ok m

/-- `payload[start:stop]` -/
def slice (payload : List Byte) (start stop : Nat) : List Byte := (payload.take stop).drop start

/-- The MAC address of an Ethernet client. -/
def clientMac (payload : List Byte) : Option Str :=
  let hardwareLength := (payload.getD 2 0).val
  if payload.getD 1 0 = 1 ∧ hardwareLength = 6 then
    some (join (str ":") ((slice payload 28 (28 + hardwareLength)).map fun b => hexBytes [b]))
  else none

/-- `expires_at`; `timedelta` additions overflow past the last year. -/
def leaseEnd (observedAt : Utc) (m : MessageType) (leaseSeconds : Option Nat) :
    Except Exc (Option Utc) :=
  match leaseSeconds with
  | none => .ok none
  | some s =>
    if m ∈ [MessageType.offer, MessageType.ack] then
      match observedAt.add (s * 1000000) with
      | none => .error .overflow
      | some t => .ok (some t)
    else .ok none

/-- `parse_dhcp` -/
def parseDhcp (frame : PassiveFrame) : Except Exc (List PassiveObservation) := do
  checkHeader rt frame
  let payload := frame.payload
  let options ← options payload
  let m ← messageType (payload.getD 0 0) options
  let clientAddress := nonzeroIpv4 (slice payload 12 16)
  let offeredAddress := nonzeroIpv4 (slice payload 16 20)
  let nextServer := nonzeroIpv4 (slice payload 20 24)
  let relayAddress := nonzeroIpv4 (slice payload 24 28)
  let clientIdentifier := (options.get 61).filter (· ≠ [])
  let serverIdentifierValue ← fixed options 54 4
  let requestedAddressValue ← fixed options 50 4
  let leaseSeconds ← seconds options 51
  let renewalSeconds ← seconds options 58
  let rebindingSeconds ← seconds options 59
  let serverIdentifier := (serverIdentifierValue.map ipv4).orElse fun _ => nextServer
  let assignedAddress :=
    if m ∈ [MessageType.offer, MessageType.ack] then offeredAddress.orElse fun _ => clientAddress
    else clientAddress
  let hostname ← text rt r options 12
  let vendorClass ← text rt r options 60
  let routers ← addressList options 3
  let dnsServers ← addressList options 6
  let domainName ← text rt r options 15
  let expiresAt ← leaseEnd frame.observedAt m leaseSeconds
  let text := optional Json.string
  let number := optional fun n : Nat => Json.int n
  .ok [{ kind := str "dhcp_message"
         fields := [
           (str "message_type", .string m.value),
           (str "transaction_id", .string (hexBytes (slice payload 4 8))),
           (str "client_mac", text (clientMac payload)),
           (str "client_identifier", text (clientIdentifier.map hexBytes)),
           (str "client_address", text clientAddress),
           (str "requested_address", text (requestedAddressValue.map ipv4)),
           (str "assigned_address", text assignedAddress),
           (str "server_identifier", text serverIdentifier),
           (str "relay_address", text relayAddress),
           (str "lease_seconds", number leaseSeconds),
           (str "renewal_seconds", number renewalSeconds),
           (str "rebinding_seconds", number rebindingSeconds),
           (str "hostname", text hostname),
           (str "vendor_class", text vendorClass),
           (str "routers", .list routers),
           (str "dns_servers", .list dnsServers),
           (str "domain_name", text domainName),
           (str "is_renewal",
             .bool (m ∈ [MessageType.request, MessageType.ack] ∧ clientAddress.isSome)),
           (str "interface", text frame.interface)]
         source := str "passive.dhcp"
         observedAt := some frame.observedAt.stamp
         expiresAt := expiresAt.map Utc.stamp }]

end

end Dhcp

end FieldDiscovery.Passive
