import FieldDiscovery.Lib.Framing
import FieldDiscovery.Lib.IpAddress
import FieldDiscovery.Passive.Dhcp

/-!
# Evidence of neighbors

The part of `neighbor.py` that makes evidence: `NeighborEvidence`, whose fields are normalized when it
is built, and `parse_arp_evidence`.
-/

namespace FieldDiscovery.Passive.Neighbor

open Py Framing Dhcp

/-- `MAX_ARP_PAYLOAD_BYTES` -/
def maxArpPayloadBytes : Nat := 256

/-- `_VALID_STATES` -/
def validStates : List Str :=
  [str "permanent", str "noarp", str "reachable", str "stale", str "none", str "incomplete",
    str "delay", str "probe", str "failed"]

/-- `_ipv4` -/
def normalIpv4 (value : Str) : Except Exc Str :=
  match ipv4Address value with
  | none => passiveParseError (str "neighbor IPv4 address is invalid")
  | some octets => .ok (join (str ".") (octets.map natStr))

/-- ASCII whitespace, which `bytes.fromhex` skips between bytes. -/
def isAsciiSpace (c : CodePoint) : Bool := c.val == 32 || (9 ≤ c.val && c.val ≤ 13)

/-- `bytes.fromhex(s)` -/
def bytesFromHex : Str → Option (List Byte)
  | [] => some []
  | [c] => if isAsciiSpace c then some [] else none
  | c :: d :: s =>
    if isAsciiSpace c then bytesFromHex (d :: s)
    else if isHex c ∧ isHex d then
      (bytesFromHex s).map fun bytes => Fin.ofNat _ (hexNumber [c, d]) :: bytes
    else none

/-- The octets in hexadecimal, with colons between them. -/
def macText (raw : List Byte) : Str := join (str ":") (raw.map fun octet => hexBytes [octet])

/-- `_mac` -/
def normalMac (value : Str) : Except Exc Str :=
  let plain := replace (str "-") [] (replace (str ":") [] (strip value))
  if plain.length ≠ 12 then passiveParseError (str "neighbor MAC address is invalid")
  else
    match bytesFromHex plain with
    | none => passiveParseError (str "neighbor MAC address is invalid")
    | some raw => .ok (macText raw)

/-- `NeighborEvidence` -/
structure NeighborEvidence where
  address : Str
  macAddress : Option Str
  interface : Str
  state : Str
  source : Str
  observedAt : Utc
  operation : Option Str
  interface_ne : interface ≠ []
  source_ne : source ≠ []
  state_valid : state ∈ validStates

/-- `NeighborEvidence(...)`; the time is in UTC already. -/
def NeighborEvidence.make (rt : Runtime) (address : Str) (macAddress : Option Str)
    (interface state source : Str) (observedAt : Utc) (operation : Option Str) :
    Except Exc NeighborEvidence := do
  let address ← normalIpv4 address
  let macAddress ← macAddress.mapM normalMac
  let interface := strip interface
  let source := strip source
  let state := rt.casefold (strip state)
  if h : interface ≠ [] ∧ source ≠ [] then
    if hstate : state ∈ validStates then
      .ok ⟨address, macAddress, interface, state, source, observedAt, operation, h.1, h.2, hstate⟩
    else passiveParseError (str "neighbor state is unsupported")
  else passiveParseError (str "neighbor interface and source must not be empty")

/-- The fields of an ARP header. -/
structure ArpHeader where
  hardwareType : Nat
  protocolType : Nat
  hardwareLength : Nat
  protocolLength : Nat
  operation : Nat

/-- `struct.unpack("!HHBBH", raw)` -/
def unpackArp : List Byte → Except Exc ArpHeader
  | [a, b, c, d, e, f, g, h] =>
    .ok ⟨fromBytes [a, b], fromBytes [c, d], e.val, f.val, fromBytes [g, h]⟩
  | _ => .error .struct

/-- `str(ipaddress.IPv4Address(raw))`; the error is `AddressValueError`. -/
def packedIpv4 (raw : List Byte) : Except Exc Str :=
  if raw.length = 4 then .ok (ipv4 raw) else .error .value

/-- `parse_arp_evidence` -/
def parseArpEvidence (rt : Runtime) (frame : PassiveFrame) : Except Exc NeighborEvidence :=
  let payload := frame.payload
  if rt.casefold frame.protocol ≠ str "arp" then
    passiveParseError (str "ARP parser received a different protocol")
  else if payload.length < 8 then
    passiveParseError (str "ARP payload is shorter than its header")
  else if maxArpPayloadBytes < payload.length then
    passiveParseError (str "ARP payload exceeds the parser size limit")
  else do
    let header ← unpackArp (payload.take 8)
    if header.hardwareType ≠ 1 ∨ header.protocolType ≠ 0x0800 then
      passiveParseError (str "ARP hardware or protocol type is unsupported")
    else if header.hardwareLength ≠ 6 ∨ header.protocolLength ≠ 4 then
      passiveParseError (str "ARP address lengths are unsupported")
    else if header.operation ∉ [1, 2] then passiveParseError (str "ARP operation is unsupported")
    else if payload.length < 8 + 2 * header.hardwareLength + 2 * header.protocolLength then
      passiveParseError (str "ARP address fields are truncated")
    else do
      let senderMac := macText (slice payload 8 14)
      let senderIp ← packedIpv4 (slice payload 14 18)
      if senderIp = str "0.0.0.0" then
        passiveParseError (str "ARP sender IPv4 address is unspecified")
      else
        NeighborEvidence.make rt senderIp (some senderMac)
          (match frame.interface with
            | some interface => if interface = [] then str "unknown" else interface
            | none => str "unknown")
          (str "reachable") (str "passive.arp") frame.observedAt
          (some (if header.operation = 1 then str "request" else str "reply"))

end FieldDiscovery.Passive.Neighbor
