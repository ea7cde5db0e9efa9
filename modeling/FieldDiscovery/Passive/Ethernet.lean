import FieldDiscovery.Lib.Except
import FieldDiscovery.Lib.Framing
import FieldDiscovery.Passive.Dhcp

/-!
# Captured frames

`decode_ethernet` and `_decode_ipv4_udp` of `passive_service.py`: from a captured frame to the
protocol and the payload that a parser gets. Reading a byte and unpacking a header can raise; that
they never do here is `decodeEthernet_exact`.

`Datagram` is an IPv4 packet with a UDP datagram inside, given by its parts: the three lengths in its
headers delimit the parts, and bytes that a length leaves out are parts of their own.
-/

namespace FieldDiscovery.Passive.Capture

open Py Framing Dhcp

/-! ## Decoding -/

/-- `MAX_CAPTURE_BYTES` -/
def maxCaptureBytes : Nat := 9216

/-- `ETH_P_8021Q` and `ETH_P_8021AD` -/
def tagTypes : List Nat := [0x8100, 0x88A8]

/-- `CDP_DESTINATION` -/
def cdpDestination : List Byte := [0x01, 0x00, 0x0C, 0xCC, 0xCC, 0xCC]

/-- `CDP_SNAP` -/
def cdpSnap : List Byte := [0xAA, 0xAA, 0x03, 0x00, 0x00, 0x0C, 0x20, 0x00]

/-- The protocols that frames are decoded for. -/
inductive Protocol where
  | lldp
  | arp
  | mdns
  | dhcp
  | cdp
  deriving DecidableEq

def Protocol.name : Protocol → Str
  | lldp => str "lldp"
  | arp => str "arp"
  | mdns => str "mdns"
  | dhcp => str "dhcp"
  | cdp => str "cdp"

/-- `data[i]`; the error is an `IndexError`. -/
def byteAt (data : List Byte) (i : Nat) : Except Exc Byte :=
  match data[i]? with
  | some b => .ok b
  | none => .error .lookup

/-- `struct.unpack("!HHH", raw)` -/
def unpackPorts : List Byte → Except Exc (Nat × Nat × Nat)
  | [a, b, c, d, e, f] => .ok (fromBytes [a, b], fromBytes [c, d], fromBytes [e, f])
  | _ => .error .struct

/-- The protocol of a datagram between two ports. -/
def serviceOf (sourcePort destinationPort : Nat) : Option Protocol :=
  if 5353 ∈ [sourcePort, destinationPort] then some .mdns
  else if 67 ∈ [sourcePort, destinationPort] ∨ 68 ∈ [sourcePort, destinationPort] then some .dhcp
  else none

/-- `_decode_ipv4_udp` -/
def decodeIpv4Udp (payload : List Byte) : Except Exc (Option (Protocol × List Byte)) :=
  if payload.length < 28 then .ok none
  else do
    let first ← byteAt payload 0
    if first.val / 16 ≠ 4 then .ok none
    else
      let headerLength := first.val % 16 * 4
      let totalLength := fromBytes (slice payload 2 4)
      let fragmented := fromBytes (slice payload 6 8) % 0x4000 ≠ 0
      if headerLength < 20 ∨ totalLength < headerLength + 8 ∨ payload.length < totalLength then
        .ok none
      else do
        let protocol ← byteAt payload 9
        if protocol ≠ 17 ∨ fragmented then .ok none
        else do
          let udp := slice payload headerLength totalLength
          let (sourcePort, destinationPort, udpLength) ← unpackPorts (udp.take 6)
          if udpLength < 8 ∨ udp.length < udpLength then .ok none
          else .ok ((serviceOf sourcePort destinationPort).map (·, slice udp 8 udpLength))

/-- `decode_ethernet` -/
def decodeEthernet (packet : List Byte) : Except Exc (Option (Protocol × List Byte)) :=
  if packet.length < 14 ∨ maxCaptureBytes < packet.length then .ok none
  else
    let destination := packet.take 6
    let protocol := fromBytes (slice packet 12 14)
    if protocol ∈ tagTypes then
      if packet.length < 18 then .ok none
      else decodePayload destination (fromBytes (slice packet 16 18)) (packet.drop 18)
    else decodePayload destination protocol (packet.drop 14)
where
  /-- The payload after the last field of the link header, by its protocol. -/
  decodePayload (destination : List Byte) (protocol : Nat) (payload : List Byte) :
      Except Exc (Option (Protocol × List Byte)) :=
    if protocol = 0x88CC then .ok (some (.lldp, payload))
    else if protocol = 0x0806 then .ok (some (.arp, payload))
    else if protocol = 0x0800 then decodeIpv4Udp payload
    else if protocol ≤ 1500 ∧ destination = cdpDestination ∧ cdpSnap <+: payload then
      .ok (some (.cdp, payload.drop cdpSnap.length))
    else .ok none

/-! ## Slices -/

theorem byteAt_eq_ok {data : List Byte} {i : Nat} (h : i < data.length) :
    byteAt data i = .ok (data.getD i 0) := by
  unfold byteAt
  rw [List.getD_eq_getElem?_getD, List.getElem?_eq_getElem h]
  rfl

theorem getD_append_left {a b : List Byte} {i : Nat} (h : i < a.length) :
    (a ++ b).getD i 0 = a.getD i 0 := by
  rw [List.getD_eq_getElem?_getD, List.getD_eq_getElem?_getD, List.getElem?_append_left h]

theorem slice_append_left {a b : List Byte} {start stop : Nat} (h : stop ≤ a.length) :
    slice (a ++ b) start stop = slice a start stop := by
  unfold slice
  rw [List.take_append_of_le_length h]

/-- A part between two others. -/
theorem slice_middle (a b c : List Byte) :
    slice (a ++ (b ++ c)) a.length (a.length + b.length) = b := by
  unfold slice
  rw [← List.append_assoc, ← List.length_append, List.take_left, List.drop_left]

theorem length_slice {data : List Byte} {start stop : Nat} (h : stop ≤ data.length) :
    (slice data start stop).length = stop - start := by
  unfold slice
  rw [List.length_drop, List.length_take_of_le h]

theorem slice_take {data : List Byte} {start stop n : Nat} (h : stop ≤ n) :
    slice (data.take n) start stop = slice data start stop := by
  unfold slice
  rw [List.take_take, Nat.min_eq_left h]

theorem getD_take {data : List Byte} {i n : Nat} (h : i < n) :
    (data.take n).getD i 0 = data.getD i 0 := by
  rw [List.getD_eq_getElem?_getD, List.getD_eq_getElem?_getD, List.getElem?_take_of_lt h]

/-- The data as three consecutive slices. -/
theorem take_slice_drop {data : List Byte} {start stop : Nat} (h : start ≤ stop) :
    data.take start ++ (slice data start stop ++ data.drop stop) = data := by
  unfold slice
  rw [← List.append_assoc]
  have htake : data.take start = (data.take stop).take start := by
    rw [List.take_take, Nat.min_eq_left h]
  rw [htake, List.take_append_drop, List.take_append_drop]

/-! ## Datagrams -/

/-- An IPv4 packet that is not a fragment, with a UDP datagram. -/
structure Datagram where
  header : List Byte
  sourcePort : Fin 65536
  destinationPort : Fin 65536
  checksum : Byte × Byte
  body : List Byte
  /-- Inside the IP total length, and outside the UDP length. -/
  slack : List Byte
  /-- Outside the IP total length. -/
  padding : List Byte
  version : (header.getD 0 0).val / 16 = 4
  headerLength : header.length = (header.getD 0 0).val % 16 * 4
  headerMinimum : 20 ≤ header.length
  totalLength : fromBytes (slice header 2 4) = header.length + (8 + (body.length + slack.length))
  unfragmented : fromBytes (slice header 6 8) % 0x4000 = 0
  protocol : header.getD 9 0 = 17
  udpLength : 8 + body.length < 65536

namespace Datagram

/-- The UDP header. -/
def udpHeader (d : Datagram) : List Byte :=
  word d.sourcePort.val ++ (word d.destinationPort.val ++ (word (8 + d.body.length) ++
    [d.checksum.1, d.checksum.2]))

/-- What the IP header covers besides itself. -/
def udp (d : Datagram) : List Byte := d.udpHeader ++ (d.body ++ d.slack)

def bytes (d : Datagram) : List Byte := d.header ++ (d.udp ++ d.padding)

/-- The protocol that the ports stand for. -/
def service (d : Datagram) : Option Protocol := serviceOf d.sourcePort.val d.destinationPort.val

/-- The port is one of the two ports. -/
def HasPort (d : Datagram) (port : Fin 65536) : Prop := d.sourcePort = port ∨ d.destinationPort = port

theorem length_udp (d : Datagram) : d.udp.length = 8 + (d.body.length + d.slack.length) := by
  simp [udp, udpHeader, word]
  omega

theorem mem_ports (d : Datagram) (port : Fin 65536) :
    port.val ∈ [d.sourcePort.val, d.destinationPort.val] ↔ d.HasPort port := by
  unfold HasPort
  rw [List.mem_pair, Fin.val_inj, Fin.val_inj, eq_comm, @eq_comm _ port]

theorem service_eq_mdns (d : Datagram) : d.service = some .mdns ↔ d.HasPort 5353 := by
  rw [← d.mem_ports]
  unfold service serviceOf
  split
  · next h => exact iff_of_true rfl h
  · next h =>
    refine iff_of_false ?_ h
    split <;> decide

theorem service_eq_dhcp (d : Datagram) :
    d.service = some .dhcp ↔ ¬ d.HasPort 5353 ∧ (d.HasPort 67 ∨ d.HasPort 68) := by
  rw [← d.mem_ports, ← d.mem_ports, ← d.mem_ports]
  unfold service serviceOf
  split
  · next h => exact iff_of_false (by decide) fun hdhcp => hdhcp.1 h
  · next h =>
    split
    · next hports => exact iff_of_true rfl ⟨h, hports⟩
    · next hports => exact iff_of_false (by decide) fun hdhcp => hports hdhcp.2

end Datagram

/-- A datagram is decoded by its ports, and the body is what its lengths delimit. -/
theorem decodeIpv4Udp_bytes (d : Datagram) :
    decodeIpv4Udp d.bytes = .ok (d.service.map (·, d.body)) := by
  have hudp := d.length_udp
  have hminimum := d.headerMinimum
  have hlength : d.bytes.length = d.header.length + (d.udp.length + d.padding.length) := by
    simp [Datagram.bytes]
  have hbyte : ∀ {i}, i < 20 → byteAt d.bytes i = .ok (d.header.getD i 0) := by
    intro i hi
    rw [byteAt_eq_ok (by omega), Datagram.bytes, getD_append_left (by omega)]
  have hslice : ∀ {start stop}, stop ≤ 20 → slice d.bytes start stop = slice d.header start stop :=
    fun h => slice_append_left (by omega)
  have hpart : slice d.bytes d.header.length (fromBytes (slice d.header 2 4)) = d.udp := by
    rw [d.totalLength, ← hudp]
    exact slice_middle _ _ _
  have hports : unpackPorts (d.udp.take 6) =
      .ok (d.sourcePort.val, d.destinationPort.val, 8 + d.body.length) := by
    have htake : d.udp.take 6 =
        word d.sourcePort.val ++ (word d.destinationPort.val ++ word (8 + d.body.length)) := rfl
    rw [htake]
    change Except.ok (fromBytes (word d.sourcePort.val), fromBytes (word d.destinationPort.val),
      fromBytes (word (8 + d.body.length))) = _
    rw [fromBytes_word d.sourcePort.isLt, fromBytes_word d.destinationPort.isLt,
      fromBytes_word d.udpLength]
  have hbody : slice d.udp 8 (8 + d.body.length) = d.body := slice_middle d.udpHeader d.body d.slack
  unfold decodeIpv4Udp
  rw [if_neg (by omega), hbyte (by decide), Except.ok_bind, if_neg (not_not.mpr d.version)]
  simp only
  rw [← d.headerLength, hslice (by decide), hslice (by decide), if_neg (by
    rw [d.totalLength]
    omega), hbyte (by decide), Except.ok_bind, if_neg (by
    rw [d.protocol, d.unfragmented]
    simp), hpart, hports, Except.ok_bind]
  simp only
  rw [if_neg (by omega), hbody]
  rfl

/-- Whatever is decoded comes from a datagram. -/
theorem exists_datagram {payload : List Byte} {p : Protocol} {body : List Byte}
    (h : decodeIpv4Udp payload = .ok (some (p, body))) :
    ∃ d : Datagram, d.bytes = payload ∧ d.service = some p ∧ d.body = body := by
  unfold decodeIpv4Udp at h
  by_cases hshort : payload.length < 28
  · rw [if_pos hshort] at h
    cases h
  rw [if_neg hshort, byteAt_eq_ok (by omega), Except.ok_bind] at h
  by_cases hversion : (payload.getD 0 0).val / 16 = 4
  swap
  · rw [if_pos hversion] at h
    cases h
  rw [if_neg (not_not.mpr hversion)] at h
  simp only at h
  generalize hheader : (payload.getD 0 0).val % 16 * 4 = headerLength at h
  generalize htotal : fromBytes (slice payload 2 4) = totalLength at h
  by_cases hlengths : headerLength < 20 ∨ totalLength < headerLength + 8 ∨
      payload.length < totalLength
  · rw [if_pos hlengths] at h
    cases h
  rw [if_neg hlengths, byteAt_eq_ok (by omega), Except.ok_bind] at h
  by_cases hprotocol : payload.getD 9 0 ≠ 17 ∨ fromBytes (slice payload 6 8) % 0x4000 ≠ 0
  · rw [if_pos hprotocol] at h
    cases h
  rw [if_neg hprotocol] at h
  obtain ⟨hudp, hfragment⟩ := not_or.mp hprotocol
  have hlength : (slice payload headerLength totalLength).length = totalLength - headerLength :=
    length_slice (by omega)
  have hparts : payload.take headerLength ++
      (slice payload headerLength totalLength ++ payload.drop totalLength) = payload :=
    take_slice_drop (by omega)
  -- the UDP part has a whole header
  match hslice : slice payload headerLength totalLength with
  | a :: b :: c :: d :: e :: f :: x :: y :: rest =>
    rw [hslice] at h hlength hparts
    rw [show (a :: b :: c :: d :: e :: f :: x :: y :: rest).take 6 = [a, b, c, d, e, f] from rfl,
      unpackPorts, Except.ok_bind] at h
    simp only at h
    by_cases hbounds : fromBytes [e, f] < 8 ∨
        (a :: b :: c :: d :: e :: f :: x :: y :: rest).length < fromBytes [e, f]
    · rw [if_pos hbounds] at h
      cases h
    rw [if_neg hbounds] at h
    simp only [List.length_cons] at hlength hbounds
    obtain ⟨n, hn⟩ : ∃ n, fromBytes [e, f] = 8 + n := ⟨fromBytes [e, f] - 8, by omega⟩
    have hbody : slice (a :: b :: c :: d :: e :: f :: x :: y :: rest) 8 (fromBytes [e, f]) =
        rest.take n := by
      rw [hn, slice, Nat.add_comm]
      rfl
    rw [hbody] at h
    have hrest : (rest.take n).length = n := List.length_take_of_le (by omega)
    have hheaderLength : (payload.take headerLength).length = headerLength :=
      List.length_take_of_le (by omega)
    obtain ⟨q, hq, hpair⟩ := Option.map_eq_some_iff.mp (Except.ok.inj h)
    obtain ⟨rfl, rfl⟩ := Prod.mk.inj hpair
    refine ⟨{
      header := payload.take headerLength
      sourcePort := ⟨fromBytes [a, b], fromBytes_pair_lt a b⟩
      destinationPort := ⟨fromBytes [c, d], fromBytes_pair_lt c d⟩
      checksum := (x, y)
      body := rest.take n
      slack := rest.drop n
      padding := payload.drop totalLength
      version := ?_
      headerLength := ?_
      headerMinimum := ?_
      totalLength := ?_
      unfragmented := ?_
      protocol := ?_
      udpLength := ?_ }, ?_, hq, rfl⟩
    · rw [getD_take (by omega)]
      exact hversion
    · rw [getD_take (by omega), hheaderLength, hheader]
    · omega
    · rw [slice_take (by omega), htotal, hheaderLength, ← List.length_append,
        List.take_append_drop]
      omega
    · rw [slice_take (by omega)]
      exact not_not.mp hfragment
    · rw [getD_take (by omega)]
      exact not_not.mp hudp
    · rw [hrest, ← hn]
      exact fromBytes_pair_lt e f
    · rw [Datagram.bytes, Datagram.udp, Datagram.udpHeader]
      simp only
      rw [hrest, ← hn, ← (pair_eq_word.mpr rfl : [a, b] = word (fromBytes [a, b]) ∧ _).1,
        ← (pair_eq_word.mpr rfl : [c, d] = word (fromBytes [c, d]) ∧ _).1,
        ← (pair_eq_word.mpr rfl : [e, f] = word (fromBytes [e, f]) ∧ _).1, List.take_append_drop]
      exact hparts
  | [] | [_] | [_, _] | [_, _, _] | [_, _, _, _] | [_, _, _, _, _] | [_, _, _, _, _, _]
  | [_, _, _, _, _, _, _] =>
    rw [hslice] at hlength
    simp only [List.length_cons, List.length_nil] at hlength
    omega

theorem decodeIpv4Udp_returns (payload : List Byte) : ∃ result, decodeIpv4Udp payload = .ok result := by
  unfold decodeIpv4Udp
  by_cases hshort : payload.length < 28
  · exact ⟨_, if_pos hshort⟩
  rw [if_neg hshort, byteAt_eq_ok (by omega), Except.ok_bind]
  by_cases hversion : (payload.getD 0 0).val / 16 = 4
  swap
  · exact ⟨_, if_pos hversion⟩
  rw [if_neg (not_not.mpr hversion)]
  simp only
  by_cases hlengths : (payload.getD 0 0).val % 16 * 4 < 20 ∨
      fromBytes (slice payload 2 4) < (payload.getD 0 0).val % 16 * 4 + 8 ∨
      payload.length < fromBytes (slice payload 2 4)
  · exact ⟨_, if_pos hlengths⟩
  rw [if_neg hlengths, byteAt_eq_ok (by omega), Except.ok_bind]
  split
  · exact ⟨_, rfl⟩
  · have hlength : ((slice payload ((payload.getD 0 0).val % 16 * 4)
        (fromBytes (slice payload 2 4))).take 6).length = 6 := by
      rw [List.length_take_of_le]
      rw [length_slice (by omega)]
      omega
    obtain ⟨⟨sourcePort, destinationPort, udpLength⟩, hports⟩ : ∃ ports, unpackPorts ((slice payload
        ((payload.getD 0 0).val % 16 * 4) (fromBytes (slice payload 2 4))).take 6) = .ok ports := by
      match hsix : (slice payload ((payload.getD 0 0).val % 16 * 4)
          (fromBytes (slice payload 2 4))).take 6 with
      | [a, b, c, d, e, f] => exact ⟨_, rfl⟩
      | [] | [_] | [_, _] | [_, _, _] | [_, _, _, _] | [_, _, _, _, _]
      | _ :: _ :: _ :: _ :: _ :: _ :: _ :: _ =>
        rw [hsix] at hlength
        simp at hlength
    rw [hports, Except.ok_bind]
    simp only
    split
    · exact ⟨_, rfl⟩
    · exact ⟨_, rfl⟩

/-! ## Frames -/

/-- A tag of 802.1Q or 802.1ad. -/
structure VlanTag where
  type : Nat
  control : Byte × Byte
  known : type ∈ tagTypes

def VlanTag.bytes (t : VlanTag) : List Byte := word t.type ++ [t.control.1, t.control.2]

/-- A frame without a tag that has room for one. -/
structure UntaggedFrame where
  bytes : List Byte
  size : 14 ≤ bytes.length ∧ bytes.length ≤ maxCaptureBytes - 4
  untagged : fromBytes (slice bytes 12 14) ∉ tagTypes

/-- The frame with a tag after the addresses. -/
def UntaggedFrame.tagged (f : UntaggedFrame) (t : VlanTag) : List Byte :=
  f.bytes.take 12 ++ t.bytes ++ f.bytes.drop 12

/-- A frame with a datagram, within the capture limit. -/
structure UdpFrame where
  addresses : List Byte
  tag : Option VlanTag
  datagram : Datagram
  length_addresses : addresses.length = 12
  size : addresses.length + ((tag.elim [] VlanTag.bytes).length + (2 + datagram.bytes.length)) ≤
    maxCaptureBytes

def UdpFrame.bytes (u : UdpFrame) : List Byte :=
  u.addresses ++ (u.tag.elim [] VlanTag.bytes ++ (word 0x0800 ++ u.datagram.bytes))

theorem VlanTag.length_bytes (t : VlanTag) : t.bytes.length = 4 := rfl

theorem VlanTag.type_lt (t : VlanTag) : t.type < 65536 := by
  have h := t.known
  simp only [tagTypes, List.mem_cons, List.not_mem_nil, or_false] at h
  omega

theorem slice_append_right (a b : List Byte) (i j : Nat) :
    slice (a ++ b) (a.length + i) (a.length + j) = slice b i j := by
  unfold slice
  rw [List.take_length_add_append, List.drop_length_add_append]

theorem slice_drop (data : List Byte) (n i j : Nat) :
    slice (data.drop n) i j = slice data (n + i) (n + j) := by
  unfold slice
  rw [List.take_drop, List.drop_drop]

/-- A tag is skipped. -/
theorem decodeEthernet_tagged (f : UntaggedFrame) (t : VlanTag) :
    decodeEthernet (f.tagged t) = decodeEthernet f.bytes := by
  obtain ⟨hlo, hhi⟩ := f.size
  have hmax : maxCaptureBytes = 9216 := rfl
  have haddresses : (f.bytes.take 12).length = 12 := List.length_take_of_le (by omega)
  have hfront : (f.bytes.take 12 ++ t.bytes).length = 16 := by
    rw [List.length_append, haddresses, t.length_bytes]
  have hlength : (f.tagged t).length = f.bytes.length + 4 := by
    unfold UntaggedFrame.tagged
    rw [List.length_append, hfront, List.length_drop]
    omega
  have htype : fromBytes (slice (f.tagged t) 12 14) = t.type := by
    have hslice := slice_middle (f.bytes.take 12) (word t.type)
      ([t.control.1, t.control.2] ++ f.bytes.drop 12)
    rw [haddresses] at hslice
    unfold UntaggedFrame.tagged VlanTag.bytes
    rw [List.append_assoc, List.append_assoc]
    exact (congrArg fromBytes hslice).trans (fromBytes_word t.type_lt)
  have hinner : slice (f.tagged t) 16 18 = slice f.bytes 12 14 := by
    have hslice := slice_append_right (f.bytes.take 12 ++ t.bytes) (f.bytes.drop 12) 0 2
    rw [hfront, slice_drop] at hslice
    exact hslice
  have hpayload : (f.tagged t).drop 18 = f.bytes.drop 14 := by
    have hdrop : (f.tagged t).drop ((f.bytes.take 12 ++ t.bytes).length + 2) =
        (f.bytes.drop 12).drop 2 := List.drop_length_add_append 2
    rw [hfront, List.drop_drop] at hdrop
    exact hdrop
  have hdestination : (f.tagged t).take 6 = f.bytes.take 6 := by
    unfold UntaggedFrame.tagged
    rw [List.append_assoc, List.take_append_of_le_length (by omega), List.take_take]
    rfl
  unfold decodeEthernet
  simp only
  rw [if_neg (by omega), htype, if_pos t.known, if_neg (by omega), hinner, hpayload, hdestination,
    if_neg (by omega), if_neg f.untagged]

theorem slice_pair {data : List Byte} {i : Nat} (h : i + 2 ≤ data.length) :
    ∃ a b, slice data i (i + 2) = [a, b] := by
  have hlength : (slice data i (i + 2)).length = i + 2 - i := length_slice h
  match hslice : slice data i (i + 2) with
  | [a, b] => exact ⟨a, b, rfl⟩
  | [] | [_] | _ :: _ :: _ :: _ =>
    rw [hslice] at hlength
    simp only [List.length_cons, List.length_nil] at hlength
    omega

/-- Two bytes are the word of their number. -/
theorem slice_eq_word {data : List Byte} {i : Nat} (h : i + 2 ≤ data.length) :
    slice data i (i + 2) = word (fromBytes (slice data i (i + 2))) := by
  obtain ⟨a, b, hslice⟩ := slice_pair h
  rw [hslice]
  exact (pair_eq_word.mpr rfl).1

theorem decodePayload_eq_udp {destination : List Byte} {protocol : Nat} {payload : List Byte}
    {p : Protocol} {body : List Byte} :
    (decodeEthernet.decodePayload destination protocol payload = .ok (some (p, body)) ∧
        p ∈ [Protocol.mdns, .dhcp]) ↔
      protocol = 0x0800 ∧ decodeIpv4Udp payload = .ok (some (p, body)) := by
  unfold decodeEthernet.decodePayload
  by_cases hlldp : protocol = 0x88CC
  · subst hlldp
    refine iff_of_false ?_ (by rintro ⟨⟨⟩, -⟩)
    rintro ⟨h, hp⟩
    cases h
    revert hp
    decide
  rw [if_neg hlldp]
  by_cases harp : protocol = 0x0806
  · subst harp
    refine iff_of_false ?_ (by rintro ⟨⟨⟩, -⟩)
    rintro ⟨h, hp⟩
    cases h
    revert hp
    decide
  rw [if_neg harp]
  by_cases hip : protocol = 0x0800
  · rw [if_pos hip]
    refine ⟨fun h => ⟨hip, h.1⟩, fun h => ⟨h.2, ?_⟩⟩
    obtain ⟨d, -, hservice, -⟩ := exists_datagram h.2
    unfold Datagram.service serviceOf at hservice
    split at hservice
    · cases hservice
      decide
    · split at hservice
      · cases hservice
        decide
      · cases hservice
  · rw [if_neg hip]
    refine iff_of_false ?_ fun h => hip h.1
    rintro ⟨h, hp⟩
    split at h
    · cases h
      revert hp
      decide
    · cases h

/-- What is decoded to a body of mDNS or DHCP is a frame with a datagram, and the body is that of
the datagram. -/
theorem decodeEthernet_udp {packet : List Byte} {p : Protocol} {body : List Byte} :
    (decodeEthernet packet = .ok (some (p, body)) ∧ p ∈ [Protocol.mdns, .dhcp]) ↔
      ∃ u : UdpFrame, u.bytes = packet ∧ u.datagram.service = some p ∧ u.datagram.body = body := by
  have hmax : maxCaptureBytes = 9216 := rfl
  constructor
  · rintro ⟨h, hp⟩
    unfold decodeEthernet at h
    by_cases hsize : packet.length < 14 ∨ maxCaptureBytes < packet.length
    · rw [if_pos hsize] at h
      cases h
    rw [if_neg hsize] at h
    simp only at h
    have haddresses : (packet.take 12).length = 12 := List.length_take_of_le (by omega)
    by_cases htagged : fromBytes (slice packet 12 14) ∈ tagTypes
    · rw [if_pos htagged] at h
      by_cases hshort : packet.length < 18
      · rw [if_pos hshort] at h
        cases h
      rw [if_neg hshort] at h
      obtain ⟨hip, hudp⟩ := decodePayload_eq_udp.mp ⟨h, hp⟩
      obtain ⟨d, hd, hservice, hbody⟩ := exists_datagram hudp
      obtain ⟨x, y, hcontrol⟩ := @slice_pair packet 14 (by omega)
      have hparts : packet = packet.take 12 ++ (slice packet 12 14 ++ [x, y] ++
          (slice packet 16 18 ++ packet.drop 18)) := by
        have h₁ := @take_slice_drop packet 12 14 (by omega)
        have h₂ := @take_slice_drop packet 14 16 (by omega)
        have h₃ := @take_slice_drop packet 16 18 (by omega)
        have h₄ : packet.take 14 = packet.take 12 ++ slice packet 12 14 := by
          refine @List.append_cancel_right _ _ (packet.drop 14) _ ?_
          rw [List.take_append_drop, List.append_assoc, h₁]
        have h₅ : packet.take 16 = packet.take 14 ++ slice packet 14 16 := by
          refine @List.append_cancel_right _ _ (packet.drop 16) _ ?_
          rw [List.take_append_drop, List.append_assoc, h₂]
        conv_lhs => rw [← h₃, h₅, h₄, hcontrol]
        simp only [List.append_assoc]
      refine ⟨⟨packet.take 12, some ⟨fromBytes (slice packet 12 14), (x, y), htagged⟩, d, haddresses,
        ?_⟩, ?_, hservice, hbody⟩
      · rw [Option.elim_some, VlanTag.length_bytes, haddresses, hd, List.length_drop]
        omega
      · unfold UdpFrame.bytes VlanTag.bytes
        simp only [Option.elim_some]
        rw [← slice_eq_word (i := 12) (by omega), hd, ← hip, ← slice_eq_word (i := 16) (by omega)]
        exact hparts.symm
    · rw [if_neg htagged] at h
      obtain ⟨hip, hudp⟩ := decodePayload_eq_udp.mp ⟨h, hp⟩
      obtain ⟨d, hd, hservice, hbody⟩ := exists_datagram hudp
      refine ⟨⟨packet.take 12, none, d, haddresses, ?_⟩, ?_, hservice, hbody⟩
      · rw [Option.elim_none, haddresses, hd, List.length_drop, List.length_nil]
        omega
      · unfold UdpFrame.bytes
        simp only [Option.elim_none, List.nil_append]
        rw [hd, ← hip, ← slice_eq_word (i := 12) (by omega)]
        exact take_slice_drop (by omega)
  · rintro ⟨u, rfl, hservice, rfl⟩
    have hudp : decodeIpv4Udp u.datagram.bytes = .ok (some (p, u.datagram.body)) := by
      rw [decodeIpv4Udp_bytes, hservice]
      rfl
    have hlength := u.length_addresses
    have hsize := u.size
    have hminimum : 28 ≤ u.datagram.bytes.length := by
      unfold Datagram.bytes
      rw [List.length_append, List.length_append, u.datagram.length_udp]
      have := u.datagram.headerMinimum
      omega
    have hip : fromBytes (word 0x0800) = 0x0800 := fromBytes_word (by decide)
    have hfinish : ∀ {destination}, decodeEthernet.decodePayload destination
        (fromBytes (word 0x0800)) u.datagram.bytes = .ok (some (p, u.datagram.body)) ∧
        p ∈ [Protocol.mdns, .dhcp] := decodePayload_eq_udp.mpr ⟨hip, hudp⟩
    refine ⟨?_, (@hfinish []).2⟩
    cases htag : u.tag with
    | none =>
      rw [htag, Option.elim_none, List.length_nil] at hsize
      have hbytes : u.bytes = u.addresses ++ (word 0x0800 ++ u.datagram.bytes) := by
        unfold UdpFrame.bytes
        rw [htag]
        rfl
      have htype : slice u.bytes 12 14 = word 0x0800 := by
        have hslice := slice_middle u.addresses (word 0x0800) u.datagram.bytes
        rw [hlength] at hslice
        rw [hbytes]
        exact hslice
      have hpayload : u.bytes.drop 14 = u.datagram.bytes := by
        rw [hbytes, ← List.append_assoc]
        exact List.drop_left' (by rw [List.length_append, hlength]; rfl)
      have htotal : u.bytes.length = 14 + u.datagram.bytes.length := by
        rw [hbytes, List.length_append, List.length_append, hlength, ← Nat.add_assoc]
        rfl
      unfold decodeEthernet
      simp only
      rw [if_neg (by omega), htype, hip, if_neg (by decide), hpayload]
      exact hip ▸ hfinish.1
    | some t =>
      rw [htag, Option.elim_some, t.length_bytes] at hsize
      have hbytes : u.bytes = u.addresses ++ t.bytes ++ (word 0x0800 ++ u.datagram.bytes) := by
        unfold UdpFrame.bytes
        rw [htag, List.append_assoc]
        rfl
      have hfront : (u.addresses ++ t.bytes).length = 16 := by
        rw [List.length_append, hlength, t.length_bytes]
      have htype : fromBytes (slice u.bytes 12 14) = t.type := by
        have hslice := slice_middle u.addresses (word t.type)
          ([t.control.1, t.control.2] ++ (word 0x0800 ++ u.datagram.bytes))
        rw [hlength] at hslice
        rw [hbytes, VlanTag.bytes, List.append_assoc, List.append_assoc]
        exact (congrArg fromBytes hslice).trans (fromBytes_word t.type_lt)
      have hinner : slice u.bytes 16 18 = word 0x0800 := by
        have hslice := slice_middle (u.addresses ++ t.bytes) (word 0x0800) u.datagram.bytes
        rw [hfront] at hslice
        rw [hbytes]
        exact hslice
      have hpayload : u.bytes.drop 18 = u.datagram.bytes := by
        rw [hbytes, ← List.append_assoc]
        exact List.drop_left' (by rw [List.length_append, hfront]; rfl)
      have htotal : u.bytes.length = 18 + u.datagram.bytes.length := by
        rw [hbytes, List.length_append, hfront, List.length_append, ← Nat.add_assoc]
        rfl
      unfold decodeEthernet
      simp only
      rw [if_neg (by omega), htype, if_pos t.known, if_neg (by omega), hinner, hpayload]
      exact hfinish.1

theorem decodeEthernet_returns (packet : List Byte) :
    ∃ result, decodeEthernet packet = .ok result := by
  have hpayload : ∀ destination protocol payload, ∃ result,
      decodeEthernet.decodePayload destination protocol payload = .ok result := by
    intro destination protocol payload
    unfold decodeEthernet.decodePayload
    split
    · exact ⟨_, rfl⟩
    split
    · exact ⟨_, rfl⟩
    split
    · exact decodeIpv4Udp_returns payload
    split
    · exact ⟨_, rfl⟩
    · exact ⟨_, rfl⟩
  unfold decodeEthernet
  split
  · exact ⟨_, rfl⟩
  simp only
  split
  · split
    · exact ⟨_, rfl⟩
    · exact hpayload _ _ _
  · exact hpayload _ _ _

/-! ## Main theorem -/

/-- `decode_ethernet` returns on every frame; a tag makes no difference; and the bodies of mDNS and
DHCP that it returns are those of the frames with a datagram of their ports, where 5353 comes before
67 and 68. -/
theorem decodeEthernet_exact :
    (∀ packet, ∃ result, decodeEthernet packet = .ok result) ∧
    (∀ (f : UntaggedFrame) (t : VlanTag), decodeEthernet (f.tagged t) = decodeEthernet f.bytes) ∧
    (∀ packet body, decodeEthernet packet = .ok (some (.mdns, body)) ↔
      ∃ u : UdpFrame, u.bytes = packet ∧ u.datagram.HasPort 5353 ∧ u.datagram.body = body) ∧
    ∀ packet body, decodeEthernet packet = .ok (some (.dhcp, body)) ↔
      ∃ u : UdpFrame, u.bytes = packet ∧ (¬ u.datagram.HasPort 5353 ∧
        (u.datagram.HasPort 67 ∨ u.datagram.HasPort 68)) ∧ u.datagram.body = body := by
  refine ⟨decodeEthernet_returns, decodeEthernet_tagged, fun packet body => ?_, fun packet body => ?_⟩
  · have hudp := @decodeEthernet_udp packet .mdns body
    rw [and_iff_left (by decide)] at hudp
    simp only [hudp, Datagram.service_eq_mdns]
  · have hudp := @decodeEthernet_udp packet .dhcp body
    rw [and_iff_left (by decide)] at hudp
    simp only [hudp, Datagram.service_eq_dhcp]

/-! ## A multicast query -/

namespace Sample

/-- A datagram to `224.0.0.251:5353`, with two bytes that its lengths leave out. -/
def multicast : Datagram where
  header := [0x45, 0, 0, 33, 0, 1, 0x40, 0, 255, 17, 0, 0, 10, 0, 0, 9, 224, 0, 0, 251]
  sourcePort := 49152
  destinationPort := 5353
  checksum := (0, 0)
  body := [0, 0, 1, 0]
  slack := [7]
  padding := [9]
  version := by decide
  headerLength := by decide
  headerMinimum := by decide
  totalLength := by decide
  unfragmented := by decide
  protocol := by decide
  udpLength := by decide

def multicastFrame : UdpFrame where
  addresses := [0x01, 0, 0x5E, 0, 0, 0xFB, 2, 0, 0, 0, 0, 1]
  tag := none
  datagram := multicast
  length_addresses := rfl
  size := by decide

def untaggedFrame : UntaggedFrame := ⟨multicastFrame.bytes, by decide, by decide⟩

def vlanTag : VlanTag := ⟨0x8100, (0, 20), by decide⟩

end Sample

example : decodeEthernet (Sample.untaggedFrame.tagged Sample.vlanTag) =
    .ok (some (.mdns, [0, 0, 1, 0])) := rfl

end FieldDiscovery.Passive.Capture
