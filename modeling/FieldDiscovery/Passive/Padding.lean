import FieldDiscovery.Passive.Leases
import FieldDiscovery.Passive.LinkLayer
import FieldDiscovery.Passive.MdnsMessage
import FieldDiscovery.Passive.Neighbor

/-!
# Padded frames

A link pads short frames with zero bytes. The frame decoder hands the padding on to the parsers of the
link protocols, and leaves it out of what an IPv4 packet delimits itself. ARP reads fixed fields and
LLDP ends with a TLV of its own, so both are blind to padding. `_cdp_tlvs` reads on to the end of the
payload, and no TLV is made of zeros (`capture_padded_iff`).
-/

namespace FieldDiscovery.Passive.Capture

open Py Framing Dhcp

/-! ## Parsers -/

/-- The parsers of `build_runtime`. -/
structure Parsers where
  mdns : Mdns.MDNSParser
  dhcp : DhcpParser
  neighbors : Neighbor.NeighborTracker

/-- What the parsers keep from one frame to the next. -/
structure ParserState where
  cache : Mdns.Cache
  leases : Leases
  entries : Neighbor.Entries

/-- What a parser has yielded, and what it raised. -/
def outcome : Except Exc (List PassiveObservation) → List PassiveObservation × Option Exc
  | .error e => ([], some e)
  | .ok observations => (observations, none)

section

variable (rt : Runtime) (ps : Parsers) (s : ParserState)

/-- `ArpParser.__call__` -/
def parseArp (frame : PassiveFrame) : ParserState × List PassiveObservation × Option Exc :=
  match Neighbor.parseArpEvidence rt frame with
  | .error e => (s, [], some e)
  | .ok evidence =>
    let (entries, result) := Neighbor.observe ps.neighbors s.entries evidence
    ({ s with entries := entries }, outcome result)

/-- The parser that is registered for a protocol: the state, the observations, and what is raised. -/
def parse (p : Protocol) (frame : PassiveFrame) :
    ParserState × List PassiveObservation × Option Exc :=
  match p with
  | .lldp => (s, outcome (Link.parseLldp frame))
  | .arp => parseArp rt ps s frame
  | .mdns =>
    let (cache, observations, error) := ps.mdns.call rt s.cache frame
    ({ s with cache := cache }, observations, error)
  | .dhcp =>
    let (leases, observations, error) := Dhcp.call rt ps.dhcp s.leases frame
    ({ s with leases := leases }, observations, error)
  | .cdp => (s, outcome (Link.parseCdp frame))

/-- What becomes of a captured frame; a frame that is not decoded goes to no parser. -/
def capture (observedAt : Utc) (interface : Option Str) (packet : List Byte) :
    Except Exc (Option (ParserState × List PassiveObservation × Option Exc)) := do
  let decoded ← decodeEthernet packet
  .ok (decoded.map fun d => parse rt ps s d.1 ⟨d.1.name, d.2, observedAt, interface⟩)

end

/-! ## Frames -/

/-- The type of a frame, or its length: the field behind the addresses and a tag. -/
def lengthField (packet : List Byte) : Nat :=
  if fromBytes (slice packet 12 14) ∈ tagTypes then fromBytes (slice packet 16 18)
  else fromBytes (slice packet 12 14)

/-- A frame that is decoded and parsed. -/
structure AcceptedFrame (rt : Runtime) (ps : Parsers) (s : ParserState) where
  packet : List Byte
  observedAt : Utc
  interface : Option Str
  protocol : Protocol
  payload : List Byte
  decoded : decodeEthernet packet = .ok (some (protocol, payload))
  accepted : (parse rt ps s protocol ⟨protocol.name, payload, observedAt, interface⟩).2.2 = none
  /-- An 802.3 frame tells the length of what follows the field. -/
  length_field : protocol = .cdp → lengthField packet = cdpSnap.length + payload.length

/-- Zero bytes. -/
def zeros (k : Nat) : List Byte := List.replicate k 0

/-- The limit of a parser whose payload takes in the padding. -/
def payloadLimit : Protocol → Option Nat
  | .lldp => some Link.maxLldpBytes
  | .arp => some Neighbor.maxArpPayloadBytes
  | .cdp => some Link.maxCdpBytes
  | .mdns | .dhcp => none

/-- The padded frame is within the limits of capture and parser. -/
def AcceptedFrame.Fits {rt : Runtime} {ps : Parsers} {s : ParserState} (f : AcceptedFrame rt ps s)
    (k : Nat) : Prop :=
  f.packet.length + k ≤ maxCaptureBytes ∧
    ∀ limit ∈ payloadLimit f.protocol, f.payload.length + k ≤ limit

/-! ## Decoding -/

/-- The payload that the parser of a protocol gets of a padded frame. -/
def paddedPayload (p : Protocol) (payload : List Byte) (k : Nat) : List Byte :=
  if p ∈ [Protocol.mdns, .dhcp] then payload else payload ++ zeros k

theorem decodeIpv4Udp_padded {payload body : List Byte} {p : Protocol}
    (h : decodeIpv4Udp payload = .ok (some (p, body))) (k : Nat) :
    decodeIpv4Udp (payload ++ zeros k) = .ok (some (p, body)) := by
  obtain ⟨d, rfl, hservice, rfl⟩ := exists_datagram h
  have hbytes : d.bytes ++ zeros k = { d with padding := d.padding ++ zeros k }.bytes := by
    simp only [Datagram.bytes, Datagram.udp, Datagram.udpHeader, List.append_assoc]
  rw [hbytes, decodeIpv4Udp_bytes]
  change Except.ok (d.service.map (·, d.body)) = _
  rw [hservice]
  rfl

theorem decodePayload_padded {destination : List Byte} {protocol : Nat} {payload body : List Byte}
    {p : Protocol}
    (h : decodeEthernet.decodePayload destination protocol payload = .ok (some (p, body))) (k : Nat) :
    decodeEthernet.decodePayload destination protocol (payload ++ zeros k) =
      .ok (some (p, paddedPayload p body k)) := by
  by_cases hudp : p ∈ [Protocol.mdns, .dhcp]
  · obtain ⟨hip, hdecode⟩ := decodePayload_eq_udp.mp ⟨h, hudp⟩
    unfold paddedPayload
    rw [if_pos hudp]
    exact (decodePayload_eq_udp.mpr ⟨hip, decodeIpv4Udp_padded hdecode k⟩).1
  unfold decodeEthernet.decodePayload at h ⊢
  unfold paddedPayload
  rw [if_neg hudp]
  by_cases hlldp : protocol = 0x88CC
  · rw [if_pos hlldp] at h ⊢
    cases h
    rfl
  rw [if_neg hlldp] at h ⊢
  by_cases harp : protocol = 0x0806
  · rw [if_pos harp] at h ⊢
    cases h
    rfl
  rw [if_neg harp] at h ⊢
  by_cases hip : protocol = 0x0800
  · rw [if_pos hip] at h
    have hdecode : decodeEthernet.decodePayload destination protocol payload = .ok (some (p, body)) ∧
        p ∈ [Protocol.mdns, .dhcp] := decodePayload_eq_udp.mpr ⟨hip, h⟩
    exact absurd hdecode.2 hudp
  rw [if_neg hip] at h ⊢
  by_cases hcdp : protocol ≤ 1500 ∧ destination = cdpDestination ∧ cdpSnap <+: payload
  · rw [if_pos hcdp] at h
    rw [if_pos ⟨hcdp.1, hcdp.2.1, hcdp.2.2.trans (List.prefix_append _ _)⟩]
    cases h
    rw [List.drop_append_of_le_length hcdp.2.2.length_le]
  · rw [if_neg hcdp] at h
    cases h

/-- Padding is decoded as a part of the payload, or left out. -/
theorem decodeEthernet_padded {packet payload : List Byte} {p : Protocol}
    (h : decodeEthernet packet = .ok (some (p, payload))) {k : Nat}
    (hk : packet.length + k ≤ maxCaptureBytes) :
    decodeEthernet (packet ++ zeros k) = .ok (some (p, paddedPayload p payload k)) := by
  have hlength : (packet ++ zeros k).length = packet.length + k := by
    rw [List.length_append, zeros, List.length_replicate]
  unfold decodeEthernet at h ⊢
  by_cases hsize : packet.length < 14 ∨ maxCaptureBytes < packet.length
  · rw [if_pos hsize] at h
    cases h
  rw [if_neg hsize] at h
  rw [if_neg (by omega)]
  simp only at h ⊢
  rw [List.take_append_of_le_length (by omega), slice_append_left (by omega)]
  by_cases htagged : fromBytes (slice packet 12 14) ∈ tagTypes
  · rw [if_pos htagged] at h ⊢
    by_cases hshort : packet.length < 18
    · rw [if_pos hshort] at h
      cases h
    rw [if_neg hshort] at h
    rw [if_neg (by omega), slice_append_left (by omega), List.drop_append_of_le_length (by omega)]
    exact decodePayload_padded h k
  · rw [if_neg htagged] at h ⊢
    rw [List.drop_append_of_le_length (by omega)]
    exact decodePayload_padded h k

/-! ## ARP -/

/-- The parser reads nothing behind the fields of the addresses. -/
theorem parseArpEvidence_padded {rt : Runtime} {frame : PassiveFrame}
    {evidence : Neighbor.NeighborEvidence} (h : Neighbor.parseArpEvidence rt frame = .ok evidence)
    {k : Nat} (hk : frame.payload.length + k ≤ Neighbor.maxArpPayloadBytes) :
    Neighbor.parseArpEvidence rt { frame with payload := frame.payload ++ zeros k } = .ok evidence := by
  have hlength : (frame.payload ++ zeros k).length = frame.payload.length + k := by
    rw [List.length_append, zeros, List.length_replicate]
  unfold Neighbor.parseArpEvidence at h ⊢
  simp only at h ⊢
  by_cases hprotocol : rt.casefold frame.protocol ≠ str "arp"
  · rw [if_pos hprotocol] at h
    cases h
  rw [if_neg hprotocol] at h ⊢
  by_cases hshort : frame.payload.length < 8
  · rw [if_pos hshort] at h
    cases h
  rw [if_neg hshort] at h
  rw [if_neg (by omega)]
  by_cases hlong : Neighbor.maxArpPayloadBytes < frame.payload.length
  · rw [if_pos hlong] at h
    cases h
  rw [if_neg hlong] at h
  rw [if_neg (by omega), List.take_append_of_le_length (by omega)]
  obtain ⟨header, hheader, h⟩ := Except.bind_eq_ok.mp h
  rw [hheader, Except.ok_bind]
  by_cases htypes : header.hardwareType ≠ 1 ∨ header.protocolType ≠ 0x0800
  · rw [if_pos htypes] at h
    cases h
  rw [if_neg htypes] at h ⊢
  by_cases hlengths : header.hardwareLength ≠ 6 ∨ header.protocolLength ≠ 4
  · rw [if_pos hlengths] at h
    cases h
  rw [if_neg hlengths] at h ⊢
  by_cases hoperation : header.operation ∉ [1, 2]
  · rw [if_pos hoperation] at h
    cases h
  rw [if_neg hoperation] at h ⊢
  by_cases hfields : frame.payload.length < 8 + 2 * header.hardwareLength + 2 * header.protocolLength
  · rw [if_pos hfields] at h
    cases h
  rw [if_neg hfields] at h
  rw [if_neg (by omega), slice_append_left (by omega), slice_append_left (by omega)]
  exact h

/-! ## LLDP -/

theorem ended_of_lldpTlv {s s' : Link.LldpState} {t : Link.LldpTlv} (h : Link.lldpTlv s t = .ok s')
    (hended : s'.ended = true) : s.ended = true ∨ t.type.val = 0 := by
  by_cases htype : t.type.val = 0
  · exact Or.inr htype
  refine Or.inl ?_
  have hfields : ∀ {s s' : Link.LldpState} {code : Nat} {value : List Byte},
      Link.lldpFields s code value = .ok s' → s'.ended = s.ended := by
    intro s s' code value h
    by_cases hcode : code = 3
    · subst hcode
      rw [(Link.lldpFields_ttl h).2]
      rfl
    · obtain ⟨updates, rfl, -⟩ := Link.lldpFields_extends hcode h
      rfl
  unfold Link.lldpTlv at h
  simp only at h
  rw [if_neg htype] at h
  split at h
  · split at h
    · cases h
    · exact (hfields h).symm.trans hended
  · exact (hfields h).symm.trans hended

/-- The loop has come to the end only by a TLV of type 0. -/
theorem exists_end {tlvs : List Link.LldpTlv} {s s' : Link.LldpState}
    (h : tlvs.foldlM Link.lldpTlv s = .ok s') (hended : s'.ended = true) :
    s.ended = true ∨ ∃ t ∈ tlvs, t.type.val = 0 := by
  induction tlvs generalizing s with
  | nil =>
    cases h
    exact Or.inl hended
  | cons t tlvs ih =>
    rw [List.foldlM_cons] at h
    obtain ⟨s₁, hs₁, h⟩ := Except.bind_eq_ok.mp h
    rcases ih h with hend | ⟨u, hu, hend⟩
    · exact (ended_of_lldpTlv hs₁ hend).imp_right fun htype => ⟨t, List.mem_cons_self, htype⟩
    · exact Or.inr ⟨u, List.mem_cons_of_mem _ hu, hend⟩

/-- After an end TLV, more zeros are more padding. -/
theorem lldpTlvs_padded {payload : List Byte} {tlvs : List Link.LldpTlv}
    (h : Link.lldpTlvs payload = (tlvs, none)) (hend : ∃ t ∈ tlvs, t.type.val = 0) {k : Nat}
    (hk : payload.length + k ≤ Link.maxLldpBytes) :
    Link.lldpTlvs (payload ++ zeros k) = (tlvs, none) := by
  have hlength : (payload ++ zeros k).length = payload.length + k := by
    rw [List.length_append, zeros, List.length_replicate]
  unfold Link.lldpTlvs at h ⊢
  by_cases hsize : 2 ≤ payload.length ∧ payload.length ≤ Link.maxLldpBytes
  swap
  · rw [if_neg hsize] at h
    cases h
  rw [if_pos hsize, items_eq_ok, Link.lldpFramed_iff] at h
  rw [if_pos (by omega), items_eq_ok, Link.lldpFramed_iff]
  obtain ⟨⟨padding, hpayload, hends⟩, hfew⟩ := h
  refine ⟨⟨padding ++ zeros k, by rw [hpayload, List.append_assoc], hends.front, hends.back, ?_,
    fun _ => ?_⟩, hfew⟩
  · intro b hb
    rcases List.mem_append.mp hb with hb | hb
    · exact hends.zeros b hb
    · exact List.eq_of_mem_replicate hb
  · -- only the last TLV can be the end TLV
    obtain ⟨t, ht, htype⟩ := hend
    have hne : tlvs ≠ [] := List.ne_nil_of_mem ht
    rw [← List.dropLast_append_getLast hne] at ht
    rcases List.mem_append.mp ht with ht | ht
    · exact absurd htype (hends.front t ht)
    · rw [List.mem_singleton] at ht
      exact ⟨t, ht ▸ List.getLast?_eq_getLast_of_ne_nil hne, htype⟩

theorem parseLldp_padded {frame : PassiveFrame} {observations : List PassiveObservation}
    (h : Link.parseLldp frame = .ok observations) {k : Nat}
    (hk : frame.payload.length + k ≤ Link.maxLldpBytes) :
    Link.parseLldp { frame with payload := frame.payload ++ zeros k } = .ok observations := by
  unfold Link.parseLldp at h ⊢
  by_cases hprotocol : frame.protocol ≠ str "lldp"
  · rw [if_pos hprotocol] at h
    cases h
  rw [if_neg hprotocol] at h ⊢
  cases htlvs : Link.lldpTlvs frame.payload with
  | mk tlvs error =>
    rw [htlvs] at h
    simp only at h
    obtain ⟨s, hs, hrest⟩ := Except.bind_eq_ok.mp h
    cases error with
    | some e => cases hrest
    | none =>
      have hended : s.ended = true := by
        by_contra hnot
        simp only at hrest
        rw [if_pos (Bool.eq_false_of_not_eq_true hnot)] at hrest
        cases hrest
      have hend := (exists_end hs hended).resolve_left (by rintro ⟨⟩)
      simp only
      rw [lldpTlvs_padded htlvs hend hk]
      exact h

/-! ## CDP -/

/-- No TLV starts with four zeros: its length counts its header. -/
theorem cdpTlvs_zeros {k : Nat} (hk : k ≠ 0) (l : List Link.CdpTlv) :
    zeros k ≠ Link.cdpFormat.writeAll l := by
  intro h
  cases l with
  | nil =>
    have := congrArg List.length h
    rw [zeros, List.length_replicate] at this
    exact hk this
  | cons t l =>
    have hzero : ∀ b ∈ word (t.value.length + 4), b = 0 := by
      intro b hb
      refine List.eq_of_mem_replicate (h.symm ▸ ?_ : b ∈ zeros k)
      change b ∈ (word t.type.val ++ word (t.value.length + 4) ++ t.value) ++ _
      simp [hb]
    have hword : word (t.value.length + 4) = [0, 0] := List.eq_replicate_iff.mpr ⟨rfl, hzero⟩
    have hshort := t.short
    have hvalue := fromBytes_word (n := t.value.length + 4) (by omega)
    rw [hword] at hvalue
    exact absurd hvalue (by
      change 0 ≠ _
      omega)

/-- The framing of a payload that goes on with zeros is never right. -/
theorem cdpTlvs_padded {payload : List Byte} {tlvs : List Link.CdpTlv}
    (h : Link.cdpTlvs payload = (tlvs, none)) {k : Nat} (hk : k ≠ 0) :
    (Link.cdpTlvs (payload ++ zeros k)).2 ≠ none := by
  intro hnone
  unfold Link.cdpTlvs at h hnone
  rw [items_eq_ok, framed_iff_writeAll] at h
  obtain ⟨rfl, -⟩ := h
  have hpadded := (items_eq_ok.mp (Prod.ext rfl hnone)).1
  obtain ⟨l, -, hzeros⟩ := exists_append_of_writeAll _ (framed_iff_writeAll.mp hpadded)
  exact cdpTlvs_zeros hk l hzeros

theorem parseCdp_padded {frame : PassiveFrame} {observations : List PassiveObservation}
    (h : Link.parseCdp frame = .ok observations) {k : Nat} (hk : k ≠ 0) :
    ¬ ∃ padded, Link.parseCdp { frame with payload := frame.payload ++ zeros k } = .ok padded := by
  rintro ⟨padded, hpadded⟩
  unfold Link.parseCdp at h hpadded
  simp only at h hpadded
  by_cases hprotocol : frame.protocol ≠ str "cdp"
  · rw [if_pos hprotocol] at h
    cases h
  rw [if_neg hprotocol] at h hpadded
  by_cases hsize : 4 ≤ frame.payload.length ∧ frame.payload.length ≤ Link.maxCdpBytes
  swap
  · rw [if_pos hsize] at h
    cases h
  rw [if_neg (not_not.mpr hsize)] at h
  obtain ⟨version, -, h⟩ := Except.bind_eq_ok.mp h
  obtain ⟨ttl, -, h⟩ := Except.bind_eq_ok.mp h
  split at h
  · cases h
  obtain ⟨fields, -, h⟩ := Except.bind_eq_ok.mp h
  split at hpadded
  · cases hpadded
  obtain ⟨version', -, hpadded⟩ := Except.bind_eq_ok.mp hpadded
  obtain ⟨ttl', -, hpadded⟩ := Except.bind_eq_ok.mp hpadded
  split at hpadded
  · cases hpadded
  obtain ⟨fields', -, hpadded⟩ := Except.bind_eq_ok.mp hpadded
  rw [List.drop_append_of_le_length hsize.1] at hpadded
  cases herror : (Link.cdpTlvs (frame.payload.drop 4)).2 with
  | some e =>
    rw [herror] at h
    cases h
  | none =>
    cases herror' : (Link.cdpTlvs (frame.payload.drop 4 ++ zeros k)).2 with
    | some e =>
      rw [herror'] at hpadded
      cases hpadded
    | none => exact cdpTlvs_padded (Prod.ext rfl herror) hk herror'

/-! ## Main theorem -/

section

variable {rt : Runtime} {ps : Parsers} {s : ParserState}

theorem outcome_eq_none {x : Except Exc (List PassiveObservation)} (h : (outcome x).2 = none) :
    ∃ observations, x = .ok observations := by
  cases x with
  | error e => cases h
  | ok observations => exact ⟨observations, rfl⟩

/-- The state and the observations of an accepted frame. -/
def AcceptedFrame.result (f : AcceptedFrame rt ps s) (payload : List Byte) :
    ParserState × List PassiveObservation × Option Exc :=
  parse rt ps s f.protocol ⟨f.protocol.name, payload, f.observedAt, f.interface⟩

theorem AcceptedFrame.capture_eq (f : AcceptedFrame rt ps s) :
    capture rt ps s f.observedAt f.interface f.packet = .ok (some (f.result f.payload)) := by
  unfold capture
  rw [f.decoded]
  rfl

theorem AcceptedFrame.capture_padded (f : AcceptedFrame rt ps s) {k : Nat}
    (hk : f.packet.length + k ≤ maxCaptureBytes) :
    capture rt ps s f.observedAt f.interface (f.packet ++ zeros k) =
      .ok (some (f.result (paddedPayload f.protocol f.payload k))) := by
  unfold capture
  rw [decodeEthernet_padded f.decoded hk]
  rfl

/-- Padding changes nothing for the parsers other than that of CDP. -/
theorem AcceptedFrame.result_padded (f : AcceptedFrame rt ps s) {k : Nat} (hk : f.Fits k)
    (hcdp : f.protocol ≠ .cdp) :
    f.result (paddedPayload f.protocol f.payload k) = f.result f.payload := by
  obtain ⟨packet, observedAt, interface, protocol, payload, decoded, accepted, length_field⟩ := f
  obtain ⟨-, hlimit⟩ := hk
  unfold result
  cases protocol with
  | lldp =>
    obtain ⟨observations, h⟩ := outcome_eq_none accepted
    exact congrArg (fun x => (s, outcome x)) ((parseLldp_padded h (hlimit _ rfl)).trans h.symm)
  | arp =>
    cases h : Neighbor.parseArpEvidence rt ⟨Protocol.arp.name, payload, observedAt, interface⟩ with
    | error e =>
      simp only [parse, parseArp] at accepted
      rw [h] at accepted
      cases accepted
    | ok evidence =>
      have hpadded := parseArpEvidence_padded h (hlimit _ rfl)
      simp only [parse, parseArp]
      rw [h]
      exact congrArg (fun x => match x with
        | .error e => (s, [], some e)
        | .ok evidence =>
          let (entries, result) := Neighbor.observe ps.neighbors s.entries evidence
          ({ s with entries := entries }, outcome result)) hpadded
  | mdns => rfl
  | dhcp => rfl
  | cdp => exact absurd rfl hcdp

/-- The zeros that a link appends to a frame are without effect exactly when the frame is not one of
CDP, or nothing is appended. -/
theorem capture_padded_iff (f : AcceptedFrame rt ps s) {k : Nat} (hk : f.Fits k) :
    capture rt ps s f.observedAt f.interface (f.packet ++ zeros k) =
        capture rt ps s f.observedAt f.interface f.packet ↔
      f.protocol ≠ .cdp ∨ k = 0 := by
  rw [f.capture_eq, f.capture_padded hk.1, Except.ok.injEq, Option.some.injEq]
  constructor
  · intro h
    by_contra hnot
    obtain ⟨hcdp, hzero⟩ := not_or.mp hnot
    obtain ⟨packet, observedAt, interface, protocol, payload, decoded, accepted, length_field⟩ := f
    obtain rfl : protocol = .cdp := not_not.mp hcdp
    obtain ⟨observations, hparse⟩ := outcome_eq_none accepted
    have hpadded := (congrArg (fun r => r.2.2) h).trans accepted
    exact parseCdp_padded hparse hzero (outcome_eq_none hpadded)
  · rintro (hcdp | rfl)
    · exact f.result_padded hk hcdp
    · congr 1
      unfold paddedPayload zeros
      rw [List.replicate_zero, List.append_nil, ite_self]

end

/-! ## A padded CDP frame -/

theorem least_message : 1 ≤ 1 ∧ 1 ≤ 1 ∧ 1 ≤ 1 ∧ 1 ≤ 1 := by decide
theorem least_cache : 1 ≤ 1 ∧ 1 ≤ 1 := by decide

/-- Parsers without secrets, and with the least bounds. -/
def leastParsers : Parsers where
  mdns := ⟨⟨1, 1, 1, 1, least_message⟩, ⟨1, 1, least_cache⟩, ⟨[], []⟩⟩
  dhcp := ⟨⟨[], []⟩, 1, Nat.one_pos⟩
  neighbors := ⟨1, 0, 1, Nat.one_pos, Nat.one_pos⟩

def firstState : ParserState := ⟨[], [], []⟩

/-- The frame of a device that announces itself and its port, 36 bytes long. -/
def shortCdp : AcceptedFrame (Runtime.ofDigests []) leastParsers firstState where
  packet := cdpDestination ++ [2, 0, 0, 0, 0, 1] ++ word 22 ++ cdpSnap ++
    [2, 180, 0, 0, 0, 1, 0, 5, 0x61, 0, 3, 0, 5, 0x62]
  observedAt := ⟨0, zero_inCalendar⟩
  interface := none
  protocol := .cdp
  payload := [2, 180, 0, 0, 0, 1, 0, 5, 0x61, 0, 3, 0, 5, 0x62]
  decoded := rfl
  accepted := by decide +kernel
  length_field _ := rfl

/-- Ethernet pads the frame to 60 bytes. -/
theorem shortCdp_fits : shortCdp.Fits 24 :=
  ⟨by decide, by
    rintro limit hlimit
    cases hlimit
    decide⟩

/-- The padded frame of CDP is read in another way. -/
theorem capture_padded_iff_sample :
    capture (Runtime.ofDigests []) leastParsers firstState shortCdp.observedAt shortCdp.interface
        (shortCdp.packet ++ zeros 24) ≠
      capture (Runtime.ofDigests []) leastParsers firstState shortCdp.observedAt shortCdp.interface
        shortCdp.packet := by
  intro heq
  rcases (capture_padded_iff shortCdp shortCdp_fits).mp heq with hprotocol | hzero
  · exact hprotocol rfl
  · exact absurd hzero (by decide)

/-- The padding to the minimum size loses the neighbor. -/
theorem not_capture_padded : ¬ ∀ (rt : Runtime) (ps : Parsers) (s : ParserState)
    (f : AcceptedFrame rt ps s) (k : Nat), f.Fits k →
    capture rt ps s f.observedAt f.interface (f.packet ++ zeros k) =
      capture rt ps s f.observedAt f.interface f.packet := by
  intro h
  have heq := h _ _ _ shortCdp 24 shortCdp_fits
  rw [shortCdp.capture_eq, shortCdp.capture_padded shortCdp_fits.1] at heq
  have herror := congrArg (fun r => r.2.2) (Option.some.inj (Except.ok.inj heq))
  have hsome : (shortCdp.result (paddedPayload .cdp shortCdp.payload 24)).2.2 =
      some (.passiveParse (str "invalid or truncated CDP TLV")) := by decide +kernel
  cases hsome.symm.trans (herror.trans shortCdp.accepted)

end FieldDiscovery.Passive.Capture
