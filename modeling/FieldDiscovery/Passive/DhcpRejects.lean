import FieldDiscovery.Passive.LinkRejects
import FieldDiscovery.Redaction.Raises

/-!
# What the DHCP parser raises

`parseDhcp` takes bytes and addresses out of slices whose lengths it has checked, and so needs no
errors for them. `Raising.parseDhcp` is the same function with every operation that may raise, each
with its own exception; the two are equal (`Raising.parseDhcp_eq`). What is left to raise is the
redactor, on the texts of the options (`parseDhcp_rejects`).
-/

open Except

namespace FieldDiscovery.Passive.Dhcp

open Py Framing Redaction Capture Neighbor

/-! ## The operations that may raise -/

namespace Raising

/-- `struct.unpack("!I", raw)[0]` -/
def unpackInt (raw : List Byte) : Except Exc Nat :=
  if raw.length = 4 then .ok (fromBytes raw) else .error .struct

/-- `_nonzero_ipv4` -/
def nonzeroIpv4 (raw : List Byte) : Except Exc (Option Str) := do
  let value ← packedIpv4 raw
  .ok (if value = str "0.0.0.0" then none else some value)

/-- `_seconds` -/
def seconds (options : Options) (code : Byte) : Except Exc (Option Nat) := do
  let value ← fixed options code 4
  value.mapM unpackInt

/-- `_address_list` -/
def addressList (options : Options) (code : Byte) : Except Exc (List Json) :=
  match options.get code with
  | none => .ok []
  | some value =>
    if value = [] ∨ value.length % 4 ≠ 0 then
      passiveParseError (str "DHCP option " ++ natStr code.val ++ str " must contain IPv4 addresses")
    else do
      let addresses ← (value.toChunks 4).mapM packedIpv4
      .ok (addresses.map .string)

/-- The operation, the hardware type and the hardware length. -/
def header (rt : Runtime) (frame : PassiveFrame) : Except Exc (Byte × Byte × Byte) :=
  let payload := frame.payload
  if rt.casefold frame.protocol ≠ str "dhcp" then
    passiveParseError (str "DHCP parser received a different protocol")
  else if payload.length < dhcpFixedBytes then
    passiveParseError (str "DHCP frame is shorter than the fixed header")
  else if maxDhcpFrameBytes < payload.length then
    passiveParseError (str "DHCP frame exceeds the parser size limit")
  else if (payload.take dhcpFixedBytes).drop bootpHeaderBytes ≠ magicCookie then
    passiveParseError (str "DHCP magic cookie is missing")
  else do
    let operation ← byteAt payload 0
    let hardwareType ← byteAt payload 1
    let hardwareLength ← byteAt payload 2
    if ¬ (operation ∈ [1, 2] ∧ 1 ≤ hardwareLength.val ∧ hardwareLength.val ≤ 16) then
      passiveParseError (str "BOOTP operation or hardware length is invalid")
    else .ok (operation, hardwareType, hardwareLength)

/-- The message type, which has to agree with the BOOTP operation. -/
def messageType (operation : Byte) (options : Options) : Except Exc MessageType := do
  let value ← fixed options 53 1
  let code ← value.mapM fun raw => byteAt raw 0
  match code.bind MessageType.ofCode with
  | none => passiveParseError (str "DHCP message type is missing or unsupported")
  | some m =>
    if m.isClient ∧ operation ≠ 1 ∨ m.isServer ∧ operation ≠ 2 then
      passiveParseError (str "DHCP message type conflicts with BOOTP operation")
    else .ok m

/-- `parse_dhcp` -/
def parseDhcp (rt : Runtime) (r : Redactor) (frame : PassiveFrame) :
    Except Exc (List PassiveObservation) := do
  let (operation, hardwareType, hardwareLength) ← header rt frame
  let payload := frame.payload
  let options ← options payload
  let m ← messageType operation options
  let clientAddress ← nonzeroIpv4 (slice payload 12 16)
  let offeredAddress ← nonzeroIpv4 (slice payload 16 20)
  let nextServer ← nonzeroIpv4 (slice payload 20 24)
  let relayAddress ← nonzeroIpv4 (slice payload 24 28)
  let clientMac :=
    if hardwareType = 1 ∧ hardwareLength.val = 6 then
      some (join (str ":") ((slice payload 28 (28 + hardwareLength.val)).map fun b => hexBytes [b]))
    else none
  let clientIdentifier := (options.get 61).filter (· ≠ [])
  let serverIdentifierValue ← fixed options 54 4
  let requestedAddressValue ← fixed options 50 4
  let leaseSeconds ← seconds options 51
  let renewalSeconds ← seconds options 58
  let rebindingSeconds ← seconds options 59
  let serverIdentifier ← serverIdentifierValue.mapM packedIpv4
  let serverIdentifier := serverIdentifier.orElse fun _ => nextServer
  let assignedAddress :=
    if m ∈ [MessageType.offer, MessageType.ack] then offeredAddress.orElse fun _ => clientAddress
    else clientAddress
  let requestedAddress ← requestedAddressValue.mapM packedIpv4
  let hostname ← text rt r options 12
  let vendorClass ← text rt r options 60
  let routers ← addressList options 3
  let dnsServers ← addressList options 6
  let domainName ← text rt r options 15
  let expiresAt ← leaseEnd frame.observedAt m leaseSeconds
  let text := optional Json.string
  let number := optional fun n : Nat => Json.int n
  .ok [{ kind := str "dhcp_message"
         fields := [
           (str "message_type", .string m.value),
           (str "transaction_id", .string (hexBytes (slice payload 4 8))),
           (str "client_mac", text clientMac),
           (str "client_identifier", text (clientIdentifier.map hexBytes)),
           (str "client_address", text clientAddress),
           (str "requested_address", text requestedAddress),
           (str "assigned_address", text assignedAddress),
           (str "server_identifier", text serverIdentifier),
           (str "relay_address", text relayAddress),
           (str "lease_seconds", number leaseSeconds),
           (str "renewal_seconds", number renewalSeconds),
           (str "rebinding_seconds", number rebindingSeconds),
           (str "hostname", text hostname),
           (str "vendor_class", text vendorClass),
           (str "routers", .list routers),
           (str "dns_servers", .list dnsServers),
           (str "domain_name", text domainName),
           (str "is_renewal",
             .bool (m ∈ [MessageType.request, MessageType.ack] ∧ clientAddress.isSome)),
           (str "interface", text frame.interface)]
         source := str "passive.dhcp"
         observedAt := some frame.observedAt.stamp
         expiresAt := expiresAt.map Utc.stamp }]

/-! ## None of them raises -/

theorem nonzeroIpv4_eq {raw : List Byte} (h : raw.length = 4) :
    nonzeroIpv4 raw = .ok (Dhcp.nonzeroIpv4 raw) := by
  unfold nonzeroIpv4 packedIpv4
  rw [if_pos h]
  rfl

theorem length_of_fixed {options : Options} {code : Byte} {length : Nat} {value : List Byte}
    (h : fixed options code length = .ok (some value)) : value.length = length := by
  unfold fixed at h
  split at h
  · cases h
  · split at h
    · cases h
    · next hlength =>
      cases h
      exact not_not.mp hlength

/-- A total operation on the value of an option of a fixed length. -/
theorem fixed_bind_mapM {α : Type} {options : Options} {code : Byte} {length : Nat}
    {f : List Byte → Except Exc α} {g : List Byte → α}
    (h : ∀ value : List Byte, value.length = length → f value = .ok (g value)) :
    (fixed options code length >>= fun value => value.mapM f) =
      fixed options code length >>= fun value => .ok (value.map g) := by
  cases hfixed : fixed options code length with
  | error e => rfl
  | ok value =>
    cases value with
    | none => rfl
    | some value =>
      rw [ok_bind, ok_bind, Option.mapM_some, h value (length_of_fixed hfixed)]
      rfl

theorem seconds_eq (options : Options) (code : Byte) :
    seconds options code = Dhcp.seconds options code :=
  fixed_bind_mapM fun _ hlength => if_pos hlength

theorem messageType_eq (operation : Byte) (options : Options) :
    messageType operation options = Dhcp.messageType operation options := by
  unfold messageType Dhcp.messageType
  cases hfixed : fixed options 53 1 with
  | error e => rfl
  | ok value =>
    cases value with
    | none => rfl
    | some value =>
      match value, length_of_fixed hfixed with
      | [b], _ => rfl

theorem header_eq (rt : Runtime) (frame : PassiveFrame) : header rt frame =
    checkHeader rt frame >>= fun _ => .ok (frame.payload.getD 0 0, frame.payload.getD 1 0,
      frame.payload.getD 2 0) := by
  unfold header checkHeader
  simp only
  split
  · rfl
  split
  · rfl
  · next hshort =>
    have hlength : 240 ≤ frame.payload.length := Nat.not_lt.mp hshort
    split
    · rfl
    split
    · rfl
    rw [byteAt_eq_ok (by omega), byteAt_eq_ok (by omega), byteAt_eq_ok (by omega)]
    simp only [ok_bind]
    split
    · rfl
    · rfl

theorem length_of_mem_go {n : Nat} {xs chunk : List Byte} :
    ∀ {acc : Array Byte} {done : Array (List Byte)}, 1 ≤ acc.size → acc.size ≤ n →
      (acc.size + xs.length) % n = 0 → (∀ c ∈ done.toList, c.length = n) →
      chunk ∈ List.toChunks.go n xs acc done → chunk.length = n := by
  induction xs with
  | nil =>
    intro acc done hpos hle hdiv hdone h
    rw [List.toChunks.go, Array.toList_push, List.mem_append, List.mem_singleton] at h
    rcases h with h | rfl
    · exact hdone chunk h
    · rw [List.length_nil, Nat.add_zero] at hdiv
      rw [Array.length_toList]
      exact Nat.le_antisymm hle (Nat.le_of_dvd hpos (Nat.dvd_of_mod_eq_zero hdiv))
  | cons x xs ih =>
    intro acc done hpos hle hdiv hdone h
    rw [List.length_cons] at hdiv
    rw [List.toChunks.go] at h
    by_cases hfull : acc.size = n
    · rw [if_pos (beq_iff_eq.mpr hfull)] at h
      refine ih (by simp) (hfull ▸ hpos) ?_ ?_ h
      · rw [hfull, Nat.add_mod_left] at hdiv
        rwa [Nat.add_comm]
      · intro c hc
        rw [Array.toList_push, List.mem_append, List.mem_singleton] at hc
        rcases hc with hc | rfl
        · exact hdone c hc
        · rw [Array.length_toList, hfull]
    · rw [if_neg (by simpa using hfull)] at h
      refine ih ?_ ?_ ?_ hdone h
      · rw [Array.size_push]
        omega
      · rw [Array.size_push]
        omega
      · rw [Array.size_push, ← hdiv]
        congr 1
        omega

/-- The chunks of a list that divides evenly are all full. -/
theorem length_of_mem_toChunks {n : Nat} (hn : 0 < n) {l chunk : List Byte} (hdiv : l.length % n = 0)
    (h : chunk ∈ l.toChunks n) : chunk.length = n := by
  cases l with
  | nil =>
    rw [List.toChunks] at h
    cases h
  | cons x xs =>
    rw [List.toChunks] at h
    · rw [List.length_cons, Nat.add_comm] at hdiv
      exact length_of_mem_go (by simp) (by simpa using Nat.succ_le_of_lt hn) (by simpa using hdiv)
        (by rintro c ⟨⟩) h
    · omega

theorem addressList_eq (options : Options) (code : Byte) :
    addressList options code = Dhcp.addressList options code := by
  unfold addressList Dhcp.addressList
  cases options.get code with
  | none => rfl
  | some value =>
    simp only
    split
    · rfl
    · next hvalue =>
      have hlength : ∀ chunk ∈ value.toChunks 4, packedIpv4 chunk = .ok (ipv4 chunk) :=
        fun chunk hchunk => if_pos (length_of_mem_toChunks (by decide)
          (not_not.mp (not_or.mp hvalue).2) hchunk)
      have hmap : (value.toChunks 4).mapM packedIpv4 = .ok ((value.toChunks 4).map ipv4) :=
        mapM_eq_ok.mpr (List.forall₂_map_right_iff.mpr (List.forall₂_same.mpr hlength))
      rw [hmap, ok_bind, List.map_map]
      rfl

theorem mapM_packedIpv4 {value : Option (List Byte)} (h : ∀ raw ∈ value, raw.length = 4) :
    value.mapM packedIpv4 = .ok (value.map ipv4) := by
  cases value with
  | none => rfl
  | some raw =>
    rw [Option.mapM_some, packedIpv4, if_pos (h raw rfl)]
    rfl

/-- Nothing that `parseDhcp` takes for granted can fail. -/
theorem parseDhcp_eq (rt : Runtime) (r : Redactor) (frame : PassiveFrame) :
    parseDhcp rt r frame = Dhcp.parseDhcp rt r frame := by
  unfold parseDhcp Dhcp.parseDhcp
  rw [header_eq]
  cases hheader : checkHeader rt frame with
  | error e => rfl
  | ok _ =>
    simp only [ok_bind]
    have hlength : 240 ≤ frame.payload.length := by
      unfold checkHeader at hheader
      simp only at hheader
      split at hheader
      · cases hheader
      split at hheader
      · cases hheader
      · next hshort => exact Nat.not_lt.mp hshort
    have haddress : ∀ start stop : Nat, stop ≤ 240 → stop - start = 4 →
        nonzeroIpv4 (slice frame.payload start stop) =
          .ok (Dhcp.nonzeroIpv4 (slice frame.payload start stop)) := by
      intro start stop hstop hsize
      exact nonzeroIpv4_eq ((length_slice (by omega)).trans hsize)
    cases options frame.payload with
    | error e => rfl
    | ok options =>
      simp only [ok_bind, messageType_eq]
      cases Dhcp.messageType (frame.payload.getD 0 0) options with
      | error e => rfl
      | ok m =>
        simp only [ok_bind, haddress 12 16 (by decide) rfl, haddress 16 20 (by decide) rfl,
          haddress 20 24 (by decide) rfl, haddress 24 28 (by decide) rfl, seconds_eq, addressList_eq]
        cases hserver : fixed options 54 4 with
        | error e => rfl
        | ok server =>
          cases hrequested : fixed options 50 4 with
          | error e => rfl
          | ok requested =>
            have hserver' : ∀ raw ∈ server, raw.length = 4 := by
              rintro raw hraw
              rw [Option.mem_def.mp hraw] at hserver
              exact length_of_fixed hserver
            have hrequested' : ∀ raw ∈ requested, raw.length = 4 := by
              rintro raw hraw
              rw [Option.mem_def.mp hraw] at hrequested
              exact length_of_fixed hrequested
            simp only [ok_bind, mapM_packedIpv4 hserver', mapM_packedIpv4 hrequested']
            rfl

end Raising

/-! ## The texts of a message -/

/-- What is under the code of a text. -/
inductive OptionText where
  | absent
  | rejected
  | usable (t : Str)

/-- The text of an option, before it is redacted. -/
def optionText (options : Options) (code : Byte) : OptionText :=
  match options.get code with
  | none => .absent
  | some value =>
    let decoded := stripBy (· = cp '\x00') (strip (decodeUtf8Replace value))
    if decoded = [] then .rejected else .usable decoded

/-- The text of an option, and then some others if it is not rejected. -/
def OptionText.andThen (o : OptionText) (texts : List Str) : List Str :=
  match o with
  | absent => texts
  | rejected => []
  | usable t => t :: texts

/-- What `_address_list` accepts. -/
def addressesValid (options : Options) (code : Byte) : Bool :=
  (options.get code).all fun value => value ≠ [] ∧ value.length % 4 = 0

/-- The texts that are redacted, as long as none is rejected. -/
def textsOf (options : Options) : List Str :=
  (optionText options 12).andThen ((optionText options 60).andThen
    (if addressesValid options 3 ∧ addressesValid options 6 then (optionText options 15).andThen []
      else []))

/-- The parser comes to the texts of these options. -/
structure ReachesTexts (rt : Runtime) (frame : PassiveFrame) (options : Options) : Prop where
  header : (checkHeader rt frame).Returns
  read : Dhcp.options frame.payload = .ok options
  messageType : (messageType (frame.payload.getD 0 0) options).Returns
  addresses : ∀ code ∈ [54, 50], (fixed options code 4).Returns
  times : ∀ code ∈ [51, 58, 59], (seconds options code).Returns

/-- Every text that the parser comes to has keys that are JSON strings. -/
def TextsDecode (rt : Runtime) (r : Redactor) (frame : PassiveFrame) : Prop :=
  ∀ options, ReachesTexts rt frame options → ∀ t ∈ textsOf options, KeysDecode rt r t

section

variable {rt : Runtime} {r : Redactor}

theorem redact_rejects {t : Str} : Rejects (r.text rt t) ↔ KeysDecode rt r t := by
  rw [← Redactor.text_returns]
  refine ⟨fun h => ?_, Returns.raisesOnly⟩
  cases htext : r.text rt t with
  | ok s => exact returns_ok s
  | error e =>
    obtain ⟨message, rfl⟩ := h e htext
    cases Redactor.text_raisesOnly rt r t _ htext

/-- What follows the text of an option is reached when the text is redacted. -/
theorem rejects_text_bind {options : Options} {code : Byte} {β : Type}
    {f : Option Str → Except Exc β} {texts : List Str}
    (hf : ∀ a, Rejects (f a) ↔ ∀ t ∈ texts, KeysDecode rt r t) :
    Rejects (text rt r options code >>= f) ↔
      ∀ t ∈ (optionText options code).andThen texts, KeysDecode rt r t := by
  unfold text optionText
  cases options.get code with
  | none => exact hf none
  | some value =>
    simp only
    by_cases hempty : value = []
    · subst hempty
      exact iff_of_true (rejects_passiveParseError _) (by rintro t ⟨⟩)
    rw [if_neg hempty]
    by_cases hblank : stripBy (· = cp '\x00') (strip (decodeUtf8Replace value)) = []
    · rw [if_pos hblank, if_pos hblank]
      exact iff_of_true (rejects_passiveParseError _) (by rintro t ⟨⟩)
    rw [if_neg hblank, if_neg hblank, OptionText.andThen, List.forall_mem_cons, rejects_bind,
      rejects_bind, redact_rejects, and_assoc]
    refine and_congr_right fun hdecode => ?_
    obtain ⟨s, hs⟩ := Redactor.text_returns.mpr hdecode
    rw [hs, ← hf (some s)]
    constructor
    · rintro ⟨-, h⟩
      exact h _ rfl
    · intro h
      refine ⟨fun _ _ => raisesOnly_ok _, ?_⟩
      rintro _ ⟨⟩
      exact h

theorem rejects_bind_of {α β : Type} {x : Except Exc α} {f : α → Except Exc β} (hx : Rejects x) :
    Rejects (x >>= f) ↔ ∀ a, x = .ok a → Rejects (f a) := by
  rw [rejects_bind]
  exact and_iff_right hx

theorem checkHeader_rejects (rt : Runtime) (frame : PassiveFrame) : Rejects (checkHeader rt frame) :=
  .ite (fun _ => rejects_passiveParseError _) fun _ =>
    .ite (fun _ => rejects_passiveParseError _) fun _ =>
      .ite (fun _ => rejects_passiveParseError _) fun _ =>
        .ite (fun _ => rejects_passiveParseError _) fun _ =>
          .ite (fun _ => rejects_passiveParseError _) fun _ => raisesOnly_ok _

theorem optionLoop_rejects (fuel : Nat) (bytes : List Byte) (result : Options) :
    Rejects (optionLoop fuel bytes result) := by
  induction fuel generalizing bytes result with
  | zero => exact rejects_passiveParseError _
  | succ fuel ih =>
    cases bytes with
    | nil => exact rejects_passiveParseError _
    | cons code rest =>
      rw [optionLoop.eq_def]
      simp only
      refine .ite (fun _ => ih _ _) fun _ => .ite (fun _ => raisesOnly_ok _) fun _ => ?_
      cases rest with
      | nil => exact rejects_passiveParseError _
      | cons length rest =>
        exact .ite (fun _ => rejects_passiveParseError _) fun _ =>
          .ite (fun _ => rejects_passiveParseError _) fun _ => ih _ _

theorem fixed_rejects (options : Options) (code : Byte) (length : Nat) :
    Rejects (fixed options code length) := by
  unfold fixed
  split
  · exact raisesOnly_ok _
  · exact .ite (fun _ => rejects_passiveParseError _) fun _ => raisesOnly_ok _

theorem seconds_rejects (options : Options) (code : Byte) : Rejects (seconds options code) :=
  (fixed_rejects options code 4).bind fun _ _ => raisesOnly_ok _

theorem messageType_rejects (operation : Byte) (options : Options) :
    Rejects (messageType operation options) := by
  refine (fixed_rejects options 53 1).bind fun _ _ => ?_
  split
  · exact rejects_passiveParseError _
  · exact .ite (fun _ => rejects_passiveParseError _) fun _ => raisesOnly_ok _

theorem addressList_rejects (options : Options) (code : Byte) : Rejects (addressList options code) := by
  unfold addressList
  split
  · exact raisesOnly_ok _
  · exact .ite (fun _ => rejects_passiveParseError _) fun _ => raisesOnly_ok _

theorem addressList_returns {options : Options} {code : Byte} :
    (addressList options code).Returns ↔ addressesValid options code = true := by
  unfold addressList addressesValid
  cases options.get code with
  | none => exact iff_of_true (returns_ok _) rfl
  | some value =>
    simp only [Option.all_some, decide_eq_true_eq]
    by_cases hvalid : value = [] ∨ value.length % 4 ≠ 0
    · rw [if_pos hvalid]
      exact iff_of_false (not_returns_error _) fun h => hvalid.elim h.1 fun hdiv => hdiv h.2
    · rw [if_neg hvalid]
      obtain ⟨hne, hdiv⟩ := not_or.mp hvalid
      exact iff_of_true (returns_ok _) ⟨hne, not_not.mp hdiv⟩

/-- A number of four bytes. -/
theorem seconds_lt {options : Options} {code : Byte} {n : Nat}
    (h : seconds options code = .ok (some n)) : n < 2 ^ 32 := by
  obtain ⟨value, hvalue, h⟩ := bind_eq_ok.mp h
  cases value with
  | none => cases h
  | some value =>
    cases h
    exact Nat.lt_of_lt_of_le (fromBytes_lt (Raising.length_of_fixed hvalue)) (by decide)

theorem leaseEnd_rejects {t : Utc} (h : Ordinary t) (m : MessageType) {lease : Option Nat}
    (hlease : ∀ n ∈ lease, n < 2 ^ 32) : Rejects (leaseEnd t m lease) := by
  unfold leaseEnd
  cases lease with
  | none => exact raisesOnly_ok _
  | some n =>
    obtain ⟨t', ht⟩ := h.exists_add (Nat.le_of_lt (hlease n rfl))
    simp only [ht]
    exact .ite (fun _ => raisesOnly_ok _) fun _ => raisesOnly_ok _

/-- The texts and the addresses among them, whatever follows. -/
theorem texts_rejects {options : Options} {β : Type}
    {f : Option Str → Option Str → List Json → List Json → Option Str → Except Exc β}
    (hf : ∀ hostname vendorClass routers dnsServers domainName,
      Rejects (f hostname vendorClass routers dnsServers domainName)) :
    Rejects (do
      let hostname ← text rt r options 12
      let vendorClass ← text rt r options 60
      let routers ← addressList options 3
      let dnsServers ← addressList options 6
      let domainName ← text rt r options 15
      f hostname vendorClass routers dnsServers domainName) ↔
      ∀ t ∈ textsOf options, KeysDecode rt r t := by
  refine rejects_text_bind fun hostname => rejects_text_bind fun vendorClass => ?_
  have hdomain : ∀ routers dnsServers, Rejects (do
      let domainName ← text rt r options 15
      f hostname vendorClass routers dnsServers domainName) ↔
      ∀ t ∈ (optionText options 15).andThen [], KeysDecode rt r t := fun routers dnsServers =>
    rejects_text_bind fun domainName => iff_of_true (hf _ _ _ _ _) (by rintro t ⟨⟩)
  rw [rejects_bind_of (addressList_rejects options 3)]
  simp only [rejects_bind_of (addressList_rejects options 6), hdomain]
  by_cases hvalid : addressesValid options 3 = true ∧ addressesValid options 6 = true
  · rw [if_pos hvalid]
    obtain ⟨routers, hrouters⟩ := addressList_returns.mpr hvalid.1
    obtain ⟨dnsServers, hdns⟩ := addressList_returns.mpr hvalid.2
    exact ⟨fun h => h routers hrouters dnsServers hdns, fun h _ _ _ _ => h⟩
  · rw [if_neg hvalid]
    refine iff_of_true (fun routers hrouters dnsServers hdns => ?_) (by rintro t ⟨⟩)
    exact absurd ⟨addressList_returns.mp ⟨_, hrouters⟩, addressList_returns.mp ⟨_, hdns⟩⟩ hvalid

theorem parseDhcp_rejects {frame : PassiveFrame} (h : Ordinary frame.observedAt) :
    Rejects (Raising.parseDhcp rt r frame) ↔ TextsDecode rt r frame := by
  rw [Raising.parseDhcp_eq]
  unfold parseDhcp
  have hend : ∀ options m lease {β : Type} {f : Option Utc → β},
      seconds options 51 = .ok lease →
      Rejects (leaseEnd frame.observedAt m lease >>= fun t => .ok (f t)) :=
    fun options m lease _ _ hlease =>
      (leaseEnd_rejects h m fun n hn => seconds_lt (hlease.trans (congrArg _ hn))).bind
        fun _ _ => raisesOnly_ok _
  constructor
  · intro hrejects options hreaches
    obtain ⟨_, hheader⟩ := hreaches.header
    obtain ⟨m, hm⟩ := hreaches.messageType
    obtain ⟨server, hserver⟩ := hreaches.addresses 54 (by simp)
    obtain ⟨requested, hrequested⟩ := hreaches.addresses 50 (by simp)
    obtain ⟨lease, hlease⟩ := hreaches.times 51 (by simp)
    obtain ⟨renewal, hrenewal⟩ := hreaches.times 58 (by simp)
    obtain ⟨rebinding, hrebinding⟩ := hreaches.times 59 (by simp)
    simp only [hheader, hreaches.read, hm, hserver, hrequested, hlease, hrenewal, hrebinding,
      ok_bind] at hrejects
    exact (texts_rejects fun _ _ _ _ _ => hend _ _ _ hlease).mp hrejects
  · intro hdecode
    refine (checkHeader_rejects rt frame).bind fun _ hheader => ?_
    refine (optionLoop_rejects _ _ _).bind fun options hread => ?_
    refine (messageType_rejects _ _).bind fun m hm => ?_
    refine (fixed_rejects _ _ _).bind fun server hserver => ?_
    refine (fixed_rejects _ _ _).bind fun requested hrequested => ?_
    refine (seconds_rejects _ _).bind fun lease hlease => ?_
    refine (seconds_rejects _ _).bind fun renewal hrenewal => ?_
    refine (seconds_rejects _ _).bind fun rebinding hrebinding => ?_
    refine (texts_rejects fun _ _ _ _ _ => hend _ _ _ hlease).mpr (hdecode options ?_)
    refine ⟨⟨_, hheader⟩, hread, ⟨m, hm⟩, ?_, ?_⟩
    · simp only [List.mem_cons, List.not_mem_nil, or_false]
      rintro code (rfl | rfl)
      · exact ⟨server, hserver⟩
      · exact ⟨requested, hrequested⟩
    · simp only [List.mem_cons, List.not_mem_nil, or_false]
      rintro code (rfl | rfl | rfl)
      · exact ⟨lease, hlease⟩
      · exact ⟨renewal, hrenewal⟩
      · exact ⟨rebinding, hrebinding⟩

end

end FieldDiscovery.Passive.Dhcp
