import FieldDiscovery.Lib.Raises
import FieldDiscovery.Passive.Arp
import FieldDiscovery.Passive.LinkLayer

/-!
# What the link-layer parsers raise

The parsers of ARP, LLDP and CDP reject a frame with `PassiveParseError`. In the first two every byte
that is read and every address that is rendered has been checked before, so nothing else gets through
(`parseArpEvidence_rejects`, `parseLldp_rejects`). CDP renders an address of the IPv4 protocol whatever
its length is, and the `ValueError` of another length gets through (`parseCdp_rejects`).
-/

open Except

namespace FieldDiscovery.Passive

open Py Framing Dhcp Capture

/-! ## Rejection -/

/-- `PassiveParseError` -/
def ParseError (e : Exc) : Prop := ∃ message, e = .passiveParse message

/-- The parser returns, or rejects its input. -/
abbrev Rejects {α : Type} (x : Except Exc α) : Prop := RaisesOnly ParseError x

theorem rejects_passiveParseError {α : Type} (message : Str) :
    Rejects (passiveParseError message : Except Exc α) := raisesOnly_error.mpr ⟨message, rfl⟩

theorem rejects_error {α : Type} {e : Exc} : Rejects (.error e : Except Exc α) ↔ ParseError e :=
  raisesOnly_error

theorem rejects_bind {α β : Type} {x : Except Exc α} {f : α → Except Exc β} :
    Rejects (x >>= f) ↔ Rejects x ∧ ∀ a, x = .ok a → Rejects (f a) := raisesOnly_bind

/-- Every duration of 32 bits, in seconds, can be added to the time. -/
def Ordinary (t : Utc) : Prop := ∃ t', t.add (2 ^ 32 * 1000000) = some t'

theorem Ordinary.exists_add {t : Utc} (h : Ordinary t) {seconds : Nat} (hs : seconds ≤ 2 ^ 32) :
    ∃ t', t.add (seconds * 1000000) = some t' := by
  obtain ⟨t', ht⟩ := h
  have hle : t.val + seconds * 1000000 ≤ t.val + 2 ^ 32 * 1000000 :=
    Nat.add_le_add_left (Nat.mul_le_mul_right _ hs) _
  unfold Utc.add at ht ⊢
  split at ht
  · next hlast =>
    rw [dif_pos (Nat.lt_of_le_of_lt hle hlast)]
    exact ⟨_, rfl⟩
  · cases ht

theorem byteAt_returns {data : List Byte} {i : Nat} (h : i < data.length) :
    (byteAt data i).Returns := ⟨_, byteAt_eq_ok h⟩

/-! ## ARP -/

namespace Neighbor

theorem packedIpv4_returns {raw : List Byte} (h : raw.length = 4) : (packedIpv4 raw).Returns :=
  ⟨_, if_pos h⟩

theorem unpackArp_returns {raw : List Byte} (h : raw.length = 8) : (unpackArp raw).Returns := by
  match raw, h with
  | [a, b, c, d, e, f, g, i], _ => exact returns_ok _

theorem normalIpv4_rejects (value : Str) : Rejects (normalIpv4 value) := by
  unfold normalIpv4
  split
  · exact rejects_passiveParseError _
  · exact raisesOnly_ok _

theorem normalMac_rejects (value : Str) : Rejects (normalMac value) := by
  unfold normalMac
  refine .ite (fun _ => rejects_passiveParseError _) fun _ => ?_
  split
  · exact rejects_passiveParseError _
  · exact raisesOnly_ok _

theorem NeighborEvidence.make_rejects (rt : Runtime) (address : Str) (mac : Option Str)
    (interface state source : Str) (observedAt : Utc) (operation : Option Str) :
    Rejects (make rt address mac interface state source observedAt operation) := by
  have hmac : Rejects (mac.mapM normalMac) := by
    cases mac with
    | none => exact raisesOnly_ok _
    | some value => exact (normalMac_rejects value).bind fun _ _ => raisesOnly_ok _
  refine (normalIpv4_rejects address).bind fun _ _ => hmac.bind fun _ _ => ?_
  simp only
  split
  · split
    · exact raisesOnly_ok _
    · exact rejects_passiveParseError _
  · exact rejects_passiveParseError _

theorem parseArpEvidence_rejects (rt : Runtime) (frame : PassiveFrame) :
    Rejects (parseArpEvidence rt frame) := by
  unfold parseArpEvidence
  refine .ite (fun _ => rejects_passiveParseError _) fun _ => ?_
  refine .ite (fun _ => rejects_passiveParseError _) fun hheader => ?_
  refine .ite (fun _ => rejects_passiveParseError _) fun _ => ?_
  have hunpack := @unpackArp_returns (frame.payload.take 8) (List.length_take_of_le (by omega))
  refine hunpack.raisesOnly.bind fun header _ => ?_
  refine .ite (fun _ => rejects_passiveParseError _) fun _ => ?_
  refine .ite (fun _ => rejects_passiveParseError _) fun hlengths => ?_
  refine .ite (fun _ => rejects_passiveParseError _) fun _ => ?_
  refine .ite (fun _ => rejects_passiveParseError _) fun hfields => ?_
  have hsender := @packedIpv4_returns (slice frame.payload 14 18) (length_slice (by omega))
  refine hsender.raisesOnly.bind fun senderIp _ => ?_
  exact .ite (fun _ => rejects_passiveParseError _) fun _ => NeighborEvidence.make_rejects _ _ _ _ _ _ _ _

end Neighbor

/-! ## LLDP -/

namespace Link

theorem ipAddress_returns {raw : List Byte} (h : raw.length = 4 ∨ raw.length = 16) :
    (ipAddress raw).Returns := by
  unfold ipAddress
  rcases h with h | h
  · rw [if_pos h]
    exact returns_ok _
  · rw [if_neg (by omega), if_pos h]
    exact returns_ok _

theorem networkAddress_rejects (value : List Byte) (label : Str) :
    Rejects (networkAddress value label) := by
  unfold networkAddress
  refine .ite (fun _ => rejects_passiveParseError _) fun hlength => ?_
  refine (byteAt_returns (by omega)).raisesOnly.bind fun family _ => ?_
  refine .ite (fun _ => rejects_passiveParseError _) fun hfamily => ?_
  have hpacked : (value.drop 1).length = 4 ∨ (value.drop 1).length = 16 := by
    by_cases h₁ : family = 1
    · rw [if_pos h₁] at hfamily
      omega
    · by_cases h₂ : family = 2
      · rw [if_neg h₁, if_pos h₂] at hfamily
        omega
      · rw [if_neg h₁, if_neg h₂] at hfamily
        exact absurd (Or.inl rfl) hfamily
  obtain ⟨address, haddress⟩ := ipAddress_returns hpacked
  rw [haddress]
  exact raisesOnly_ok _

theorem text_rejects (value : List Byte) (maximum : Nat) (label : Str) :
    Rejects (text value maximum label) := by
  unfold text
  refine .ite (fun _ => rejects_passiveParseError _) fun _ => ?_
  split
  · exact rejects_passiveParseError _
  · exact raisesOnly_ok _

theorem identifier_rejects (value : List Byte) (identity : Identity) :
    Rejects (identifier value identity) := by
  unfold identifier
  refine .ite (fun _ => rejects_passiveParseError _) fun hlength => ?_
  refine (byteAt_returns (by omega)).raisesOnly.bind fun first _ => ?_
  refine .ite (fun _ => ?_) fun _ => .ite (fun _ => ?_) fun _ => ?_
  · refine .ite (fun _ => ?_) fun _ => raisesOnly_ok _
    exact (rejects_passiveParseError _).bind fun _ _ => raisesOnly_ok _
  · exact (networkAddress_rejects _ _).bind fun _ _ => raisesOnly_ok _
  · exact (text_rejects _ _ _).bind fun _ _ => raisesOnly_ok _

theorem lldpCapabilities_rejects (value : List Byte) : Rejects (lldpCapabilities value) :=
  .ite (fun _ => rejects_passiveParseError _) fun _ => raisesOnly_ok _

theorem lldpManagementAddress_rejects (value : List Byte) : Rejects (lldpManagementAddress value) := by
  unfold lldpManagementAddress
  refine .ite (fun _ => rejects_passiveParseError _) fun hlength => ?_
  refine (byteAt_returns (by omega)).raisesOnly.bind fun _ _ => ?_
  exact .ite (fun _ => rejects_passiveParseError _) fun _ => networkAddress_rejects _ _

theorem lldpOrganizational_rejects (value : List Byte) : Rejects (lldpOrganizational value) := by
  unfold lldpOrganizational
  refine .ite (fun _ => rejects_passiveParseError _) fun hlength => ?_
  refine (byteAt_returns (by omega)).raisesOnly.bind fun _ _ => ?_
  refine .ite (fun _ => ?_) fun _ => raisesOnly_ok _
  exact .ite (fun _ => rejects_passiveParseError _) fun _ => raisesOnly_ok _

theorem lldpFields_rejects (s : LldpState) (code : Nat) (value : List Byte) :
    Rejects (lldpFields s code value) := by
  unfold lldpFields
  split
  · exact (identifier_rejects _ _).bind fun _ _ => raisesOnly_ok _
  · exact (identifier_rejects _ _).bind fun _ _ => raisesOnly_ok _
  · exact .ite (fun _ => rejects_passiveParseError _) fun _ => raisesOnly_ok _
  · exact (text_rejects _ _ _).bind fun _ _ => raisesOnly_ok _
  · exact (text_rejects _ _ _).bind fun _ _ => raisesOnly_ok _
  · exact (text_rejects _ _ _).bind fun _ _ => raisesOnly_ok _
  · exact (lldpCapabilities_rejects _).bind fun _ _ => raisesOnly_ok _
  · exact (lldpManagementAddress_rejects _).bind fun _ _ => raisesOnly_ok _
  · exact (lldpOrganizational_rejects _).bind fun _ _ => raisesOnly_ok _
  · exact raisesOnly_ok _

theorem lldpTlv_rejects (s : LldpState) (t : LldpTlv) : Rejects (lldpTlv s t) := by
  unfold lldpTlv
  refine .ite (fun _ => raisesOnly_ok _) fun _ => .ite (fun _ => ?_) fun _ => lldpFields_rejects _ _ _
  exact .ite (fun _ => rejects_passiveParseError _) fun _ => lldpFields_rejects _ _ _

/-- The lifetime that was read stays the field. -/
def KeepsTtl (s : LldpState) : Prop :=
  3 ∈ s.required → ∃ n : Nat, n < 65536 ∧ s.fields.get (str "ttl_seconds") = some (.int n)

theorem lldpTlv_keepsTtl {s s' : LldpState} {t : LldpTlv} (hs : KeepsTtl s)
    (h : lldpTlv s t = .ok s') : KeepsTtl s' := by
  unfold lldpTlv at h
  simp only at h
  split at h
  · exact Except.ok.inj h ▸ hs
  split at h
  · split at h
    · cases h
    · intro hmem
      by_cases hcode : t.type.val = 3
      · rw [hcode] at h
        obtain ⟨hlength, rfl⟩ := lldpFields_ttl h
        exact ⟨_, fromBytes_lt hlength, Dict.get_set_self _ _ _⟩
      · obtain ⟨updates, rfl, hother⟩ := lldpFields_extends hcode h
        rw [get_setAll hother]
        exact hs ((Finset.mem_insert.mp hmem).resolve_left (Ne.symm hcode))
  · next hmandatory =>
    have hcode : t.type.val ≠ 3 := by
      intro hcode
      rw [hcode] at hmandatory
      exact hmandatory (by decide)
    obtain ⟨updates, rfl, hother⟩ := lldpFields_extends hcode h
    intro hmem
    rw [get_setAll hother]
    exact hs hmem

theorem lldpTlvs_error {payload : List Byte} {tlvs : List LldpTlv} {e : Exc}
    (h : lldpTlvs payload = (tlvs, some e)) : ParseError e := by
  have hread : ∀ bytes, Rejects (readLldp bytes) := by
    intro bytes
    unfold readLldp
    split
    · simp only
      split
      · exact raisesOnly_ok _
      · exact rejects_passiveParseError _
    · exact rejects_passiveParseError _
  have hlast : ∀ t rest, Rejects (lldpLast t rest) := fun t rest =>
    .ite (fun _ => .ite (fun _ => rejects_passiveParseError _) fun _ =>
      .ite (fun _ => rejects_passiveParseError _) fun _ => raisesOnly_ok _) fun _ => raisesOnly_ok _
  unfold lldpTlvs at h
  split at h
  · exact items_error hread hlast ⟨_, rfl⟩ h
  · cases h
    exact ⟨_, rfl⟩

theorem neighbor_returns {frame : PassiveFrame} (h : Ordinary frame.observedAt) (fields : Fields)
    (source : Str) {ttl : Nat} (httl : ttl ≤ 2 ^ 32) : (neighbor frame fields source ttl).Returns := by
  obtain ⟨expiresAt, hadd⟩ := h.exists_add httl
  unfold neighbor
  rw [hadd]
  exact returns_ok _

theorem parseLldp_rejects {frame : PassiveFrame} (h : Ordinary frame.observedAt) :
    Rejects (parseLldp frame) := by
  unfold parseLldp
  refine .ite (fun _ => rejects_passiveParseError _) fun _ => ?_
  simp only
  refine (RaisesOnly.foldlM lldpTlv_rejects _ _).bind fun s hs => ?_
  have hkeeps : KeepsTtl s :=
    foldlM_invariant (fun hmem => absurd hmem (Finset.notMem_empty 3))
      (fun t _ _ _ hb ht => lldpTlv_keepsTtl hb ht) hs
  split
  · next e herror => exact raisesOnly_error.mpr (lldpTlvs_error (Prod.ext rfl herror))
  · refine .ite (fun _ => rejects_passiveParseError _) fun _ => ?_
    refine .ite (fun _ => rejects_passiveParseError _) fun hrequired => ?_
    obtain ⟨ttl, hlt, hfield⟩ := hkeeps (by
      rw [not_not.mp hrequired]
      decide)
    rw [hfield]
    have hle : ttl ≤ 2 ^ 32 := Nat.le_trans (Nat.le_of_lt hlt) (by decide)
    exact (neighbor_returns h _ _ hle).raisesOnly

/-! ## CDP -/

/-- An address of the IPv4 protocol has the length of an IP address. -/
def CdpAddress.Renders (a : CdpAddress) : Prop :=
  a.protocol = [0xCC] → a.address.length = 4 ∨ a.address.length = 16

/-- The addresses that can be read, up to the first that is truncated. -/
def readAddresses : Nat → List Byte → List CdpAddress
  | 0, _ => []
  | n + 1, rest =>
    match readCdpAddress rest with
    | .error _ => []
    | .ok (address, rest) => address :: readAddresses n rest

/-- The addresses of a TLV whose count is accepted. -/
def addressesIn (value : List Byte) : List CdpAddress :=
  if value.length < 4 ∨ 64 < fromBytes (value.take 4) then []
  else readAddresses (fromBytes (value.take 4)) (value.drop 4)

/-- The addresses of a TLV that has some. -/
def CdpTlv.addresses (t : CdpTlv) : List CdpAddress :=
  if t.type.val ∈ [0x0002, 0x0016] then addressesIn t.value else []

theorem renderCdpAddress_returns {a : CdpAddress} : (renderCdpAddress a).Returns ↔ a.Renders := by
  unfold renderCdpAddress CdpAddress.Renders
  simp only [List.mem_cons, List.not_mem_nil, or_false]
  by_cases hlength : a.address.length = 4 ∨ a.address.length = 16
  · rw [if_pos (Or.inr hlength), returns_bind]
    refine iff_of_true ?_ fun _ => hlength
    obtain ⟨rendered, hrendered⟩ := ipAddress_returns hlength
    exact ⟨rendered, hrendered, returns_ok _⟩
  · by_cases hprotocol : a.protocol = [0xCC]
    · have herror : ipAddress a.address = .error .value := by
        unfold ipAddress
        rw [if_neg fun h => hlength (Or.inl h), if_neg fun h => hlength (Or.inr h)]
      rw [if_pos (Or.inl hprotocol), herror, error_bind]
      exact iff_of_false (not_returns_error _) fun h => hlength (h hprotocol)
    · rw [if_neg (not_or.mpr ⟨hprotocol, hlength⟩)]
      exact iff_of_true (returns_ok _) fun h => absurd h hprotocol

/-- An address that does not render is a `ValueError`. -/
theorem renderCdpAddress_rejects {a : CdpAddress} : Rejects (renderCdpAddress a) ↔ a.Renders := by
  refine ⟨fun h => ?_, fun h => (renderCdpAddress_returns.mpr h).raisesOnly⟩
  rw [← renderCdpAddress_returns]
  unfold renderCdpAddress ipAddress at h ⊢
  split at h
  · next hrender =>
    rw [if_pos hrender]
    split at h
    · next h₄ =>
      rw [if_pos h₄]
      exact returns_ok _
    · next h₄ =>
      rw [if_neg h₄]
      split at h
      · next h₁₆ =>
        rw [if_pos h₁₆]
        exact returns_ok _
      · obtain ⟨message, hmessage⟩ := h _ rfl
        cases hmessage
  · next hrender =>
    rw [if_neg hrender]
    exact returns_ok _

theorem readCdpAddress_rejects (rest : List Byte) : Rejects (readCdpAddress rest) := by
  unfold readCdpAddress
  refine .ite (fun _ => rejects_passiveParseError _) fun hlength => ?_
  refine (byteAt_returns (by omega)).raisesOnly.bind fun protocolLength _ => ?_
  simp only
  refine .ite (fun _ => rejects_passiveParseError _) fun _ => ?_
  refine .ite (fun _ => rejects_passiveParseError _) fun _ => ?_
  exact .ite (fun _ => rejects_passiveParseError _) fun _ => raisesOnly_ok _

theorem cdpAddressLoop_rejects {n : Nat} {rest : List Byte} :
    Rejects (cdpAddressLoop n rest) ↔ ∀ a ∈ readAddresses n rest, a.Renders := by
  induction n generalizing rest with
  | zero => exact iff_of_true (raisesOnly_ok _) (by rintro a ⟨⟩)
  | succ n ih =>
    rw [cdpAddressLoop, readAddresses]
    cases hread : readCdpAddress rest with
    | error e =>
      rw [error_bind, rejects_error]
      exact iff_of_true (readCdpAddress_rejects rest e hread) (by rintro a ⟨⟩)
    | ok p =>
      obtain ⟨address, rest⟩ := p
      rw [ok_bind]
      simp only
      rw [rejects_bind, renderCdpAddress_rejects, List.forall_mem_cons]
      refine and_congr_right fun haddress => ?_
      obtain ⟨found, hfound⟩ := renderCdpAddress_returns.mpr haddress
      rw [hfound, ← ih]
      constructor
      · intro h
        exact (rejects_bind.mp (h found rfl)).1
      · intro h _ _
        exact h.bind fun _ _ => raisesOnly_ok _

theorem cdpAddresses_rejects {value : List Byte} :
    Rejects (cdpAddresses value) ↔ ∀ a ∈ addressesIn value, a.Renders := by
  unfold cdpAddresses addressesIn
  by_cases hshort : value.length < 4
  · rw [if_pos hshort, if_pos (Or.inl hshort)]
    exact iff_of_true (rejects_passiveParseError _) (by rintro a ⟨⟩)
  rw [if_neg hshort]
  simp only
  by_cases hmany : 64 < fromBytes (value.take 4)
  · rw [if_pos hmany, if_pos (Or.inr hmany)]
    exact iff_of_true (rejects_passiveParseError _) (by rintro a ⟨⟩)
  rw [if_neg hmany, if_neg (not_or.mpr ⟨hshort, hmany⟩), rejects_bind, cdpAddressLoop_rejects]
  refine and_iff_left fun p _ => ?_
  exact .ite (fun _ => rejects_passiveParseError _) fun _ => raisesOnly_ok _

theorem addressFields_rejects {fields : Fields} {value : List Byte} :
    Rejects (addressFields fields value) ↔ ∀ a ∈ addressesIn value, a.Renders := by
  unfold addressFields
  rw [rejects_bind, cdpAddresses_rejects]
  refine and_iff_left fun addresses _ => ?_
  split
  · exact raisesOnly_ok _
  · exact raisesOnly_ok _

theorem addressFields_returns {fields : Fields} {value : List Byte} :
    (addressFields fields value).Returns ↔ (cdpAddresses value).Returns := by
  unfold addressFields
  rw [returns_bind]
  constructor
  · rintro ⟨addresses, h, -⟩
    exact ⟨addresses, h⟩
  · rintro ⟨addresses, h⟩
    refine ⟨addresses, h, ?_⟩
    split
    · exact returns_ok _
    · exact returns_ok _

/-- Whether a TLV is accepted depends on no other. -/
theorem cdpTlv_returns (fields : Fields) (t : CdpTlv) :
    (cdpTlv fields t).Returns ↔ (cdpTlv [] t).Returns := by
  unfold cdpTlv
  split
  · simp only [returns_bind, returns_ok]
  · rw [addressFields_returns, addressFields_returns]
  · simp only [returns_bind, returns_ok]
  · split
    · exact Iff.rfl
    · exact iff_of_true (returns_ok _) (returns_ok _)
  · simp only [returns_bind, returns_ok]
  · simp only [returns_bind, returns_ok]
  · split
    · exact Iff.rfl
    · exact iff_of_true (returns_ok _) (returns_ok _)
  · rw [addressFields_returns, addressFields_returns]
  · exact iff_of_true (returns_ok _) (returns_ok _)

theorem cdpTlv_rejects (fields : Fields) (t : CdpTlv) :
    Rejects (cdpTlv fields t) ↔ ∀ a ∈ CdpTlv.addresses t, a.Renders := by
  have hnone : ∀ {code : Nat}, t.type.val = code → code ∉ [0x0002, 0x0016] →
      ∀ a ∈ CdpTlv.addresses t, a.Renders := by
    intro code hcode hnot a ha
    unfold CdpTlv.addresses at ha
    rw [hcode, if_neg hnot] at ha
    cases ha
  have hsome : t.type.val ∈ [0x0002, 0x0016] → CdpTlv.addresses t = addressesIn t.value :=
    fun h => if_pos h
  unfold cdpTlv
  split
  · next hcode =>
    refine iff_of_true ((text_rejects _ _ _).bind fun _ _ => raisesOnly_ok _) (hnone hcode ?_)
    decide
  · next hcode =>
    rw [hsome (by rw [hcode]; decide)]
    exact addressFields_rejects
  · next hcode =>
    refine iff_of_true ((text_rejects _ _ _).bind fun _ _ => raisesOnly_ok _) (hnone hcode ?_)
    decide
  · next hcode =>
    refine iff_of_true ?_ (hnone hcode (by decide))
    exact .ite (fun _ => rejects_passiveParseError _) fun _ => raisesOnly_ok _
  · next hcode =>
    refine iff_of_true ((text_rejects _ _ _).bind fun _ _ => raisesOnly_ok _) (hnone hcode ?_)
    decide
  · next hcode =>
    refine iff_of_true ((text_rejects _ _ _).bind fun _ _ => raisesOnly_ok _) (hnone hcode ?_)
    decide
  · next hcode =>
    refine iff_of_true ?_ (hnone hcode (by decide))
    exact .ite (fun _ => rejects_passiveParseError _) fun _ => raisesOnly_ok _
  · next hcode =>
    rw [hsome (by rw [hcode]; decide)]
    exact addressFields_rejects
  · next _ h₂ _ _ _ _ _ h₁₆ =>
    refine iff_of_true (raisesOnly_ok _) (hnone rfl ?_)
    simp only [List.mem_cons, List.not_mem_nil, or_false, not_or]
    exact ⟨h₂, h₁₆⟩

theorem cdpTlvs_error {payload : List Byte} {tlvs : List CdpTlv} {e : Exc}
    (h : cdpTlvs payload = (tlvs, some e)) : ParseError e := by
  have hread : ∀ bytes, Rejects (readCdp bytes) := by
    intro bytes
    unfold readCdp
    split
    · simp only
      split
      · exact raisesOnly_ok _
      · exact rejects_passiveParseError _
    · exact rejects_passiveParseError _
  exact items_error hread (fun _ _ => raisesOnly_ok _) ⟨_, rfl⟩ h

/-- The loop of `parse_cdp` is reached. -/
structure CdpHeaderAccepted (frame : PassiveFrame) : Prop where
  protocol : frame.protocol = str "cdp"
  size : 4 ≤ frame.payload.length ∧ frame.payload.length ≤ maxCdpBytes
  version : (frame.payload.getD 0 0).val ∈ [1, 2]

/-- The addresses of every TLV that is reached render: those of the TLVs behind accepted ones. -/
def AddressesRender (frame : PassiveFrame) : Prop :=
  CdpHeaderAccepted frame → ∀ front t back,
    (cdpTlvs (frame.payload.drop 4)).1 = front ++ t :: back → (∀ u ∈ front, (cdpTlv [] u).Returns) →
    ∀ a ∈ CdpTlv.addresses t, a.Renders

theorem parseCdp_rejects {frame : PassiveFrame} (h : Ordinary frame.observedAt) :
    Rejects (parseCdp frame) ↔ AddressesRender frame := by
  unfold parseCdp AddressesRender
  simp only
  by_cases hprotocol : frame.protocol ≠ str "cdp"
  · rw [if_pos hprotocol]
    exact iff_of_true (rejects_passiveParseError _) fun hheader => absurd hheader.protocol hprotocol
  rw [if_neg hprotocol]
  by_cases hsize : 4 ≤ frame.payload.length ∧ frame.payload.length ≤ maxCdpBytes
  swap
  · rw [if_pos hsize]
    exact iff_of_true (rejects_passiveParseError _) fun hheader => absurd hheader.size hsize
  rw [if_neg (not_not.mpr hsize), byteAt_eq_ok (by omega), ok_bind, byteAt_eq_ok (by omega), ok_bind]
  by_cases hversion : (frame.payload.getD 0 0).val ∈ [1, 2]
  swap
  · rw [if_pos hversion]
    exact iff_of_true (rejects_passiveParseError _) fun hheader => absurd hheader.version hversion
  rw [if_neg (not_not.mpr hversion), rejects_bind, Rejects,
    raisesOnly_foldlM cdpTlv_returns cdpTlv_rejects]
  have hheader : CdpHeaderAccepted frame := ⟨not_not.mp hprotocol, hsize, hversion⟩
  rw [and_iff_left]
  · exact ⟨fun h _ => h, fun h => h hheader⟩
  intro fields _
  split
  · next e herror => exact raisesOnly_error.mpr (cdpTlvs_error (Prod.ext rfl herror))
  · refine .ite (fun _ => rejects_passiveParseError _) fun _ => ?_
    have hle : (frame.payload.getD 1 0).val ≤ 2 ^ 32 :=
      Nat.le_trans (Nat.le_of_lt (Fin.isLt _)) (by decide)
    exact (neighbor_returns h _ _ hle).raisesOnly

end Link

end FieldDiscovery.Passive
