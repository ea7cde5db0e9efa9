import FieldDiscovery.Lib.Framing
import FieldDiscovery.Passive.Dhcp

/-!
# The framing of LLDP and CDP

`_lldp_tlvs` and `_cdp_tlvs`: the TLVs of a payload, with the length of the value in nine bits, or
with the length of the whole TLV in sixteen. Both are loops over framed items, so they accept exactly
the payloads that are written by the format, and yield what was written (`framing_exact`).
-/

namespace FieldDiscovery.Passive.Link

open Py Framing

/-- `_MAX_LLDP_BYTES` -/
def maxLldpBytes : Nat := 4096

/-- `_MAX_TLVS` -/
def maxTlvs : Nat := 128

/-- A type and a value, within the widths of their fields. -/
structure Tlv (types room : Nat) where
  type : Fin types
  value : List Byte
  short : value.length ≤ room

theorem Tlv.ext {types room : Nat} {t u : Tlv types room} (htype : t.type.val = u.type.val)
    (hvalue : t.value = u.value) : t = u := by
  obtain ⟨type, value, short⟩ := t
  obtain ⟨type', value', short'⟩ := u
  obtain rfl : type = type' := Fin.ext htype
  obtain rfl : value = value' := hvalue
  rfl

/-! ## LLDP -/

/-- A TLV of LLDP: seven bits of type, nine bits of length. -/
abbrev LldpTlv := Tlv 128 511

/-- The TLV at the front. -/
def readLldp : List Byte → Except Exc (LldpTlv × List Byte)
  | a :: b :: rest =>
    let header := fromBytes [a, b]
    let length := header % 512
    if length ≤ rest.length then
      .ok (⟨Fin.ofNat _ (header / 512), rest.take length, by
        rw [List.length_take]
        have : length < 512 := Nat.mod_lt _ (by decide)
        omega⟩, rest.drop length)
    else passiveParseError (str "truncated LLDP TLV value")
  | _ => passiveParseError (str "truncated LLDP TLV header")

/-- The encoding of a TLV. -/
def writeLldp (t : LldpTlv) : List Byte := word (512 * t.type.val + t.value.length) ++ t.value

theorem readLldp_eq_ok (bytes : List Byte) (t : LldpTlv) (rest : List Byte) :
    readLldp bytes = .ok (t, rest) ↔ bytes = writeLldp t ++ rest := by
  have hshort := t.short
  have htype := t.type.isLt
  have hsplit : writeLldp t ++ rest =
      word (512 * t.type.val + t.value.length) ++ (t.value ++ rest) := List.append_assoc _ _ _
  rw [hsplit]
  match bytes with
  | [] =>
    constructor
    · rintro ⟨⟩
    · rintro ⟨⟩
  | [_] =>
    constructor
    · rintro ⟨⟩
    · rintro ⟨⟩
  | a :: b :: tail =>
    have hpair : a :: b :: tail = word (512 * t.type.val + t.value.length) ++ (t.value ++ rest) ↔
        fromBytes [a, b] = 512 * t.type.val + t.value.length ∧ tail = t.value ++ rest := by
      rw [← pair_eq_word, word]
      simp only [List.cons_append, List.nil_append, List.cons.injEq, and_true]
      constructor
      · rintro ⟨ha, hb, htail⟩
        exact ⟨⟨⟨ha, hb⟩, by omega⟩, htail⟩
      · rintro ⟨⟨⟨ha, hb⟩, -⟩, htail⟩
        exact ⟨ha, hb, htail⟩
    have hlt := fromBytes_pair_lt a b
    rw [hpair]
    unfold readLldp
    simp only
    constructor
    · intro h
      by_cases hlength : fromBytes [a, b] % 512 ≤ tail.length
      · rw [if_pos hlength] at h
        obtain ⟨rfl, rfl⟩ := Prod.ext_iff.mp (Except.ok.inj h)
        simp only [Fin.val_ofNat, List.length_take_of_le hlength, List.take_append_drop, and_true]
        omega
      · rw [if_neg hlength] at h
        cases h
    · rintro ⟨hheader, rfl⟩
      have hlength : fromBytes [a, b] % 512 = t.value.length := by omega
      rw [if_pos (by rw [hlength, List.length_append]; omega)]
      have htlv : (⟨Fin.ofNat 128 (fromBytes [a, b] / 512),
          (t.value ++ rest).take (fromBytes [a, b] % 512), by
            rw [List.length_take]
            omega⟩ : LldpTlv) = t := by
        apply Tlv.ext
        · rw [Fin.val_ofNat]
          omega
        · change (t.value ++ rest).take (fromBytes [a, b] % 512) = t.value
          rw [hlength, List.take_left]
      rw [htlv, hlength, List.drop_left]

/-- The TLVs of LLDP. -/
def lldpFormat : Format Exc LldpTlv where
  write := writeLldp
  read := readLldp
  read_eq_ok := readLldp_eq_ok
  write_ne_nil _ := List.cons_ne_nil _ _

/-- The TLV of type 0 is the last, and nothing but padding follows it. -/
def lldpLast (t : LldpTlv) (rest : List Byte) : Except Exc Bool :=
  if t.type.val = 0 then
    if t.value ≠ [] then passiveParseError (str "invalid LLDP end TLV")
    else if rest.any (· ≠ 0) then
      passiveParseError (str "non-padding bytes follow LLDP end TLV")
    else .ok true
  else .ok false

/-- What `_lldp_tlvs` yields, and what it raises. -/
def lldpTlvs (payload : List Byte) : List LldpTlv × Option Exc :=
  if 2 ≤ payload.length ∧ payload.length ≤ maxLldpBytes then
    items lldpFormat lldpLast (.passiveParse (str "too many LLDP TLVs")) maxTlvs payload
  else ([], some (.passiveParse (str "LLDP frame length is invalid")))

/-! ## CDP -/

/-- A TLV of CDP: sixteen bits of type, sixteen bits of length, four of the bytes are the header. -/
abbrev CdpTlv := Tlv 65536 65531

/-- The TLV at the front. -/
def readCdp : List Byte → Except Exc (CdpTlv × List Byte)
  | a :: b :: c :: d :: rest =>
    let length := fromBytes [c, d]
    if 4 ≤ length ∧ length ≤ rest.length + 4 then
      .ok (⟨⟨fromBytes [a, b], fromBytes_pair_lt a b⟩, rest.take (length - 4), by
        rw [List.length_take]
        have := fromBytes_pair_lt c d
        omega⟩, rest.drop (length - 4))
    else passiveParseError (str "invalid or truncated CDP TLV")
  | _ => passiveParseError (str "truncated CDP TLV header")

/-- The encoding of a TLV. -/
def writeCdp (t : CdpTlv) : List Byte := word t.type.val ++ word (t.value.length + 4) ++ t.value

theorem readCdp_eq_ok (bytes : List Byte) (t : CdpTlv) (rest : List Byte) :
    readCdp bytes = .ok (t, rest) ↔ bytes = writeCdp t ++ rest := by
  have hshort := t.short
  have htype := t.type.isLt
  have hsplit : writeCdp t ++ rest =
      word t.type.val ++ (word (t.value.length + 4) ++ (t.value ++ rest)) := by
    simp [writeCdp]
  rw [hsplit]
  match bytes with
  | [] =>
    constructor
    · rintro ⟨⟩
    · rintro ⟨⟩
  | [_] =>
    constructor
    · rintro ⟨⟩
    · rintro ⟨⟩
  | [_, _] =>
    constructor
    · rintro ⟨⟩
    · rintro ⟨⟩
  | [_, _, _] =>
    constructor
    · rintro ⟨⟩
    · rintro ⟨⟩
  | a :: b :: c :: d :: tail =>
    have hpair : a :: b :: c :: d :: tail =
          word t.type.val ++ (word (t.value.length + 4) ++ (t.value ++ rest)) ↔
        fromBytes [a, b] = t.type.val ∧ fromBytes [c, d] = t.value.length + 4 ∧
          tail = t.value ++ rest := by
      rw [← pair_eq_word, ← pair_eq_word, word, word]
      simp only [List.cons_append, List.nil_append, List.cons.injEq, and_true]
      constructor
      · rintro ⟨ha, hb, hc, hd, htail⟩
        exact ⟨⟨⟨ha, hb⟩, htype⟩, ⟨⟨hc, hd⟩, by omega⟩, htail⟩
      · rintro ⟨⟨⟨ha, hb⟩, -⟩, ⟨⟨hc, hd⟩, -⟩, htail⟩
        exact ⟨ha, hb, hc, hd, htail⟩
    have hlt := fromBytes_pair_lt c d
    rw [hpair]
    unfold readCdp
    simp only
    constructor
    · intro h
      by_cases hlength : 4 ≤ fromBytes [c, d] ∧ fromBytes [c, d] ≤ tail.length + 4
      · rw [if_pos hlength] at h
        obtain ⟨rfl, rfl⟩ := Prod.ext_iff.mp (Except.ok.inj h)
        simp only [List.length_take, List.take_append_drop, and_true, true_and]
        omega
      · rw [if_neg hlength] at h
        cases h
    · rintro ⟨hcode, hlength, rfl⟩
      have hvalue : fromBytes [c, d] - 4 = t.value.length := by omega
      rw [if_pos (by rw [hlength, List.length_append]; omega)]
      have htlv : (⟨⟨fromBytes [a, b], fromBytes_pair_lt a b⟩,
          (t.value ++ rest).take (fromBytes [c, d] - 4), by
            rw [List.length_take]
            omega⟩ : CdpTlv) = t := by
        apply Tlv.ext
        · exact hcode
        · change (t.value ++ rest).take (fromBytes [c, d] - 4) = t.value
          rw [hvalue, List.take_left]
      rw [htlv, hvalue, List.drop_left]

/-- The TLVs of CDP. -/
def cdpFormat : Format Exc CdpTlv where
  write := writeCdp
  read := readCdp
  read_eq_ok := readCdp_eq_ok
  write_ne_nil _ := List.cons_ne_nil _ _

/-- What `_cdp_tlvs` yields, and what it raises. -/
def cdpTlvs (payload : List Byte) : List CdpTlv × Option Exc :=
  items cdpFormat (fun _ _ => .ok false) (.passiveParse (str "too many CDP TLVs")) maxTlvs payload

/-! ## What is accepted -/

/-- The last TLV alone may be the end TLV; only zero bytes follow it, and nothing follows another. -/
structure EndsRight (l : List LldpTlv) (padding : List Byte) : Prop where
  front : ∀ t ∈ l.dropLast, t.type.val ≠ 0
  back : ∀ t ∈ l.getLast?, t.type.val = 0 → t.value = []
  zeros : ∀ b ∈ padding, b = 0
  unpadded : padding ≠ [] → ∃ t ∈ l.getLast?, t.type.val = 0

theorem any_ne_zero {rest : List Byte} : rest.any (· ≠ 0) = true ↔ ¬ ∀ b ∈ rest, b = 0 := by
  simp

theorem lldpLast_eq_true {t : LldpTlv} {rest : List Byte} :
    lldpLast t rest = .ok true ↔ t.type.val = 0 ∧ t.value = [] ∧ ∀ b ∈ rest, b = 0 := by
  unfold lldpLast
  by_cases htype : t.type.val = 0
  · rw [if_pos htype]
    by_cases hvalue : t.value = []
    · rw [if_neg (not_not.mpr hvalue)]
      by_cases hzeros : ∀ b ∈ rest, b = 0
      · rw [if_neg fun h => any_ne_zero.mp h hzeros]
        exact iff_of_true rfl ⟨htype, hvalue, hzeros⟩
      · rw [if_pos (any_ne_zero.mpr hzeros)]
        exact iff_of_false (by rintro ⟨⟩) fun h => hzeros h.2.2
    · rw [if_pos hvalue]
      exact iff_of_false (by rintro ⟨⟩) fun h => hvalue h.2.1
  · rw [if_neg htype]
    exact iff_of_false (by rintro ⟨⟩) fun h => htype h.1

theorem lldpLast_eq_false {t : LldpTlv} {rest : List Byte} :
    lldpLast t rest = .ok false ↔ t.type.val ≠ 0 := by
  unfold lldpLast
  by_cases htype : t.type.val = 0
  · rw [if_pos htype]
    refine iff_of_false ?_ (not_not.mpr htype)
    by_cases hvalue : t.value = []
    · rw [if_neg (not_not.mpr hvalue)]
      split <;> rintro ⟨⟩
    · rw [if_pos hvalue]
      rintro ⟨⟩
  · rw [if_neg htype]
    exact iff_of_true rfl htype

/-- The framing of LLDP, as it is written. -/
theorem lldpFramed_iff {l : List LldpTlv} {bytes : List Byte} :
    Framed lldpFormat lldpLast l bytes ↔
      ∃ padding, bytes = lldpFormat.writeAll l ++ padding ∧ EndsRight l padding := by
  constructor
  · intro h
    induction h with
    | nil => exact ⟨[], rfl, by simp, by simp, by simp, by simp⟩
    | @last t rest hlast =>
      obtain ⟨htype, hvalue, hzeros⟩ := lldpLast_eq_true.mp hlast
      refine ⟨rest, by simp [Format.writeAll], by simp, ?_, hzeros, ?_⟩
      · simpa using fun _ => hvalue
      · simpa using fun _ => htype
    | @cons t l rest hlast _ ih =>
      obtain ⟨padding, rfl, hends⟩ := ih
      have htype := lldpLast_eq_false.mp hlast
      refine ⟨padding, by simp [Format.writeAll], ?_⟩
      cases l with
      | nil =>
        refine ⟨by simp, ?_, hends.zeros, fun h => ?_⟩
        · intro u hu hu'
          rw [List.getLast?_singleton, Option.mem_some_iff] at hu
          exact absurd (hu ▸ hu') htype
        · obtain ⟨u, hu, -⟩ := hends.unpadded h
          cases hu
      | cons u l =>
        refine ⟨?_, by simpa using hends.back, hends.zeros, by simpa using hends.unpadded⟩
        intro v hv
        rw [List.dropLast_cons_cons] at hv
        rcases List.mem_cons.mp hv with rfl | hv
        · exact htype
        · exact hends.front v hv
  · rintro ⟨padding, rfl, hends⟩
    induction l with
    | nil =>
      have hnil : padding = [] := by
        by_contra hne
        obtain ⟨t, ht, -⟩ := hends.unpadded hne
        cases ht
      rw [hnil]
      exact .nil
    | cons t l ih =>
      have hwrite : lldpFormat.writeAll (t :: l) ++ padding =
          lldpFormat.write t ++ (lldpFormat.writeAll l ++ padding) := by
        simp [Format.writeAll]
      rw [hwrite]
      by_cases htype : t.type.val = 0
      · -- a TLV of type 0 is the last
        have hnil : l = [] := by
          by_contra hne
          obtain ⟨u, l, rfl⟩ := List.exists_cons_of_ne_nil hne
          exact hends.front t (by simp) htype
        subst hnil
        exact .last (lldpLast_eq_true.mpr ⟨htype, hends.back t (by simp) htype, hends.zeros⟩)
      · refine .cons (lldpLast_eq_false.mpr htype) (ih ?_)
        cases l with
        | nil =>
          refine ⟨by simp, by simp, hends.zeros, fun h => ?_⟩
          obtain ⟨u, hu, hu'⟩ := hends.unpadded h
          rw [List.getLast?_singleton, Option.mem_some_iff] at hu
          exact absurd (hu ▸ hu') htype
        | cons u l =>
          refine ⟨fun v hv => hends.front v ?_, by simpa using hends.back, hends.zeros,
            by simpa using hends.unpadded⟩
          rw [List.dropLast_cons_cons]
          exact List.mem_cons_of_mem _ hv

/-- An LLDP payload: TLVs and padding within the limits. -/
structure LldpPdu where
  tlvs : List LldpTlv
  padding : List Byte
  few : tlvs.length ≤ maxTlvs
  ends : EndsRight tlvs padding
  size : 2 ≤ (lldpFormat.writeAll tlvs ++ padding).length ∧
    (lldpFormat.writeAll tlvs ++ padding).length ≤ maxLldpBytes

def LldpPdu.payload (p : LldpPdu) : List Byte := lldpFormat.writeAll p.tlvs ++ p.padding

/-- TLVs of CDP, not too many of them. -/
structure CdpPdu where
  tlvs : List CdpTlv
  few : tlvs.length ≤ maxTlvs

def CdpPdu.payload (p : CdpPdu) : List Byte := cdpFormat.writeAll p.tlvs

/-- `_lldp_tlvs` and `_cdp_tlvs` are used up without an error exactly on the payloads of their
format, and then have yielded the TLVs of the payload in their order. -/
theorem framing_exact :
    (∀ payload tlvs, lldpTlvs payload = (tlvs, none) ↔
      ∃ p : LldpPdu, p.payload = payload ∧ p.tlvs = tlvs) ∧
    (∀ payload tlvs, cdpTlvs payload = (tlvs, none) ↔
      ∃ p : CdpPdu, p.payload = payload ∧ p.tlvs = tlvs) ∧
    (∀ p : LldpPdu, lldpTlvs p.payload = (p.tlvs, none)) ∧
    ∀ p : CdpPdu, cdpTlvs p.payload = (p.tlvs, none) := by
  have hlldp : ∀ payload tlvs, lldpTlvs payload = (tlvs, none) ↔
      ∃ p : LldpPdu, p.payload = payload ∧ p.tlvs = tlvs := by
    intro payload tlvs
    unfold lldpTlvs
    by_cases hsize : 2 ≤ payload.length ∧ payload.length ≤ maxLldpBytes
    · rw [if_pos hsize, items_eq_ok, lldpFramed_iff]
      constructor
      · rintro ⟨⟨padding, rfl, hends⟩, hfew⟩
        exact ⟨⟨tlvs, padding, hfew, hends, hsize⟩, rfl, rfl⟩
      · rintro ⟨p, rfl, rfl⟩
        exact ⟨⟨p.padding, rfl, p.ends⟩, p.few⟩
    · rw [if_neg hsize]
      constructor
      · rintro ⟨⟩
      · rintro ⟨p, rfl, -⟩
        exact absurd p.size hsize
  have hcdp : ∀ payload tlvs, cdpTlvs payload = (tlvs, none) ↔
      ∃ p : CdpPdu, p.payload = payload ∧ p.tlvs = tlvs := by
    intro payload tlvs
    unfold cdpTlvs
    rw [items_eq_ok, framed_iff_writeAll]
    constructor
    · rintro ⟨rfl, hfew⟩
      exact ⟨⟨tlvs, hfew⟩, rfl, rfl⟩
    · rintro ⟨p, rfl, rfl⟩
      exact ⟨rfl, p.few⟩
  exact ⟨hlldp, hcdp, fun p => (hlldp _ _).mpr ⟨p, rfl, rfl⟩, fun p => (hcdp _ _).mpr ⟨p, rfl, rfl⟩⟩

end FieldDiscovery.Passive.Link
