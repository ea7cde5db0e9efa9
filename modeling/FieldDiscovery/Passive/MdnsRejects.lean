import FieldDiscovery.Passive.DhcpRejects
import FieldDiscovery.Passive.MdnsMessage

/-!
# What the mDNS parser raises

`MDNSParser` checks every length before it slices or unpacks, so it rejects a message, or the redactor
raises on the value of a TXT item. The items that reach the redactor are those of the records that are
reached (`messageItems`), and whether one of them is reached does not depend on what the redactor
makes of those before it (`call_rejects`).
-/

open Except

namespace FieldDiscovery.Passive

open Py Framing Dhcp Capture Redaction

/-! ## Names -/

namespace Dns

theorem pass_rejects (message : List Byte) (r : Reading) : Rejects (pass message r) := by
  unfold pass
  split
  · exact rejects_passiveParseError _
  · refine .ite (fun _ => ?_) fun _ => .ite (fun _ => rejects_passiveParseError _) fun _ => ?_
    · split
      · exact rejects_passiveParseError _
      · exact .ite (fun _ => rejects_passiveParseError _) fun _ => raisesOnly_ok _
    · refine .ite (fun _ => raisesOnly_ok _) fun _ => ?_
      refine .ite (fun _ => rejects_passiveParseError _) fun _ => ?_
      refine .ite (fun _ => rejects_passiveParseError _) fun _ => ?_
      split
      · exact rejects_passiveParseError _
      · exact .ite (fun _ => rejects_passiveParseError _) fun _ => raisesOnly_ok _

theorem readFrom_rejects (message : List Byte) (r : Reading) : Rejects (readFrom message r) := by
  fun_induction readFrom message r with
  | case1 r e h => exact rejects_error.mpr (pass_rejects message r e h)
  | case2 r labels consumed h => exact raisesOnly_ok _
  | case3 r r' h ih => exact ih

theorem readName_rejects (rt : Runtime) (message : List Byte) (offset : Nat) :
    Rejects (readName rt message offset) := by
  refine RaisesOnly.bind ?_ fun _ _ => raisesOnly_ok _
  exact .ite (fun _ => rejects_passiveParseError _) fun _ => readFrom_rejects _ _

end Dns

namespace Mdns

open Dns Neighbor

/-! ## TXT records -/

/-- A redactor that leaves every value as it is. -/
def plain (_ value : Str) : Except Exc Str := .ok value

/-- The items of a TXT record that reach the redactor, as keys and values. -/
def txtItems : List Byte → List (Str × Str)
  | [] => []
  | length :: rest =>
    if rest.length < length.val then []
    else
      match txtItem (rest.take length.val) with
      | .error _ => []
      | .ok item => item :: txtItems (rest.drop length.val)
termination_by data => data.length
decreasing_by
  simp only [List.length_drop, List.length_cons]
  omega

theorem txtItem_rejects (item : List Byte) : Rejects (txtItem item) := by
  unfold txtItem
  split
  · exact rejects_passiveParseError _
  · exact .ite (fun _ => rejects_passiveParseError _) fun _ => raisesOnly_ok _

section

variable {redact : Str → Str → Except Exc Str}

/-- The loop returns when the record is well formed and each item is redacted. -/
theorem txtLoop_returns {data : List Byte} {values values' : TxtValues} :
    (txtLoop redact data values).Returns ↔ (txtLoop plain data values').Returns ∧
      ∀ item ∈ txtItems data, (redact item.1 item.2).Returns := by
  induction hn : data.length using Nat.strong_induction_on generalizing data values values' with
  | _ n ih =>
  cases data with
  | nil =>
    rw [txtLoop, txtLoop, txtItems]
    exact iff_of_true (returns_ok _) ⟨returns_ok _, by rintro item ⟨⟩⟩
  | cons length rest =>
    rw [txtLoop, txtLoop, txtItems]
    by_cases hshort : rest.length < length.val
    · rw [if_pos hshort, if_pos hshort, if_pos hshort]
      exact iff_of_false (not_returns_error _) fun h => not_returns_error _ h.1
    rw [if_neg hshort, if_neg hshort, if_neg hshort]
    cases hitem : txtItem (rest.take length.val) with
    | error e => exact iff_of_false (not_returns_error _) fun h => not_returns_error _ h.1
    | ok item =>
      obtain ⟨key, value⟩ := item
      simp only [ok_bind, plain, returns_bind, List.forall_mem_cons]
      have htail : ∀ s, (txtLoop redact (rest.drop length.val) (addTxt values key s)).Returns ↔
          (txtLoop plain (rest.drop length.val) (addTxt values' key value)).Returns ∧
            ∀ item ∈ txtItems (rest.drop length.val), (redact item.1 item.2).Returns :=
        fun s => ih _ (by
          rw [List.length_cons] at hn
          rw [List.length_drop]
          omega) rfl
      constructor
      · rintro ⟨s, hs, h⟩
        obtain ⟨hplain, hitems⟩ := (htail s).mp h
        exact ⟨hplain, ⟨s, hs⟩, hitems⟩
      · rintro ⟨hplain, ⟨s, hs⟩, hitems⟩
        exact ⟨s, hs, (htail s).mpr ⟨hplain, hitems⟩⟩

variable (hredact : ∀ key value, Rejects (redact key value) ↔ (redact key value).Returns)
include hredact

theorem txtLoop_rejects {data : List Byte} {values : TxtValues} :
    Rejects (txtLoop redact data values) ↔
      ∀ item ∈ txtItems data, (redact item.1 item.2).Returns := by
  induction hn : data.length using Nat.strong_induction_on generalizing data values with
  | _ n ih =>
  cases data with
  | nil =>
    rw [txtLoop, txtItems]
    exact iff_of_true (raisesOnly_ok _) (by rintro item ⟨⟩)
  | cons length rest =>
    rw [txtLoop, txtItems]
    by_cases hshort : rest.length < length.val
    · rw [if_pos hshort, if_pos hshort]
      exact iff_of_true (rejects_passiveParseError _) (by rintro item ⟨⟩)
    rw [if_neg hshort, if_neg hshort, rejects_bind_of (txtItem_rejects _)]
    cases hitem : txtItem (rest.take length.val) with
    | error e => exact iff_of_true (by rintro item ⟨⟩) (by rintro item ⟨⟩)
    | ok item =>
      obtain ⟨key, value⟩ := item
      have htail : ∀ s, Rejects (txtLoop redact (rest.drop length.val) (addTxt values key s)) ↔
          ∀ item ∈ txtItems (rest.drop length.val), (redact item.1 item.2).Returns :=
        fun s => ih _ (by
          rw [List.length_cons] at hn
          rw [List.length_drop]
          omega) rfl
      simp only [Except.ok.injEq, forall_eq', rejects_bind, hredact, htail, List.forall_mem_cons]
      refine and_congr_right fun hreturns => ?_
      obtain ⟨s, hs⟩ := hreturns
      exact ⟨fun h => h s hs, fun h _ _ => h⟩

omit hredact

/-! ## Records -/

variable {rt : Runtime} {bounds : MessageBounds} {payload : List Byte}

/-- The data of a record is a TXT record that is not too long. -/
def IsTxt (bounds : MessageBounds) (h : RecordHeader) : Prop :=
  h.recordClass % 0x8000 = 1 ∧ h.type = 16 ∧ h.stop - h.start ≤ bounds.maxTxtBytes

instance (bounds : MessageBounds) (h : RecordHeader) : Decidable (IsTxt bounds h) :=
  inferInstanceAs (Decidable (_ ∧ _ ∧ _))

/-- The items of a record that reach the redactor. -/
def recordItems (bounds : MessageBounds) (payload : List Byte) (h : RecordHeader) :
    List (Str × Str) :=
  if IsTxt bounds h then txtItems (slice payload h.start h.stop) else []

theorem unpackFrom_eq {size offset : Nat} (h : offset + size ≤ payload.length) :
    unpackFrom size payload offset = .ok (slice payload offset (offset + size)) := if_pos h

/-- A record without a text does not come to the redactor. -/
theorem recordValue_of_not_isTxt {h : RecordHeader} (htxt : ¬ IsTxt bounds h) :
    recordValue rt bounds redact payload h = recordValue rt bounds plain payload h := by
  unfold recordValue parseRdata
  by_cases hclass : h.recordClass % 0x8000 = 1
  · rw [if_pos hclass, if_pos hclass]
    by_cases hlong : bounds.maxTxtBytes < h.stop - h.start
    · rw [if_pos hlong, if_pos hlong]
    · have htype : h.type ≠ 16 := fun htype => htxt ⟨hclass, htype, Nat.not_lt.mp hlong⟩
      rw [if_neg htype, if_neg htype]
  · rw [if_neg hclass, if_neg hclass]

/-- A TXT record is a run of the loop over its items. -/
theorem recordValue_of_isTxt {h : RecordHeader} (htxt : IsTxt bounds h) :
    recordValue rt bounds redact payload h =
      txtLoop redact (slice payload h.start h.stop) [] >>= fun values => .ok (some (.text values)) := by
  obtain ⟨hclass, htype, hshort⟩ := htxt
  unfold recordValue parseRdata
  rw [if_pos hclass, htype, if_neg (by decide), if_neg (by decide), if_neg (by decide), if_pos rfl,
    if_neg (Nat.not_lt.mpr hshort)]
  rfl

theorem recordValue_returns {h : RecordHeader} :
    (recordValue rt bounds redact payload h).Returns ↔
      (recordValue rt bounds plain payload h).Returns ∧
        ∀ item ∈ recordItems bounds payload h, (redact item.1 item.2).Returns := by
  unfold recordItems
  by_cases htxt : IsTxt bounds h
  · rw [if_pos htxt, recordValue_of_isTxt htxt, recordValue_of_isTxt htxt]
    have hbind : ∀ x : Except Exc TxtValues,
        (x >>= fun values => .ok (some (Value.text values))).Returns ↔ x.Returns := by
      intro x
      cases x with
      | error e => exact iff_of_false (not_returns_error _) (not_returns_error _)
      | ok values => exact iff_of_true (returns_ok _) (returns_ok _)
    rw [hbind, hbind]
    exact txtLoop_returns
  · rw [if_neg htxt, recordValue_of_not_isTxt htxt]
    exact (and_iff_left (by rintro item ⟨⟩)).symm

include hredact

theorem recordValue_rejects {h : RecordHeader} (hstop : h.stop ≤ payload.length) :
    Rejects (recordValue rt bounds redact payload h) ↔
      ∀ item ∈ recordItems bounds payload h, (redact item.1 item.2).Returns := by
  unfold recordItems
  by_cases htxt : IsTxt bounds h
  · rw [if_pos htxt, recordValue_of_isTxt htxt, rejects_bind, ← txtLoop_rejects hredact]
    exact and_iff_left fun _ _ => raisesOnly_ok _
  · rw [if_neg htxt]
    refine iff_of_true ?_ (by rintro item ⟨⟩)
    unfold recordValue parseRdata
    refine .ite (fun hclass => ?_) fun _ => raisesOnly_ok _
    refine .ite (fun _ => ?_) fun _ => .ite (fun _ => ?_) fun _ => .ite (fun _ => ?_) fun _ =>
      .ite (fun htype => ?_) fun _ => raisesOnly_ok _
    · refine .ite (fun _ => rejects_passiveParseError _) fun hlength => ?_
      have haddress := @packedIpv4_returns (slice payload h.start h.stop)
        ((length_slice hstop).trans (not_not.mp hlength))
      exact haddress.raisesOnly.bind fun _ _ => raisesOnly_ok _
    · refine (readName_rejects rt _ _).bind fun _ _ => ?_
      exact .ite (fun _ => rejects_passiveParseError _) fun _ => raisesOnly_ok _
    · refine .ite (fun _ => rejects_passiveParseError _) fun hlength => ?_
      rw [unpackFrom_eq (by omega), ok_bind]
      refine (readName_rejects rt _ _).bind fun _ _ => ?_
      exact .ite (fun _ => rejects_passiveParseError _) fun _ => raisesOnly_ok _
    · refine .ite (fun _ => rejects_passiveParseError _) fun hshort => ?_
      exact absurd ⟨hclass, htype, Nat.not_lt.mp hshort⟩ htxt

omit hredact

theorem readRecord_rejects (rt : Runtime) (payload : List Byte) (offset : Nat) :
    Rejects (readRecord rt payload offset) := by
  refine (readName_rejects rt _ _).bind fun _ _ => ?_
  refine .ite (fun _ => rejects_passiveParseError _) fun hlength => ?_
  rw [unpackFrom_eq (by omega), ok_bind]
  exact .ite (fun _ => rejects_passiveParseError _) fun _ => raisesOnly_ok _

/-- A record that is read lies in the message, and its lifetime has 32 bits. -/
theorem readRecord_bounds {offset : Nat} {h : RecordHeader}
    (hread : readRecord rt payload offset = .ok h) : h.stop ≤ payload.length ∧ h.ttl < 2 ^ 32 := by
  obtain ⟨⟨name, offset⟩, -, hread⟩ := bind_eq_ok.mp hread
  simp only at hread
  split at hread
  · cases hread
  · next hlength =>
    rw [unpackFrom_eq (by omega), ok_bind] at hread
    split at hread
    · cases hread
    · next hstop =>
      cases hread
      refine ⟨Nat.not_lt.mp hstop, ?_⟩
      refine Nat.lt_of_lt_of_le (fromBytes_lt (length_slice ?_)) (by decide)
      rw [length_slice (by omega)]
      omega

/-! ## Messages -/

/-- The items that reach the redactor in some records from an offset on. -/
def recordsItems (rt : Runtime) (bounds : MessageBounds) (payload : List Byte) :
    Nat → Nat → List (Str × Str)
  | 0, _ => []
  | n + 1, offset =>
    match readRecord rt payload offset with
    | .error _ => []
    | .ok h =>
      recordItems bounds payload h ++
        match recordValue rt bounds plain payload h with
        | .error _ => []
        | .ok _ => recordsItems rt bounds payload n h.stop

/-- The items of a message that reach the redactor. -/
def messageItems (rt : Runtime) (bounds : MessageBounds) (payload : List Byte) : List (Str × Str) :=
  match readHeader bounds payload with
  | .error _ => []
  | .ok header =>
    if header.isResponse ∧ header.Fits bounds then
      match questionLoop rt payload header.questions 12 with
      | .error _ => []
      | .ok offset => recordsItems rt bounds payload header.records offset
    else []

theorem questionLoop_rejects (rt : Runtime) (payload : List Byte) (n offset : Nat) :
    Rejects (questionLoop rt payload n offset) := by
  induction n generalizing offset with
  | zero => exact raisesOnly_ok _
  | succ n ih =>
    rw [questionLoop]
    refine (readName_rejects rt _ _).bind fun _ _ => ?_
    exact .ite (fun _ => rejects_passiveParseError _) fun _ => ih _

theorem readHeader_rejects (bounds : MessageBounds) (payload : List Byte) :
    Rejects (readHeader bounds payload) := by
  refine .ite (fun _ => rejects_passiveParseError _) fun _ => ?_
  refine .ite (fun _ => rejects_passiveParseError _) fun hlength => ?_
  rw [unpackFrom_eq (by omega), ok_bind]
  exact raisesOnly_ok _

/-- The lifetimes of the records have 32 bits. -/
theorem recordLoop_ttl {n offset offset' : Nat} {records records' : List DecodedRecord}
    (hrecords : ∀ d ∈ records, d.ttl < 2 ^ 32)
    (h : recordLoop rt bounds redact payload n offset records = .ok (offset', records')) :
    ∀ d ∈ records', d.ttl < 2 ^ 32 := by
  induction n generalizing offset records with
  | zero =>
    cases h
    exact hrecords
  | succ n ih =>
    rw [recordLoop] at h
    obtain ⟨header, hheader, h⟩ := bind_eq_ok.mp h
    obtain ⟨value, -, h⟩ := bind_eq_ok.mp h
    refine ih ?_ h
    intro d hd
    rcases List.mem_append.mp hd with hd | hd
    · exact hrecords d hd
    · obtain ⟨v, -, rfl⟩ := Option.map_eq_some_iff.mp (Option.mem_toList.mp hd)
      exact (readRecord_bounds hheader).2

theorem parseMessage_ttl {records : List DecodedRecord}
    (h : parseMessage rt bounds redact payload = .ok records) : ∀ d ∈ records, d.ttl < 2 ^ 32 := by
  obtain ⟨header, -, h⟩ := bind_eq_ok.mp h
  split at h
  · cases h
    rintro d ⟨⟩
  split at h
  · cases h
  obtain ⟨offset, -, h⟩ := bind_eq_ok.mp h
  obtain ⟨⟨offset', records'⟩, hloop, h⟩ := bind_eq_ok.mp h
  simp only at h
  split at h
  · cases h
  · cases h
    exact recordLoop_ttl (by rintro d ⟨⟩) hloop

include hredact

theorem recordLoop_rejects {n offset : Nat} {records : List DecodedRecord} :
    Rejects (recordLoop rt bounds redact payload n offset records) ↔
      ∀ item ∈ recordsItems rt bounds payload n offset, (redact item.1 item.2).Returns := by
  induction n generalizing offset records with
  | zero => exact iff_of_true (raisesOnly_ok _) (by rintro item ⟨⟩)
  | succ n ih =>
    rw [recordLoop, recordsItems, rejects_bind_of (readRecord_rejects rt payload offset)]
    cases hread : readRecord rt payload offset with
    | error e => exact iff_of_true (by rintro h ⟨⟩) (by rintro item ⟨⟩)
    | ok h =>
      simp only [Except.ok.injEq, forall_eq', List.forall_mem_append]
      rw [rejects_bind, recordValue_rejects hredact (readRecord_bounds hread).1]
      refine and_congr_right fun hitems => ?_
      simp only [ih]
      -- the items before have been redacted, so the record is accepted as it is without a redactor
      have hreturns : (recordValue rt bounds redact payload h).Returns ↔
          (recordValue rt bounds plain payload h).Returns :=
        recordValue_returns.trans (and_iff_left hitems)
      cases hplain : recordValue rt bounds plain payload h with
      | error e =>
        refine iff_of_true (fun value hvalue => ?_) (by rintro item ⟨⟩)
        rw [hplain] at hreturns
        exact absurd (hreturns.mp ⟨value, hvalue⟩) (not_returns_error _)
      | ok value =>
        rw [hplain] at hreturns
        obtain ⟨value', hvalue'⟩ := hreturns.mpr (returns_ok _)
        exact ⟨fun h => h value' hvalue', fun h _ _ => h⟩

theorem parseMessage_rejects :
    Rejects (parseMessage rt bounds redact payload) ↔
      ∀ item ∈ messageItems rt bounds payload, (redact item.1 item.2).Returns := by
  unfold parseMessage messageItems
  rw [rejects_bind_of (readHeader_rejects bounds payload)]
  cases readHeader bounds payload with
  | error e => exact iff_of_true (by rintro h ⟨⟩) (by rintro item ⟨⟩)
  | ok header =>
    simp only [Except.ok.injEq, forall_eq']
    by_cases hresponse : header.isResponse
    swap
    · rw [if_pos hresponse, if_neg fun h => hresponse h.1]
      exact iff_of_true (raisesOnly_ok _) (by rintro item ⟨⟩)
    rw [if_neg (not_not.mpr hresponse)]
    by_cases hfits : header.Fits bounds
    swap
    · rw [if_pos hfits, if_neg fun h => hfits h.2]
      exact iff_of_true (rejects_passiveParseError _) (by rintro item ⟨⟩)
    rw [if_neg (not_not.mpr hfits), if_pos ⟨hresponse, hfits⟩,
      rejects_bind_of (questionLoop_rejects rt payload _ _)]
    cases questionLoop rt payload header.questions 12 with
    | error e => exact iff_of_true (by rintro h ⟨⟩) (by rintro item ⟨⟩)
    | ok offset =>
      simp only [Except.ok.injEq, forall_eq']
      rw [rejects_bind, recordLoop_rejects hredact]
      refine and_iff_left fun p _ => ?_
      exact .ite (fun _ => rejects_passiveParseError _) fun _ => raisesOnly_ok _

end

/-! ## The parser -/

/-- Every value of a TXT item that reaches the redactor has keys that are JSON strings, unless its own
key is sensitive. -/
def ItemsDecode (rt : Runtime) (p : MDNSParser) (frame : PassiveFrame) : Prop :=
  rt.casefold frame.protocol = str "mdns" ∨ rt.casefold frame.protocol = str "dns-sd" →
    ∀ item ∈ messageItems rt p.bounds frame.payload,
      isSensitive item.1 = true ∨ KeysDecode rt p.redactor item.2

theorem redactItem_returns {rt : Runtime} {r : Redactor} {key value : Str} :
    (redactItem rt r key value).Returns ↔ isSensitive key = true ∨ KeysDecode rt r value := by
  rw [redactItem_eq]
  by_cases hsensitive : isSensitive key = true
  · rw [if_pos hsensitive]
    exact iff_of_true (returns_ok _) (Or.inl hsensitive)
  · rw [if_neg hsensitive, Redactor.text_returns]
    exact (or_iff_right hsensitive).symm

theorem redactItem_rejects (rt : Runtime) (r : Redactor) (key value : Str) :
    Rejects (redactItem rt r key value) ↔ (redactItem rt r key value).Returns := by
  rw [redactItem_eq]
  split
  · exact iff_of_true (raisesOnly_ok _) (returns_ok _)
  · exact redact_rejects.trans Redactor.text_returns.symm

/-- Observing records of 32-bit lifetimes does not raise. -/
theorem observeAll_returns {p : Parser} {t : Utc} (h : Ordinary t) {records : List Record}
    (hrecords : ∀ r ∈ records, r.ttl < 2 ^ 32) (cache : Cache) :
    (Cache.observeAll p t cache records).2.2 = none := by
  induction records generalizing cache with
  | nil => rfl
  | cons r records ih =>
    have hr := hrecords r List.mem_cons_self
    obtain ⟨o, ho⟩ : ∃ o, observe p r t = .ok o := by
      obtain ⟨t', ht⟩ := h.exists_add (Nat.le_trans (Nat.min_le_left r.ttl p.maxTtlSeconds)
        (Nat.le_of_lt hr))
      unfold observe
      simp only [ht]
      split
      · exact ⟨_, rfl⟩
      · exact ⟨_, rfl⟩
    unfold Cache.observeAll
    rw [ho]
    exact ih (fun r' hr' => hrecords r' (List.mem_cons_of_mem _ hr')) _

theorem MDNSParser.call_error (rt : Runtime) (p : MDNSParser) (cache : Cache) (frame : PassiveFrame) :
    (p.call rt cache frame).2.2 = (cache.call rt p.cache frame.protocol frame.observedAt
      ((parseMessage rt p.bounds (redactItem rt p.redactor) frame.payload).map
        (List.map DecodedRecord.record))).2.2 := rfl

/-- `MDNSParser` raises nothing but a rejection exactly when the redactor does not raise. -/
theorem call_rejects {rt : Runtime} {p : MDNSParser} {cache : Cache} {frame : PassiveFrame}
    (h : Ordinary frame.observedAt) :
    (∀ e ∈ (p.call rt cache frame).2.2, ParseError e) ↔ ItemsDecode rt p frame := by
  rw [MDNSParser.call_error]
  unfold Cache.call ItemsDecode
  by_cases hprotocol : rt.casefold frame.protocol ≠ str "mdns" ∧
      rt.casefold frame.protocol ≠ str "dns-sd"
  · rw [if_pos hprotocol]
    refine iff_of_true ?_ fun h => absurd hprotocol (not_and_or.mpr (h.imp not_not.mpr not_not.mpr))
    rintro e ⟨⟩
    exact ⟨_, rfl⟩
  rw [if_neg hprotocol]
  have hitems : (∀ item ∈ messageItems rt p.bounds frame.payload,
      isSensitive item.1 = true ∨ KeysDecode rt p.redactor item.2) ↔
      Rejects (parseMessage rt p.bounds (redactItem rt p.redactor) frame.payload) := by
    rw [parseMessage_rejects (redactItem_rejects rt p.redactor)]
    exact forall₂_congr fun item _ => redactItem_returns.symm
  rw [hitems]
  have hreached : rt.casefold frame.protocol = str "mdns" ∨
      rt.casefold frame.protocol = str "dns-sd" :=
    (not_and_or.mp hprotocol).imp not_not.mp not_not.mp
  rw [forall_prop_of_true hreached]
  cases hmessage : parseMessage rt p.bounds (redactItem rt p.redactor) frame.payload with
  | error e =>
    rw [rejects_error]
    exact ⟨fun h => h e rfl, fun h e' he' => Option.some.inj he' ▸ h⟩
  | ok records =>
    refine iff_of_true ?_ (raisesOnly_ok _)
    have hnone := @observeAll_returns p.cache _ h (records.map DecodedRecord.record)
      (by
        intro r hr
        obtain ⟨d, hd, rfl⟩ := List.mem_map.mp hr
        exact parseMessage_ttl hmessage d hd) (cache.expire frame.observedAt).1
    intro e he
    rw [Option.mem_def] at he
    exact absurd (hnone.symm.trans he) (by rintro ⟨⟩)

end Mdns

/-! ## Main theorem -/

/-- Nothing but a rejection gets out of the parsers of ARP and LLDP. The other three let through the
`ValueError` of an address that does not render, and the error of the redactor on a text with a key
that is no JSON, and nothing else. -/
theorem parsers_reject_iff (rt : Runtime) (r : Redactor) (p : Mdns.MDNSParser) (cache : Mdns.Cache)
    {frame : PassiveFrame} (h : Ordinary frame.observedAt) :
    Rejects (Neighbor.parseArpEvidence rt frame) ∧
    Rejects (Link.parseLldp frame) ∧
    (Rejects (Link.parseCdp frame) ↔ Link.AddressesRender frame) ∧
    (Rejects (Dhcp.Raising.parseDhcp rt r frame) ↔ Dhcp.TextsDecode rt r frame) ∧
    ((∀ e ∈ (p.call rt cache frame).2.2, ParseError e) ↔ Mdns.ItemsDecode rt p frame) :=
  ⟨Neighbor.parseArpEvidence_rejects rt frame, Link.parseLldp_rejects h, Link.parseCdp_rejects h,
    Dhcp.parseDhcp_rejects h, Mdns.call_rejects h⟩

/-- A CDP frame with one address: the protocol is IPv4, and the address is empty. -/
def emptyAddress : PassiveFrame where
  protocol := str "cdp"
  payload := [2, 180, 0, 0, 0, 2, 0, 13, 0, 0, 0, 1, 1, 1, 0xCC, 0, 0]
  observedAt := ⟨0, zero_inCalendar⟩
  interface := none

theorem emptyAddress_ordinary : Ordinary emptyAddress.observedAt := ⟨_, dif_pos (by decide)⟩

/-- LLDP rejects the frame, and the address does not render. -/
theorem parsers_reject_emptyAddress :
    Rejects (Link.parseLldp emptyAddress) ∧ ¬ Rejects (Link.parseCdp emptyAddress) := by
  obtain ⟨-, hlldp, hcdp, -⟩ := parsers_reject_iff (Runtime.ofDigests []) ⟨[], []⟩
    ⟨⟨1, 1, 1, 1, by decide⟩, ⟨1, 1, by decide⟩, ⟨[], []⟩⟩ [] emptyAddress_ordinary
  refine ⟨hlldp, fun h => ?_⟩
  have hrenders := hcdp.mp h ⟨rfl, by decide, by decide⟩ [] _ [] rfl (by rintro u ⟨⟩) _ (.head _) rfl
  exact absurd hrenders (by decide)

/-- A `ValueError` gets through. -/
theorem not_parsers_reject : ¬ ∀ (rt : Runtime) (r : Redactor) (p : Mdns.MDNSParser)
    (cache : Mdns.Cache) (frame : PassiveFrame), Ordinary frame.observedAt →
    Rejects (Neighbor.parseArpEvidence rt frame) ∧
    Rejects (Link.parseLldp frame) ∧
    Rejects (Link.parseCdp frame) ∧
    Rejects (Dhcp.Raising.parseDhcp rt r frame) ∧
    ∀ e ∈ (p.call rt cache frame).2.2, ParseError e := by
  intro h
  obtain ⟨-, -, hcdp, -⟩ := h (Runtime.ofDigests []) ⟨[], []⟩
    ⟨⟨1, 1, 1, 1, by decide⟩, ⟨1, 1, by decide⟩, ⟨[], []⟩⟩ [] emptyAddress emptyAddress_ordinary
  obtain ⟨message, hmessage⟩ := hcdp .value rfl
  cases hmessage

end FieldDiscovery.Passive
