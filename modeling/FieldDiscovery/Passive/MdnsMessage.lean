import FieldDiscovery.Passive.Arp
import FieldDiscovery.Passive.DnsName
import FieldDiscovery.Passive.Ethernet
import FieldDiscovery.Passive.Mdns
import FieldDiscovery.Redaction.Value

/-!
# Decoding mDNS messages

`_parse_message`, `_parse_rdata` and `_parse_txt` of `mdns.py`, and with them `MDNSParser` on the
bytes of a frame. The values of TXT records go through a redactor, which is a function here: what
becomes of the value under a key.
-/

namespace FieldDiscovery.Passive.Mdns

open Py Framing Dhcp Capture Neighbor Dns Redaction

/-! ## Bytes and texts -/

/-- `Struct.unpack_from(data, offset)`, as the bytes that it unpacks; the error is a `struct.error`. -/
def unpackFrom (size : Nat) (data : List Byte) (offset : Nat) : Except Exc (List Byte) :=
  if offset + size ≤ data.length then .ok (slice data offset (offset + size)) else .error .struct

/-- `s.partition("=")`, without the separator: nothing is after a separator that is not there. -/
def partitionEquals (s : Str) : Str × Str :=
  (s.takeWhile (· ≠ cp '='), (s.dropWhile (· ≠ cp '=')).drop 1)

/-- The text of an observation. No text with a surrogate comes out of a message, so nothing is
dropped. -/
def textOf (s : Str) : Text := ⟨s.filter fun c => isSurrogate c = false, by
  intro c hc
  exact of_decide_eq_true (List.mem_filter.mp hc).2⟩

/-! ## TXT records -/

/-- The values of a TXT record: a text, or the texts of a key that came more than once. -/
abbrev TxtValues := Dict Str (Str ⊕ List Str)

/-- The last lines of the loop of `_parse_txt`. -/
def addTxt (values : TxtValues) (key redacted : Str) : TxtValues :=
  match values.get key with
  | none => values.set key (.inl redacted)
  | some (.inr existing) => values.set key (.inr (existing ++ [redacted]))
  | some (.inl existing) => values.set key (.inr [existing, redacted])

/-- A key and its value, from the bytes of an item. -/
def txtItem (item : List Byte) : Except Exc (Str × Str) :=
  match decodeUtf8 item with
  | none => passiveParseError (str "invalid UTF-8 in DNS-SD TXT item")
  | some s =>
    let (key, value) := partitionEquals s
    if key = [] ∨ 255 < key.length ∨ key.any (·.val < 0x20) then
      passiveParseError (str "invalid DNS-SD TXT key")
    else .ok (key, value)

/-- What becomes of the value under a key: `self._redactor.value({key: value})[key]`. -/
def redactItem (rt : Runtime) (r : Redactor) (key value : Str) : Except Exc Str := do
  let redacted ← r.value rt (.mapping [(key, .str value)])
  match redacted with
  | .mapping [(_, .str s)] => .ok s
  | _ => .error .key

/-- The loop of `_parse_txt` over the bytes that are left. -/
def txtLoop (redact : Str → Str → Except Exc Str) : List Byte → TxtValues → Except Exc TxtValues
  | [], values => .ok values
  | length :: rest, values =>
    if rest.length < length.val then passiveParseError (str "truncated DNS-SD TXT item")
    else do
      let (key, value) ← txtItem (rest.take length.val)
      let redacted ← redact key value
      txtLoop redact (rest.drop length.val) (addTxt values key redacted)
termination_by data => data.length
decreasing_by
  simp only [List.length_drop, List.length_cons]
  omega

/-- `_parse_txt` -/
def parseTxt (redact : Str → Str → Except Exc Str) (data : List Byte) : Except Exc TxtValues :=
  txtLoop redact data []

/-! ## Records -/

/-- The values that `_parse_rdata` returns. -/
inductive Value where
  | address (address : Str)
  | pointer (name : Str)
  | service (priority weight port : Nat) (target : Str)
  | text (values : TxtValues)

/-- `_Record`, of one of the types with a value. -/
structure DecodedRecord where
  name : Str
  ttl : Nat
  value : Value

/-- The value as the observations carry it. -/
def Value.rdata : Value → Rdata
  | .address a => .address (textOf a)
  | .pointer name => .pointer (textOf name)
  | .service priority weight port target => .service priority weight port (textOf target)
  | .text values => .text (values.map fun p => (textOf p.1, p.2.map textOf (List.map textOf)))

def DecodedRecord.record (d : DecodedRecord) : Record := ⟨textOf d.name, d.ttl, d.value.rdata⟩

/-- The bounds of `MDNSParser(...)` on a message. -/
structure MessageBounds where
  maxMessageBytes : Nat
  maxQuestions : Nat
  maxRecords : Nat
  maxTxtBytes : Nat
  positive : 1 ≤ maxMessageBytes ∧ 1 ≤ maxQuestions ∧ 1 ≤ maxRecords ∧ 1 ≤ maxTxtBytes

section

variable (rt : Runtime) (bounds : MessageBounds) (redact : Str → Str → Except Exc Str)

/-- `_parse_rdata` -/
def parseRdata (payload : List Byte) (start stop recordType : Nat) : Except Exc (Option Value) :=
  if recordType = 1 then
    if stop - start ≠ 4 then passiveParseError (str "invalid mDNS IPv4 address length")
    else do
      let address ← packedIpv4 (slice payload start stop)
      .ok (some (.address address))
  else if recordType = 12 then do
    let (name, consumed) ← readName rt payload start
    if consumed ≠ stop then passiveParseError (str "invalid DNS-SD PTR data")
    else .ok (some (.pointer name))
  else if recordType = 33 then
    if stop - start < 7 then passiveParseError (str "truncated DNS-SD SRV data")
    else do
      let header ← unpackFrom 6 payload start
      let (target, consumed) ← readName rt payload (start + 6)
      if consumed ≠ stop then passiveParseError (str "invalid DNS-SD SRV data")
      else
        .ok (some (.service (fromBytes (slice header 0 2)) (fromBytes (slice header 2 4))
          (fromBytes (slice header 4 6)) target))
  else if recordType = 16 then
    if bounds.maxTxtBytes < stop - start then
      passiveParseError (str "DNS-SD TXT data exceeds configured limit")
    else do
      let values ← parseTxt redact (slice payload start stop)
      .ok (some (.text values))
  else .ok none

/-! ## Messages -/

/-- The loop over the questions. -/
def questionLoop (payload : List Byte) : Nat → Nat → Except Exc Nat
  | 0, offset => .ok offset
  | n + 1, offset => do
    let (_, offset) ← readName rt payload offset
    if payload.length < offset + 4 then passiveParseError (str "truncated mDNS question")
    else questionLoop payload n (offset + 4)

/-- A resource record up to its data, and where the data is. -/
structure RecordHeader where
  name : Str
  type : Nat
  recordClass : Nat
  ttl : Nat
  start : Nat
  stop : Nat

/-- The pass of the loop over the records, up to the data. -/
def readRecord (payload : List Byte) (offset : Nat) : Except Exc RecordHeader := do
  let (name, offset) ← readName rt payload offset
  if payload.length < offset + 10 then
    passiveParseError (str "truncated mDNS resource-record header")
  else do
    let header ← unpackFrom 10 payload offset
    let offset := offset + 10
    let stop := offset + fromBytes (slice header 8 10)
    if payload.length < stop then passiveParseError (str "truncated mDNS resource-record data")
    else
      .ok ⟨name, fromBytes (slice header 0 2), fromBytes (slice header 2 4),
        fromBytes (slice header 4 8), offset, stop⟩

/-- The value of a record; records of another class than IN have none. -/
def recordValue (payload : List Byte) (h : RecordHeader) : Except Exc (Option Value) :=
  if h.recordClass % 0x8000 = 1 then parseRdata rt bounds redact payload h.start h.stop h.type
  else .ok none

/-- The loop over the records: the offset behind them, and those with a value. -/
def recordLoop (payload : List Byte) : Nat → Nat → List DecodedRecord →
    Except Exc (Nat × List DecodedRecord)
  | 0, offset, records => .ok (offset, records)
  | n + 1, offset, records => do
    let header ← readRecord rt payload offset
    let value ← recordValue rt bounds redact payload header
    recordLoop payload n header.stop
      (records ++ (value.map (DecodedRecord.mk header.name header.ttl)).toList)

/-- The header of a message. -/
structure MessageHeader where
  flags : Nat
  questions : Nat
  records : Nat

/-- `_parse_message`, up to the questions. -/
def readHeader (payload : List Byte) : Except Exc MessageHeader :=
  if bounds.maxMessageBytes < payload.length then
    passiveParseError (str "mDNS message exceeds configured size limit")
  else if payload.length < 12 then passiveParseError (str "truncated mDNS header")
  else do
    let raw ← unpackFrom 12 payload 0
    .ok ⟨fromBytes (slice raw 2 4), fromBytes (slice raw 4 6),
      fromBytes (slice raw 6 8) + fromBytes (slice raw 8 10) + fromBytes (slice raw 10 12)⟩

/-- `flags & 0x8000` -/
def MessageHeader.isResponse (h : MessageHeader) : Prop := h.flags / 0x8000 % 2 = 1

instance (h : MessageHeader) : Decidable h.isResponse :=
  inferInstanceAs (Decidable (h.flags / 0x8000 % 2 = 1))

/-- The sections are within the bounds. -/
def MessageHeader.Fits (h : MessageHeader) : Prop :=
  h.questions ≤ bounds.maxQuestions ∧ h.records ≤ bounds.maxRecords

instance (h : MessageHeader) : Decidable (h.Fits bounds) :=
  inferInstanceAs (Decidable (_ ∧ _))

/-- `_parse_message` -/
def parseMessage (payload : List Byte) : Except Exc (List DecodedRecord) := do
  let header ← readHeader bounds payload
  if ¬ header.isResponse then .ok []
  else if ¬ header.Fits bounds then
    passiveParseError (str "mDNS section count exceeds configured limit")
  else do
    let offset ← questionLoop rt payload header.questions 12
    let (offset, records) ← recordLoop rt bounds redact payload header.records offset []
    if offset ≠ payload.length then passiveParseError (str "mDNS message has trailing data")
    else .ok records

end

/-! ## The parser -/

/-- `MDNSParser(...)` -/
structure MDNSParser where
  bounds : MessageBounds
  cache : Parser
  redactor : Redactor

/-- `__call__`: the cache, what is returned, and what is raised. -/
def MDNSParser.call (rt : Runtime) (p : MDNSParser) (cache : Cache) (frame : PassiveFrame) :
    Cache × List PassiveObservation × Option Exc :=
  let message := (parseMessage rt p.bounds (redactItem rt p.redactor) frame.payload).map
    (List.map DecodedRecord.record)
  let (cache, observed, error) := cache.call rt p.cache frame.protocol frame.observedAt message
  (cache, observed.map Observed.observation, error)

/-! ## Texts without surrogates -/

theorem textOf_val {s : Str} (h : Encodable s) : (textOf s).val = s :=
  List.filter_eq_self.mpr fun c hc => decide_eq_true (h c hc)

theorem redactItem_eq (rt : Runtime) (r : Redactor) (key value : Str) :
    redactItem rt r key value = if isSensitive key then .ok redacted else r.text rt value := by
  unfold redactItem Redactor.value Redactor.items Redactor.items
  split
  · rfl
  · unfold Redactor.value
    cases r.text rt value with
    | error e => rfl
    | ok s => rfl

/-- Redaction puts in nothing but the placeholder. -/
theorem encodable_of_masked {s t : Str} (h : Masked s t) (hs : Encodable s) : Encodable t := by
  induction h with
  | nil => exact hs
  | keep c _ ih =>
    obtain ⟨hc, hs⟩ := List.forall_mem_cons.mp hs
    exact List.forall_mem_cons.mpr ⟨hc, ih hs⟩
  | mask hidden hplaceholder _ ih =>
    refine Encodable.append ?_ (ih (List.forall_mem_append.mp hs).2)
    rcases hplaceholder with rfl | rfl | rfl | rfl
    all_goals decide

theorem redactItem_encodable {rt : Runtime} {r : Redactor} {key value s : Str}
    (h : redactItem rt r key value = .ok s) (hvalue : Encodable value) : Encodable s := by
  rw [redactItem_eq] at h
  split at h
  · cases h
    decide
  · have hpasses : MaskedPasses value s := (r.replaceVariants_hides value).masked.trans
      (Redactor.text_masked h)
    clear h
    induction hpasses with
    | refl => exact hvalue
    | tail _ hstep ih => exact encodable_of_masked hstep ih

theorem txtItem_encodable {item : List Byte} {key value : Str} (h : txtItem item = .ok (key, value)) :
    Encodable key ∧ Encodable value := by
  unfold txtItem at h
  split at h
  · cases h
  · next s hdecode =>
    have hs := (decodeUtf8_eq_some.mp hdecode).1
    simp only at h
    split at h
    · cases h
    · cases h
      exact ⟨fun c hc => hs c ((List.takeWhile_sublist _).subset hc),
        fun c hc => hs c ((List.dropWhile_sublist _).subset (List.mem_of_mem_drop hc))⟩

/-- The texts of a value of a TXT record. -/
def txtTexts : Str ⊕ List Str → List Str
  | .inl s => [s]
  | .inr l => l

/-- The texts of a value. -/
def Value.texts : Value → List Str
  | .address a => [a]
  | .pointer name => [name]
  | .service _ _ _ target => [target]
  | .text values => values.flatMap fun p => p.1 :: txtTexts p.2

theorem addTxt_encodable {values : TxtValues} {key s : Str}
    (hvalues : ∀ t ∈ (Value.text values).texts, Encodable t) (hkey : Encodable key)
    (hs : Encodable s) : ∀ t ∈ (Value.text (addTxt values key s)).texts, Encodable t := by
  have hpair : ∀ p ∈ values, ∀ t ∈ p.1 :: txtTexts p.2, Encodable t := fun p hp t ht =>
    hvalues t (List.mem_flatMap.mpr ⟨p, hp, ht⟩)
  -- a value that is set is made of the new text and of those under the key
  have hset : ∀ v : Str ⊕ List Str, (∀ t ∈ txtTexts v, Encodable t) →
      ∀ t ∈ (Value.text (values.set key v)).texts, Encodable t := by
    intro v hv t ht
    obtain ⟨p, hp, ht⟩ := List.mem_flatMap.mp ht
    rcases Dict.mem_set hp with hp | rfl
    · exact hpair p hp t ht
    · rcases List.mem_cons.mp ht with rfl | ht
      · exact hkey
      · exact hv t ht
  unfold addTxt
  split
  · exact hset _ (by simpa [txtTexts] using hs)
  · next existing hget =>
    refine hset _ fun t ht => ?_
    rcases List.mem_append.mp ht with ht | ht
    · exact hpair _ (Dict.mem_of_get hget) t (List.mem_cons_of_mem _ ht)
    · exact List.mem_singleton.mp ht ▸ hs
  · next existing hget =>
    refine hset _ fun t ht => ?_
    rcases List.mem_cons.mp ht with rfl | ht
    · exact hpair _ (Dict.mem_of_get hget) _ (by simp [txtTexts])
    · exact List.mem_singleton.mp ht ▸ hs

theorem isSurrogate_lowerAscii {c : CodePoint} (h : c.val < 128) :
    isSurrogate (lowerAscii c) = false := by
  have hlower : (lowerAscii c).val < 0xD800 := by
    unfold lowerAscii isUpper
    split
    · rw [Fin.val_ofNat]
      omega
    · omega
  simp only [isSurrogate, Bool.and_eq_false_iff, decide_eq_false_iff_not]
  omega

section

variable {redact : Str → Str → Except Exc Str}
  (hredact : ∀ key value s, redact key value = .ok s → Encodable value → Encodable s)
include hredact

theorem txtLoop_encodable {data : List Byte} {values values' : TxtValues}
    (hvalues : ∀ t ∈ (Value.text values).texts, Encodable t)
    (h : txtLoop redact data values = .ok values') :
    ∀ t ∈ (Value.text values').texts, Encodable t := by
  induction hn : data.length using Nat.strong_induction_on generalizing data values with
  | _ n ih =>
  cases data with
  | nil =>
    rw [txtLoop] at h
    cases h
    exact hvalues
  | cons length rest =>
    rw [txtLoop] at h
    split at h
    · cases h
    obtain ⟨⟨key, value⟩, hitem, h⟩ := Except.bind_eq_ok.mp h
    obtain ⟨s, hs, h⟩ := Except.bind_eq_ok.mp h
    obtain ⟨hkey, hvalue⟩ := txtItem_encodable hitem
    refine ih _ ?_ (addTxt_encodable hvalues hkey (hredact key value s hs hvalue)) h rfl
    rw [List.length_cons] at hn
    rw [List.length_drop]
    omega

variable {rt : Runtime} (hfold : ∀ c, isSurrogate c = false → Encodable (rt.foldChar c))
include hfold

omit hredact in
theorem readName_encodable {payload : List Byte} {offset next : Nat} {name : Str}
    (h : readName rt payload offset = .ok (name, next)) : Encodable name := by
  obtain ⟨⟨labels, consumed⟩, hread, h⟩ := Except.bind_eq_ok.mp h
  cases h
  obtain ⟨spelled, -, -, -, -, rfl⟩ := readLabels_eq_ok.mp hread
  have hjoin : Encodable (join (str ".") (spelled.map Label.text)) :=
    encodable_join (by decide) fun s hs => by
      obtain ⟨l, -, rfl⟩ := List.mem_map.mp hs
      exact l.encodable
  refine fun c hc => ?_
  obtain ⟨d, hd, hc⟩ := List.mem_flatMap.mp hc
  split at hc
  · next hascii =>
    rw [List.mem_singleton.mp hc]
    exact isSurrogate_lowerAscii (of_decide_eq_true hascii)
  · exact hfold d (hjoin d hd) c hc

theorem recordValue_encodable {bounds : MessageBounds} {payload : List Byte} {h : RecordHeader}
    {value : Value} (hvalue : recordValue rt bounds redact payload h = .ok (some value)) :
    ∀ t ∈ value.texts, Encodable t := by
  unfold recordValue parseRdata at hvalue
  split at hvalue
  swap
  · cases hvalue
  split at hvalue
  · split at hvalue
    · cases hvalue
    obtain ⟨address, haddress, hvalue⟩ := Except.bind_eq_ok.mp hvalue
    cases hvalue
    unfold packedIpv4 at haddress
    split at haddress
    · cases haddress
      intro t ht
      rw [List.mem_singleton.mp ht]
      refine encodable_join (by decide) fun s hs => ?_
      obtain ⟨b, -, rfl⟩ := List.mem_map.mp hs
      exact encodable_natStr _
    · cases haddress
  split at hvalue
  · obtain ⟨⟨name, consumed⟩, hname, hvalue⟩ := Except.bind_eq_ok.mp hvalue
    simp only at hvalue
    split at hvalue
    · cases hvalue
    · cases hvalue
      intro t ht
      exact List.mem_singleton.mp ht ▸ readName_encodable hfold hname
  split at hvalue
  · split at hvalue
    · cases hvalue
    obtain ⟨header, -, hvalue⟩ := Except.bind_eq_ok.mp hvalue
    obtain ⟨⟨target, consumed⟩, htarget, hvalue⟩ := Except.bind_eq_ok.mp hvalue
    simp only at hvalue
    split at hvalue
    · cases hvalue
    · cases hvalue
      intro t ht
      exact List.mem_singleton.mp ht ▸ readName_encodable hfold htarget
  split at hvalue
  · split at hvalue
    · cases hvalue
    obtain ⟨values, hvalues, hvalue⟩ := Except.bind_eq_ok.mp hvalue
    cases hvalue
    exact txtLoop_encodable hredact (by rintro t ⟨⟩) hvalues
  · cases hvalue

end

/-- The records that are decoded are the records that the observations are made of: no text of theirs
has a surrogate, as long as case folding makes none. -/
theorem parseMessage_encodable {rt : Runtime} {r : Redactor} {bounds : MessageBounds}
    {payload : List Byte} {records : List DecodedRecord}
    (hfold : ∀ c, isSurrogate c = false → Encodable (rt.foldChar c))
    (h : parseMessage rt bounds (redactItem rt r) payload = .ok records) :
    ∀ d ∈ records, (∀ t ∈ d.value.texts, Encodable t) ∧ d.record.name.val = d.name := by
  have hloop : ∀ n {offset offset' : Nat} {records records' : List DecodedRecord},
      (∀ d ∈ records, (∀ t ∈ d.value.texts, Encodable t) ∧ Encodable d.name) →
      recordLoop rt bounds (redactItem rt r) payload n offset records = .ok (offset', records') →
      ∀ d ∈ records', (∀ t ∈ d.value.texts, Encodable t) ∧ Encodable d.name := by
    intro n
    induction n with
    | zero =>
      intro offset offset' records records' hrecords h
      cases h
      exact hrecords
    | succ n ih =>
      intro offset offset' records records' hrecords h
      rw [recordLoop] at h
      obtain ⟨header, hheader, h⟩ := Except.bind_eq_ok.mp h
      obtain ⟨value, hvalue, h⟩ := Except.bind_eq_ok.mp h
      refine ih ?_ h
      intro d hd
      rcases List.mem_append.mp hd with hd | hd
      · exact hrecords d hd
      · obtain ⟨v, rfl, rfl⟩ := Option.map_eq_some_iff.mp (Option.mem_toList.mp hd)
        refine ⟨recordValue_encodable (fun _ _ _ => redactItem_encodable) hfold hvalue, ?_⟩
        obtain ⟨⟨name, next⟩, hname, hheader⟩ := Except.bind_eq_ok.mp hheader
        simp only at hheader
        split at hheader
        · cases hheader
        obtain ⟨raw, -, hheader⟩ := Except.bind_eq_ok.mp hheader
        split at hheader
        · cases hheader
        · cases hheader
          exact readName_encodable hfold hname
  obtain ⟨header, -, h⟩ := Except.bind_eq_ok.mp h
  split at h
  · cases h
    rintro d ⟨⟩
  split at h
  · cases h
  obtain ⟨offset, -, h⟩ := Except.bind_eq_ok.mp h
  obtain ⟨⟨offset', records'⟩, hrecords, h⟩ := Except.bind_eq_ok.mp h
  simp only at h
  split at h
  · cases h
  · cases h
    intro d hd
    obtain ⟨htexts, hname⟩ := hloop _ (by rintro d ⟨⟩) hrecords d hd
    exact ⟨htexts, textOf_val hname⟩

end FieldDiscovery.Passive.Mdns
