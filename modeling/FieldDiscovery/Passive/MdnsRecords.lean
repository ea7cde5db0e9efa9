import FieldDiscovery.Passive.MdnsRejects

/-!
# What an mDNS message carries

A resource record by what it says (`ResourceRecord`): its names as labels, however they are
compressed in a message. `Carries` tells which questions and which records stand in a message. Every
response that is accepted carries some (`exists_carries`), and what `MDNSParser` makes of a message
depends on the records that it carries and on nothing else (`Carries.observes`): it is accepted when
it is within the bounds and each of its records is accepted by itself, and then each record has its
own observations.
-/

open Except

namespace FieldDiscovery.Passive.Mdns

open Py Framing Dhcp Capture Neighbor Dns Redaction

/-! ## Records in a message -/

/-- A resource record. Its data are bytes, and in some types a name behind them. -/
structure ResourceRecord where
  owner : List Label
  type : Nat
  recordClass : Nat
  ttl : Nat
  bytes : List Byte
  target : List Label

/-- A question: a name, and the bytes of its type and class. -/
structure Question where
  name : List Label
  bytes : List Byte

section

variable (message : List Byte)

/-- The number that stands in some bytes. -/
def number (i size : Nat) : Nat := fromBytes (slice message i (i + size))

/-- A name that stands in the message up to `next`, within the bounds of names. -/
def NameAt (i : Nat) (labels : List Label) (next : Nat) : Prop :=
  ∃ jumps, Spells message i labels jumps next ∧ jumps ≤ maxPointerJumps ∧ wireLength labels ≤ 255

/-- The data of a record, up to `next`. Nothing is said about data of a type that is not read. -/
structure DataAt (i : Nat) (r : ResourceRecord) (next : Nat) : Prop where
  plain : r.type = 1 ∨ r.type = 16 → slice message i next = r.bytes
  pointer : r.type = 12 → NameAt message i r.target next
  service : r.type = 33 →
    slice message i (i + 6) = r.bytes ∧ NameAt message (i + 6) r.target next

/-- A record that stands in the message up to `next`, its name up to `k`. -/
structure RecordAt (i k : Nat) (r : ResourceRecord) (next : Nat) : Prop where
  owner : NameAt message i r.owner k
  type : number message k 2 = r.type
  recordClass : number message (k + 2) 2 = r.recordClass
  ttl : number message (k + 4) 4 = r.ttl
  length : k + 10 + number message (k + 8) 2 = next
  inside : next ≤ message.length
  data : r.recordClass % 0x8000 = 1 → DataAt message (k + 10) r next

inductive QuestionsAt : Nat → List Question → Nat → Prop where
  | nil {i : Nat} : QuestionsAt i [] i
  | cons {i k next : Nat} {q : Question} {questions : List Question} :
      NameAt message i q.name k → k + 4 ≤ message.length → slice message k (k + 4) = q.bytes →
      QuestionsAt (k + 4) questions next → QuestionsAt i (q :: questions) next

inductive RecordsAt : Nat → List ResourceRecord → Nat → Prop where
  | nil {i : Nat} : RecordsAt i [] i
  | cons {i k j next : Nat} {r : ResourceRecord} {records : List ResourceRecord} :
      RecordAt message i k r j → RecordsAt j records next → RecordsAt i (r :: records) next

/-- `flags & 0x8000` -/
def IsResponse : Prop := number message 2 2 / 0x8000 % 2 = 1

/-- The message is a response with these questions, and with these records in its three sections. -/
structure Carries (questions : List Question) (records : List ResourceRecord) : Prop where
  header : 12 ≤ message.length
  response : IsResponse message
  questionCount : number message 4 2 = questions.length
  recordCount : number message 6 2 + number message 8 2 + number message 10 2 = records.length
  body : ∃ i, QuestionsAt message 12 questions i ∧ RecordsAt message i records message.length

end

/-! ## Names and numbers -/

section

variable {rt : Runtime} {message : List Byte} {i k next : Nat}

theorem NameAt.read {labels : List Label} (h : NameAt message i labels next) :
    readName rt message i = .ok (nameOf rt labels, next) := by
  obtain ⟨jumps, hspells, hjumps, hwire⟩ := h
  exact readName_eq_ok.mpr ⟨labels, jumps, hspells, hjumps, hwire, rfl⟩

theorem exists_nameAt {name : Str} (h : readName rt message i = .ok (name, next)) :
    ∃ labels, NameAt message i labels next := by
  obtain ⟨labels, jumps, hspells, hjumps, hwire, -⟩ := readName_eq_ok.mp h
  exact ⟨labels, jumps, hspells, hjumps, hwire⟩

theorem NameAt.lt_next {labels : List Label} (h : NameAt message i labels next) :
    i < next ∧ next ≤ message.length := by
  obtain ⟨jumps, hspells, -⟩ := h
  exact ⟨hspells.covers.1, hspells.covers.2.1⟩

/-- A part of a slice. -/
theorem slice_slice {j a b : Nat} (h : i + b ≤ j) :
    slice (slice message i j) a b = slice message (i + a) (i + b) := by
  have hslice : slice message i j = (message.take j).drop i := rfl
  rw [hslice, slice_drop, slice_take h]

/-- A number in bytes that were unpacked. -/
theorem number_slice {j a size : Nat} (h : i + (a + size) ≤ j) :
    fromBytes (slice (slice message i j) a (a + size)) = number message (i + a) size := by
  unfold number
  rw [slice_slice h, Nat.add_assoc]

end

/-! ## Reading records -/

/-- What `readRecord` returns for a record whose data stand somewhere. -/
def ResourceRecord.header (rt : Runtime) (r : ResourceRecord) (start stop : Nat) : RecordHeader :=
  ⟨nameOf rt r.owner, r.type, r.recordClass, r.ttl, start, stop⟩

section

variable (rt : Runtime) (bounds : MessageBounds) (redact : Str → Str → Except Exc Str)

/-- The value of a record, wherever it stands. -/
def ResourceRecord.value (r : ResourceRecord) : Except Exc (Option Value) :=
  if r.recordClass % 0x8000 = 1 then
    if r.type = 1 then
      if r.bytes.length ≠ 4 then passiveParseError (str "invalid mDNS IPv4 address length")
      else do
        let address ← packedIpv4 r.bytes
        .ok (some (.address address))
    else if r.type = 12 then .ok (some (.pointer (nameOf rt r.target)))
    else if r.type = 33 then
      .ok (some (.service (fromBytes (slice r.bytes 0 2)) (fromBytes (slice r.bytes 2 4))
        (fromBytes (slice r.bytes 4 6)) (nameOf rt r.target)))
    else if r.type = 16 then
      if bounds.maxTxtBytes < r.bytes.length then
        passiveParseError (str "DNS-SD TXT data exceeds configured limit")
      else do
        let values ← parseTxt redact r.bytes
        .ok (some (.text values))
    else .ok none
  else .ok none

/-- What is decoded of a record. -/
def ResourceRecord.decoded (r : ResourceRecord) : List DecodedRecord :=
  match r.value rt bounds redact with
  | .ok (some value) => [⟨nameOf rt r.owner, r.ttl, value⟩]
  | _ => []

end

section

variable {rt : Runtime} {bounds : MessageBounds} {redact : Str → Str → Except Exc Str}
  {message : List Byte} {i k next : Nat} {r : ResourceRecord}

theorem RecordAt.read (h : RecordAt message i k r next) :
    readRecord rt message i = .ok (r.header rt (k + 10) next) := by
  have hnext := h.length
  have hinside := h.inside
  have hnumber : ∀ a size, a + size ≤ 10 →
      fromBytes (slice (slice message k (k + 10)) a (a + size)) = number message (k + a) size :=
    fun a size ha => number_slice (Nat.add_le_add_left ha k)
  have htype : fromBytes (slice (slice message k (k + 10)) 0 2) = r.type :=
    (hnumber 0 2 (by decide)).trans h.type
  have hclass : fromBytes (slice (slice message k (k + 10)) 2 4) = r.recordClass :=
    (hnumber 2 2 (by decide)).trans h.recordClass
  have httl : fromBytes (slice (slice message k (k + 10)) 4 8) = r.ttl :=
    (hnumber 4 4 (by decide)).trans h.ttl
  have hlength : fromBytes (slice (slice message k (k + 10)) 8 10) = number message (k + 8) 2 :=
    hnumber 8 2 (by decide)
  unfold readRecord
  rw [h.owner.read, ok_bind]
  simp only
  rw [if_neg (by omega), unpackFrom_eq (by omega), ok_bind]
  rw [htype, hclass, httl, hlength, hnext, if_neg (Nat.not_lt.mpr hinside)]
  rfl

theorem RecordAt.value (h : RecordAt message i k r next) :
    recordValue rt bounds redact message (r.header rt (k + 10) next) =
      r.value rt bounds redact := by
  unfold recordValue ResourceRecord.value ResourceRecord.header
  simp only
  by_cases hclass : r.recordClass % 0x8000 = 1
  swap
  · rw [if_neg hclass, if_neg hclass]
  rw [if_pos hclass, if_pos hclass]
  have hdata := h.data hclass
  have hbytes : r.type = 1 ∨ r.type = 16 → next - (k + 10) = r.bytes.length := by
    intro htype
    rw [← hdata.plain htype, length_slice h.inside]
  unfold parseRdata
  by_cases haddress : r.type = 1
  · rw [if_pos haddress, if_pos haddress, hbytes (.inl haddress), hdata.plain (.inl haddress)]
  rw [if_neg haddress, if_neg haddress]
  by_cases hpointer : r.type = 12
  · rw [if_pos hpointer, if_pos hpointer, (hdata.pointer hpointer).read, ok_bind]
    exact if_neg (not_not.mpr rfl)
  rw [if_neg hpointer, if_neg hpointer]
  by_cases hservice : r.type = 33
  · obtain ⟨hnumbers, htarget⟩ := hdata.service hservice
    obtain ⟨hlt, hle⟩ := htarget.lt_next
    rw [if_pos hservice, if_pos hservice, if_neg (by omega), unpackFrom_eq (by omega), ok_bind,
      htarget.read, ok_bind, hnumbers]
    exact if_neg (not_not.mpr rfl)
  rw [if_neg hservice, if_neg hservice]
  by_cases htext : r.type = 16
  · rw [if_pos htext, if_pos htext, hbytes (.inr htext), hdata.plain (.inr htext)]
  · rw [if_neg htext, if_neg htext]

/-! ## Reading messages -/

theorem QuestionsAt.read {questions : List Question} (h : QuestionsAt message i questions next) :
    questionLoop rt message questions.length i = .ok next := by
  induction h with
  | nil => rfl
  | cons hname hle _ _ ih =>
    rw [List.length_cons, questionLoop, hname.read, ok_bind]
    exact (if_neg (Nat.not_lt.mpr hle)).trans ih

/-- A pass of the loop over the records. -/
theorem RecordAt.pass (h : RecordAt message i k r next) (n : Nat) (decoded : List DecodedRecord) :
    recordLoop rt bounds redact message (n + 1) i decoded =
      r.value rt bounds redact >>= fun value => recordLoop rt bounds redact message n next
        (decoded ++ (value.map (DecodedRecord.mk (nameOf rt r.owner) r.ttl)).toList) := by
  rw [recordLoop, h.read, ok_bind, h.value]
  rfl

theorem ResourceRecord.decoded_eq {value : Option Value}
    (h : r.value rt bounds redact = .ok value) :
    r.decoded rt bounds redact =
      (value.map (DecodedRecord.mk (nameOf rt r.owner) r.ttl)).toList := by
  unfold ResourceRecord.decoded
  rw [h]
  cases value with
  | none => rfl
  | some value => rfl

/-- The loop goes through when each record has a value, and appends what each is decoded to. -/
theorem RecordsAt.read {records : List ResourceRecord} (h : RecordsAt message i records next)
    {decoded : List DecodedRecord} {result : Nat × List DecodedRecord} :
    recordLoop rt bounds redact message records.length i decoded = .ok result ↔
      (∀ r ∈ records, (r.value rt bounds redact).Returns) ∧
      result = (next, decoded ++ records.flatMap (ResourceRecord.decoded rt bounds redact)) := by
  induction h generalizing decoded with
  | nil =>
    rw [List.length_nil, recordLoop, List.flatMap_nil, List.append_nil, ok.injEq, eq_comm]
    exact (and_iff_right (by rintro r ⟨⟩)).symm
  | @cons i k j next r records hrecord _ ih =>
    rw [List.length_cons, hrecord.pass, List.forall_mem_cons, List.flatMap_cons]
    cases hvalue : r.value rt bounds redact with
    | error e => simp
    | ok value =>
      rw [ok_bind, ih, ResourceRecord.decoded_eq hvalue, List.append_assoc,
        and_iff_right (returns_ok value)]

/-- The bounds on a message with some questions and records. -/
structure Within (bounds : MessageBounds) (message : List Byte) (questions : List Question)
    (records : List ResourceRecord) : Prop where
  bytes : message.length ≤ bounds.maxMessageBytes
  questions : questions.length ≤ bounds.maxQuestions
  records : records.length ≤ bounds.maxRecords

theorem readHeader_eq (hheader : 12 ≤ message.length)
    (hbytes : message.length ≤ bounds.maxMessageBytes) :
    readHeader bounds message = .ok ⟨number message 2 2, number message 4 2,
      number message 6 2 + number message 8 2 + number message 10 2⟩ := by
  have hnumber : ∀ a size, a + size ≤ 12 →
      fromBytes (slice (slice message 0 12) a (a + size)) = number message a size := by
    intro a size ha
    rw [number_slice (by omega), Nat.zero_add]
  unfold readHeader
  rw [if_neg (Nat.not_lt.mpr hbytes), if_neg (Nat.not_lt.mpr hheader), unpackFrom_eq (by omega),
    ok_bind]
  rw [← hnumber 2 2 (by decide), ← hnumber 4 2 (by decide), ← hnumber 6 2 (by decide),
    ← hnumber 8 2 (by decide), ← hnumber 10 2 (by decide)]

/-- A response is decoded when it is within the bounds and each of its records has a value. -/
theorem Carries.parse {questions : List Question} {records : List ResourceRecord}
    (h : Carries message questions records) {decoded : List DecodedRecord} :
    parseMessage rt bounds redact message = .ok decoded ↔
      (Within bounds message questions records ∧
        ∀ r ∈ records, (r.value rt bounds redact).Returns) ∧
      decoded = records.flatMap (ResourceRecord.decoded rt bounds redact) := by
  unfold parseMessage
  by_cases hbytes : message.length ≤ bounds.maxMessageBytes
  swap
  · unfold readHeader
    rw [if_pos (Nat.not_le.mp hbytes)]
    exact iff_of_false (by rintro ⟨⟩) fun h => hbytes h.1.1.bytes
  have hresponse : (⟨number message 2 2, questions.length, records.length⟩ :
      MessageHeader).isResponse := h.response
  rw [readHeader_eq h.header hbytes, ok_bind, h.questionCount, h.recordCount,
    if_neg (not_not.mpr hresponse)]
  by_cases hfits : (⟨number message 2 2, questions.length, records.length⟩ :
      MessageHeader).Fits bounds
  swap
  · rw [if_pos hfits]
    exact iff_of_false (by rintro ⟨⟩) fun h => hfits ⟨h.1.1.questions, h.1.1.records⟩
  rw [if_neg (not_not.mpr hfits)]
  obtain ⟨i, hquestions, hrecords⟩ := h.body
  have hwithin : Within bounds message questions records := ⟨hbytes, hfits.1, hfits.2⟩
  rw [hquestions.read, ok_bind, and_iff_right hwithin]
  constructor
  · intro hparse
    obtain ⟨⟨next, result⟩, hloop, hparse⟩ := bind_eq_ok.mp hparse
    obtain ⟨hreturns, hresult⟩ := hrecords.read.mp hloop
    obtain ⟨rfl, rfl⟩ := Prod.mk.inj hresult
    simp only at hparse
    rw [if_neg (not_not.mpr rfl)] at hparse
    cases hparse
    exact ⟨hreturns, List.nil_append _⟩
  · rintro ⟨hreturns, rfl⟩
    rw [hrecords.read.mpr ⟨hreturns, rfl⟩, ok_bind, List.nil_append]
    exact if_neg (not_not.mpr rfl)

/-! ## Messages that are accepted -/

theorem exists_questionsAt {n : Nat} (h : questionLoop rt message n i = .ok next) :
    ∃ questions, questions.length = n ∧ QuestionsAt message i questions next := by
  induction n generalizing i with
  | zero =>
    cases h
    exact ⟨[], rfl, .nil⟩
  | succ n ih =>
    rw [questionLoop] at h
    obtain ⟨⟨name, k⟩, hname, h⟩ := bind_eq_ok.mp h
    simp only at h
    split at h
    · cases h
    · next hle =>
      obtain ⟨labels, hlabels⟩ := exists_nameAt hname
      obtain ⟨questions, rfl, hquestions⟩ := ih h
      exact ⟨⟨labels, slice message k (k + 4)⟩ :: questions, rfl,
        .cons hlabels (Nat.not_lt.mp hle) rfl hquestions⟩

/-- Data with a value are the data of a record. -/
theorem exists_dataAt {h : RecordHeader} {value : Option Value}
    (hvalue : parseRdata rt bounds redact message h.start h.stop h.type = .ok value)
    (owner : List Label) : ∃ bytes target,
      DataAt message h.start ⟨owner, h.type, h.recordClass, h.ttl, bytes, target⟩ h.stop := by
  unfold parseRdata at hvalue
  by_cases hpointer : h.type = 12
  · rw [hpointer, if_neg (by decide), if_pos rfl] at hvalue
    obtain ⟨⟨name, consumed⟩, hname, hvalue⟩ := bind_eq_ok.mp hvalue
    simp only at hvalue
    split at hvalue
    · cases hvalue
    · next hconsumed =>
      obtain rfl := not_not.mp hconsumed
      obtain ⟨target, htarget⟩ := exists_nameAt hname
      exact ⟨[], target, by simp [hpointer], fun _ => htarget, by simp [hpointer]⟩
  by_cases hservice : h.type = 33
  · rw [hservice, if_neg (by decide), if_neg (by decide), if_pos rfl] at hvalue
    split at hvalue
    · cases hvalue
    obtain ⟨header, -, hvalue⟩ := bind_eq_ok.mp hvalue
    obtain ⟨⟨name, consumed⟩, hname, hvalue⟩ := bind_eq_ok.mp hvalue
    simp only at hvalue
    split at hvalue
    · cases hvalue
    · next hconsumed =>
      obtain rfl := not_not.mp hconsumed
      obtain ⟨target, htarget⟩ := exists_nameAt hname
      exact ⟨_, target, by simp [hservice], by simp [hservice], fun _ => ⟨rfl, htarget⟩⟩
  · exact ⟨_, [], fun _ => rfl, fun h => absurd h hpointer, fun h => absurd h hservice⟩

theorem exists_recordAt {h : RecordHeader} {value : Option Value}
    (hread : readRecord rt message i = .ok h)
    (hvalue : recordValue rt bounds redact message h = .ok value) :
    ∃ k r, RecordAt message i k r h.stop := by
  have hinside := (readRecord_bounds hread).1
  obtain ⟨⟨name, k⟩, hname, hread⟩ := bind_eq_ok.mp hread
  obtain ⟨owner, howner⟩ := exists_nameAt hname
  simp only at hread
  split at hread
  · cases hread
  · next hlength =>
    rw [unpackFrom_eq (by omega), ok_bind] at hread
    split at hread
    · cases hread
    · cases hread
      have hnumber : ∀ a size, a + size ≤ 10 →
          number message (k + a) size =
            fromBytes (slice (slice message k (k + 10)) a (a + size)) :=
        fun a size ha => (number_slice (Nat.add_le_add_left ha k)).symm
      unfold recordValue at hvalue
      split at hvalue
      · obtain ⟨bytes, target, hdata⟩ := exists_dataAt hvalue owner
        exact ⟨k, _, howner, hnumber 0 2 (by decide), hnumber 2 2 (by decide),
          hnumber 4 4 (by decide), congrArg _ (hnumber 8 2 (by decide)), hinside, fun _ => hdata⟩
      · next hclass =>
        exact ⟨k, ⟨owner, _, _, _, [], []⟩, howner, hnumber 0 2 (by decide),
          hnumber 2 2 (by decide), hnumber 4 4 (by decide), congrArg _ (hnumber 8 2 (by decide)),
          hinside, fun h => absurd h hclass⟩

theorem exists_recordsAt {n : Nat} {decoded : List DecodedRecord}
    {result : Nat × List DecodedRecord}
    (h : recordLoop rt bounds redact message n i decoded = .ok result) :
    ∃ records, records.length = n ∧ RecordsAt message i records result.1 := by
  induction n generalizing i decoded with
  | zero =>
    cases h
    exact ⟨[], rfl, .nil⟩
  | succ n ih =>
    rw [recordLoop] at h
    obtain ⟨header, hread, h⟩ := bind_eq_ok.mp h
    obtain ⟨value, hvalue, h⟩ := bind_eq_ok.mp h
    obtain ⟨k, r, hrecord⟩ := exists_recordAt hread hvalue
    obtain ⟨records, rfl, hrecords⟩ := ih h
    exact ⟨r :: records, rfl, .cons hrecord hrecords⟩

/-- Every response that is decoded carries questions and records. -/
theorem exists_carries {decoded : List DecodedRecord} (hresponse : IsResponse message)
    (h : parseMessage rt bounds redact message = .ok decoded) :
    ∃ questions records, Carries message questions records := by
  by_cases hbytes : message.length ≤ bounds.maxMessageBytes
  swap
  · unfold parseMessage readHeader at h
    rw [if_pos (Nat.not_le.mp hbytes)] at h
    cases h
  by_cases hheader : 12 ≤ message.length
  swap
  · unfold parseMessage readHeader at h
    rw [if_neg (Nat.not_lt.mpr hbytes), if_pos (Nat.not_le.mp hheader)] at h
    cases h
  unfold parseMessage at h
  rw [readHeader_eq hheader hbytes, ok_bind] at h
  split at h
  · next hquery => exact absurd hresponse hquery
  split at h
  · cases h
  obtain ⟨offset, hquestions, h⟩ := bind_eq_ok.mp h
  obtain ⟨⟨stop, result⟩, hrecords, h⟩ := bind_eq_ok.mp h
  simp only at h
  split at h
  · cases h
  · next hstop =>
    obtain ⟨questions, hcount, hquestions⟩ := exists_questionsAt hquestions
    obtain ⟨records, hcount', hrecords⟩ := exists_recordsAt hrecords
    refine ⟨questions, records, hheader, hresponse, hcount.symm, hcount'.symm, offset,
      hquestions, ?_⟩
    rw [← not_not.mp hstop]
    exact hrecords

end

/-! ## Observations -/

/-- What is observed of a record that is decoded. -/
def Record.observations (p : Parser) (t : Utc) (r : Record) : List PassiveObservation :=
  match observe p r t with
  | .ok o => [o.observation]
  | .error _ => []

theorem observeAll_eq {p : Parser} {t : Utc} {records : List Record} {cache : Cache} :
    ((Cache.observeAll p t cache records).2.2 = none ↔ ∀ r ∈ records, (observe p r t).Returns) ∧
    ((Cache.observeAll p t cache records).2.2 = none →
      (Cache.observeAll p t cache records).2.1.map Observed.observation =
        records.flatMap (Record.observations p t)) := by
  induction records generalizing cache with
  | nil => exact ⟨iff_of_true rfl (by rintro r ⟨⟩), fun _ => rfl⟩
  | cons r records ih =>
    rw [List.forall_mem_cons, List.flatMap_cons]
    unfold Cache.observeAll
    cases hobserve : observe p r t with
    | error e =>
      exact ⟨iff_of_false (by rintro ⟨⟩) fun h => not_returns_error e h.1, by rintro ⟨⟩⟩
    | ok o =>
      have hfirst : r.observations p t = [o.observation] := by
        unfold Record.observations
        rw [hobserve]
      obtain ⟨hreturns, hobserved⟩ := @ih (if r.ttl = 0 then cache.pop o.identity
        else cache.announce p o)
      refine ⟨hreturns.trans (and_iff_right (returns_ok o)).symm, fun hnone => ?_⟩
      rw [hfirst]
      exact congrArg (o.observation :: ·) (hobserved hnone)

/-- The parser accepts the frame, and returns these observations. -/
def MDNSParser.Observes (rt : Runtime) (p : MDNSParser) (cache : Cache) (frame : PassiveFrame)
    (observed : List PassiveObservation) : Prop :=
  ∃ cache', p.call rt cache frame = (cache', observed, none)

section

variable (rt : Runtime) (p : MDNSParser) (t : Utc)

/-- The parser can make an observation of the record at some time, or has none to make. -/
def ResourceRecord.Accepted (r : ResourceRecord) : Prop :=
  (r.value rt p.bounds (redactItem rt p.redactor)).Returns ∧
  ∀ d ∈ r.decoded rt p.bounds (redactItem rt p.redactor), (observe p.cache d.record t).Returns

/-- What is observed of a record. -/
def ResourceRecord.observations (r : ResourceRecord) : List PassiveObservation :=
  (r.decoded rt p.bounds (redactItem rt p.redactor)).flatMap fun d =>
    d.record.observations p.cache t

end

/-- The name of a protocol that the parser takes. -/
def IsMdns (rt : Runtime) (protocol : Str) : Prop :=
  rt.casefold protocol = str "mdns" ∨ rt.casefold protocol = str "dns-sd"

/-- A response is accepted when it is within the bounds and each of its records is accepted. -/
theorem Carries.observes {rt : Runtime} {p : MDNSParser} {cache : Cache} {frame : PassiveFrame}
    {questions : List Question} {records : List ResourceRecord}
    (h : Carries frame.payload questions records) {observed : List PassiveObservation} :
    p.Observes rt cache frame observed ↔
      (IsMdns rt frame.protocol ∧ Within p.bounds frame.payload questions records ∧
        ∀ r ∈ records, r.Accepted rt p frame.observedAt) ∧
      observed = (cache.expire frame.observedAt).2.map Observed.observation ++
        records.flatMap (ResourceRecord.observations rt p frame.observedAt) := by
  unfold MDNSParser.Observes MDNSParser.call Cache.call
  by_cases hprotocol : rt.casefold frame.protocol ≠ str "mdns" ∧
      rt.casefold frame.protocol ≠ str "dns-sd"
  · simp only [if_pos hprotocol]
    refine iff_of_false (by rintro ⟨cache', ⟨⟩⟩) fun h => ?_
    exact h.1.1.elim hprotocol.1 hprotocol.2
  simp only [if_neg hprotocol]
  have hmdns : IsMdns rt frame.protocol :=
    (not_and_or.mp hprotocol).imp not_not.mp not_not.mp
  rw [and_iff_right hmdns]
  cases hparse : parseMessage rt p.bounds (redactItem rt p.redactor) frame.payload with
  | error e =>
    refine iff_of_false (by rintro ⟨cache', ⟨⟩⟩) fun ⟨⟨hwithin, haccepted⟩, _⟩ => ?_
    cases hparse.symm.trans (h.parse.mpr ⟨⟨hwithin, fun r hr => (haccepted r hr).1⟩, rfl⟩)
  | ok decoded =>
    obtain ⟨⟨hwithin, hvalues⟩, rfl⟩ := h.parse.mp hparse
    simp only [Except.map]
    obtain ⟨hreturns, hobserved⟩ := @observeAll_eq p.cache frame.observedAt
      ((records.flatMap (ResourceRecord.decoded rt p.bounds (redactItem rt p.redactor))).map
        DecodedRecord.record) (cache.expire frame.observedAt).1
    have haccepted : (∀ r ∈ records, r.Accepted rt p frame.observedAt) ↔
        (Cache.observeAll p.cache frame.observedAt (cache.expire frame.observedAt).1
          ((records.flatMap (ResourceRecord.decoded rt p.bounds (redactItem rt p.redactor))).map
            DecodedRecord.record)).2.2 = none := by
      rw [hreturns, List.forall_mem_map, List.forall_mem_flatMap]
      exact forall₂_congr fun r hr => and_iff_right (hvalues r hr)
    rw [and_iff_right hwithin, haccepted]
    rw [List.flatMap_map, List.flatMap_assoc] at hobserved
    constructor
    · rintro ⟨cache', hcall⟩
      obtain ⟨-, hcall⟩ := Prod.mk.inj hcall
      obtain ⟨rfl, hnone⟩ := Prod.mk.inj hcall
      refine ⟨hnone, ?_⟩
      rw [List.map_append, hobserved hnone]
      rfl
    · rintro ⟨hnone, rfl⟩
      refine ⟨_, Prod.ext rfl (Prod.ext ?_ hnone)⟩
      rw [List.map_append, hobserved hnone]
      rfl

/-- A message that is accepted is decoded. -/
theorem MDNSParser.Observes.parse {rt : Runtime} {p : MDNSParser} {cache : Cache}
    {frame : PassiveFrame} {observed : List PassiveObservation}
    (h : p.Observes rt cache frame observed) : ∃ decoded,
      parseMessage rt p.bounds (redactItem rt p.redactor) frame.payload = .ok decoded := by
  obtain ⟨cache', h⟩ := h
  have herror : (p.call rt cache frame).2.2 = none := by rw [h]
  rw [MDNSParser.call_error] at herror
  unfold Cache.call at herror
  cases hparse : parseMessage rt p.bounds (redactItem rt p.redactor) frame.payload with
  | ok decoded => exact ⟨decoded, rfl⟩
  | error e =>
    rw [hparse] at herror
    split at herror
    · cases herror
    · cases herror

end FieldDiscovery.Passive.Mdns
