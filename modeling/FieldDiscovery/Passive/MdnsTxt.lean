import FieldDiscovery.Lib.Woven
import FieldDiscovery.Passive.MdnsRecords

/-!
# TXT records added to a message

The strings of a TXT record as the format has them (`TxtString`), a record of such strings or of the
single zero byte that stands for none (`TxtRecord`), and a response with TXT records added at any
positions (`Extension`). One decoder decides on all of a message, so a TXT record that it does not
take costs the other records: they are unharmed exactly when it takes each record that was added
(`unharmed_iff`). It does not take the zero byte, nor a value that is no UTF-8 or that the redactor
raises on.
-/

open Except

namespace FieldDiscovery.Passive.Mdns

open Py Framing Dhcp Capture Neighbor Dns Redaction

/-! ## TXT records -/

/-- A key, and behind an equals sign a value. -/
def keyValue (key : Str) (value : Option (List Byte)) : List Byte :=
  key.flatMap utf8Char ++ value.elim [] (utf8Char (cp '=') ++ ·)

/-- A string of a TXT record: its key is printable ASCII, and its value any bytes. -/
structure TxtString where
  key : Str
  value : Option (List Byte)
  ne_nil : key ≠ []
  printable : ∀ c ∈ key, 0x20 ≤ c.val ∧ c.val ≤ 0x7E ∧ c ≠ cp '='
  size : (keyValue key value).length ≤ 255

/-- The bytes of the string. -/
def TxtString.data (s : TxtString) : List Byte := keyValue s.key s.value

/-- The length and the bytes. -/
def TxtString.wire (s : TxtString) : List Byte := Fin.ofNat _ s.data.length :: s.data

/-- Strings one after the other, or a zero byte for none. -/
inductive TxtData where
  | strings (l : List TxtString)
  | zero

def TxtData.bytes : TxtData → List Byte
  | strings l => l.flatMap TxtString.wire
  | zero => [0]

/-- A TXT record. -/
structure TxtRecord where
  owner : List Label
  recordClass : Nat
  ttl : Nat
  data : TxtData

def TxtRecord.record (t : TxtRecord) : ResourceRecord :=
  ⟨t.owner, 16, t.recordClass, t.ttl, t.data.bytes, []⟩

/-! ## Strings -/

namespace TxtString

theorem encodable_key (s : TxtString) : Encodable s.key := by
  intro c hc
  have := s.printable c hc
  simp only [isSurrogate, Bool.and_eq_false_iff, decide_eq_false_iff_not]
  omega

theorem length_key (s : TxtString) : s.key.length ≤ 255 := by
  have hchars : ∀ k : Str, k.length ≤ (k.flatMap utf8Char).length := by
    intro k
    induction k with
    | nil => exact Nat.le_refl 0
    | cons c k ih =>
      have := List.length_pos_of_ne_nil (utf8Char_ne_nil c)
      rw [List.flatMap_cons, List.length_append, List.length_cons]
      omega
  have hsize := s.size
  unfold keyValue at hsize
  rw [List.length_append] at hsize
  exact (hchars s.key).trans (by omega)

theorem length_val (s : TxtString) : (Fin.ofNat 256 s.data.length).val = s.data.length :=
  byte_val (Nat.lt_succ_of_le s.size)

/-- The text of the string is cut at the equals sign behind the key. -/
theorem partition_key (s : TxtString) {text : Str}
    (h : decodeUtf8 (s.value.getD []) = some text) :
    partitionEquals (s.key ++ s.value.elim [] fun _ => cp '=' :: text) = (s.key, text) := by
  have hkey : ∀ c ∈ s.key, decide (c ≠ cp '=') = true := fun c hc =>
    decide_eq_true (s.printable c hc).2.2
  unfold partitionEquals
  cases hvalue : s.value with
  | none =>
    rw [hvalue] at h
    obtain rfl : [] = text := Option.some.inj h
    rw [Option.elim_none, List.append_nil, List.takeWhile_eq_self_iff.mpr hkey,
      List.dropWhile_eq_nil_iff.mpr hkey]
    rfl
  | some value =>
    rw [Option.elim_some, List.takeWhile_append_of_pos hkey, List.dropWhile_append_of_pos hkey,
      List.takeWhile_cons_of_neg (by decide), List.dropWhile_cons_of_neg (by decide),
      List.append_nil]
    rfl

/-- The text of the string is its key, and behind an equals sign the text of its value. -/
theorem decode_data (s : TxtString) {item : Str} :
    decodeUtf8 s.data = some item ↔ ∃ text, decodeUtf8 (s.value.getD []) = some text ∧
      item = s.key ++ s.value.elim [] fun _ => cp '=' :: text := by
  unfold data keyValue
  rw [decodeUtf8_append s.encodable_key]
  cases s.value with
  | none =>
    refine exists_congr fun text => and_congr_right fun htext => ?_
    obtain rfl : text = [] := Option.some.inj (htext.symm.trans rfl)
    rfl
  | some value =>
    have hequals : isSurrogate (cp '=') = false := by decide
    simp only [Option.elim, Option.getD_some, decodeUtf8_char hequals]
    constructor
    · rintro ⟨_, ⟨text, htext, rfl⟩, rfl⟩
      exact ⟨text, htext, rfl⟩
    · rintro ⟨text, htext, rfl⟩
      exact ⟨_, ⟨text, htext, rfl⟩, rfl⟩

/-- The key and the value that are read of the string. -/
theorem txtItem_data (s : TxtString) {item : Str × Str} :
    txtItem s.data = .ok item ↔
      ∃ text, decodeUtf8 (s.value.getD []) = some text ∧ item = (s.key, text) := by
  have hkey : ¬ (s.key = [] ∨ 255 < s.key.length ∨ s.key.any (·.val < 0x20) = true) := by
    rintro (hnil | hlong | hcontrol)
    · exact s.ne_nil hnil
    · exact absurd s.length_key (Nat.not_le.mpr hlong)
    · obtain ⟨c, hc, hlow⟩ := List.any_eq_true.mp hcontrol
      exact absurd (s.printable c hc).1 (Nat.not_le.mpr (of_decide_eq_true hlow))
  unfold txtItem
  cases hdecode : decodeUtf8 s.data with
  | none =>
    refine iff_of_false (by rintro ⟨⟩) ?_
    rintro ⟨text, htext, -⟩
    cases hdecode.symm.trans (s.decode_data.mpr ⟨text, htext, rfl⟩)
  | some whole =>
    obtain ⟨text, htext, rfl⟩ := s.decode_data.mp hdecode
    simp only [s.partition_key htext, if_neg hkey, htext]
    simp [eq_comm]

end TxtString

/-! ## Records that are read -/

/-- The value is UTF-8, and the redactor does not raise on it under the key. -/
def TxtString.Readable (rt : Runtime) (r : Redactor) (s : TxtString) : Prop :=
  ∃ text, decodeUtf8 (s.value.getD []) = some text ∧
    (isSensitive s.key = true ∨ KeysDecode rt r text)

/-- The data are strings that are read, and not the zero byte. -/
def TxtData.Readable (rt : Runtime) (r : Redactor) : TxtData → Prop
  | strings l => ∀ s ∈ l, s.Readable rt r
  | zero => False

/-- The end of a lifetime from some time on is a time. -/
def Ends (p : Parser) (t : Utc) (ttl : Nat) : Prop :=
  ttl = 0 ∨ (t.add (min ttl p.maxTtlSeconds * 1000000)).isSome = true

/-- The record has another class than IN, or it is read and its lifetime ends. -/
def TxtRecord.Readable (rt : Runtime) (p : MDNSParser) (time : Utc) (t : TxtRecord) : Prop :=
  t.recordClass % 0x8000 = 1 → t.data.Readable rt p.redactor ∧ Ends p.cache time t.ttl

theorem observe_returns {p : Parser} {r : Record} {t : Utc} :
    (observe p r t).Returns ↔ Ends p t r.ttl := by
  unfold observe Ends
  by_cases httl : r.ttl = 0
  · simp only [if_pos httl]
    exact iff_of_true (returns_ok _) (.inl httl)
  simp only [if_neg httl, or_iff_right httl]
  cases t.add (min r.ttl p.maxTtlSeconds * 1000000) with
  | none => exact iff_of_false (not_returns_error _) (by rintro ⟨⟩)
  | some t' => exact iff_of_true (returns_ok _) rfl

section

variable {redact : Str → Str → Except Exc Str}

/-- A pass of the loop reads a string. -/
theorem txtLoop_wire (s : TxtString) (rest : List Byte) (values : TxtValues) :
    txtLoop redact (s.wire ++ rest) values = txtItem s.data >>= fun item =>
      redact item.1 item.2 >>= fun redacted =>
        txtLoop redact rest (addTxt values item.1 redacted) := by
  have hlength := s.length_val
  unfold TxtString.wire
  rw [List.cons_append, txtLoop, hlength, List.take_left, List.drop_left,
    if_neg (by rw [List.length_append]; omega)]

theorem txtLoop_strings {l : List TxtString} {values : TxtValues} :
    (txtLoop redact (l.flatMap TxtString.wire) values).Returns ↔
      ∀ s ∈ l, ∃ text, decodeUtf8 (s.value.getD []) = some text ∧ (redact s.key text).Returns := by
  induction l generalizing values with
  | nil =>
    rw [List.flatMap_nil, txtLoop]
    exact iff_of_true (returns_ok _) (by rintro s ⟨⟩)
  | cons s l ih =>
    rw [List.flatMap_cons, txtLoop_wire, List.forall_mem_cons]
    simp only [returns_bind, ih]
    constructor
    · rintro ⟨item, hitem, redacted, hredacted, hl⟩
      obtain ⟨text, htext, rfl⟩ := s.txtItem_data.mp hitem
      exact ⟨⟨text, htext, redacted, hredacted⟩, hl⟩
    · rintro ⟨⟨text, htext, redacted, hredacted⟩, hl⟩
      exact ⟨_, s.txtItem_data.mpr ⟨text, htext, rfl⟩, redacted, hredacted, hl⟩

/-- The zero byte is an item with an empty key. -/
theorem txtLoop_zero (values : TxtValues) :
    txtLoop redact TxtData.zero.bytes values =
      passiveParseError (str "invalid DNS-SD TXT key") := by
  unfold TxtData.bytes
  rw [txtLoop]
  rfl

variable {rt : Runtime} {bounds : MessageBounds} {t : TxtRecord}

theorem TxtRecord.value_eq (hsize : t.data.bytes.length ≤ bounds.maxTxtBytes) :
    t.record.value rt bounds redact = if t.recordClass % 0x8000 = 1 then
      txtLoop redact t.data.bytes [] >>= fun values => .ok (some (.text values)) else .ok none := by
  unfold ResourceRecord.value TxtRecord.record
  simp only
  split
  · rw [if_neg (by decide), if_neg (by decide), if_neg (by decide), if_pos trivial,
      if_neg (Nat.not_lt.mpr hsize)]
    rfl
  · rfl

/-- Nothing but a text is decoded of the record. -/
theorem TxtRecord.decoded_text (hsize : t.data.bytes.length ≤ bounds.maxTxtBytes)
    {d : DecodedRecord} (hd : d ∈ t.record.decoded rt bounds redact) :
    ∃ values, d = ⟨nameOf rt t.owner, t.ttl, .text values⟩ := by
  unfold ResourceRecord.decoded at hd
  rw [TxtRecord.value_eq hsize] at hd
  split at hd
  · next value hvalue =>
    rw [List.mem_singleton] at hd
    split at hvalue
    · obtain ⟨values, -, hvalue⟩ := bind_eq_ok.mp hvalue
      cases hvalue
      exact ⟨values, hd⟩
    · cases hvalue
  · cases hd

end

/-- The data have values exactly when they are read. -/
theorem TxtData.returns {rt : Runtime} {r : Redactor} {data : TxtData} :
    (txtLoop (redactItem rt r) data.bytes []).Returns ↔ data.Readable rt r := by
  cases data with
  | strings l =>
    refine txtLoop_strings.trans (forall₂_congr fun s _ => exists_congr fun text => ?_)
    rw [redactItem_returns]
  | zero =>
    rw [txtLoop_zero]
    exact iff_of_false (not_returns_error _) id

/-- A TXT record within the limit is accepted exactly when it is read. -/
theorem TxtRecord.accepted {rt : Runtime} {p : MDNSParser} {time : Utc} {t : TxtRecord}
    (hsize : t.data.bytes.length ≤ p.bounds.maxTxtBytes) :
    t.record.Accepted rt p time ↔ t.Readable rt p time := by
  unfold ResourceRecord.Accepted TxtRecord.Readable
  have heq := @TxtRecord.value_eq (redactItem rt p.redactor) rt p.bounds t hsize
  by_cases hclass : t.recordClass % 0x8000 = 1
  swap
  · rw [if_neg hclass] at heq
    refine iff_of_true ⟨⟨none, heq⟩, ?_⟩ fun h => absurd h hclass
    rw [ResourceRecord.decoded_eq heq]
    rintro d ⟨⟩
  rw [if_pos hclass] at heq
  rw [forall_prop_of_true hclass, ← TxtData.returns]
  have hvalue : (t.record.value rt p.bounds (redactItem rt p.redactor)).Returns ↔
      (txtLoop (redactItem rt p.redactor) t.data.bytes []).Returns := by
    rw [heq, returns_bind]
    exact exists_congr fun values => and_iff_left (returns_ok _)
  rw [hvalue]
  refine and_congr_right fun ⟨values, hvalues⟩ => ?_
  rw [hvalues, ok_bind] at heq
  rw [ResourceRecord.decoded_eq heq]
  simp only [Option.map_some, Option.toList_some, List.forall_mem_singleton, observe_returns]
  rfl

theorem TxtRecord.observations_kind {rt : Runtime} {p : MDNSParser} {time : Utc} {t : TxtRecord}
    (hsize : t.data.bytes.length ≤ p.bounds.maxTxtBytes) {o : PassiveObservation}
    (ho : o ∈ t.record.observations rt p time) : o.kind = str "mdns_txt" := by
  obtain ⟨d, hd, ho⟩ := List.mem_flatMap.mp ho
  obtain ⟨values, rfl⟩ := TxtRecord.decoded_text hsize hd
  unfold Record.observations observe at ho
  simp only at ho
  split at ho
  · next observed hobserve =>
    rw [List.mem_singleton.mp ho]
    split at hobserve
    · cases hobserve
      rfl
    · split at hobserve
      · cases hobserve
      · cases hobserve
        rfl
  · cases ho

/-! ## Added records -/

/-- A response with TXT records added at some positions, within the bounds. Its names may be
compressed in another way. -/
structure Extension (bounds : MessageBounds) (message : List Byte) where
  questions : List Question
  records : List ResourceRecord
  carries : Carries message questions records
  added : List TxtRecord
  extended : List ResourceRecord
  woven : Woven records (added.map TxtRecord.record) extended
  result : List Byte
  carries_result : Carries result questions extended
  within : Within bounds result questions extended
  texts : ∀ t ∈ added, t.data.bytes.length ≤ bounds.maxTxtBytes

/-- The extended message is accepted. What is observed is what was observed without the added
records, and between that what is observed of them. -/
def Extension.Unharmed (rt : Runtime) (p : MDNSParser) (cache : Cache) (frame : PassiveFrame)
    (observed : List PassiveObservation) (e : Extension p.bounds frame.payload) : Prop :=
  ∃ texts all, p.Observes rt cache { frame with payload := e.result } all ∧
    Woven observed texts all ∧ ∀ o ∈ texts, o.kind = str "mdns_txt"

/-! ## Main theorem -/

/-- TXT records that are added to an accepted response leave the other records unharmed exactly when
each of them is read. -/
theorem unharmed_iff {rt : Runtime} {p : MDNSParser} {cache : Cache} {frame : PassiveFrame}
    {observed : List PassiveObservation} (hresponse : IsResponse frame.payload)
    (haccepted : p.Observes rt cache frame observed) :
    (∃ questions records, Carries frame.payload questions records) ∧
    ∀ e : Extension p.bounds frame.payload,
      e.Unharmed rt p cache frame observed ↔ ∀ t ∈ e.added, t.Readable rt p frame.observedAt := by
  refine ⟨?_, fun e => ?_⟩
  · obtain ⟨decoded, hparse⟩ := haccepted.parse
    exact exists_carries hresponse hparse
  obtain ⟨⟨hmdns, -, hrecords⟩, rfl⟩ := e.carries.observes.mp haccepted
  have hextended := fun all => @Carries.observes rt p cache { frame with payload := e.result }
    e.questions e.extended e.carries_result all
  -- an added record is accepted as it is read, whatever stands before it
  have hadded : (∀ r ∈ e.added.map TxtRecord.record, r.Accepted rt p frame.observedAt) ↔
      ∀ t ∈ e.added, t.Readable rt p frame.observedAt := by
    rw [List.forall_mem_map]
    exact forall₂_congr fun t ht => TxtRecord.accepted (e.texts t ht)
  rw [← hadded]
  constructor
  · rintro ⟨texts, all, hall, -⟩
    exact (e.woven.forall_iff.mp ((hextended all).mp hall).1.2.2).2
  · intro htexts
    refine ⟨(e.added.map TxtRecord.record).flatMap
      (ResourceRecord.observations rt p frame.observedAt), _,
      (hextended _).mpr ⟨⟨hmdns, e.within, e.woven.forall_iff.mpr ⟨hrecords, htexts⟩⟩, rfl⟩,
      (e.woven.flatMap _).append_left _, ?_⟩
    intro o ho
    obtain ⟨r, hr, ho⟩ := List.mem_flatMap.mp ho
    obtain ⟨t, ht, rfl⟩ := List.mem_map.mp hr
    exact TxtRecord.observations_kind (e.texts t ht) ho

/-! ## An address and a TXT record -/

namespace Sample

/-- The name `a`. -/
def host : Label := ⟨str "a", by decide, fun c hc => by
  rw [List.mem_singleton.mp hc]
  decide, by decide⟩

/-- The address of the host, 192.0.2.1. -/
def address : ResourceRecord := ⟨[host], 1, 0x8001, 10, [192, 0, 2, 1], []⟩

/-- A response whose first record is the address. -/
def message (count : Byte) (others : List Byte) : List Byte :=
  [0, 0, 0x84, 0, 0, 0, 0, count, 0, 0, 0, 0,
    1, 97, 0, 0, 1, 0x80, 1, 0, 0, 0, 10, 0, 4, 192, 0, 2, 1] ++ others

def frame : PassiveFrame where
  protocol := str "mdns"
  payload := message 1 []
  observedAt := ⟨0, zero_inCalendar⟩
  interface := none

def parser : MDNSParser where
  bounds := ⟨9000, 128, 512, 1300, by decide⟩
  cache := ⟨4096, 604800, defaultCache_bounds⟩
  redactor := ⟨[], []⟩

def runtime : Runtime := Runtime.ofDigests []

/-- A TXT record of the host. -/
def txt (data : TxtData) : TxtRecord := ⟨[host], 0x8001, 10, data⟩

theorem address_at (count : Byte) (others : List Byte) :
    RecordAt (message count others) 12 15 address 29 where
  owner := ⟨0, .label ⟨_, rfl⟩ (.terminator ⟨_, rfl⟩), by decide, by decide⟩
  type := rfl
  recordClass := rfl
  ttl := rfl
  length := rfl
  inside := Nat.le_add_left 29 others.length
  data := fun _ => ⟨fun _ => rfl, by rintro ⟨⟩, by rintro ⟨⟩⟩

theorem isResponse (count : Byte) (others : List Byte) : IsResponse (message count others) := by
  have hflags : number (message count others) 2 2 = 0x8400 := rfl
  unfold IsResponse
  rw [hflags]

theorem carries : Carries frame.payload [] [address] where
  header := by decide
  response := isResponse 1 []
  questionCount := rfl
  recordCount := rfl
  body := ⟨12, .nil, .cons (address_at 1 []) .nil⟩

theorem address_accepted : address.Accepted runtime parser frame.observedAt := by
  refine ⟨⟨_, rfl⟩, fun d hd => ?_⟩
  rw [List.mem_singleton.mp hd]
  exact observe_returns.mpr (.inr (by decide))

/-- What is observed of the address. -/
def observed : List PassiveObservation := address.observations runtime parser frame.observedAt

theorem observes : parser.Observes runtime [] frame observed :=
  carries.observes.mpr ⟨⟨.inl (by decide), ⟨by decide, by decide, by decide⟩,
    List.forall_mem_singleton.mpr address_accepted⟩, (List.append_nil _).symm⟩

/-- The response with a TXT record behind the address, whose name is a pointer to the first. -/
def withText (size : Byte) (data : TxtData) : List Byte :=
  message 2 ([0xC0, 12, 0, 16, 0x80, 1, 0, 0, 0, 10, 0, size] ++ data.bytes)

theorem length_withText (size : Byte) (data : TxtData) :
    (withText size data).length = 41 + data.bytes.length := by
  unfold withText message
  rw [List.length_append, List.length_append, ← Nat.add_assoc]
  rfl

theorem text_at {size : Byte} {data : TxtData} (h : size.val = data.bytes.length) :
    RecordAt (withText size data) 29 31 (txt data).record (41 + data.bytes.length) where
  owner := ⟨1, @Spells.pointer _ 29 12 0 15 [host] (by decide) ⟨_, rfl⟩
    (.label ⟨_, rfl⟩ (.terminator ⟨_, rfl⟩)), by decide, (by decide : wireLength [host] ≤ 255)⟩
  type := rfl
  recordClass := rfl
  ttl := rfl
  length := by
    have hsize : number (withText size data) 39 2 = 256 * 0 + size.val := fromBytes_pair 0 size
    rw [hsize, h]
    omega
  inside := (length_withText size data).ge
  data := fun _ => ⟨fun _ => by
    unfold slice
    rw [List.take_of_length_le (length_withText size data).le]
    rfl, by rintro ⟨⟩, by rintro ⟨⟩⟩

/-- The response with short data of a TXT record added. -/
def extension (size : Byte) (data : TxtData) (h : size.val = data.bytes.length) :
    Extension parser.bounds frame.payload where
  questions := []
  records := [address]
  carries := carries
  added := [txt data]
  extended := [address, (txt data).record]
  woven := .left (.right .nil)
  result := withText size data
  carries_result := {
    header := by
      rw [length_withText]
      omega
    response := isResponse 2 _
    questionCount := rfl
    recordCount := rfl
    body := ⟨12, .nil, .cons (address_at 2 _) (.cons (text_at h)
      (length_withText size data ▸ .nil))⟩ }
  within := by
    have := size.isLt
    refine ⟨?_, by decide, (by decide : 2 ≤ 512)⟩
    rw [length_withText]
    change _ ≤ 9000
    omega
  texts := by
    have := size.isLt
    refine List.forall_mem_singleton.mpr ?_
    change data.bytes.length ≤ 1300
    omega

/-- The string `k=v`. -/
def pair : TxtString where
  key := str "k"
  value := some [118]
  ne_nil := by decide
  printable := by
    intro c hc
    rw [List.mem_singleton.mp hc]
    decide
  size := by decide

end Sample

theorem unharmed_sample :
    (Sample.extension 4 (.strings [Sample.pair]) rfl).Unharmed Sample.runtime Sample.parser []
      Sample.frame Sample.observed := by
  refine ((unharmed_iff (Sample.isResponse 1 []) Sample.observes).2 _).mpr ?_
  refine List.forall_mem_singleton.mpr fun _ => ⟨List.forall_mem_singleton.mpr ?_, ?_⟩
  · exact ⟨str "v", by decide, .inr (Redactor.text_returns.mp ⟨str "v", by decide +kernel⟩)⟩
  · exact .inr (by decide)

/-- The zero byte costs the message its address. -/
theorem not_unharmed : ¬ ∀ (rt : Runtime) (p : MDNSParser) (cache : Cache) (frame : PassiveFrame)
    (observed : List PassiveObservation), IsResponse frame.payload →
    p.Observes rt cache frame observed → ∀ e : Extension p.bounds frame.payload,
    e.Unharmed rt p cache frame observed := by
  intro h
  obtain ⟨texts, all, hall, -⟩ := h Sample.runtime Sample.parser [] Sample.frame Sample.observed
    (Sample.isResponse 1 []) Sample.observes (Sample.extension 1 .zero rfl)
  have haccepted := (@Carries.observes _ _ _ { Sample.frame with payload := _ } _ _
    (Sample.extension 1 .zero rfl).carries_result all).mp hall
  have hzero : (Sample.txt .zero).Readable Sample.runtime Sample.parser Sample.frame.observedAt :=
    (TxtRecord.accepted (by decide)).mp
      (haccepted.1.2.2 _ (List.mem_cons_of_mem _ (List.mem_singleton.mpr rfl)))
  exact (hzero rfl).1

end FieldDiscovery.Passive.Mdns
