import FieldDiscovery.Correlation.Partition
import FieldDiscovery.Unifi.Readings

/-!
# Stale records and their MAC addresses

A stale record claims its MAC address with confidence `0.7`, below the merge threshold. The same
address also reaches correlation on the interface of the observation, and there it is held with
full confidence (`observation_macs`). So staleness keeps a MAC key from merging exactly when the
record names no MAC address.
-/

namespace FieldDiscovery.Unifi

open Py Correlation

/-! ## The interface of a record -/

/-- The record names a MAC address. -/
def NamesMac (record : Record) : Prop :=
  ∃ t, text (Json.field record "mac") = some t ∧ ∃ m, normalizeMac t = .ok m

instance (record : Record) : Decidable (NamesMac record) :=
  decidable_of_iff (∃ t ∈ text (Json.field record "mac"), (normalizeMac t).isOk = true) <| by
    unfold NamesMac
    refine exists_congr fun t => and_congr Iff.rfl ⟨Except.exists_of_isOk, ?_⟩
    rintro ⟨m, hm⟩
    rw [hm]
    rfl

theorem normalizeMac_cases (value : Str) : (∃ m, normalizeMac value = .ok m) ∨
    ∃ message, normalizeMac value = .error (.normalization message) := by
  unfold normalizeMac
  simp only
  split
  · exact Or.inl ⟨_, rfl⟩
  · exact Or.inr ⟨_, rfl⟩

/-- The texts of the interface are accepted, so its constructor is decided by the address. -/
theorem newInterface_eq (observedAt : Datetime) (t : Str) :
    (∃ i : InterfaceEvidence, i.macAddress ≠ none ∧ i.confidence.val = 1 ∧
      InterfaceEvidence.new (str "primary") (str "unifi") (some observedAt) (some (str "primary"))
        (some t) = .ok i ∧ ∃ m, normalizeMac t = .ok m) ∨
    (∃ message, InterfaceEvidence.new (str "primary") (str "unifi") (some observedAt)
        (some (str "primary")) (some t) = .error (.normalization message) ∧
      ∀ m, normalizeMac t ≠ .ok m) := by
  have hkey : requireText (str "primary") (str "interface key") 512 =
      .ok ⟨str "primary", by decide⟩ := requireText_val ⟨str "primary", by decide⟩ _
  have hsource : requireText (str "unifi") (str "source") 128 = .ok ⟨str "unifi", by decide⟩ :=
    requireText_val ⟨str "unifi", by decide⟩ _
  have hname : requireText (str "primary") (str "interface name") 256 =
      .ok ⟨str "primary", by decide⟩ := requireText_val ⟨str "primary", by decide⟩ _
  have hconf : checkConfidence 1 = .ok ⟨1, by norm_num, by norm_num⟩ := dif_pos (by norm_num)
  unfold InterfaceEvidence.new
  rw [hkey, Except.ok_bind, hsource, Except.ok_bind, hconf]
  simp only [checkAware, Except.ok_bind, Option.mapM_some, hname, Functor.map, Except.map]
  split
  · next h =>
    split at h
    · cases h
    · next e he =>
      cases h
      rcases normalizeMac_cases t with ⟨m, hm⟩ | ⟨message, hm⟩
      · rw [hm] at he
        cases he
      · rw [hm] at he
        cases he
        exact Or.inr ⟨message, rfl, fun m => by rw [hm]; intro h; cases h⟩
  · next mac h =>
    split at h
    · next m hm =>
      cases h
      refine Or.inl ⟨_, ?_, ?_, rfl, m, hm⟩
      · simp
      · rfl
    · cases h

/-- The observation has the address on an interface that is fully trusted, or no interface. -/
theorem macInterfaces_cases (record : Record) (observedAt : Datetime) :
    (NamesMac record ∧ ∃ i : InterfaceEvidence, macInterfaces record observedAt = .ok [i] ∧
      i.macAddress ≠ none ∧ i.confidence.val = 1) ∨
    (¬ NamesMac record ∧ macInterfaces record observedAt = .ok []) := by
  unfold macInterfaces NamesMac
  cases ht : text (Json.field record "mac") with
  | none => exact Or.inr ⟨by simp, rfl⟩
  | some t =>
    simp only [Option.some.injEq, exists_eq_left']
    rcases newInterface_eq observedAt t with ⟨i, hmac, hconf, hi, hm⟩ | ⟨message, hi, hm⟩
    · exact Or.inl ⟨hm, i, by rw [hi], hmac, hconf⟩
    · exact Or.inr ⟨fun ⟨m, h⟩ => hm m h, by rw [hi]⟩

/-! ## The identifiers of a record -/

theorem reducedConfidence_lt : reducedConfidence < mergeThreshold.val := by
  norm_num [reducedConfidence, mergeThreshold]

section

variable {rt : Runtime}

theorem new_fields {kind : IdentifierKind} {value source : Str} {observedAt : Option Datetime}
    {confidence : ℚ} {idNamespace : Option Str} {e : IdentityEvidence}
    (h : IdentityEvidence.new rt kind value source observedAt confidence idNamespace = .ok e) :
    e.kind = kind ∧ e.confidence.val = confidence := by
  unfold IdentityEvidence.new at h
  obtain ⟨source', -, h⟩ := Except.bind_eq_ok.mp h
  obtain ⟨observedAt', -, h⟩ := Except.bind_eq_ok.mp h
  obtain ⟨confidence', hconf, h⟩ := Except.bind_eq_ok.mp h
  obtain ⟨value', -, h⟩ := Except.bind_eq_ok.mp h
  split at h
  · cases h
  · cases h
    refine ⟨rfl, ?_⟩
    unfold checkConfidence at hconf
    split at hconf
    · cases hconf
      rfl
    · cases hconf

theorem identity_fields {kind : IdentifierKind} {value : Json} {observedAt : Datetime}
    {confidence : ℚ} {idNamespace : Option Str} {e : IdentityEvidence}
    (h : identity rt kind value observedAt confidence idNamespace = .ok (some e)) :
    e.kind = kind ∧ e.confidence.val = confidence := by
  unfold identity at h
  split at h
  · cases h
  · split at h
    · next hnew =>
      cases h
      exact new_fields hnew
    · cases h
    · cases h

/-- The only MAC identifier is the record's own, held according to its age. -/
theorem recordIdentifiers_mac {s : Subject} {record : Record} {es : List IdentityEvidence}
    (h : recordIdentifiers rt s record = .ok es) {e : IdentityEvidence} (he : e ∈ es)
    (hkind : e.kind = .mac) : e.confidence.val = if s.stale then reducedConfidence else 1 := by
  unfold recordIdentifiers at h
  obtain ⟨sourceId, hsource, h⟩ := Except.bind_eq_ok.mp h
  obtain ⟨mac, hmac, h⟩ := Except.bind_eq_ok.mp h
  obtain ⟨serial, hserial, h⟩ := Except.bind_eq_ok.mp h
  obtain ⟨hostname, hhostname, h⟩ := Except.bind_eq_ok.mp h
  obtain ⟨ipv4, hipv4, h⟩ := Except.bind_eq_ok.mp h
  cases h
  have hother : ∀ {kind value confidence idNamespace found},
      identity rt kind value s.observedAt confidence idNamespace = .ok found → kind ≠ .mac →
      found ≠ some e := by
    rintro kind value confidence idNamespace found hfound hne rfl
    exact hne ((identity_fields hfound).1.symm.trans hkind)
  simp only [List.mem_filterMap, id_eq, exists_eq_right, List.mem_cons, List.not_mem_nil,
    or_false] at he
  rcases he with he | he | he | he | he
  · exact absurd he.symm (hother hsource (by decide))
  · rw [← he] at hmac
    exact (identity_fields hmac).2
  · exact absurd he.symm (hother hserial (by decide))
  · exact absurd he.symm (hother hhostname (by decide))
  · exact absurd he.symm (hother hipv4 (by decide))

/-! ## The observation -/

theorem deviceObservation_parts {s : Subject} {record : Record} {o : DeviceObservation}
    (h : deviceObservation rt s record = .ok o) : recordIdentifiers rt s record = .ok o.identifiers ∧
      macInterfaces record s.observedAt = .ok o.interfaces := by
  unfold deviceObservation at h
  obtain ⟨identifiers, hidentifiers, h⟩ := Except.bind_eq_ok.mp h
  obtain ⟨interfaces, hinterfaces, h⟩ := Except.bind_eq_ok.mp h
  obtain ⟨facts, -, h⟩ := Except.bind_eq_ok.mp h
  unfold DeviceObservation.new at h
  obtain ⟨observationId, -, h⟩ := Except.bind_eq_ok.mp h
  obtain ⟨source, -, h⟩ := Except.bind_eq_ok.mp h
  obtain ⟨observedAt, -, h⟩ := Except.bind_eq_ok.mp h
  cases h
  exact ⟨hidentifiers, hinterfaces⟩

/-- All MAC evidence of a stale record stays below the threshold exactly when the record names no
MAC address. -/
theorem observation_macs {s : Subject} {record : Record} {o : DeviceObservation}
    (h : deviceObservation rt s record = .ok o) (hstale : s.stale = true) :
    (∀ e ∈ allIdentifiers o, e.kind = .mac → e.confidence < mergeThreshold) ↔
      ¬ NamesMac record := by
  obtain ⟨hidentifiers, hinterfaces⟩ := deviceObservation_parts h
  have hmem : ∀ e, e ∈ allIdentifiers o ↔
      e ∈ o.identifiers ∨ ∃ i ∈ o.interfaces, i.macIdentity = some e := by
    intro e
    unfold allIdentifiers DeviceObservation.carried
    rw [mem_sortedBy, List.mem_append, List.mem_filterMap]
  rcases macInterfaces_cases record s.observedAt with ⟨hnames, i, hi, hmac, hconf⟩ | ⟨hnames, hi⟩
  · refine iff_of_false (fun hall => ?_) (not_not.mpr hnames)
    have hone : o.interfaces = [i] := (Except.ok.inj (hi.symm.trans hinterfaces)).symm
    obtain ⟨mac, hmac⟩ := Option.ne_none_iff_exists'.mp hmac
    have hidentity : i.macIdentity ≠ none := by simp [InterfaceEvidence.macIdentity, hmac]
    obtain ⟨e, he⟩ := Option.ne_none_iff_exists'.mp hidentity
    have hlow := hall e ((hmem e).mpr (Or.inr ⟨i, by simp [hone], he⟩))
    unfold InterfaceEvidence.macIdentity at he
    rw [hmac] at he
    cases he
    have hlt : i.confidence.val < mergeThreshold.val := hlow rfl
    rw [hconf] at hlt
    norm_num [mergeThreshold] at hlt
  · refine iff_of_true (fun e he hkind => ?_) hnames
    have hnil : o.interfaces = [] := (Except.ok.inj (hi.symm.trans hinterfaces)).symm
    rw [hmem, hnil] at he
    rcases he with he | ⟨i, hi, -⟩
    · have hconf := recordIdentifiers_mac hidentifiers he hkind
      rw [if_pos hstale] at hconf
      show e.confidence.val < mergeThreshold.val
      rw [hconf]
      exact reducedConfidence_lt
    · cases hi

end

/-! ## Merging -/

/-- A key that starts as a MAC key is the key of a MAC address. -/
theorem kind_of_macKey {e : IdentityEvidence} (h : str "mac:" <+: e.key) : e.kind = .mac := by
  unfold IdentityEvidence.key at h
  obtain ⟨rest, h⟩ := h
  cases hkind : e.kind with
  | mac => rfl
  | _ => simp [hkind, IdentifierKind.value, str, cp] at h

/-- Behind a decision stand two observations of the batch that hold its key. -/
theorem decision_holders {rt : Runtime} {so : SetOrder} {observations : List DeviceObservation}
    {result : CorrelationResult} (h : correlate rt so observations = .ok result)
    {d : CorrelationDecision} (hd : d ∈ result.decisions) :
    ∀ x, x = d.leftObservationId ∨ x = d.rightObservationId →
      ∃ o ∈ observations, o.id = x ∧ ∃ e ∈ allIdentifiers o, e.merges = true ∧
        e.key = d.evidenceKey := by
  rw [(correlate_accepted h).decisions, mem_sortedBy] at hd
  obtain ⟨e, e', he, he', hkey, hkey', -⟩ := ((merge_spec observations).supported d hd).evidence
  have hholder : ∀ {x e}, (x, e) ∈ stableClaims (ordered observations) → e.key = d.evidenceKey →
      ∃ o ∈ observations, o.id = x ∧ ∃ e ∈ allIdentifiers o, e.merges = true ∧
        e.key = d.evidenceKey := by
    intro x e hclaim hkey
    obtain ⟨o, ho, hid, hcarried, hmerges⟩ := mem_stableClaims.mp hclaim
    exact ⟨o, mem_ordered.mp ho, hid.symm, e, mem_sortedBy.mpr hcarried, hmerges, hkey⟩
  rintro x (rfl | rfl)
  · exact hholder he hkey
  · exact hholder he' hkey'

namespace Reader

variable (reader : Reader)

/-- A device or client that the normalization reads and judges stale. -/
def IsStaleReading (snapshot : UniFiSnapshot) (r : Reading) : Prop :=
  r ∈ reader.readings snapshot ∧ r.kind.isDevice = true ∧ r.stale reader = true

/-- Staleness keeps a MAC address from merging: no MAC evidence of a stale record reaches the
threshold, and in no batch does a decision on a MAC key have a stale record on either side. -/
structure StaleMacsHeld (snapshot : UniFiSnapshot) (inv : NormalizedUniFiInventory) : Prop where
  evidence : ∀ r, reader.IsStaleReading snapshot r → ∀ o ∈ inv.devices,
    r.observation reader = .ok o → ∀ e ∈ allIdentifiers o, e.kind = .mac →
      e.confidence < mergeThreshold
  merges : ∀ so batch result, correlate reader.rt so batch = .ok result → ∀ d ∈ result.decisions,
    str "mac:" <+: d.evidenceKey → ∀ r, reader.IsStaleReading snapshot r → ∀ o ∈ batch,
      r.observation reader = .ok o → o.id ≠ d.leftObservationId ∧ o.id ≠ d.rightObservationId

variable {reader}

theorem Reading.stale_observation {r : Reading} (hstale : r.stale reader = true)
    {o : DeviceObservation} (h : r.observation reader = .ok o) :
    (∀ e ∈ allIdentifiers o, e.kind = .mac → e.confidence < mergeThreshold) ↔
      ¬ NamesMac r.record := by
  unfold Reading.observation at h
  obtain ⟨active, -, h⟩ := Except.bind_eq_ok.mp h
  exact observation_macs h hstale

/-- Evidence below the threshold merges nothing. -/
theorem merges_of_evidence {snapshot : UniFiSnapshot} {inv : NormalizedUniFiInventory}
    (h : ∀ r, reader.IsStaleReading snapshot r → ∀ o, r.observation reader = .ok o →
      ∀ e ∈ allIdentifiers o, e.kind = .mac → e.confidence < mergeThreshold) :
    reader.StaleMacsHeld snapshot inv where
  evidence r hr o _ hobs := h r hr o hobs
  merges := by
    intro so batch result hresult d hd hmac r hr o ho hobs
    have hdistinct := (correlate_accepted hresult).distinct
    have hne : ∀ x, x = d.leftObservationId ∨ x = d.rightObservationId → o.id ≠ x := by
      intro x hx hid
      obtain ⟨o', ho', hid', e, he, hmerges, hkey⟩ := decision_holders hresult hd x hx
      obtain rfl := eq_of_id_eq hdistinct ho ho' (hid.trans hid'.symm)
      have hlow := h r hr o hobs e he (kind_of_macKey (hkey ▸ hmac))
      unfold IdentityEvidence.merges at hmerges
      rw [Bool.and_eq_true, decide_eq_true_eq] at hmerges
      exact absurd hmerges.2 (not_le_of_gt hlow)
    exact ⟨hne _ (Or.inl rfl), hne _ (Or.inr rfl)⟩

end Reader

/-! ## A snapshot of two clients

Both name one MAC address, and the first was last seen in 1970. -/

namespace Sample

def client (id : String) (fields : Record) : Json := .dict ((str "_id", .string (str id)) :: fields)

def snapshot (fields : Record) : UniFiSnapshot where
  controllerKey := str "fixture:443"
  sites := [[(str "_id", .string (str "site"))]]
  resources := [((str "site", .clients),
    [client "old" ((str "last_seen", .int 1) :: fields), client "new" fields])]

def macField : Record := [(str "mac", .string (str "00:11:22:33:44:55"))]

def reader : Reader where
  rt := Correlation.Sample.runtime
  printable _ := true
  controllerKey := str "fixture:443"
  observedAt := Correlation.Sample.observedAt
  staleAfter := 7 * microsPerDay

/-- `normalize_snapshot` at the default `stale_after`. -/
def normalized (fields : Record) : Except Exc NormalizedUniFiInventory :=
  normalizeSnapshot reader.rt reader.printable (snapshot fields) (some reader.observedAt)

end Sample

/-- The stale client and the live one become one device by their common MAC address. -/
theorem stale_mac_merges : ∃ inv result, Sample.normalized Sample.macField = .ok inv ∧
    correlate Sample.reader.rt .insertion inv.devices = .ok result ∧
    result.decisions.map (fun d =>
      (d.evidenceKey, d.leftObservationId, d.rightObservationId)) =
        [(str "mac:00:11:22:33:44:55", str "unifi:fixture:443:site:client:new",
          str "unifi:fixture:443:site:client:old")] ∧
    ¬ Sample.reader.StaleMacsHeld (Sample.snapshot Sample.macField) inv := by
  obtain ⟨inv, hinv⟩ := Except.exists_of_isOk
    (by decide +kernel : (Sample.normalized Sample.macField).isOk = true)
  have hrun : ((Sample.normalized Sample.macField >>= fun inv =>
      correlate Sample.reader.rt .insertion inv.devices).toOption.map fun result =>
        result.decisions.map fun d =>
          (d.evidenceKey, d.leftObservationId, d.rightObservationId)) =
      some [(str "mac:00:11:22:33:44:55", str "unifi:fixture:443:site:client:new",
        str "unifi:fixture:443:site:client:old")] := by decide +kernel
  rw [hinv, Except.ok_bind] at hrun
  obtain ⟨result, hresult, hdecisions⟩ := Option.map_eq_some_iff.mp hrun
  refine ⟨inv, result, hinv, Except.toOption_eq_some.mp hresult, hdecisions, fun hheld => ?_⟩
  obtain ⟨r, hmem, hkind, hstale, hnames⟩ : ∃ r ∈ Sample.reader.readings
      (Sample.snapshot Sample.macField), r.kind.isDevice = true ∧
        r.stale Sample.reader = true ∧ NamesMac r.record := by decide +kernel
  obtain ⟨o, ho, hobs⟩ := (Reader.normalizeSnapshot_spec hinv).exists_observation hmem hkind
  exact (Reader.Reading.stale_observation hstale hobs).mp
    (hheld.evidence r ⟨hmem, hkind, hstale⟩ o ho hobs) hnames

/-- The stale records of a snapshot are kept from merging on their MAC addresses exactly when none
of them names one. -/
theorem stale_macs_held_iff {rt : Runtime} {printable : CodePoint → Bool}
    {snapshot : UniFiSnapshot} {observedAt : Datetime} {staleAfter : Int}
    {inv : NormalizedUniFiInventory}
    (h : normalizeSnapshot rt printable snapshot (some observedAt) staleAfter = .ok inv) :
    let reader : Reader := ⟨rt, printable, snapshot.controllerKey, observedAt, staleAfter⟩
    reader.StaleMacsHeld snapshot inv ↔
      ∀ r, reader.IsStaleReading snapshot r → ¬ NamesMac r.record := by
  intro reader
  have hspec := Reader.normalizeSnapshot_spec h
  constructor
  · intro hheld r hr
    obtain ⟨o, ho, hobs⟩ := hspec.exists_observation hr.1 hr.2.1
    exact (Reader.Reading.stale_observation hr.2.2 hobs).mp (hheld.evidence r hr o ho hobs)
  · intro hnames
    refine Reader.merges_of_evidence fun r hr o hobs => ?_
    exact (Reader.Reading.stale_observation hr.2.2 hobs).mpr (hnames r hr)

theorem stale_macs_held_iff_sample : ∃ inv, Sample.normalized [] = .ok inv ∧
    Sample.reader.StaleMacsHeld (Sample.snapshot []) inv := by
  obtain ⟨inv, hinv⟩ := Except.exists_of_isOk
    (by decide +kernel : (Sample.normalized []).isOk = true)
  have hnames : ∀ r ∈ Sample.reader.readings (Sample.snapshot []), ¬ NamesMac r.record := by
    decide +kernel
  exact ⟨inv, hinv, (stale_macs_held_iff hinv).mpr fun r hr => hnames r hr.1⟩

end FieldDiscovery.Unifi
