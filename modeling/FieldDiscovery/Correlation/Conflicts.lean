import FieldDiscovery.Correlation.Forest

/-!
# Conflicts are reported exactly

What `_find_conflicts` reports about an accepted batch, said of the observations behind the devices.
The devices are in the strict order of their canonical keys, so the devices that hold a value are a
sublist of them (`sortedSet_canonicalKeys`), and a group of claims or facts is non-empty, so it has
a report of its own if it has one at all.
-/

namespace FieldDiscovery.Correlation

open Py

/-! ## Evidence of devices -/

section

variable (observations : List DeviceObservation) (d : CanonicalDevice)

/-- The observations of a device. -/
def members : List DeviceObservation := observations.filter (·.id ∈ d.observationIds)

/-- An observation of the device reports the value for this kind of identifier. -/
def Holds (kind : IdentifierKind) (value : Str) : Prop :=
  ∃ o ∈ members observations d, ∃ e ∈ o.identifiers, e.kind = kind ∧ e.value = value

instance (kind : IdentifierKind) (value : Str) : Decidable (Holds observations d kind value) :=
  inferInstanceAs (Decidable (∃ o ∈ members observations d, ∃ e ∈ o.identifiers, _ ∧ _))

/-- The serials that the observations of a device report. -/
def serials : List Str :=
  (((members observations d).flatMap DeviceObservation.identifiers).filter
    (·.kind = .serial)).map IdentityEvidence.value

/-- What the observations of a device say about one field. -/
def factsOf (field : Str) : List FactEvidence :=
  ((members observations d).flatMap DeviceObservation.facts).filter (·.field = field)

def fieldValues (field : Str) : List Str := (factsOf observations d field).map fun f => f.value.val

def fieldSources (field : Str) : List Str := (factsOf observations d field).map fun f => f.source.val

end

/-- The devices that hold a value. -/
def holders (observations : List DeviceObservation) (r : CorrelationResult) (kind : IdentifierKind)
    (value : Str) : List CanonicalDevice :=
  r.devices.filter fun d => decide (Holds observations d kind value)

/-! ## Reports -/

/-- The report that a hostname or an address is on several devices, naming them. -/
def reusedConflict (observations : List DeviceObservation) (r : CorrelationResult)
    (kind : IdentifierKind) (value : Str) : CorrelationConflict where
  conflictKind := str "reused_" ++ kind.value
  key := kind.value ++ str ":" ++ value
  canonicalKeys := (holders observations r kind value).map CanonicalDevice.canonicalKey
  values := [value]
  observationIds := sortedSet ((holders observations r kind value).flatMap
    CanonicalDevice.observationIds)
  explanation := kind.value ++ str " appears on multiple devices and was not used to merge them"

/-- The report that a device has several serials, listing them. -/
def serialConflict (observations : List DeviceObservation) (d : CanonicalDevice) :
    CorrelationConflict where
  conflictKind := str "conflicting_serial"
  key := str "serial"
  canonicalKeys := [d.canonicalKey]
  values := sortedSet (serials observations d)
  observationIds := d.observationIds
  explanation := str ("sources reported different serials for a device joined by other " ++
    "stable evidence")

/-- A report that sources disagree on a field of a device, listing the values once each. -/
structure Disagrees (observations : List DeviceObservation) (d : CanonicalDevice) (field : Str)
    (c : CorrelationConflict) : Prop where
  conflictKind : c.conflictKind = str "source_disagreement"
  key : c.key = field
  canonicalKeys : c.canonicalKeys = [d.canonicalKey]
  values : c.values.Perm (fieldValues observations d field).dedup
  observationIds : c.observationIds = d.observationIds

/-- What tells the reports of a result apart. -/
def CorrelationConflict.identity (c : CorrelationConflict) : Str × Str × List Str :=
  (c.conflictKind, c.key, c.canonicalKeys)

/-- The reports of a result are the right ones, once each. -/
structure ReportsExactly (observations : List DeviceObservation) (r : CorrelationResult) :
    Prop where
  reused : ∀ kind, kind = .hostname ∨ kind = .ipv4 → ∀ value,
    reusedConflict observations r kind value ∈ r.conflicts ↔
      2 ≤ (holders observations r kind value).length
  serial : ∀ d ∈ r.devices, serialConflict observations d ∈ r.conflicts ↔
    2 ≤ (serials observations d).toFinset.card
  disagreement : ∀ d ∈ r.devices, ∀ field, (∃ c ∈ r.conflicts, Disagrees observations d field c) ↔
    2 ≤ (fieldValues observations d field).toFinset.card ∧
      2 ≤ (fieldSources observations d field).toFinset.card
  nothingElse : ∀ c ∈ r.conflicts,
    (∃ kind, (kind = .hostname ∨ kind = .ipv4) ∧ ∃ value,
      c = reusedConflict observations r kind value) ∨
    (∃ d ∈ r.devices, c = serialConflict observations d) ∨
    ∃ d ∈ r.devices, ∃ field, Disagrees observations d field c
  once : (r.conflicts.map CorrelationConflict.identity).Nodup

/-! ## Sorted sets -/

theorem sortedSet_eq_self {κ : Type*} [LinearOrder κ] {l : List κ} (h : l.Pairwise (· < ·)) :
    sortedSet l = l := by
  have hnodup : l.Nodup := h.imp fun hlt => hlt.ne
  unfold sortedSet
  rw [hnodup.dedup]
  exact (h.imp fun hlt => hlt.le).insertionSort_eq

theorem length_sortedSet (l : List Str) : (sortedSet l).length = l.toFinset.card := by
  rw [← List.toFinset_card_of_nodup (nodup_sortedSet l)]
  congr 1
  ext a
  simp

section Accepted

variable {rt : Runtime} {so : SetOrder} {observations : List DeviceObservation}
  {r : CorrelationResult}

/-- The devices are in the strict order of their keys. -/
theorem Accepted.canonicalKeys_lt (h : Accepted rt so observations r)
    (hinj : DigestInjective rt observations) :
    (r.devices.map CanonicalDevice.canonicalKey).Pairwise (· < ·) := by
  have hnodup := h.canonicalKeys_nodup hinj
  obtain ⟨devices, -, hr⟩ := h.devices
  have hle : (r.devices.map CanonicalDevice.canonicalKey).Pairwise (· ≤ ·) := by
    rw [hr]
    exact List.pairwise_map.mpr (pairwise_sortedBy _ _)
  exact hle.imp₂ (fun _ _ hle hne => lt_of_le_of_ne hle hne) hnodup

/-- The keys of some of the devices, in any order and number, come out in the order of the devices. -/
theorem sortedSet_canonicalKeys (h : Accepted rt so observations r)
    (hinj : DigestInjective rt observations) {p : CanonicalDevice → Bool}
    {keys : List Str} (hkeys : ∀ key, key ∈ keys ↔ ∃ d ∈ r.devices, p d = true ∧ d.canonicalKey = key) :
    sortedSet keys = (r.devices.filter p).map CanonicalDevice.canonicalKey := by
  have hlt : ((r.devices.filter p).map CanonicalDevice.canonicalKey).Pairwise (· < ·) :=
    (h.canonicalKeys_lt hinj).sublist (List.filter_sublist.map _)
  rw [← sortedSet_eq_self hlt]
  refine sortedSet_congr fun key => ?_
  rw [hkeys, List.mem_map]
  exact exists_congr fun d => by rw [List.mem_filter, and_assoc]

theorem Accepted.holds_iff (h : Accepted rt so observations r) {d : CanonicalDevice}
    (hd : d ∈ r.devices) {kind : IdentifierKind} (hkind : kind ≠ .mac) {value : Str} :
    Holds observations d kind value ↔ ∃ e ∈ d.identifiers, e.kind = kind ∧ e.value = value := by
  have hcarried : ∀ o : DeviceObservation, ∀ e : IdentityEvidence, e.kind = kind →
      (e ∈ o.carried ↔ e ∈ o.identifiers) := by
    intro o e he
    unfold DeviceObservation.carried
    rw [List.mem_append, List.mem_filterMap]
    refine or_iff_left ?_
    rintro ⟨i, -, hi⟩
    obtain ⟨mac, -, rfl⟩ := Option.map_eq_some_iff.mp hi
    exact hkind he.symm
  unfold Holds members
  constructor
  · rintro ⟨o, ho, e, he, hk, hv⟩
    refine ⟨e, (h.identifiers_perm hd).mem_iff.mpr ?_, hk, hv⟩
    exact List.mem_flatMap.mpr ⟨o, ho, (hcarried o e hk).mpr he⟩
  · rintro ⟨e, he, hk, hv⟩
    obtain ⟨o, ho, he⟩ := List.mem_flatMap.mp ((h.identifiers_perm hd).mem_iff.mp he)
    exact ⟨o, ho, e, (hcarried o e hk).mp he, hk, hv⟩

/-! ## Serials and fields -/

theorem Accepted.mem_serials_iff (h : Accepted rt so observations r) {d : CanonicalDevice}
    (hd : d ∈ r.devices) {value : Str} : value ∈ serials observations d ↔
      value ∈ (d.identifiers.filter (·.kind = .serial)).map IdentityEvidence.value := by
  have hholds : Holds observations d .serial value ↔
      ∃ e ∈ d.identifiers, e.kind = .serial ∧ e.value = value := h.holds_iff hd (by decide)
  unfold Holds at hholds
  unfold serials
  simp only [List.mem_map, List.mem_filter, List.mem_flatMap, decide_eq_true_eq]
  constructor
  · rintro ⟨e, ⟨⟨o, ho, he⟩, hk⟩, hv⟩
    obtain ⟨e', he', hk', hv'⟩ := hholds.mp ⟨o, ho, e, he, hk, hv⟩
    exact ⟨e', ⟨he', hk'⟩, hv'⟩
  · rintro ⟨e, ⟨he, hk⟩, hv⟩
    obtain ⟨o, ho, e', he', hk', hv'⟩ := hholds.mpr ⟨e, he, hk, hv⟩
    exact ⟨e', ⟨⟨o, ho, he'⟩, hk'⟩, hv'⟩

theorem Accepted.mem_serialConflicts (h : Accepted rt so observations r) {d : CanonicalDevice}
    (hd : d ∈ r.devices) {c : CorrelationConflict} : c ∈ serialConflicts d ↔
      2 ≤ (serials observations d).toFinset.card ∧ c = serialConflict observations d := by
  unfold serialConflicts serialConflict
  rw [sortedSet_congr fun value => (h.mem_serials_iff hd).symm]
  simp only [length_sortedSet]
  split
  · next hmany => rw [List.mem_singleton, and_iff_right (Nat.succ_le_of_lt hmany)]
  · next hfew =>
    exact iff_of_false List.not_mem_nil fun hboth => hfew (Nat.lt_of_succ_le hboth.1)

theorem Accepted.factsOf_perm (h : Accepted rt so observations r) {d : CanonicalDevice}
    (hd : d ∈ r.devices) (field : Str) :
    (d.facts.filter (·.field = field)).Perm (factsOf observations d field) :=
  (h.facts_perm hd).filter _

/-- The report of one field, if there is one. -/
def fieldConflict (rt : Runtime) (so : SetOrder) (d : CanonicalDevice) (field : Str) :
    Option CorrelationConflict :=
  let group := d.facts.filter (·.field = field)
  let values : List Str := sortedBy rt.casefold (so.iterate (group.map fun f => f.value.val))
  let sources : List Str := (group.map fun f => f.source.val).dedup
  if 1 < values.length ∧ 1 < sources.length then
    some
      { conflictKind := str "source_disagreement", key := field
        canonicalKeys := [d.canonicalKey], values, observationIds := d.observationIds
        explanation := str ("multiple sources reported different values; " ++
          "all evidence is retained") }
  else none

theorem factConflicts_eq (d : CanonicalDevice) : factConflicts rt so d =
    (sortedSet (d.facts.map FactEvidence.field)).filterMap (fieldConflict rt so d) := by
  unfold factConflicts
  rw [sortedBy_groupBy, List.filterMap_map]
  rfl

theorem Accepted.fieldConflict_spec (h : Accepted rt so observations r) {d : CanonicalDevice}
    (hd : d ∈ r.devices) (field : Str) :
    (∀ c, fieldConflict rt so d field = some c → Disagrees observations d field c) ∧
      ((fieldConflict rt so d field).isSome = true ↔
        2 ≤ (fieldValues observations d field).toFinset.card ∧
          2 ≤ (fieldSources observations d field).toFinset.card) := by
  have hfacts := h.factsOf_perm hd field
  have hvalues : (sortedBy rt.casefold (so.iterate
      ((d.facts.filter (·.field = field)).map fun f => f.value.val))).Perm
        (fieldValues observations d field).dedup :=
    (sortedBy_perm _ _).trans ((so.iterate_perm _).trans (hfacts.map _).dedup)
  have hsources : ((d.facts.filter (·.field = field)).map fun f => f.source.val).dedup.length =
      (fieldSources observations d field).toFinset.card := by
    rw [List.card_toFinset]
    exact (hfacts.map _).dedup.length_eq
  unfold fieldConflict
  simp only [hvalues.length_eq, hsources, ← List.card_toFinset]
  split
  · next hmany =>
    refine ⟨?_, iff_of_true rfl hmany⟩
    rintro c ⟨rfl⟩
    exact ⟨rfl, rfl, rfl, hvalues, rfl⟩
  · next hfew =>
    exact ⟨fun c hc => (nomatch hc), iff_of_false Bool.false_ne_true hfew⟩

theorem Accepted.mem_factConflicts (h : Accepted rt so observations r) {d : CanonicalDevice}
    (hd : d ∈ r.devices) {c : CorrelationConflict} (hc : c ∈ factConflicts rt so d) :
    ∃ field, Disagrees observations d field c := by
  rw [factConflicts_eq] at hc
  obtain ⟨field, -, hfield⟩ := List.mem_filterMap.mp hc
  exact ⟨field, (h.fieldConflict_spec hd field).1 c hfield⟩

/-- Two sources of a field give the device facts of that field. -/
theorem Accepted.exists_factConflict (h : Accepted rt so observations r) {d : CanonicalDevice}
    (hd : d ∈ r.devices) (field : Str) :
    (∃ c ∈ factConflicts rt so d, Disagrees observations d field c) ↔
      2 ≤ (fieldValues observations d field).toFinset.card ∧
        2 ≤ (fieldSources observations d field).toFinset.card := by
  rw [← (h.fieldConflict_spec hd field).2, factConflicts_eq]
  constructor
  · rintro ⟨c, hc, hdisagrees⟩
    obtain ⟨field', -, hfield'⟩ := List.mem_filterMap.mp hc
    have hkey := ((h.fieldConflict_spec hd field').1 c hfield').key
    rw [← hdisagrees.key, hkey, hfield']
    rfl
  · intro hsome
    obtain ⟨c, hc⟩ := Option.isSome_iff_exists.mp hsome
    refine ⟨c, List.mem_filterMap.mpr ⟨field, ?_, hc⟩, (h.fieldConflict_spec hd field).1 c hc⟩
    have hvalues := ((h.fieldConflict_spec hd field).2.mp hsome).1
    obtain ⟨value, hvalue⟩ := Finset.card_pos.mp (Nat.zero_lt_two.trans_le hvalues)
    obtain ⟨f, hf, -⟩ := List.mem_map.mp (List.mem_toFinset.mp hvalue)
    obtain ⟨hf, hkey⟩ := List.mem_filter.mp ((h.factsOf_perm hd field).mem_iff.mpr hf)
    exact mem_sortedSet.mpr (List.mem_map.mpr ⟨f, hf, of_decide_eq_true hkey⟩)

/-! ## Values on several devices -/

/-- The claims of the devices on values that several devices may hold. -/
def reusableClaims (devices : List CanonicalDevice) : List (CanonicalDevice × IdentityEvidence) :=
  devices.flatMap fun d =>
    (d.identifiers.filter fun e => e.kind = .hostname || e.kind = .ipv4).map fun e => (d, e)

/-- The key that a claim is grouped by. -/
def reuseKey (c : CanonicalDevice × IdentityEvidence) : Str ×ₗ Str := toLex (c.2.kind.value, c.2.value)

/-- The report of one group of claims, if there is one. -/
def groupConflict (devices : List CanonicalDevice) (key : Str ×ₗ Str) :
    Option CorrelationConflict :=
  let group := (reusableClaims devices).filter (reuseKey · = key)
  let (kind, value) := ofLex key
  let canonicalKeys := sortedSet (group.map fun c => c.1.canonicalKey)
  if 1 < canonicalKeys.length then
    some
      { conflictKind := str "reused_" ++ kind
        key := kind ++ str ":" ++ value
        canonicalKeys, values := [value]
        observationIds := sortedSet (group.flatMap fun c => c.1.observationIds)
        explanation := kind ++ str " appears on multiple devices and was not used to merge them" }
  else none

theorem reuseConflicts_eq (devices : List CanonicalDevice) : reuseConflicts devices =
    (sortedSet ((reusableClaims devices).map reuseKey)).filterMap (groupConflict devices) := by
  unfold reuseConflicts
  simp only
  rw [sortedBy_groupBy, List.filterMap_map]
  rfl

theorem Accepted.mem_group_iff (h : Accepted rt so observations r) {kind : IdentifierKind}
    (hkind : kind = .hostname ∨ kind = .ipv4) {value : Str} {d : CanonicalDevice} :
    (∃ e, (d, e) ∈ (reusableClaims r.devices).filter
      (reuseKey · = toLex (kind.value, value))) ↔
        d ∈ r.devices ∧ Holds observations d kind value := by
  have hclaim : ∀ e, (d, e) ∈ (reusableClaims r.devices).filter
      (reuseKey · = toLex (kind.value, value)) ↔
        d ∈ r.devices ∧ e ∈ d.identifiers ∧ e.kind = kind ∧ e.value = value := by
    intro e
    unfold reusableClaims reuseKey
    simp only [List.mem_filter, List.mem_flatMap, List.mem_map, Bool.or_eq_true, decide_eq_true_eq,
      Prod.mk.injEq, EmbeddingLike.apply_eq_iff_eq]
    constructor
    · rintro ⟨⟨d', hd', e', ⟨he', -⟩, rfl, rfl⟩, hk, hv⟩
      exact ⟨hd', he', IdentifierKind.value_injective hk, hv⟩
    · rintro ⟨hd, he, rfl, hv⟩
      exact ⟨⟨d, hd, e, ⟨he, hkind⟩, rfl, rfl⟩, rfl, hv⟩
  simp only [hclaim]
  constructor
  · rintro ⟨e, hd, he⟩
    refine ⟨hd, (h.holds_iff hd ?_).mpr ⟨e, he⟩⟩
    rcases hkind with rfl | rfl <;> decide
  · rintro ⟨hd, hholds⟩
    obtain ⟨e, he⟩ := (h.holds_iff hd (by rcases hkind with rfl | rfl <;> decide)).mp hholds
    exact ⟨e, hd, he⟩

/-- The report of a value names the devices that hold it. -/
theorem Accepted.groupConflict_eq (h : Accepted rt so observations r)
    (hinj : DigestInjective rt observations) {kind : IdentifierKind}
    (hkind : kind = .hostname ∨ kind = .ipv4) (value : Str) :
    groupConflict r.devices (toLex (kind.value, value)) =
      if 2 ≤ (holders observations r kind value).length then
        some (reusedConflict observations r kind value)
      else none := by
  let group := (reusableClaims r.devices).filter (reuseKey · = toLex (kind.value, value))
  have hgroup : ∀ d, (∃ e, (d, e) ∈ group) ↔ d ∈ r.devices ∧ Holds observations d kind value :=
    fun d => h.mem_group_iff hkind
  have hkeys : sortedSet (group.map fun c => c.1.canonicalKey) =
      (holders observations r kind value).map CanonicalDevice.canonicalKey := by
    refine sortedSet_canonicalKeys h hinj fun key => ?_
    simp only [List.mem_map, decide_eq_true_eq]
    constructor
    · rintro ⟨⟨d, e⟩, hmem, rfl⟩
      obtain ⟨hd, hholds⟩ := (hgroup d).mp ⟨e, hmem⟩
      exact ⟨d, hd, hholds, rfl⟩
    · rintro ⟨d, hd, hholds, rfl⟩
      obtain ⟨e, hmem⟩ := (hgroup d).mpr ⟨hd, hholds⟩
      exact ⟨(d, e), hmem, rfl⟩
  have hids : sortedSet (group.flatMap fun c => c.1.observationIds) =
      sortedSet ((holders observations r kind value).flatMap CanonicalDevice.observationIds) := by
    refine sortedSet_congr fun id => ?_
    unfold holders
    simp only [List.mem_flatMap, List.mem_filter, decide_eq_true_eq]
    constructor
    · rintro ⟨⟨d, e⟩, hmem, hid⟩
      exact ⟨d, (hgroup d).mp ⟨e, hmem⟩, hid⟩
    · rintro ⟨d, hd, hid⟩
      obtain ⟨e, hmem⟩ := (hgroup d).mpr hd
      exact ⟨(d, e), hmem, hid⟩
  unfold groupConflict reusedConflict
  simp only [ofLex_toLex]
  rw [hkeys, hids, List.length_map]
  rfl

theorem Accepted.mem_reuseConflicts (h : Accepted rt so observations r)
    (hinj : DigestInjective rt observations) {c : CorrelationConflict} :
    c ∈ reuseConflicts r.devices ↔ ∃ kind, (kind = .hostname ∨ kind = .ipv4) ∧ ∃ value,
      2 ≤ (holders observations r kind value).length ∧
        c = reusedConflict observations r kind value := by
  rw [reuseConflicts_eq, List.mem_filterMap]
  constructor
  · rintro ⟨key, hkey, hc⟩
    obtain ⟨⟨d, e⟩, he, rfl⟩ := List.mem_map.mp (mem_sortedSet.mp hkey)
    unfold reusableClaims at he
    simp only [List.mem_flatMap, List.mem_map, List.mem_filter, Bool.or_eq_true,
      decide_eq_true_eq, Prod.mk.injEq] at he
    obtain ⟨d', -, e', ⟨-, hkind⟩, rfl, rfl⟩ := he
    rw [reuseKey, h.groupConflict_eq hinj hkind] at hc
    split at hc
    · next hmany => exact ⟨e'.kind, hkind, e'.value, hmany, (Option.some.inj hc).symm⟩
    · cases hc
  · rintro ⟨kind, hkind, value, hmany, rfl⟩
    refine ⟨toLex (kind.value, value), ?_, by rw [h.groupConflict_eq hinj hkind, if_pos hmany]⟩
    obtain ⟨d, hd⟩ := List.exists_mem_of_length_pos (Nat.zero_lt_two.trans_le hmany)
    obtain ⟨hd, hholds⟩ := List.mem_filter.mp hd
    obtain ⟨e, hmem⟩ := (h.mem_group_iff hkind).mpr ⟨hd, of_decide_eq_true hholds⟩
    obtain ⟨hmem, hkey⟩ := List.mem_filter.mp hmem
    exact mem_sortedSet.mpr (List.mem_map.mpr ⟨(d, e), hmem, of_decide_eq_true hkey⟩)

/-! ## Each report once -/

/-- Two reports that are told apart. -/
def Apart (c c' : CorrelationConflict) : Prop := c.identity ≠ c'.identity

theorem groupConflict_fields {devices : List CanonicalDevice} {key : Str ×ₗ Str}
    {c : CorrelationConflict} (h : groupConflict devices key = some c) :
    c.conflictKind = str "reused_" ++ (ofLex key).1 ∧
      c.key = (ofLex key).1 ++ str ":" ++ (ofLex key).2 := by
  unfold groupConflict at h
  simp only at h
  split at h
  · obtain rfl := Option.some.inj h
    exact ⟨rfl, rfl⟩
  · cases h

theorem reuseConflicts_apart (devices : List CanonicalDevice) :
    (reuseConflicts devices).Pairwise Apart := by
  rw [reuseConflicts_eq]
  refine List.Pairwise.filterMap _ (fun key key' hne c hc c' hc' hsame => hne ?_) (nodup_sortedSet _)
  obtain ⟨hkind, hkey⟩ := groupConflict_fields hc
  obtain ⟨hkind', hkey'⟩ := groupConflict_fields hc'
  obtain ⟨hkinds, hkeys⟩ := Prod.mk.inj hsame
  rw [hkind, hkind'] at hkinds
  have hfirst := List.append_cancel_left hkinds
  have hsecond := (Prod.mk.inj hkeys).1
  rw [hkey, hkey', hfirst] at hsecond
  exact congrArg toLex (Prod.ext hfirst (List.append_cancel_left hsecond))

theorem serialKind_ne : str "conflicting_serial" ≠ str "source_disagreement" := by decide

theorem Accepted.device_apart (h : Accepted rt so observations r) {d : CanonicalDevice}
    (hd : d ∈ r.devices) : (serialConflicts d ++ factConflicts rt so d).Pairwise Apart := by
  refine List.pairwise_append.mpr ⟨?_, ?_, fun c hc c' hc' hsame => ?_⟩
  · unfold serialConflicts
    simp only
    split
    · exact List.pairwise_singleton ..
    · exact .nil
  · rw [factConflicts_eq]
    refine List.Pairwise.filterMap _ (fun field field' hne c hc c' hc' hsame => hne ?_)
      (nodup_sortedSet _)
    rw [← ((h.fieldConflict_spec hd field).1 c hc).key,
      ← ((h.fieldConflict_spec hd field').1 c' hc').key]
    exact (Prod.mk.inj (Prod.mk.inj hsame).2).1
  · obtain ⟨-, rfl⟩ := (h.mem_serialConflicts hd).mp hc
    obtain ⟨field, hdisagrees⟩ := h.mem_factConflicts hd hc'
    have hkind := (Prod.mk.inj hsame).1
    rw [hdisagrees.conflictKind] at hkind
    exact serialKind_ne hkind

/-- The reports about a device carry its key, and no report of a reused value is one of them. -/
theorem Accepted.device_identity (h : Accepted rt so observations r) {d : CanonicalDevice}
    (hd : d ∈ r.devices) {c : CorrelationConflict}
    (hc : c ∈ serialConflicts d ++ factConflicts rt so d) :
    c.canonicalKeys = [d.canonicalKey] ∧
      (c.conflictKind = str "conflicting_serial" ∨ c.conflictKind = str "source_disagreement") := by
  rcases List.mem_append.mp hc with hc | hc
  · obtain ⟨-, rfl⟩ := (h.mem_serialConflicts hd).mp hc
    exact ⟨rfl, .inl rfl⟩
  · obtain ⟨field, hdisagrees⟩ := h.mem_factConflicts hd hc
    exact ⟨hdisagrees.canonicalKeys, .inr hdisagrees.conflictKind⟩

theorem Accepted.conflicts_once (h : Accepted rt so observations r)
    (hinj : DigestInjective rt observations) :
    (r.conflicts.map CorrelationConflict.identity).Nodup := by
  rw [h.conflicts]
  unfold findConflicts
  rw [((sortedBy_perm _ _).map _).nodup_iff]
  refine List.pairwise_map.mpr (List.pairwise_append.mpr
    ⟨reuseConflicts_apart _, List.pairwise_flatMap.mpr ⟨fun d hd => h.device_apart hd, ?_⟩, ?_⟩)
  · refine (List.pairwise_map.mp (h.canonicalKeys_nodup hinj)).imp_of_mem ?_
    intro d d' hd hd' hne c hc c' hc' hsame
    have hkeys := (Prod.mk.inj (Prod.mk.inj hsame).2).2
    rw [(h.device_identity hd hc).1, (h.device_identity hd' hc').1] at hkeys
    exact hne (List.cons.inj hkeys).1
  · intro c hc c' hc' hsame
    obtain ⟨d, hd, hc'⟩ := List.mem_flatMap.mp hc'
    rw [reuseConflicts_eq] at hc
    obtain ⟨key, -, hkey⟩ := List.mem_filterMap.mp hc
    have hkind := (Prod.mk.inj hsame).1
    rw [(groupConflict_fields hkey).1] at hkind
    -- the kinds differ in their first characters
    rcases (h.device_identity hd hc').2 with hkind' | hkind'
    · rw [hkind'] at hkind
      exact absurd (List.cons.inj hkind).1 (by decide)
    · rw [hkind'] at hkind
      exact absurd (List.cons.inj hkind).1 (by decide)

theorem Accepted.mem_conflicts (h : Accepted rt so observations r) {c : CorrelationConflict} :
    c ∈ r.conflicts ↔ c ∈ reuseConflicts r.devices ∨
      ∃ d ∈ r.devices, c ∈ serialConflicts d ∨ c ∈ factConflicts rt so d := by
  rw [h.conflicts]
  unfold findConflicts
  rw [mem_sortedBy, List.mem_append, List.mem_flatMap]
  simp only [List.mem_append]

/-- No report about one device is that of a reused value. -/
theorem Accepted.reused_ne (h : Accepted rt so observations r) {d : CanonicalDevice}
    (hd : d ∈ r.devices) {kind : IdentifierKind} {value : Str} :
    reusedConflict observations r kind value ∉ serialConflicts d ++ factConflicts rt so d := by
  intro hmem
  rcases (h.device_identity hd hmem).2 with hkind | hkind
  · exact absurd (List.cons.inj hkind).1 (by decide)
  · exact absurd (List.cons.inj hkind).1 (by decide)

theorem Accepted.reused_mem_iff (h : Accepted rt so observations r)
    (hinj : DigestInjective rt observations) {kind : IdentifierKind}
    (hkind : kind = .hostname ∨ kind = .ipv4) (value : Str) :
    reusedConflict observations r kind value ∈ r.conflicts ↔
      2 ≤ (holders observations r kind value).length := by
  rw [h.mem_conflicts, h.mem_reuseConflicts hinj]
  constructor
  · rintro (⟨kind', -, value', hmany, hsame⟩ | ⟨d, hd, hc⟩)
    · obtain ⟨hkinds, -, -, hvalues, -⟩ := CorrelationConflict.mk.inj hsame
      obtain rfl := IdentifierKind.value_injective (List.append_cancel_left hkinds)
      obtain rfl := (List.cons.inj hvalues).1
      exact hmany
    · exact absurd (List.mem_append.mpr hc) (h.reused_ne hd)
  · exact fun hmany => .inl ⟨kind, hkind, value, hmany, rfl⟩

/-- A report about a device comes from that device. -/
theorem Accepted.mem_device_conflicts (h : Accepted rt so observations r)
    (hinj : DigestInjective rt observations) {d : CanonicalDevice} (hd : d ∈ r.devices)
    {c : CorrelationConflict} (hkeys : c.canonicalKeys = [d.canonicalKey])
    (hkind : c.conflictKind = str "conflicting_serial" ∨
      c.conflictKind = str "source_disagreement") :
    c ∈ r.conflicts ↔ c ∈ serialConflicts d ∨ c ∈ factConflicts rt so d := by
  rw [h.mem_conflicts]
  constructor
  · rintro (hc | ⟨d', hd', hc⟩)
    · rw [reuseConflicts_eq] at hc
      obtain ⟨key, -, hkey⟩ := List.mem_filterMap.mp hc
      rw [(groupConflict_fields hkey).1] at hkind
      rcases hkind with hkind | hkind
      · exact absurd (List.cons.inj hkind).1 (by decide)
      · exact absurd (List.cons.inj hkind).1 (by decide)
    · have hkeys' := (h.device_identity hd' (List.mem_append.mpr hc)).1
      rw [hkeys] at hkeys'
      obtain rfl := List.inj_on_of_nodup_map (h.canonicalKeys_nodup hinj) hd hd'
        (List.cons.inj hkeys').1
      exact hc
  · exact fun hc => .inr ⟨d, hd, hc⟩

end Accepted

/-- `correlate` reports exactly the reused values, the conflicting serials and the disagreements. -/
theorem conflicts_exact {rt : Runtime} {so : SetOrder} {observations : List DeviceObservation}
    {r : CorrelationResult} (hinj : DigestInjective rt observations)
    (h : correlate rt so observations = .ok r) : ReportsExactly observations r := by
  have hacc := correlate_accepted h
  constructor
  case reused => exact fun kind hkind value => hacc.reused_mem_iff hinj hkind value
  case once => exact hacc.conflicts_once hinj
  case serial =>
    intro d hd
    rw [hacc.mem_device_conflicts hinj hd rfl (.inl rfl), hacc.mem_serialConflicts hd]
    refine ⟨fun hc => ?_, fun hmany => .inl ⟨hmany, rfl⟩⟩
    rcases hc with ⟨hmany, -⟩ | hc
    · exact hmany
    · obtain ⟨field, hdisagrees⟩ := hacc.mem_factConflicts hd hc
      exact absurd hdisagrees.conflictKind serialKind_ne
  case disagreement =>
    intro d hd field
    rw [← hacc.exists_factConflict hd field]
    refine exists_congr fun c => and_congr_left fun hdisagrees => ?_
    rw [hacc.mem_device_conflicts hinj hd hdisagrees.canonicalKeys (.inr hdisagrees.conflictKind)]
    refine or_iff_right fun hc => ?_
    obtain ⟨-, rfl⟩ := (hacc.mem_serialConflicts hd).mp hc
    exact absurd hdisagrees.conflictKind serialKind_ne
  case nothingElse =>
    intro c hc
    rcases hacc.mem_conflicts.mp hc with hc | ⟨d, hd, hc | hc⟩
    · obtain ⟨kind, hkind, value, -, rfl⟩ := (hacc.mem_reuseConflicts hinj).mp hc
      exact .inl ⟨kind, hkind, value, rfl⟩
    · exact .inr (.inl ⟨d, hd, ((hacc.mem_serialConflicts hd).mp hc).2⟩)
    · exact .inr (.inr ⟨d, hd, hacc.mem_factConflicts hd hc⟩)

/-- The hostname of the sample is on two devices. -/
theorem conflicts_exact_sample : ∃ r,
    correlate Sample.runtime .insertion [Sample.c, Sample.b, Sample.a] = .ok r ∧
      reusedConflict [Sample.c, Sample.b, Sample.a] r .hostname (str "printer") ∈ r.conflicts := by
  have hholders : (correlate Sample.runtime .insertion
      [Sample.c, Sample.b, Sample.a]).toOption.map (fun r =>
        (holders [Sample.c, Sample.b, Sample.a] r .hostname (str "printer")).length) = some 2 := by
    decide +kernel
  obtain ⟨r, h, htwo⟩ := Option.map_eq_some_iff.mp hholders
  have hrun := Except.toOption_eq_some.mp h
  exact ⟨r, hrun, ((conflicts_exact Sample.digestInjective hrun).reused .hostname (.inl rfl)
    (str "printer")).mpr htwo.ge⟩

end FieldDiscovery.Correlation
