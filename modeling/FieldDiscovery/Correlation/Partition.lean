import FieldDiscovery.Lib.Except
import FieldDiscovery.Correlation.Merge

/-!
# The partition into devices

The abstract account of correlation: observations that hold one stable key are linked, and devices
are the classes of the closure. `correlate_iff_linked` says that the algorithm computes it, and
`correlate_noninterference` that nothing else about a batch has a say.
-/

namespace FieldDiscovery.Correlation

open Py UnionFind

/-! ## The specification -/

/-- `o` holds `key` with confidence at least `0.8`, as an identifier of a stable kind or as the
MAC address of one of its interfaces. -/
def HoldsStable (o : DeviceObservation) (key : Str) : Prop :=
  (∃ e ∈ o.identifiers, e.kind ∈ [IdentifierKind.mac, .serial, .sourceId] ∧
    mergeThreshold ≤ e.confidence ∧ e.kind.value ++ str ":" ++ e.value = key) ∨
  (∃ i ∈ o.interfaces, ∃ mac, i.macAddress = some mac ∧
    mergeThreshold ≤ i.confidence ∧ str "mac:" ++ mac.val = key)

/-- Two observations of the batch hold a common stable key. -/
def SharesStable (observations : List DeviceObservation) (a b : DeviceObservation) : Prop :=
  a ∈ observations ∧ b ∈ observations ∧ ∃ key, HoldsStable a key ∧ HoldsStable b key

/-- A finite chain of observations, each sharing a stable key with the next. -/
def Linked (observations : List DeviceObservation) : DeviceObservation → DeviceObservation → Prop :=
  Relation.ReflTransGen (SharesStable observations)

/-- Two observation IDs stand in one device of the result. -/
def SameDevice (r : CorrelationResult) (x y : Str) : Prop :=
  ∃ d ∈ r.devices, x ∈ d.observationIds ∧ y ∈ d.observationIds

theorem holdsStable_iff {o : DeviceObservation} {key : Str} :
    HoldsStable o key ↔ ∃ e ∈ o.carried, e.merges = true ∧ e.key = key := by
  have hstable : ∀ k : IdentifierKind,
      k ∈ [IdentifierKind.mac, .serial, .sourceId] ↔ k.isStable = true := by
    intro k
    cases k <;> simp [IdentifierKind.isStable]
  unfold HoldsStable DeviceObservation.carried IdentityEvidence.merges IdentityEvidence.key
  simp only [hstable, List.mem_append, List.mem_filterMap, Bool.and_eq_true, decide_eq_true_eq]
  constructor
  · rintro (⟨e, he, hk, hc, rfl⟩ | ⟨i, hi, mac, hmac, hc, rfl⟩)
    · exact ⟨e, Or.inl he, ⟨hk, hc⟩, rfl⟩
    · have hid := congrArg (Option.map fun mac : Mac =>
        ({ kind := .mac, value := mac.val, source := i.source, observedAt := i.observedAt,
           confidence := i.confidence, idNamespace := none } : IdentityEvidence)) hmac
      exact ⟨_, Or.inr ⟨i, hi, hid⟩, ⟨rfl, hc⟩, rfl⟩
  · rintro ⟨e, he | ⟨i, hi, hie⟩, ⟨hk, hc⟩, rfl⟩
    · exact Or.inl ⟨e, he, hk, hc, rfl⟩
    · obtain ⟨mac, hmac, rfl⟩ := Option.map_eq_some_iff.mp hie
      exact Or.inr ⟨i, hi, mac, hmac, hc, rfl⟩

theorem SharesStable.symm {observations : List DeviceObservation} {a b : DeviceObservation}
    (h : SharesStable observations a b) : SharesStable observations b a := by
  obtain ⟨ha, hb, key, hka, hkb⟩ := h
  exact ⟨hb, ha, key, hkb, hka⟩

/-! ## The stages of an accepted batch -/

theorem firstDuplicate_eq_none {ids : List Str} : firstDuplicate ids = none ↔ ids.Nodup := by
  induction ids with
  | nil => simp [firstDuplicate]
  | cons id ids ih =>
    unfold firstDuplicate
    split
    · next h => simp [h]
    · next h => simp [h, ih]

theorem ordered_perm (observations : List DeviceObservation) :
    (ordered observations).Perm observations := sortedBy_perm _ _

@[simp] theorem mem_ordered {observations : List DeviceObservation} {o : DeviceObservation} :
    o ∈ ordered observations ↔ o ∈ observations := mem_sortedBy

/-- The registered observation IDs. -/
def registered (observations : List DeviceObservation) : Finset Str :=
  ((ordered observations).map DeviceObservation.id).toFinset

theorem mem_registered {observations : List DeviceObservation} {x : Str} :
    x ∈ registered observations ↔ ∃ o ∈ observations, o.id = x := by
  simp [registered]

theorem card_registered_le (observations : List DeviceObservation) :
    (registered observations).card ≤ (ordered observations).length := by
  have := List.toFinset_card_le ((ordered observations).map DeviceObservation.id)
  rwa [List.length_map] at this

/-- The merge loop ends in its invariant, with every pair of the index processed. -/
theorem merge_spec (observations : List DeviceObservation) :
    MergeInvariant (registered observations) (stableClaims (ordered observations))
      ((sortedBy Prod.fst (stableIndex (ordered observations))).flatMap keyPairs)
      (merge (ordered observations)) := by
  refine mergeKeys_spec (card_registered_le observations) ?_
    (MergeInvariant.init (registered observations) _) ?_
  · intro c hc
    obtain ⟨o, ho, hid, -⟩ := mem_stableClaims.mp hc
    exact mem_registered.mpr ⟨o, mem_ordered.mp ho, hid.symm⟩
  · intro entry hentry c hc
    rw [groupBy_group (mem_sortedBy.mp hentry), List.mem_filter, decide_eq_true_eq] at hc
    exact hc

/-- The root of an observation after the merge loop. -/
def finalRoot (observations : List DeviceObservation) (o : DeviceObservation) : Str :=
  rootOf (registered observations) (merge (ordered observations)).parent o.id

theorem groupLoop_eq {s : Finset Str} {fuel : Nat} (hfuel : s.card ≤ fuel) {p : Str → Str}
    (h : Forest s p) {l : List DeviceObservation} (hl : ∀ o ∈ l, o.id ∈ s) :
    groupLoop fuel p l = l.map fun o => (rootOf s p o.id, o) := by
  induction l generalizing p with
  | nil => rfl
  | cons o l ih =>
    obtain ⟨hf, hr, he⟩ := find_spec_card h (hl o List.mem_cons_self) hfuel
    simp only [groupLoop, List.map_cons, he,
      ih hf fun o' ho' => hl o' (List.mem_cons_of_mem _ ho'), hr]

/-- The groups are the observations by root, each group in the order of the IDs. -/
theorem groups_eq (observations : List DeviceObservation) :
    groups (ordered observations) (merge (ordered observations)) =
      (groupBy (finalRoot observations) (ordered observations)).map Prod.snd := by
  have hmem : ∀ o ∈ ordered observations, o.id ∈ registered observations :=
    fun o ho => mem_registered.mpr ⟨o, mem_ordered.mp ho, rfl⟩
  unfold groups
  rw [groupLoop_eq (card_registered_le observations) (merge_spec observations).forest hmem,
    groupBy_map, List.map_map]
  refine List.map_congr_left fun p hp => ?_
  simp only [Function.comp_apply, List.map_map]
  have hid : (Prod.snd ∘ fun o : DeviceObservation => (rootOf (registered observations)
      (merge (ordered observations)).parent o.id, o)) = id := rfl
  rw [hid, List.map_id]
  refine sortedBy_eq_self ?_
  rw [groupBy_group hp]
  exact (pairwise_sortedBy _ _).filter _

/-- What `correlate` returned, stage by stage. -/
structure Accepted (rt : Runtime) (so : SetOrder) (observations : List DeviceObservation)
    (r : CorrelationResult) : Prop where
  distinct : (observations.map DeviceObservation.id).Nodup
  devices : ∃ devices, List.Forall₂ (fun p d => device rt (merge (ordered observations)).decisions
      p.2 = .ok d) (groupBy (finalRoot observations) (ordered observations)) devices ∧
    r.devices = sortedBy CanonicalDevice.canonicalKey devices
  decisions : r.decisions = sortedBy (fun d : CorrelationDecision =>
    toLex (d.evidenceKey, d.leftObservationId)) (merge (ordered observations)).decisions
  conflicts : r.conflicts = findConflicts rt so r.devices

section Accepted

variable {rt : Runtime} {so : SetOrder} {observations : List DeviceObservation}
  {r : CorrelationResult}

theorem correlate_accepted (h : correlate rt so observations = .ok r) :
    Accepted rt so observations r := by
  unfold correlate at h
  simp only at h
  split at h
  · cases h
  · next hdup =>
    obtain ⟨devices, hdevices, h⟩ := Except.bind_eq_ok.mp h
    cases h
    rw [firstDuplicate_eq_none] at hdup
    rw [groups_eq, Except.mapM_eq_ok, List.forall₂_map_left_iff] at hdevices
    exact ⟨((ordered_perm observations).map _).nodup_iff.mp hdup, ⟨devices, hdevices, rfl⟩, rfl, rfl⟩

/-- The devices do not depend on the order in which sets iterate. -/
theorem correlate_devices {rt : Runtime} {so : SetOrder} {observations : List DeviceObservation}
    {result : CorrelationResult} (h : correlate rt so observations = .ok result) (so' : SetOrder) :
    ∃ result', correlate rt so' observations = .ok result' ∧ result'.devices = result.devices := by
  unfold correlate at h ⊢
  simp only at h ⊢
  split at h
  · cases h
  · obtain ⟨devices, hdevices, h⟩ := Except.bind_eq_ok.mp h
    cases h
    rw [hdevices]
    exact ⟨_, rfl, rfl⟩

/-- The fields of a device that do not depend on the digest. -/
theorem device_fields {decisions : List CorrelationDecision} {members : List DeviceObservation}
    {d : CanonicalDevice} (h : device rt decisions members = .ok d) :
    canonicalKey rt members = .ok d.canonicalKey ∧
      d.observationIds = members.map DeviceObservation.id ∧
      d.identifiers = sortedBy identitySortKey (members.flatMap allIdentifiers) := by
  obtain ⟨key, hkey, h⟩ := Except.bind_eq_ok.mp h
  cases h
  exact ⟨hkey, rfl, rfl⟩

/-- The evidence of a device, sorted by the keys of its kinds. -/
theorem device_evidence {decisions : List CorrelationDecision} {members : List DeviceObservation}
    {d : CanonicalDevice} (h : device rt decisions members = .ok d) :
    d.interfaces = sortedBy interfaceSortKey (members.flatMap DeviceObservation.interfaces) ∧
      d.facts = sortedBy (factSortKey rt) (members.flatMap DeviceObservation.facts) := by
  obtain ⟨key, -, h⟩ := Except.bind_eq_ok.mp h
  cases h
  exact ⟨rfl, rfl⟩

/-- The members of the device with a given root. -/
def membersOf (observations : List DeviceObservation) (root : Str) : List DeviceObservation :=
  (ordered observations).filter (finalRoot observations · = root)

theorem mem_membersOf {root : Str} {o : DeviceObservation} :
    o ∈ membersOf observations root ↔ o ∈ observations ∧ finalRoot observations o = root := by
  simp [membersOf]

/-- Every device is made of the members of one root. -/
theorem Accepted.exists_root (h : Accepted rt so observations r) {d : CanonicalDevice}
    (hd : d ∈ r.devices) : ∃ o ∈ observations,
      device rt (merge (ordered observations)).decisions
        (membersOf observations (finalRoot observations o)) = .ok d := by
  obtain ⟨devices, hall, hr⟩ := h.devices
  rw [hr, mem_sortedBy] at hd
  obtain ⟨p, hp, hdev⟩ := hall.exists_of_mem_right hd
  obtain ⟨hkey, hgroup⟩ := mem_groupBy.mp hp
  obtain ⟨o, ho, hroot⟩ := List.mem_map.mp hkey
  exact ⟨o, mem_ordered.mp ho, by rw [← hdev, hgroup, membersOf, hroot]⟩

/-- Every observation is a member of the device of its root. -/
theorem Accepted.exists_device (h : Accepted rt so observations r) {o : DeviceObservation}
    (ho : o ∈ observations) : ∃ d ∈ r.devices,
      device rt (merge (ordered observations)).decisions
        (membersOf observations (finalRoot observations o)) = .ok d := by
  obtain ⟨devices, hall, hr⟩ := h.devices
  obtain ⟨d, hd, hdev⟩ := hall.exists_of_mem_left (mem_groupBy.mpr
    ⟨List.mem_map_of_mem (mem_ordered.mpr ho), rfl⟩ :
      (finalRoot observations o, membersOf observations (finalRoot observations o)) ∈ _)
  exact ⟨d, hr ▸ mem_sortedBy.mpr hd, hdev⟩

theorem eq_of_id_eq (hnd : (observations.map DeviceObservation.id).Nodup)
    {a b : DeviceObservation} (ha : a ∈ observations) (hb : b ∈ observations)
    (hab : a.id = b.id) : a = b := List.inj_on_of_nodup_map hnd ha hb hab

/-- An observation stands in one device. -/
theorem Accepted.existsUnique_device (h : Accepted rt so observations r) {o : DeviceObservation}
    (ho : o ∈ observations) : ∃ d ∈ r.devices, o.id ∈ d.observationIds ∧
      ∀ d' ∈ r.devices, o.id ∈ d'.observationIds → d' = d := by
  obtain ⟨d, hd, hdevice⟩ := h.exists_device ho
  refine ⟨d, hd, ?_, fun d' hd' hmem => ?_⟩
  · rw [(device_fields hdevice).2.1]
    exact List.mem_map_of_mem (mem_membersOf.mpr ⟨ho, rfl⟩)
  · obtain ⟨o', ho', hdevice'⟩ := h.exists_root hd'
    rw [(device_fields hdevice').2.1] at hmem
    obtain ⟨o'', ho'', hid⟩ := List.mem_map.mp hmem
    obtain ⟨hmem'', hroot⟩ := mem_membersOf.mp ho''
    obtain rfl := eq_of_id_eq h.distinct hmem'' ho hid
    rw [← hroot, hdevice] at hdevice'
    exact (Except.ok.inj hdevice').symm

/-- Two devices of one observation are one. -/
theorem Accepted.device_unique (h : Accepted rt so observations r) {d d' : CanonicalDevice}
    (hd : d ∈ r.devices) (hd' : d' ∈ r.devices) {x : Str} (hx : x ∈ d.observationIds)
    (hx' : x ∈ d'.observationIds) : d = d' := by
  obtain ⟨o, -, hdevice⟩ := h.exists_root hd
  have hmembers := hx
  rw [(device_fields hdevice).2.1] at hmembers
  obtain ⟨o', ho', rfl⟩ := List.mem_map.mp hmembers
  obtain ⟨c, -, -, hunique⟩ := h.existsUnique_device (mem_membersOf.mp ho').1
  exact (hunique d hd hx).trans (hunique d' hd' hx').symm

/-- Devices read as the classes of the parent table. -/
theorem Accepted.sameDevice_iff_root (h : Accepted rt so observations r)
    {a b : DeviceObservation} (ha : a ∈ observations) (hb : b ∈ observations) :
    SameDevice r a.id b.id ↔ finalRoot observations a = finalRoot observations b := by
  constructor
  · rintro ⟨d, hd, had, hbd⟩
    obtain ⟨o, -, hdev⟩ := h.exists_root hd
    have hmem : ∀ c ∈ observations, c.id ∈ d.observationIds →
        finalRoot observations c = finalRoot observations o := by
      intro c hc hcd
      rw [(device_fields hdev).2.1] at hcd
      obtain ⟨c', hc', hid⟩ := List.mem_map.mp hcd
      obtain ⟨hc'mem, hroot⟩ := mem_membersOf.mp hc'
      exact eq_of_id_eq h.distinct hc'mem hc hid ▸ hroot
    exact (hmem a ha had).trans (hmem b hb hbd).symm
  · intro hroot
    obtain ⟨d, hd, hdev⟩ := h.exists_device ha
    have hids := (device_fields hdev).2.1
    refine ⟨d, hd, ?_, ?_⟩ <;> rw [hids]
    · exact List.mem_map_of_mem (mem_membersOf.mpr ⟨ha, rfl⟩)
    · exact List.mem_map_of_mem (mem_membersOf.mpr ⟨hb, hroot.symm⟩)

end Accepted

/-! ## From claims to chains -/

section Linked

variable {observations : List DeviceObservation}

theorem linked_equivalence : Equivalence (Linked observations) where
  refl _ := .refl
  symm h := by
    induction h with
    | refl => exact .refl
    | tail _ hs ih => exact .head hs.symm ih
  trans h h' := h.trans h'

/-- Chains of claims on IDs are chains of observations. -/
theorem eqvGen_claims_iff (hnd : (observations.map DeviceObservation.id).Nodup)
    {a b : DeviceObservation} (ha : a ∈ observations) (hb : b ∈ observations) :
    Relation.EqvGen (fun x y => ∃ e e', (x, e) ∈ stableClaims (ordered observations) ∧
      (y, e') ∈ stableClaims (ordered observations) ∧ e.key = e'.key) a.id b.id ↔
      Linked observations a b := by
  have hequiv : Equivalence (Linked observations) := linked_equivalence
  constructor
  · intro h
    -- the two ends of a chain of claims are one ID, or IDs of linked observations
    have hends : a.id = b.id ∨ ∃ a' ∈ observations, ∃ b' ∈ observations,
        a'.id = a.id ∧ b'.id = b.id ∧ Linked observations a' b' := by
      generalize a.id = x at h
      generalize b.id = y at h
      induction h with
      | refl => exact Or.inl rfl
      | symm _ _ _ ih =>
        rcases ih with rfl | ⟨a', ha', b', hb', rfl, rfl, hl⟩
        · exact Or.inl rfl
        · exact Or.inr ⟨b', hb', a', ha', rfl, rfl, hequiv.symm hl⟩
      | trans _ _ _ _ _ ih₁ ih₂ =>
        rcases ih₁ with rfl | ⟨a', ha', b', hb', rfl, rfl, hl⟩
        · exact ih₂
        · rcases ih₂ with rfl | ⟨b'', hb'', c', hc', hbb, rfl, hl'⟩
          · exact Or.inr ⟨a', ha', b', hb', rfl, rfl, hl⟩
          · obtain rfl := eq_of_id_eq hnd hb'' hb' hbb
            exact Or.inr ⟨a', ha', c', hc', rfl, rfl, hequiv.trans hl hl'⟩
      | rel x y hxy =>
        obtain ⟨e, e', he, he', hkey⟩ := hxy
        obtain ⟨a', ha', hx, hea, hem⟩ := mem_stableClaims.mp he
        obtain ⟨b', hb', hy, heb, hem'⟩ := mem_stableClaims.mp he'
        rw [mem_ordered] at ha' hb'
        exact Or.inr ⟨a', ha', b', hb', hx.symm, hy.symm, .single ⟨ha', hb', e.key,
          holdsStable_iff.mpr ⟨e, hea, hem, rfl⟩, holdsStable_iff.mpr ⟨e', heb, hem', hkey.symm⟩⟩⟩
    rcases hends with hid | ⟨a', ha', b', hb', hida, hidb, hl⟩
    · obtain rfl := eq_of_id_eq hnd ha hb hid
      exact .refl
    · obtain rfl := eq_of_id_eq hnd ha' ha hida
      obtain rfl := eq_of_id_eq hnd hb' hb hidb
      exact hl
  · intro h
    clear hb
    induction h with
    | refl => exact .refl _
    | tail _ hs ih =>
      obtain ⟨hb', hc, key, hkb, hkc⟩ := hs
      obtain ⟨e, he, hem, hek⟩ := holdsStable_iff.mp hkb
      obtain ⟨e', he', hem', hek'⟩ := holdsStable_iff.mp hkc
      refine ih.trans _ _ _ (.rel _ _ ⟨e, e', ?_, ?_, hek.trans hek'.symm⟩)
      · exact mem_stableClaims.mpr ⟨_, mem_ordered.mpr hb', rfl, he, hem⟩
      · exact mem_stableClaims.mpr ⟨_, mem_ordered.mpr hc, rfl, he', hem'⟩

/-- The parent table computes the closure. -/
theorem finalRoot_eq_iff_linked (hnd : (observations.map DeviceObservation.id).Nodup)
    {a b : DeviceObservation} (ha : a ∈ observations) (hb : b ∈ observations) :
    finalRoot observations a = finalRoot observations b ↔ Linked observations a b := by
  rw [← eqvGen_claims_iff hnd ha hb, ← merged_keyPairs]
  exact (merge_spec observations).classes a.id b.id

end Linked

/-- Devices are the classes of the closure. -/
theorem Accepted.sameDevice_iff {rt : Runtime} {so : SetOrder}
    {observations : List DeviceObservation} {r : CorrelationResult}
    (h : Accepted rt so observations r) {a b : DeviceObservation} (ha : a ∈ observations)
    (hb : b ∈ observations) : SameDevice r a.id b.id ↔ Linked observations a b :=
  (h.sameDevice_iff_root ha hb).trans (finalRoot_eq_iff_linked h.distinct ha hb)

/-- Batches that agree on their stable keys have the same chains. -/
theorem Linked.of_agree {observations observations' : List DeviceObservation}
    (hagree : List.Forall₂ (fun o o' => o.id = o'.id ∧ ∀ key, HoldsStable o key ↔ HoldsStable o' key)
      observations observations')
    (hnd : (observations'.map DeviceObservation.id).Nodup) {a b a' b' : DeviceObservation}
    (h : Linked observations a b) (ha' : a' ∈ observations') (hb' : b' ∈ observations')
    (haa : a.id = a'.id) (hbb : b.id = b'.id) : Linked observations' a' b' := by
  induction h generalizing b' with
  | refl =>
    obtain rfl := eq_of_id_eq hnd ha' hb' (haa.symm.trans hbb)
    exact .refl
  | tail _ hs ih =>
    obtain ⟨hb, hc, key, hkb, hkc⟩ := hs
    obtain ⟨m', hm', hid, hkey⟩ := hagree.exists_of_mem_left hb
    obtain ⟨c', hc', hid', hkey'⟩ := hagree.exists_of_mem_left hc
    obtain rfl := eq_of_id_eq hnd hc' hb' (hid'.symm.trans hbb)
    exact .tail (ih hm' hid) ⟨hm', hc', key, (hkey key).mp hkb, (hkey' key).mp hkc⟩

/-! ## A batch of three observations

`a` and `b` share a MAC address, once as an identifier and once on an interface; `b` and `c` share
only a hostname. -/

namespace Sample

/-- The digests of the seeds of the batch. -/
def runtime : Runtime := Runtime.ofDigests
  [(str "mac:00:11:22:33:44:55",
      str "53733656becd61048eda031305dc920df45490498b61806d21cbc78c0d8ab72a"),
    (str "observation:a",
      str "a19a02aac7fe70cd916fbcaec4d5201ba828518fe1b3d45a7b9e6a74c026333e"),
    (str "observation:b",
      str "c0a029deef9e698b3e75c16e26be7637c13df0b1a9d33136eedbac20dbdd8383"),
    (str "observation:c",
      str "d16a2176dc0aea70387243013f8513bf72e7f859bc7b7aaf501b1e5a45f7d827")]

def observedAt : Datetime := ⟨63000000000000000, 0, sample_inCalendar, zero_offset⟩

def source : BoundedText 128 := ⟨str "snmp", by decide⟩

def mac : Mac := ⟨str "00:11:22:33:44:55", by decide⟩

def evidence (kind : IdentifierKind) (value : Str) : IdentityEvidence :=
  { kind, value, source, observedAt, confidence := ⟨1, one_isConfidence⟩
    idNamespace := none }

def a : DeviceObservation :=
  { observationId := ⟨str "a", isText_a⟩, source, observedAt
    identifiers := [evidence .mac mac.val], interfaces := [], facts := [] }

def b : DeviceObservation :=
  { observationId := ⟨str "b", by decide⟩, source, observedAt
    identifiers := [evidence .hostname (str "printer")]
    interfaces :=
      [{ interfaceKey := ⟨str "eth0", by decide⟩, source, observedAt, name := none
         macAddress := some mac, confidence := ⟨1, one_isConfidence⟩ }]
    facts := [] }

def c : DeviceObservation :=
  { observationId := ⟨str "c", by decide⟩, source, observedAt
    identifiers := [evidence .hostname (str "printer")], interfaces := [], facts := [] }

/-- An observation with several identifiers, interfaces and facts; two sources name its system. -/
def rich : DeviceObservation :=
  { observationId := ⟨str "d", by decide⟩, source, observedAt
    identifiers := [evidence .mac mac.val, evidence .hostname (str "printer")]
    interfaces :=
      [{ interfaceKey := ⟨str "eth0", by decide⟩, source, observedAt, name := none
         macAddress := some mac, confidence := ⟨1, one_isConfidence⟩ },
       { interfaceKey := ⟨str "eth1", by decide⟩, source, observedAt, name := none
         macAddress := none, confidence := ⟨1, one_isConfidence⟩ }]
    facts :=
      [{ field := str "os_guess", value := ⟨str "Linux", by decide⟩, source, observedAt
         confidence := defaultConfidence },
       { field := str "os_guess", value := ⟨str "FreeBSD", by decide⟩, source := ⟨str "nmap", by decide⟩
         observedAt, confidence := defaultConfidence },
       { field := str "model", value := ⟨str "X1", by decide⟩, source, observedAt
         confidence := defaultConfidence }] }

end Sample

/-! ## Main theorem -/

/-- Two observations of an accepted batch end in one device exactly when a chain of shared stable
keys links them; and whatever else two batches differ in (hostnames, addresses, weak identifiers,
facts), equal stable keys give the same partition. -/
theorem correlate_iff_linked (rt : Runtime) (so : SetOrder) {observations : List DeviceObservation}
    {r : CorrelationResult} (h : correlate rt so observations = .ok r) :
    (∀ a ∈ observations, ∀ b ∈ observations,
      SameDevice r a.id b.id ↔ Linked observations a b) ∧
    ∀ (so' : SetOrder) (observations' : List DeviceObservation) (r' : CorrelationResult),
      correlate rt so' observations' = .ok r' →
      List.Forall₂ (fun o o' => o.id = o'.id ∧ ∀ key, HoldsStable o key ↔ HoldsStable o' key)
        observations observations' →
      ∀ a ∈ observations, ∀ b ∈ observations, SameDevice r a.id b.id ↔ SameDevice r' a.id b.id := by
  have hacc := correlate_accepted h
  refine ⟨fun a ha b hb => hacc.sameDevice_iff ha hb, ?_⟩
  intro so' observations' r' h' hagree a ha b hb
  have hacc' := correlate_accepted h'
  obtain ⟨a', ha', haa, hka⟩ := hagree.exists_of_mem_left ha
  obtain ⟨b', hb', hbb, hkb⟩ := hagree.exists_of_mem_left hb
  rw [hacc.sameDevice_iff ha hb, haa, hbb, hacc'.sameDevice_iff ha' hb']
  constructor
  · exact fun hl => hl.of_agree hagree hacc'.distinct ha' hb' haa hbb
  · intro hl
    refine hl.of_agree ?_ hacc.distinct ha hb haa.symm hbb.symm
    exact hagree.flip.imp fun _ _ hoo => ⟨hoo.1.symm, fun key => (hoo.2 key).symm⟩

theorem correlate_iff_linked_sample :
    ∃ r, correlate Sample.runtime .insertion [Sample.c, Sample.b, Sample.a] = .ok r ∧
      SameDevice r (str "a") (str "b") ∧ ¬ SameDevice r (str "b") (str "c") := by
  obtain ⟨r, h⟩ := Except.exists_of_isOk (by decide +kernel :
    (correlate Sample.runtime .insertion [Sample.c, Sample.b, Sample.a]).isOk = true)
  have hiff := (correlate_iff_linked Sample.runtime .insertion h).1
  have ha : HoldsStable Sample.a (str "mac:00:11:22:33:44:55") :=
    holdsStable_iff.mpr ⟨_, List.mem_cons_self, by decide +kernel, by decide⟩
  have hb : HoldsStable Sample.b (str "mac:00:11:22:33:44:55") :=
    holdsStable_iff.mpr ⟨_, List.mem_cons_of_mem _ List.mem_cons_self, by decide +kernel, by decide⟩
  have hc : ∀ key, ¬ HoldsStable Sample.c key := by
    rintro key (⟨e, he, hk, -⟩ | ⟨i, hi, -⟩)
    · rw [List.mem_singleton.mp he] at hk
      exact absurd hk (by decide)
    · exact absurd hi List.not_mem_nil
  refine ⟨r, h, ?_, ?_⟩
  · exact (hiff Sample.a (by simp) Sample.b (by simp)).mpr (.single ⟨by simp, by simp, _, ha, hb⟩)
  · intro hsame
    have hlinked := (hiff Sample.b (by simp) Sample.c (by simp)).mp hsame
    rcases hlinked.cases_tail with heq | ⟨m, -, -, -, key, -, hkey⟩
    · exact absurd (congrArg DeviceObservation.id heq) (by decide)
    · exact hc key hkey

end FieldDiscovery.Correlation
