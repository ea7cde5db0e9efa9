import FieldDiscovery.Correlation.Partition

/-!
# Nothing is lost or duplicated

The accounting of an accepted batch: observations, identifiers, decisions and canonical keys.

The canonical key of a device hashes a seed that is either a stable key its members hold or the ID
of its first member. Two devices share no seed: a common stable key would have merged them, a
common ID is one observation, and no stable key looks like `observation:…`.
-/

namespace FieldDiscovery.Correlation

open Py UnionFind

/-! ## Seeds of canonical keys -/

/-- What `_canonical_key` may hash for a batch. -/
def IsSeed (observations : List DeviceObservation) (seed : Str) : Prop :=
  ∃ o ∈ observations, HoldsStable o seed ∨ seed = str "observation:" ++ o.id

/-- The first twenty hexadecimal digits of SHA-256 tell the seeds of the batch apart. -/
def DigestInjective (rt : Runtime) (observations : List DeviceObservation) : Prop :=
  Set.InjOn (fun data => (rt.sha256 data).take 20)
    {data | ∃ seed, IsSeed observations seed ∧ encodeUtf8 seed = some data}

theorem HoldsStable.ne_observation {o : DeviceObservation} {key id : Str}
    (h : HoldsStable o key) : key ≠ str "observation:" ++ id := by
  obtain ⟨e, -, hm, rfl⟩ := holdsStable_iff.mp h
  intro heq
  unfold IdentityEvidence.merges at hm
  unfold IdentityEvidence.key at heq
  -- the two strings differ in their first character
  cases hk : e.kind <;> rw [hk] at hm heq
  · exact absurd (List.cons.inj heq).1 (by decide)
  · exact absurd (List.cons.inj heq).1 (by decide)
  · exact absurd (List.cons.inj heq).1 (by decide)
  · simp [IdentifierKind.isStable] at hm
  · simp [IdentifierKind.isStable] at hm

/-- The seed of a device: a stable key of a member, or the ID of its first member when no member
holds a stable key. -/
theorem canonicalSeed_cases {o : DeviceObservation} {members : List DeviceObservation}
    (ho : o ∈ members) :
    (∃ m ∈ members, HoldsStable m (canonicalSeed members)) ∨
      ∃ m ∈ members, canonicalSeed members = str "observation:" ++ m.id := by
  have hstable : ∀ key ∈ sortedSet (((members.flatMap allIdentifiers).filter (·.merges)).map
      IdentityEvidence.key), ∃ m ∈ members, HoldsStable m key := by
    intro key hkey
    obtain ⟨e, he, rfl⟩ := List.mem_map.mp (mem_sortedSet.mp hkey)
    obtain ⟨he, hm⟩ := List.mem_filter.mp he
    obtain ⟨m, hmem, hem⟩ := List.mem_flatMap.mp he
    exact ⟨m, hmem, holdsStable_iff.mpr ⟨e, mem_sortedBy.mp hem, hm, rfl⟩⟩
  unfold canonicalSeed
  simp only
  split
  · next key _ hs => exact Or.inl (hstable key (hs ▸ List.mem_cons_self))
  · next m _ _ => exact Or.inr ⟨m, List.mem_cons_self, rfl⟩
  · exact absurd ho List.not_mem_nil

section Accepted

variable {rt : Runtime} {so : SetOrder} {observations : List DeviceObservation}
  {r : CorrelationResult}

theorem Accepted.isSeed {o : DeviceObservation} (ho : o ∈ observations) :
    IsSeed observations (canonicalSeed (membersOf observations (finalRoot observations o))) := by
  rcases canonicalSeed_cases (mem_membersOf.mpr ⟨ho, rfl⟩) with ⟨m, hm, hs⟩ | ⟨m, hm, hs⟩
  · exact ⟨m, (mem_membersOf.mp hm).1, Or.inl hs⟩
  · exact ⟨m, (mem_membersOf.mp hm).1, Or.inr hs⟩

/-- Equal seeds belong to one class. -/
theorem Accepted.root_eq_of_seed_eq (h : Accepted rt so observations r)
    {o o' : DeviceObservation} (ho : o ∈ observations) (ho' : o' ∈ observations)
    (hseed : canonicalSeed (membersOf observations (finalRoot observations o)) =
      canonicalSeed (membersOf observations (finalRoot observations o'))) :
    finalRoot observations o = finalRoot observations o' := by
  have hlink : ∀ {m m' : DeviceObservation} {key : Str}, m ∈ observations → m' ∈ observations →
      HoldsStable m key → HoldsStable m' key →
      finalRoot observations m = finalRoot observations m' := by
    intro m m' key hm hm' hk hk'
    exact (finalRoot_eq_iff_linked h.distinct hm hm').mpr (.single ⟨hm, hm', key, hk, hk'⟩)
  rcases canonicalSeed_cases (mem_membersOf.mpr ⟨ho, rfl⟩) with ⟨m, hm, hs⟩ | ⟨m, hm, hs⟩ <;>
  rcases canonicalSeed_cases (mem_membersOf.mpr ⟨ho', rfl⟩) with ⟨m', hm', hs'⟩ | ⟨m', hm', hs'⟩ <;>
  obtain ⟨hmem, hroot⟩ := mem_membersOf.mp hm <;>
  obtain ⟨hmem', hroot'⟩ := mem_membersOf.mp hm'
  · rw [← hroot, ← hroot']
    exact hlink hmem hmem' hs (hseed ▸ hs')
  · exact absurd (hseed.trans hs') hs.ne_observation
  · exact absurd (hseed.symm.trans hs) hs'.ne_observation
  · have hid : m.id = m'.id := List.append_cancel_left (hs.symm.trans (hseed.trans hs'))
    obtain rfl := eq_of_id_eq h.distinct hmem hmem' hid
    exact hroot.symm.trans hroot'

/-! ## Devices and groups -/

/-- Devices with distinct seeds have distinct keys. -/
theorem canonicalKey_injective (hinj : DigestInjective rt observations)
    {members members' : List DeviceObservation} {key : Str}
    (hs : IsSeed observations (canonicalSeed members))
    (hs' : IsSeed observations (canonicalSeed members'))
    (h : canonicalKey rt members = .ok key) (h' : canonicalKey rt members' = .ok key) :
    canonicalSeed members = canonicalSeed members' := by
  unfold canonicalKey deviceKey at h h'
  obtain ⟨data, hdata⟩ : ∃ data, encodeUtf8 (canonicalSeed members) = some data := by
    cases he : encodeUtf8 (canonicalSeed members) with
    | some data => exact ⟨data, rfl⟩
    | none => rw [he] at h; cases h
  obtain ⟨data', hdata'⟩ : ∃ data, encodeUtf8 (canonicalSeed members') = some data := by
    cases he : encodeUtf8 (canonicalSeed members') with
    | some data => exact ⟨data, rfl⟩
    | none => rw [he] at h'; cases h'
  rw [hdata] at h
  rw [hdata'] at h'
  have hdigest : (rt.sha256 data).take 20 = (rt.sha256 data').take 20 :=
    List.append_cancel_left (Except.ok.inj (h.trans h'.symm))
  have heq : data = data' := hinj ⟨_, hs, hdata⟩ ⟨_, hs', hdata'⟩ hdigest
  exact encodeUtf8_injective hdata (heq ▸ hdata')

theorem Accepted.canonicalKeys_nodup (h : Accepted rt so observations r)
    (hinj : DigestInjective rt observations) :
    (r.devices.map CanonicalDevice.canonicalKey).Nodup := by
  obtain ⟨devices, hall, hr⟩ := h.devices
  have hmem : ∀ p ∈ groupBy (finalRoot observations) (ordered observations),
      ∃ o ∈ observations, p.1 = finalRoot observations o ∧
        p.2 = membersOf observations (finalRoot observations o) := by
    intro p hp
    obtain ⟨hkey, hgroup⟩ := mem_groupBy.mp hp
    obtain ⟨o, ho, hroot⟩ := List.mem_map.mp hkey
    exact ⟨o, mem_ordered.mp ho, hroot.symm, by rw [hgroup, membersOf, hroot]⟩
  have hall' := (List.forall₂_and_left _ _).mpr ⟨hmem, hall⟩
  have hkeys := List.pairwise_map.mp
    (groupBy_keys_nodup (finalRoot observations) (ordered observations))
  have hpair : devices.Pairwise fun d d' => d.canonicalKey ≠ d'.canonicalKey := by
    refine hall'.pairwise hkeys ?_
    rintro p d p' d' ⟨⟨o, ho, hp₁, hp₂⟩, hd⟩ ⟨⟨o', ho', hp₁', hp₂'⟩, hd'⟩ hne heq
    rw [hp₂] at hd
    rw [hp₂'] at hd'
    refine hne ?_
    rw [hp₁, hp₁']
    refine h.root_eq_of_seed_eq ho ho' (canonicalKey_injective hinj (isSeed ho) (isSeed ho')
      (device_fields hd).1 ?_)
    rw [heq]
    exact (device_fields hd').1
  have hnodup : (devices.map CanonicalDevice.canonicalKey).Nodup := List.pairwise_map.mpr hpair
  rw [hr]
  exact ((sortedBy_perm _ devices).map _).nodup_iff.mpr hnodup

theorem Accepted.observationIds_perm (h : Accepted rt so observations r) :
    (r.devices.flatMap CanonicalDevice.observationIds).Perm
      (observations.map DeviceObservation.id) := by
  obtain ⟨devices, hall, hr⟩ := h.devices
  have hids : devices.map CanonicalDevice.observationIds =
      (groupBy (finalRoot observations) (ordered observations)).map
        fun p => p.2.map DeviceObservation.id :=
    (hall.map_eq fun _ _ hd => (device_fields hd).2.1.symm).symm
  calc (r.devices.flatMap CanonicalDevice.observationIds)
    _ |>.Perm (devices.flatMap CanonicalDevice.observationIds) :=
        hr ▸ (sortedBy_perm _ devices).flatMap_right _
    _ = ((groupBy (finalRoot observations) (ordered observations)).flatMap Prod.snd).map
          DeviceObservation.id := by
        rw [List.flatMap_def, hids, List.map_flatMap, List.flatMap_def]
    _ |>.Perm ((ordered observations).map DeviceObservation.id) :=
        (groupBy_flatten_perm _ _).map _
    _ |>.Perm (observations.map DeviceObservation.id) := (ordered_perm observations).map _

/-- A device is made of the observations whose IDs it lists. -/
theorem Accepted.device_members (h : Accepted rt so observations r) {d : CanonicalDevice}
    (hd : d ∈ r.devices) : device rt (merge (ordered observations)).decisions
      ((ordered observations).filter (·.id ∈ d.observationIds)) = .ok d := by
  obtain ⟨o, ho, hdev⟩ := h.exists_root hd
  have hids := (device_fields hdev).2.1
  have hmem : ∀ m ∈ ordered observations, decide (m.id ∈ d.observationIds) =
      decide (finalRoot observations m = finalRoot observations o) := by
    intro m hm
    refine decide_eq_decide.mpr ?_
    rw [hids, List.mem_map]
    constructor
    · rintro ⟨m', hm', hid⟩
      obtain ⟨hmem, hroot⟩ := mem_membersOf.mp hm'
      exact eq_of_id_eq h.distinct hmem (mem_ordered.mp hm) hid ▸ hroot
    · exact fun hroot => ⟨m, mem_membersOf.mpr ⟨mem_ordered.mp hm, hroot⟩, rfl⟩
  rw [List.filter_congr hmem]
  exact hdev

/-- A device carries exactly the identifiers of its members. -/
theorem Accepted.identifiers_perm (h : Accepted rt so observations r) {d : CanonicalDevice}
    (hd : d ∈ r.devices) : d.identifiers.Perm
      ((observations.filter (·.id ∈ d.observationIds)).flatMap DeviceObservation.carried) := by
  rw [(device_fields (h.device_members hd)).2.2]
  calc sortedBy identitySortKey
          (((ordered observations).filter (·.id ∈ d.observationIds)).flatMap allIdentifiers)
    _ |>.Perm (((ordered observations).filter (·.id ∈ d.observationIds)).flatMap
          allIdentifiers) := sortedBy_perm _ _
    _ |>.Perm (((ordered observations).filter (·.id ∈ d.observationIds)).flatMap
          DeviceObservation.carried) := List.Perm.flatMap_left _ fun _ _ => sortedBy_perm _ _
    _ |>.Perm _ := ((ordered_perm observations).filter _).flatMap_right _

/-- A device carries exactly the facts of its members. -/
theorem Accepted.facts_perm (h : Accepted rt so observations r) {d : CanonicalDevice}
    (hd : d ∈ r.devices) : d.facts.Perm
      ((observations.filter (·.id ∈ d.observationIds)).flatMap DeviceObservation.facts) := by
  rw [(device_evidence (h.device_members hd)).2]
  exact (sortedBy_perm _ _).trans (((ordered_perm observations).filter _).flatMap_right _)

/-- There is one device for each root. -/
theorem Accepted.length_devices (h : Accepted rt so observations r) :
    r.devices.length =
      (roots (registered observations) (merge (ordered observations)).parent).card := by
  obtain ⟨devices, hall, hr⟩ := h.devices
  have hforest := (merge_spec observations).forest
  have hroots : ((groupBy (finalRoot observations) (ordered observations)).map
      Prod.fst).toFinset = roots (registered observations)
        (merge (ordered observations)).parent := by
    ext root
    rw [List.mem_toFinset, mem_groupBy_keys, List.mem_map]
    constructor
    · rintro ⟨o, ho, rfl⟩
      exact rootOf_mem_roots hforest (mem_registered.mpr ⟨o, mem_ordered.mp ho, rfl⟩)
    · intro hroot
      obtain ⟨hreg, hfix⟩ := (mem_roots_iff hforest).mp hroot
      obtain ⟨o, ho, rfl⟩ := mem_registered.mp hreg
      exact ⟨o, mem_ordered.mpr ho, hfix⟩
  rw [hr, length_sortedBy, ← hall.length_eq, ← hroots,
    List.toFinset_card_of_nodup (groupBy_keys_nodup _ _), List.length_map]

end Accepted

/-! ## Main theorem -/

/-- The accounting of an accepted batch. -/
structure Conserves (observations : List DeviceObservation) (r : CorrelationResult) : Prop where
  /-- Every observation ID stands in exactly one device, once. -/
  observationIds : (r.devices.flatMap CanonicalDevice.observationIds).Perm
    (observations.map DeviceObservation.id)
  identifiers : ∀ d ∈ r.devices, d.identifiers.Perm
    ((observations.filter (·.id ∈ d.observationIds)).flatMap DeviceObservation.carried)
  count : r.decisions.length + r.devices.length = observations.length
  acyclic : (pairGraph (decisionPairs r.decisions)).IsAcyclic
  components : ∀ a ∈ observations, ∀ b ∈ observations,
    (pairGraph (decisionPairs r.decisions)).Reachable a.id b.id ↔ SameDevice r a.id b.id
  evidence : ∀ d ∈ r.decisions, ∃ a ∈ observations, ∃ b ∈ observations,
    a.id = d.leftObservationId ∧ b.id = d.rightObservationId ∧
      HoldsStable a d.evidenceKey ∧ HoldsStable b d.evidenceKey

/-- `correlate` loses and duplicates nothing, and its decisions are a spanning forest of the
devices. -/
theorem correlate_conserves (rt : Runtime) (so : SetOrder) {observations : List DeviceObservation}
    {r : CorrelationResult} (h : correlate rt so observations = .ok r) :
    Conserves observations r ∧ (DigestInjective rt observations →
      (r.devices.map CanonicalDevice.canonicalKey).Nodup) := by
  have hacc := correlate_accepted h
  have hinv := merge_spec observations
  have hperm : r.decisions.Perm (merge (ordered observations)).decisions :=
    hacc.decisions ▸ sortedBy_perm _ _
  have hgraph : pairGraph (decisionPairs r.decisions) =
      pairGraph (decisionPairs (merge (ordered observations)).decisions) :=
    pairGraph_congr fun p => (hperm.map _).mem_iff
  have hcard : (registered observations).card = observations.length := by
    unfold registered
    rw [List.toFinset_card_of_nodup
      (((ordered_perm observations).map _).nodup_iff.mpr hacc.distinct), List.length_map]
    exact (ordered_perm observations).length_eq
  refine ⟨?_, hacc.canonicalKeys_nodup⟩
  exact
    { observationIds := hacc.observationIds_perm
      identifiers := fun d hd => hacc.identifiers_perm hd
      count := by
        rw [hperm.length_eq, hacc.length_devices, hinv.count, hcard]
      acyclic := hgraph ▸ hinv.acyclic
      components := by
        intro a ha b hb
        rw [hgraph, pairGraph_reachable, ← hinv.spanned a.id b.id]
        exact (hacc.sameDevice_iff_root ha hb).symm
      evidence := by
        intro d hd
        obtain ⟨e, e', he, he', hkey, hkey', -⟩ :=
          (hinv.supported d (hperm.mem_iff.mp hd)).evidence
        obtain ⟨a, ha, hida, hea, hma⟩ := mem_stableClaims.mp he
        obtain ⟨b, hb, hidb, heb, hmb⟩ := mem_stableClaims.mp he'
        exact ⟨a, mem_ordered.mp ha, b, mem_ordered.mp hb, hida.symm, hidb.symm,
          holdsStable_iff.mpr ⟨e, hea, hma, hkey⟩, holdsStable_iff.mpr ⟨e', heb, hmb, hkey'⟩⟩ }

/-- The seeds of the sample batch and their digests are all different. -/
theorem Sample.digestInjective :
    DigestInjective Sample.runtime [Sample.c, Sample.b, Sample.a] := by
  have hseed : ∀ seed, IsSeed [Sample.c, Sample.b, Sample.a] seed →
      seed ∈ [str "mac:00:11:22:33:44:55", str "observation:a", str "observation:b",
        str "observation:c"] := by
    rintro seed ⟨o, ho, hstable | rfl⟩
    · obtain ⟨e, he, hm, rfl⟩ := holdsStable_iff.mp hstable
      have hall : ∀ o ∈ [Sample.c, Sample.b, Sample.a], ∀ e ∈ o.carried,
          e.kind.isStable = true → e.key = str "mac:00:11:22:33:44:55" := by decide
      rw [hall o ho e he (Bool.and_eq_true _ _ ▸ hm).1]
      exact List.mem_cons_self
    · have hall : ∀ o ∈ [Sample.c, Sample.b, Sample.a], str "observation:" ++ o.id ∈
          [str "mac:00:11:22:33:44:55", str "observation:a", str "observation:b",
            str "observation:c"] := by decide
      exact hall o ho
  have hinj : ∀ x ∈ [str "mac:00:11:22:33:44:55", str "observation:a", str "observation:b",
      str "observation:c"], ∀ y ∈ [str "mac:00:11:22:33:44:55", str "observation:a",
      str "observation:b", str "observation:c"],
      (Sample.runtime.sha256 (x.flatMap utf8Char)).take 20 =
        (Sample.runtime.sha256 (y.flatMap utf8Char)).take 20 → x = y := by decide +kernel
  rintro data ⟨x, hx, hdx⟩ data' ⟨y, hy, hdy⟩ heq
  obtain ⟨-, rfl⟩ := encodeUtf8_eq_some.mp hdx
  obtain ⟨-, rfl⟩ := encodeUtf8_eq_some.mp hdy
  rw [hinj x (hseed x hx) y (hseed y hy) heq]

theorem correlate_conserves_sample :
    ∃ r, correlate Sample.runtime .insertion [Sample.c, Sample.b, Sample.a] = .ok r ∧
      r.decisions.length + r.devices.length = 3 ∧
      (r.devices.map CanonicalDevice.canonicalKey).Nodup := by
  obtain ⟨r, h⟩ := Except.exists_of_isOk (by decide +kernel :
    (correlate Sample.runtime .insertion [Sample.c, Sample.b, Sample.a]).isOk = true)
  obtain ⟨hconserves, hkeys⟩ := correlate_conserves Sample.runtime .insertion h
  exact ⟨r, h, hconserves.count, hkeys Sample.digestInjective⟩

end FieldDiscovery.Correlation
