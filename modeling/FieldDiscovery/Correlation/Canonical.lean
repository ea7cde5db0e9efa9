import FieldDiscovery.Lib.Ties
import FieldDiscovery.Correlation.Conflicts
import FieldDiscovery.Correlation.Order

/-!
# When the output is canonical in full

Evidence that a sort key does not tell apart stays in the order in which an observation lists it,
and values that only casefolding makes equal stay in the order of a set. The result is the same for
every order exactly when neither occurs (`canonical_iff`): the keys separate the evidence inside
every observation, and the values of a field on which several sources disagree. Ties between
observations do no harm, since the sort is stable and observations are in the order of their IDs.
-/

namespace FieldDiscovery.Correlation

open Py List

/-! ## Statement -/

/-- Two results list the same evidence and the same values in the same order. -/
structure Identical (r r' : CorrelationResult) : Prop where
  facts : r.devices.map CanonicalDevice.facts = r'.devices.map CanonicalDevice.facts
  interfaces : r.devices.map CanonicalDevice.interfaces =
    r'.devices.map CanonicalDevice.interfaces
  identifiers : r.devices.map CanonicalDevice.identifiers =
    r'.devices.map CanonicalDevice.identifiers
  values : r.conflicts.map CorrelationConflict.values = r'.conflicts.map CorrelationConflict.values

/-- No order inside an observation and no order of a set shows in the result. -/
def Canonical (rt : Runtime) (observations : List DeviceObservation) : Prop :=
  ∀ so so' observations' r r', Forall₂ SameObservation observations observations' →
    correlate rt so observations = .ok r → correlate rt so' observations' = .ok r' →
    Identical r r'

/-- An observation that is linked to `o` states the fact. -/
def Says (observations : List DeviceObservation) (o : DeviceObservation) (fact : FactEvidence) :
    Prop :=
  ∃ o' ∈ observations, Linked observations o o' ∧ fact ∈ o'.facts

/-- The sort keys leave no order open. -/
structure TieFree (rt : Runtime) (observations : List DeviceObservation) : Prop where
  facts : ∀ o ∈ observations, Separates (factSortKey rt) o.facts
  interfaces : ∀ o ∈ observations, Separates interfaceSortKey o.interfaces
  identifiers : ∀ o ∈ observations, Separates identitySortKey o.identifiers
  /-- So do the MAC addresses of the interfaces. -/
  macs : ∀ o ∈ observations,
    Separates identitySortKey (o.interfaces.filterMap InterfaceEvidence.macIdentity)
  /-- Two sources of a field of linked observations give no two values that only differ in case. -/
  values : ∀ o ∈ observations, ∀ f f' h, Says observations o f → Says observations o f' →
    Says observations o h → f'.field = f.field → h.field = f.field → h.source ≠ f.source →
    rt.casefold f.value.val = rt.casefold f'.value.val → f.value.val = f'.value.val

/-! ## Observations -/

/-- Two observations with the same evidence list the evidence of each sort key alike. -/
structure SameOrder (rt : Runtime) (o o' : DeviceObservation) : Prop where
  facts : SameTies (factSortKey rt) o.facts o'.facts
  interfaces : SameTies interfaceSortKey o.interfaces o'.interfaces
  identifiers : SameTies identitySortKey (allIdentifiers o) (allIdentifiers o')

section

variable {rt : Runtime} {observations observations' : List DeviceObservation}

theorem TieFree.sameOrder (h : TieFree rt observations) {o o' : DeviceObservation}
    (ho : o ∈ observations) (hsame : SameObservation o o') : SameOrder rt o o' where
  facts := (h.facts o ho).sameTies hsame.facts
  interfaces := (h.interfaces o ho).sameTies hsame.interfaces
  identifiers := by
    have hcarried : SameTies identitySortKey o.carried o'.carried :=
      ((h.identifiers o ho).sameTies hsame.identifiers).append
        ((h.macs o ho).sameTies (hsame.interfaces.filterMap _))
    have heq : allIdentifiers o = allIdentifiers o' := sortedBy_eq_of_filter hcarried
    exact fun k => by rw [heq]

/-! ## Devices -/

variable {so so' : SetOrder} {r r' : CorrelationResult}

/-- The devices of two orders of a batch are made of the same observations. -/
theorem devices_aligned (hsame : Forall₂ SameObservation observations observations')
    (hrun : correlate rt so observations = .ok r)
    (hrun' : correlate rt so' observations' = .ok r') :
    Forall₂ (fun d d' => d ∈ r.devices ∧ d' ∈ r'.devices ∧ d.canonicalKey = d'.canonicalKey ∧
      d.observationIds = d'.observationIds ∧ d.confidence = d'.confidence)
      r.devices r'.devices := by
  have hrel := correlate_order_insensitive rt so so' (correlate_accepted hrun).distinct
    ⟨observations, .refl _, hsame⟩
  rw [hrun, hrun'] at hrel
  cases hrel with
  | ok h =>
    obtain ⟨hlength, hzip⟩ := forall₂_iff_zip.mp h.devices
    refine forall₂_iff_zip.mpr ⟨hlength, fun hd => ?_⟩
    exact ⟨(of_mem_zip hd).1, (of_mem_zip hd).2, hzip hd⟩

theorem members_aligned (hsame : Forall₂ SameObservation observations observations')
    {ids ids' : List Str} (hids : ids = ids') :
    Forall₂ SameObservation ((ordered observations).filter (·.id ∈ ids))
      ((ordered observations').filter (·.id ∈ ids')) := by
  subst hids
  have hordered : Forall₂ SameObservation (ordered observations) (ordered observations') :=
    sortedBy_forall₂ (fun _ _ ho => ho.id) hsame
  exact hordered.filter fun _ _ ho => by rw [ho.id]

/-- Two devices made of the same observations list their evidence alike exactly when the
observations do. -/
theorem device_identical_iff (h : Accepted rt so observations r)
    (h' : Accepted rt so' observations' r')
    (hsame : Forall₂ SameObservation observations observations') {d d' : CanonicalDevice}
    (hd : d ∈ r.devices) (hd' : d' ∈ r'.devices) (hids : d.observationIds = d'.observationIds) :
    (d.facts = d'.facts ∧ d.interfaces = d'.interfaces ∧ d.identifiers = d'.identifiers) ↔
      Forall₂ (SameOrder rt) ((ordered observations).filter (·.id ∈ d.observationIds))
        ((ordered observations').filter (·.id ∈ d'.observationIds)) := by
  have hmembers := members_aligned hsame hids
  obtain ⟨hinterfaces, hfacts⟩ := device_evidence (h.device_members hd)
  obtain ⟨hinterfaces', hfacts'⟩ := device_evidence (h'.device_members hd')
  have hidentifiers := (device_fields (h.device_members hd)).2.2
  have hidentifiers' := (device_fields (h'.device_members hd')).2.2
  have hall : ∀ o o' : DeviceObservation, SameObservation o o' →
      (allIdentifiers o).Perm (allIdentifiers o') := fun o o' ho =>
    (sortedBy_perm _ _).trans (ho.carried.trans (sortedBy_perm _ _).symm)
  rw [hfacts, hfacts', hinterfaces, hinterfaces', hidentifiers, hidentifiers',
    sortedBy_flatMap_iff (hmembers.imp fun _ _ ho => ho.facts),
    sortedBy_flatMap_iff (hmembers.imp fun _ _ ho => ho.interfaces),
    sortedBy_flatMap_iff (hmembers.imp hall)]
  constructor
  · rintro ⟨hf, hi, he⟩
    exact Forall₂.mp (fun _ _ hf hie => ⟨hf, hie.1, hie.2⟩) hf
      (Forall₂.mp (fun _ _ hi he => And.intro hi he) hi he)
  · intro horder
    exact ⟨horder.imp fun _ _ ho => ho.facts, horder.imp fun _ _ ho => ho.interfaces,
      horder.imp fun _ _ ho => ho.identifiers⟩

/-- Observations that tie nowhere make up identical devices. -/
theorem TieFree.devices_eq (hfree : TieFree rt observations)
    (hsame : Forall₂ SameObservation observations observations')
    (hrun : correlate rt so observations = .ok r)
    (hrun' : correlate rt so' observations' = .ok r') :
    r.devices = r'.devices := by
  rw [← forall₂_eq_eq_eq]
  refine (devices_aligned hsame hrun hrun').imp ?_
  rintro d d' ⟨hd, hd', hkey, hids, hconfidence⟩
  have horder : Forall₂ (SameOrder rt) ((ordered observations).filter (·.id ∈ d.observationIds))
      ((ordered observations').filter (·.id ∈ d'.observationIds)) :=
    ((forall₂_and_left _ _).mpr ⟨fun o ho => mem_ordered.mp (mem_filter.mp ho).1,
      members_aligned hsame hids⟩).imp fun o o' ho => hfree.sameOrder ho.1 ho.2
  obtain ⟨hfacts, hinterfaces, hidentifiers⟩ := (device_identical_iff (correlate_accepted hrun)
    (correlate_accepted hrun') hsame hd hd' hids).mpr horder
  cases d
  cases d'
  simp only at hkey hids hconfidence hfacts hinterfaces hidentifiers
  rw [hkey, hids, hconfidence, hfacts, hinterfaces, hidentifiers]

/-- Devices with identical evidence are made of observations that list it alike. -/
theorem Identical.sameOrder (hsame : Forall₂ SameObservation observations observations')
    (hrun : correlate rt so observations = .ok r) (hrun' : correlate rt so' observations' = .ok r')
    (hidentical : Identical r r') {o o' : DeviceObservation} (ho : o ∈ observations)
    (ho' : o' ∈ observations') (hid : o.id = o'.id) : SameOrder rt o o' := by
  have h := correlate_accepted hrun
  have h' := correlate_accepted hrun'
  have hall := Forall₂.mp (fun _ _ => And.intro) (devices_aligned hsame hrun hrun')
    (Forall₂.mp (fun _ _ => And.intro) (forall₂_of_map_eq hidentical.facts)
      (Forall₂.mp (fun _ _ => And.intro) (forall₂_of_map_eq hidentical.interfaces)
        (forall₂_of_map_eq hidentical.identifiers)))
  obtain ⟨d, hd, hmem, -⟩ := h.existsUnique_device ho
  obtain ⟨d', -, ⟨-, hd', -, hids, -⟩, hevidence⟩ := hall.exists_of_mem_left hd
  have horder := (device_identical_iff h h' hsame hd hd' hids).mp hevidence
  obtain ⟨b, hb, hob, hsameb⟩ := (Forall₂.mp (fun _ _ => And.intro) horder
    (members_aligned hsame hids)).exists_of_mem_left
      (mem_filter.mpr ⟨mem_ordered.mpr ho, decide_eq_true hmem⟩)
  obtain rfl : b = o' := eq_of_id_eq h'.distinct (mem_ordered.mp (mem_filter.mp hb).1) ho'
    (hsameb.id.symm.trans hid)
  exact hob

/-! ## Values -/

/-- A set order that lists the members of one set in a given order. -/
def listing (l l' : List Str) (h : l.dedup.Perm l') : SetOrder where
  iterate m := if m = l then l' else m.dedup
  iterate_perm m := by
    split
    · next heq => exact heq ▸ h.symm
    · exact .refl _

theorem one_lt_length_of_ne {α : Type*} {l : List α} {a b : α} (ha : a ∈ l) (hb : b ∈ l)
    (hne : a ≠ b) : 1 < l.length := by
  match l, ha, hb with
  | [c], ha, hb => exact absurd ((mem_singleton.mp ha).trans (mem_singleton.mp hb).symm) hne
  | _ :: _ :: l, _, _ => exact Nat.succ_lt_succ (Nat.succ_pos l.length)

variable (rt) in
/-- Several sources of a field give values that casefolding tells apart. -/
def FieldFree (d : CanonicalDevice) (field : Str) : Prop :=
  1 < ((d.facts.filter (·.field = field)).map fun f => f.source.val).dedup.length →
    Separates rt.casefold ((d.facts.filter (·.field = field)).map fun f => f.value.val).dedup

/-- The report on a field is the same for every order of its values. -/
theorem fieldFree_iff_fieldConflict {d : CanonicalDevice} {field : Str} :
    (∀ so so' c, fieldConflict rt so d field = some c → fieldConflict rt so' d field = some c) ↔
      FieldFree rt d field := by
  unfold FieldFree fieldConflict
  simp only [length_sortedBy, (SetOrder.iterate_perm _ _).length_eq]
  generalize (d.facts.filter (·.field = field)).map (fun f => f.value.val) = values
  constructor
  · intro h hsources
    by_cases hmany : 1 < values.dedup.length
    · rw [← separates_iff]
      intro l' hp
      have heq := h .insertion (listing values l' hp) _ (if_pos ⟨hmany, hsources⟩)
      rw [if_pos ⟨hmany, hsources⟩] at heq
      have hvalues := congrArg CorrelationConflict.values (Option.some.inj heq)
      have hlisting : (listing values l' hp).iterate values = l' := if_pos rfl
      rw [hlisting] at hvalues
      exact sortedBy_eq_iff.mp hvalues.symm
    · intro a ha b hb _
      by_contra hne
      exact hmany (one_lt_length_of_ne ha hb hne)
  · intro h so so' c hc
    split at hc
    · next hmany =>
      rw [if_pos hmany, ← hc]
      have hties : SameTies rt.casefold (so.iterate values) (so'.iterate values) := by
        intro k
        exact ((h hmany.2).sameTies (so.iterate_perm values).symm k).symm.trans
          ((h hmany.2).sameTies (so'.iterate_perm values).symm k)
      rw [sortedBy_eq_iff.mpr hties]
    · cases hc

theorem mem_factConflicts_iff {d : CanonicalDevice} {c : CorrelationConflict} :
    c ∈ factConflicts rt so d ↔ ∃ field, fieldConflict rt so d field = some c := by
  rw [factConflicts_eq, mem_filterMap]
  refine exists_congr fun field => and_iff_right_of_imp fun hc => ?_
  unfold fieldConflict at hc
  simp only [length_sortedBy, (SetOrder.iterate_perm _ _).length_eq] at hc
  split at hc
  · next hmany =>
    obtain ⟨value, hvalue⟩ := exists_mem_of_length_pos (Nat.zero_lt_of_lt hmany.1)
    obtain ⟨f, hf, -⟩ := mem_map.mp (mem_dedup.mp hvalue)
    obtain ⟨hf, hfield⟩ := mem_filter.mp hf
    exact mem_sortedSet.mpr (mem_map.mpr ⟨f, hf, of_decide_eq_true hfield⟩)
  · cases hc

/-- The facts of a device are what the observations linked to one of its own say. -/
theorem Accepted.mem_facts_iff_says (h : Accepted rt so observations r) {d : CanonicalDevice}
    (hd : d ∈ r.devices) {o : DeviceObservation} (ho : o ∈ observations)
    (hmem : o.id ∈ d.observationIds) {fact : FactEvidence} :
    fact ∈ d.facts ↔ Says observations o fact := by
  rw [(h.facts_perm hd).mem_iff, mem_flatMap]
  unfold Says
  refine exists_congr fun o' => ?_
  rw [mem_filter, decide_eq_true_eq, and_assoc]
  refine and_congr_right fun ho' => and_congr_left fun _ => ?_
  rw [← h.sameDevice_iff ho ho']
  constructor
  · exact fun hmem' => ⟨d, hd, hmem, hmem'⟩
  · rintro ⟨d', hd', hin, hin'⟩
    rwa [h.device_unique hd' hd hin hmem] at hin'

theorem fieldFree_iff {d : CanonicalDevice} : (∀ field, FieldFree rt d field) ↔
    ∀ f ∈ d.facts, ∀ f' ∈ d.facts, ∀ h ∈ d.facts, f'.field = f.field → h.field = f.field →
      h.source ≠ f.source → rt.casefold f.value.val = rt.casefold f'.value.val →
      f.value.val = f'.value.val := by
  unfold FieldFree
  constructor
  · intro hfree f hf f' hf' h hh hfield' hfield hsource hfold
    have hgroup : ∀ g ∈ d.facts, g.field = f.field → g ∈ d.facts.filter (·.field = f.field) :=
      fun g hg hfield => mem_filter.mpr ⟨hg, decide_eq_true hfield⟩
    have hf₀ := hgroup f hf rfl
    have hsources : f.source.val ≠ h.source.val :=
      fun heq => hsource (Subtype.val_injective heq.symm)
    refine hfree f.field (one_lt_length_of_ne ?_ ?_ hsources) f.value.val ?_ f'.value.val ?_ hfold
    · exact mem_dedup.mpr (mem_map.mpr ⟨f, hf₀, rfl⟩)
    · exact mem_dedup.mpr (mem_map.mpr ⟨h, hgroup h hh hfield, rfl⟩)
    · exact mem_dedup.mpr (mem_map.mpr ⟨f, hf₀, rfl⟩)
    · exact mem_dedup.mpr (mem_map.mpr ⟨f', hgroup f' hf' hfield', rfl⟩)
  · intro hfree field hsources a ha b hb hfold
    obtain ⟨f, hf, rfl⟩ := mem_map.mp (mem_dedup.mp ha)
    obtain ⟨f', hf', rfl⟩ := mem_map.mp (mem_dedup.mp hb)
    obtain ⟨hf, hfield⟩ := mem_filter.mp hf
    obtain ⟨hf', hfield'⟩ := mem_filter.mp hf'
    rw [decide_eq_true_eq] at hfield hfield'
    -- more than one source, so one that is not that of `f`
    obtain ⟨h, hh, hsource⟩ : ∃ h ∈ d.facts.filter (·.field = field), h.source ≠ f.source := by
      by_contra hnone
      push Not at hnone
      have hsub : ((d.facts.filter (·.field = field)).map fun f => f.source.val).dedup ⊆
          [f.source.val] := by
        intro source hsource
        obtain ⟨h, hh, rfl⟩ := mem_map.mp (mem_dedup.mp hsource)
        rw [hnone h hh]
        exact mem_cons_self
      exact absurd (subperm_of_subset (nodup_dedup _) hsub).length_le (not_le.mpr hsources)
    obtain ⟨hh, hfield''⟩ := mem_filter.mp hh
    rw [decide_eq_true_eq] at hfield''
    exact hfree f hf f' hf' h hh (hfield'.trans hfield.symm) (hfield''.trans hfield.symm) hsource
      hfold

/-! ## Both directions -/

theorem TieFree.fieldFree (hfree : TieFree rt observations) (h : Accepted rt so observations r)
    {d : CanonicalDevice} (hd : d ∈ r.devices) (field : Str) : FieldFree rt d field := by
  refine fieldFree_iff.mpr (fun f hf f' hf' g hg => ?_) field
  obtain ⟨o, ho, -⟩ := mem_flatMap.mp ((h.facts_perm hd).mem_iff.mp hf)
  obtain ⟨ho, hmem⟩ := mem_filter.mp ho
  rw [decide_eq_true_eq] at hmem
  have hsaid : ∀ {fact}, fact ∈ d.facts ↔ Says observations o fact :=
    h.mem_facts_iff_says hd ho hmem
  exact hfree.values o ho f f' g (hsaid.mp hf) (hsaid.mp hf') (hsaid.mp hg)

theorem TieFree.canonical (hfree : TieFree rt observations) : Canonical rt observations := by
  intro so so' observations' r r' hsame hrun hrun'
  have h := correlate_accepted hrun
  have hdevices := hfree.devices_eq hsame hrun hrun'
  have hconflicts : r.conflicts = r'.conflicts := by
    rw [h.conflicts, (correlate_accepted hrun').conflicts, ← hdevices]
    unfold findConflicts
    congr 2
    refine flatMap_congr fun d hd => ?_
    rw [factConflicts_eq, factConflicts_eq]
    congr 1
    refine filterMap_congr fun field _ => Option.ext fun c => ?_
    have hfield := fieldFree_iff_fieldConflict.mpr (hfree.fieldFree h hd field)
    exact ⟨hfield so so' c, hfield so' so c⟩
  exact ⟨by rw [hdevices], by rw [hdevices], by rw [hdevices], by rw [hconflicts]⟩

/-- One observation may list its evidence in any order. -/
theorem Canonical.sameOrder (hcanonical : Canonical rt observations)
    (hrun : correlate rt so observations = .ok r) {o o' : DeviceObservation}
    (ho : o ∈ observations) (hsame : SameObservation o o') : SameOrder rt o o' := by
  have hdistinct := (correlate_accepted hrun).distinct
  have hall : Forall₂ SameObservation observations
      (observations.map fun x => if x.id = o.id then o' else x) := by
    rw [forall₂_map_right_iff, forall₂_same]
    intro x hx
    split
    · next hid =>
      obtain rfl := eq_of_id_eq hdistinct hx ho hid
      exact hsame
    · exact .refl x
  have hrel := correlate_order_insensitive rt so so hdistinct ⟨observations, .refl _, hall⟩
  rw [hrun] at hrel
  generalize hrun' : correlate rt so
    (observations.map fun x => if x.id = o.id then o' else x) = run at hrel
  cases hrel with
  | ok _ =>
    exact (hcanonical _ _ _ _ _ hall hrun hrun').sameOrder hall hrun hrun' ho
      (mem_map.mpr ⟨o, ho, if_pos rfl⟩) hsame.id

theorem Canonical.fieldFree (hcanonical : Canonical rt observations)
    (hrun : correlate rt so observations = .ok r) {d : CanonicalDevice} (hd : d ∈ r.devices)
    (field : Str) : FieldFree rt d field := by
  refine fieldFree_iff_fieldConflict.mp fun so₁ so₂ c hc => ?_
  have hsame : Forall₂ SameObservation observations observations :=
    forall₂_same.mpr fun o _ => .refl o
  obtain ⟨r₁, hrun₁, hdevices₁⟩ := correlate_devices hrun so₁
  obtain ⟨r₂, hrun₂, hdevices₂⟩ := correlate_devices hrun so₂
  have h₁ := correlate_accepted hrun₁
  have h₂ := correlate_accepted hrun₂
  have hd₁ : d ∈ r₁.devices := by rwa [hdevices₁]
  have hd₂ : d ∈ r₂.devices := by rwa [hdevices₂]
  -- equal values make the reports equal, for everything else in them is
  have hconflicts : r₁.conflicts = r₂.conflicts := by
    have hrel := correlate_order_insensitive rt so₁ so₂ h₁.distinct ⟨observations, .refl _, hsame⟩
    rw [hrun₁, hrun₂] at hrel
    have hvalues := forall₂_of_map_eq (hcanonical _ _ _ _ _ hsame hrun₁ hrun₂).values
    cases hrel with
    | ok hresult =>
      rw [← forall₂_eq_eq_eq]
      refine Forall₂.mp (fun c c' hc hv => ?_) hresult.conflicts hvalues
      cases c
      cases c'
      rw [CorrelationConflict.mk.injEq]
      exact ⟨hc.conflictKind, hc.key, hc.canonicalKeys, hv, hc.observationIds, hc.explanation⟩
  have hdisagrees := (h₁.fieldConflict_spec hd₁ field).1 c hc
  have hmem₁ : c ∈ factConflicts rt so₁ d := mem_factConflicts_iff.mpr ⟨field, hc⟩
  have hmem₂ : c ∈ r₂.conflicts := by
    rw [← hconflicts]
    exact h₁.mem_conflicts.mpr (.inr ⟨d, hd₁, .inr hmem₁⟩)
  rcases h₂.mem_conflicts.mp hmem₂ with hreuse | ⟨d', hd', hserial | hfact⟩
  · rw [reuseConflicts_eq] at hreuse
    obtain ⟨key, -, hkey⟩ := mem_filterMap.mp hreuse
    have hkind := (groupConflict_fields hkey).1.symm.trans hdisagrees.conflictKind
    exact absurd (cons.inj hkind).1 (by decide)
  · obtain ⟨-, hserial⟩ := (h₂.mem_serialConflicts hd').mp hserial
    have hkind := hdisagrees.conflictKind
    rw [hserial] at hkind
    exact absurd hkind serialKind_ne
  · obtain ⟨field', hc'⟩ := mem_factConflicts_iff.mp hfact
    have hdisagrees' := (h₂.fieldConflict_spec hd' field').1 c hc'
    obtain rfl : field' = field := hdisagrees'.key.symm.trans hdisagrees.key
    obtain ⟨o, ho, hdevice⟩ := h₂.exists_root hd₂
    have hmem : o.id ∈ d.observationIds := by
      rw [(device_fields hdevice).2.1]
      exact mem_map_of_mem (mem_membersOf.mpr ⟨ho, rfl⟩)
    have hmem' : o.id ∈ d'.observationIds := by
      rwa [← hdisagrees'.observationIds, hdisagrees.observationIds]
    rwa [h₂.device_unique hd₂ hd' hmem hmem']

theorem Canonical.tieFree (hcanonical : Canonical rt observations)
    (hrun : correlate rt so observations = .ok r) : TieFree rt observations where
  facts o ho := separates_iff.mp fun l' hp => (hcanonical.sameOrder hrun ho
    (show SameObservation o { o with facts := l' } from
      ⟨rfl, rfl, rfl, .refl _, .refl _, hp⟩)).facts
  interfaces o ho := separates_iff.mp fun l' hp => (hcanonical.sameOrder hrun ho
    (show SameObservation o { o with interfaces := l' } from
      ⟨rfl, rfl, rfl, .refl _, hp, .refl _⟩)).interfaces
  identifiers o ho := by
    refine separates_iff.mp fun l' hp k => ?_
    have hties := sameTies_sortedBy_iff.mp (hcanonical.sameOrder hrun ho
      (show SameObservation o { o with identifiers := l' } from
        ⟨rfl, rfl, rfl, hp, .refl _, .refl _⟩)).identifiers k
    rw [DeviceObservation.carried, DeviceObservation.carried, filter_append, filter_append] at hties
    exact append_cancel_right hties
  macs o ho := by
    refine separates_filterMap_iff.mp fun l' hp k => ?_
    have hties := sameTies_sortedBy_iff.mp (hcanonical.sameOrder hrun ho
      (show SameObservation o { o with interfaces := l' } from
        ⟨rfl, rfl, rfl, .refl _, hp, .refl _⟩)).identifiers k
    rw [DeviceObservation.carried, DeviceObservation.carried, filter_append, filter_append] at hties
    exact append_cancel_left hties
  values o ho f f' g hf hf' hg := by
    have h := correlate_accepted hrun
    obtain ⟨d, hd, hmem, -⟩ := h.existsUnique_device ho
    have hsaid : ∀ {fact}, fact ∈ d.facts ↔ Says observations o fact :=
      h.mem_facts_iff_says hd ho hmem
    exact fieldFree_iff.mp (hcanonical.fieldFree hrun hd) f (hsaid.mpr hf) f' (hsaid.mpr hf') g
      (hsaid.mpr hg)

end

/-- The result shows no order exactly when the sort keys leave none open. -/
theorem canonical_iff {rt : Runtime} {so : SetOrder} {observations : List DeviceObservation}
    {r : CorrelationResult} (hrun : correlate rt so observations = .ok r) :
    Canonical rt observations ↔ TieFree rt observations :=
  ⟨fun h => h.tieFree hrun, TieFree.canonical⟩

/-- The evidence of the observation has different sort keys, and its two systems differ in more than
case. -/
theorem canonical_sample : Canonical Sample.runtime [Sample.rich, Sample.b, Sample.a] := by
  obtain ⟨r, hrun⟩ := Except.exists_of_isOk (by decide +kernel :
    (correlate Sample.runtime .insertion [Sample.rich, Sample.b, Sample.a]).isOk = true)
  have hfacts : ∀ o ∈ [Sample.rich, Sample.b, Sample.a],
      (o.facts.map (factSortKey Sample.runtime)).Nodup := by
    decide +kernel
  have hinterfaces : ∀ o ∈ [Sample.rich, Sample.b, Sample.a],
      (o.interfaces.map interfaceSortKey).Nodup := by
    decide +kernel
  have hidentifiers : [Sample.rich, Sample.b, Sample.a].all
      (fun o => (o.identifiers.map identitySortKey).Nodup) = true := by
    decide +kernel
  have hmacs : [Sample.rich, Sample.b, Sample.a].all (fun o =>
      ((o.interfaces.filterMap InterfaceEvidence.macIdentity).map identitySortKey).Nodup) = true := by
    decide +kernel
  refine (canonical_iff hrun).mpr ⟨?_, ?_, ?_, ?_, ?_⟩
  · exact fun o ho _ hf _ hf' => inj_on_of_nodup_map (hfacts o ho) hf hf'
  · exact fun o ho _ hi _ hi' => inj_on_of_nodup_map (hinterfaces o ho) hi hi'
  · exact fun o ho _ he _ he' =>
      inj_on_of_nodup_map (of_decide_eq_true (all_eq_true.mp hidentifiers o ho)) he he'
  · exact fun o ho _ he _ he' =>
      inj_on_of_nodup_map (of_decide_eq_true (all_eq_true.mp hmacs o ho)) he he'
  · rintro o - f f' - ⟨o₁, ho₁, -, hf⟩ ⟨o₂, ho₂, -, hf'⟩ - - - - hfold
    have hvalues : ∀ o ∈ [Sample.rich, Sample.b, Sample.a], ∀ o' ∈ [Sample.rich, Sample.b, Sample.a],
        ∀ f ∈ o.facts, ∀ f' ∈ o'.facts,
          Sample.runtime.casefold f.value.val = Sample.runtime.casefold f'.value.val →
            f.value.val = f'.value.val := by
      decide +kernel
    exact hvalues o₁ ho₁ o₂ ho₂ f hf f' hf' hfold

theorem isText_upper : IsText 1024 (str "X1") := by decide
theorem isText_lower : IsText 1024 (str "x1") := by decide

/-- An observation whose source states a model in two spellings. -/
def Sample.spelled : DeviceObservation :=
  { observationId := ⟨str "a", isText_a⟩, source := Sample.source
    observedAt := Sample.observedAt, identifiers := [], interfaces := []
    facts := [⟨str "model", ⟨str "X1", isText_upper⟩, Sample.source, Sample.observedAt,
        defaultConfidence⟩,
      ⟨str "model", ⟨str "x1", isText_lower⟩, Sample.source, Sample.observedAt,
        defaultConfidence⟩] }

/-- Two spellings of one value stay in the order of the observation. -/
theorem not_canonical : ¬ ∀ (rt : Runtime) (observations : List DeviceObservation),
    (observations.map DeviceObservation.id).Nodup → Canonical rt observations := by
  intro h
  obtain ⟨r, hrun⟩ := Except.exists_of_isOk (by decide +kernel :
    (correlate Sample.runtime .insertion [Sample.spelled]).isOk = true)
  have hfree := (h Sample.runtime [Sample.spelled] (nodup_singleton _)).tieFree hrun
  have heq := hfree.facts Sample.spelled mem_cons_self _ mem_cons_self _
    (mem_cons_of_mem _ mem_cons_self) (by decide +kernel)
  exact absurd (congrArg (fun f => f.value.val) heq) (by decide +kernel)

end FieldDiscovery.Correlation
