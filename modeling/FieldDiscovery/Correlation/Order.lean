import FieldDiscovery.Correlation.Partition

/-!
# Input order does not matter

Reordering the batch, and the evidence inside every observation, changes nothing that correlation
reports, except the order of the values inside a conflict.

Sorting cancels the outer order, since observation IDs are distinct. It does not quite cancel the
inner one: evidence whose sort keys tie stays in input order. The relation carried through the
stages is therefore `SameIdentity`, equal sort keys, and every stage reads no more of an
identifier than its sort key. For facts nothing better than a permutation survives, and it reaches
only the values of a conflict.
-/

namespace FieldDiscovery.Correlation

open Py UnionFind List

/-! ## Reordered batches -/

/-- The same observation with its evidence in another order. -/
structure SameObservation (o o' : DeviceObservation) : Prop where
  observationId : o.observationId = o'.observationId
  source : o.source = o'.source
  observedAt : o.observedAt = o'.observedAt
  identifiers : o.identifiers.Perm o'.identifiers
  interfaces : o.interfaces.Perm o'.interfaces
  facts : o.facts.Perm o'.facts

theorem SameObservation.refl (o : DeviceObservation) : SameObservation o o :=
  ⟨rfl, rfl, rfl, .refl _, .refl _, .refl _⟩

/-- The same batch in another order, on both levels. -/
def Reordered (observations observations' : List DeviceObservation) : Prop :=
  ∃ permuted, observations.Perm permuted ∧ Forall₂ SameObservation permuted observations'

/-- What correlation reads of an identifier. -/
def SameIdentity (e e' : IdentityEvidence) : Prop := identitySortKey e = identitySortKey e'

theorem SameIdentity.kind {e e' : IdentityEvidence} (h : SameIdentity e e') : e.kind = e'.kind :=
  IdentifierKind.value_injective (congrArg (fun k => (ofLex k).1) h)

theorem SameIdentity.value {e e' : IdentityEvidence} (h : SameIdentity e e') : e.value = e'.value :=
  congrArg (fun k => (ofLex (ofLex k).2).1) h

theorem SameIdentity.confidence {e e' : IdentityEvidence} (h : SameIdentity e e') :
    e.confidence = e'.confidence :=
  congrArg (fun k => (ofLex (ofLex (ofLex (ofLex k).2).2).2).2) h

theorem SameIdentity.key {e e' : IdentityEvidence} (h : SameIdentity e e') : e.key = e'.key := by
  rw [IdentityEvidence.key, IdentityEvidence.key, h.kind, h.value]

theorem SameIdentity.merges {e e' : IdentityEvidence} (h : SameIdentity e e') :
    e.merges = e'.merges := by
  rw [IdentityEvidence.merges, IdentityEvidence.merges, h.kind, h.confidence]

/-- Lists with equal keys are pointwise related by their keys. -/
theorem forall₂_of_map_eq {α κ : Type*} {key : α → κ} {l l' : List α}
    (h : l.map key = l'.map key) : Forall₂ (fun a b => key a = key b) l l' := by
  have heq : Forall₂ (· = ·) (l.map key) (l'.map key) := by rw [forall₂_eq_eq_eq, h]
  rwa [forall₂_map_left_iff, forall₂_map_right_iff] at heq

/-! ## Observations -/

section Observations

variable {o o' : DeviceObservation} {l l' : List DeviceObservation}

theorem SameObservation.id (h : SameObservation o o') : o.id = o'.id :=
  congrArg Subtype.val h.observationId

theorem SameObservation.carried (h : SameObservation o o') : o.carried.Perm o'.carried :=
  h.identifiers.append (h.interfaces.filterMap _)

theorem SameObservation.allIdentifiers (h : SameObservation o o') :
    Forall₂ SameIdentity (allIdentifiers o) (allIdentifiers o') :=
  forall₂_of_map_eq (map_sortedBy_of_perm h.carried)

theorem flatMap_allIdentifiers (h : Forall₂ SameObservation l l') :
    Forall₂ SameIdentity (l.flatMap allIdentifiers) (l'.flatMap allIdentifiers) :=
  rel_flatMap h fun _ _ ho => SameObservation.allIdentifiers ho

theorem map_id_eq (h : Forall₂ SameObservation l l') :
    l.map DeviceObservation.id = l'.map DeviceObservation.id :=
  h.map_eq fun _ _ ho => ho.id

/-- With distinct IDs, sorting cancels the order of the batch. -/
theorem Reordered.ordered (h : Reordered l l') (hnd : (l.map DeviceObservation.id).Nodup) :
    Forall₂ SameObservation (ordered l) (ordered l') := by
  obtain ⟨permuted, hperm, hsame⟩ := h
  have heq : Correlation.ordered l = Correlation.ordered permuted := sortedBy_eq_of_perm hperm hnd
  rw [heq]
  exact sortedBy_forall₂ (fun _ _ ho => ho.id) hsame

theorem flatMap_facts (h : Forall₂ SameObservation l l') :
    (l.flatMap DeviceObservation.facts).Perm (l'.flatMap DeviceObservation.facts) := by
  induction h with
  | nil => exact .refl _
  | cons ho _ ih => exact ho.facts.append ih

end Observations

/-! ## The merge loop -/

/-- Claims of one observation on evidence with one sort key. -/
def SameClaim (c c' : Claim) : Prop := c.1 = c'.1 ∧ SameIdentity c.2 c'.2

theorem stableClaims_forall₂ {l l' : List DeviceObservation} (h : Forall₂ SameObservation l l') :
    Forall₂ SameClaim (stableClaims l) (stableClaims l') := by
  refine rel_flatMap h fun o o' ho => ?_
  refine rel_map ?_ (ho.allIdentifiers.filter fun _ _ he => he.merges)
  exact fun e e' he => ⟨ho.id, he⟩

theorem mergeStep_congr {fuel : Nat} {key : Str} {st : MergeState}
    {first first' other other' : Claim} (hf : SameClaim first first')
    (ho : SameClaim other other') :
    mergeStep fuel key first st other = mergeStep fuel key first' st other' := by
  unfold mergeStep
  rw [hf.1, ho.1, hf.2.confidence, ho.2.confidence]

theorem mergeKey_congr {fuel : Nat} {st : MergeState} {entry entry' : Str × List Claim}
    (h : SameGroup SameClaim entry entry') : mergeKey fuel st entry = mergeKey fuel st entry' := by
  have hsorted : Forall₂ SameClaim (sortedBy Prod.fst entry.2) (sortedBy Prod.fst entry'.2) :=
    sortedBy_forall₂ (fun _ _ hc => hc.1) h.2
  unfold mergeKey
  rw [h.1]
  generalize sortedBy Prod.fst entry.2 = sorted at hsorted
  generalize sortedBy Prod.fst entry'.2 = sorted' at hsorted
  cases hsorted with
  | nil => rfl
  | cons hfirst hrest =>
    simp only
    induction hrest generalizing st with
    | nil => rfl
    | cons hother _ ih => rw [foldl_cons, foldl_cons, mergeStep_congr hfirst hother, ih]

/-- The whole merge loop depends only on what correlation reads of the claims. -/
theorem merge_congr {l l' : List DeviceObservation} (h : Forall₂ SameObservation l l') :
    merge l = merge l' := by
  have hindex : Forall₂ (SameGroup SameClaim) (stableIndex l) (stableIndex l') :=
    groupBy_forall₂ (fun _ _ hc => hc.2.key) (stableClaims_forall₂ h)
  have hsorted : Forall₂ (SameGroup SameClaim) (sortedBy Prod.fst (stableIndex l))
      (sortedBy Prod.fst (stableIndex l')) := sortedBy_forall₂ (fun _ _ hg => hg.1) hindex
  unfold merge
  rw [h.length_eq]
  generalize ({ parent := fun id => id, decisions := [] } : MergeState) = st
  generalize sortedBy Prod.fst (stableIndex l) = entries at hsorted
  generalize sortedBy Prod.fst (stableIndex l') = entries' at hsorted
  induction hsorted generalizing st with
  | nil => rfl
  | cons hentry _ ih => rw [foldl_cons, foldl_cons, mergeKey_congr hentry, ih]

/-! ## Groups and devices -/

theorem groupLoop_forall₂ {fuel : Nat} {parent : Str → Str} {l l' : List DeviceObservation}
    (h : Forall₂ SameObservation l l') :
    Forall₂ (fun p q => p.1 = q.1 ∧ SameObservation p.2 q.2) (groupLoop fuel parent l)
      (groupLoop fuel parent l') := by
  induction h generalizing parent with
  | nil => exact .nil
  | cons ho _ ih =>
    simp only [groupLoop]
    rw [ho.id]
    exact .cons ⟨rfl, ho⟩ ih

theorem groups_forall₂ {l l' : List DeviceObservation} {st : MergeState}
    (h : Forall₂ SameObservation l l') :
    Forall₂ (Forall₂ SameObservation) (groups l st) (groups l' st) := by
  unfold groups
  rw [h.length_eq]
  refine rel_map (fun g g' hg => ?_) (groupBy_forall₂ (fun _ _ hp => hp.1) (groupLoop_forall₂ h))
  have hmembers : Forall₂ SameObservation (g.2.map Prod.snd) (g'.2.map Prod.snd) := by
    rw [forall₂_map_left_iff, forall₂_map_right_iff]
    exact hg.2.imp fun _ _ hp => hp.2
  exact sortedBy_forall₂ (fun _ _ ho => ho.id) hmembers

theorem canonicalSeed_congr {l l' : List DeviceObservation} (h : Forall₂ SameObservation l l') :
    canonicalSeed l = canonicalSeed l' := by
  have hkeys : ((l.flatMap allIdentifiers).filter (·.merges)).map IdentityEvidence.key =
      ((l'.flatMap allIdentifiers).filter (·.merges)).map IdentityEvidence.key :=
    ((flatMap_allIdentifiers h).filter fun _ _ he => he.merges).map_eq fun _ _ he => he.key
  unfold canonicalSeed
  rw [hkeys]
  cases h with
  | nil => rfl
  | @cons o o' l l' ho _ =>
    cases sortedSet ((((o' :: l').flatMap allIdentifiers).filter (·.merges)).map
      IdentityEvidence.key) with
    | nil => exact congrArg (str "observation:" ++ ·) ho.id
    | cons => rfl

/-- The same device, up to evidence whose sort keys tie. -/
structure SameCanonical (d d' : CanonicalDevice) : Prop where
  canonicalKey : d.canonicalKey = d'.canonicalKey
  observationIds : d.observationIds = d'.observationIds
  confidence : d.confidence = d'.confidence
  identifiers : Forall₂ SameIdentity d.identifiers d'.identifiers
  facts : d.facts.Perm d'.facts

theorem deviceConfidence_congr {decisions : List CorrelationDecision} {ids : List Str}
    {l l' : List IdentityEvidence} (h : Forall₂ SameIdentity l l') :
    deviceConfidence decisions ids l = deviceConfidence decisions ids l' := by
  have hconf : (l.filter (·.kind.isStable)).map IdentityEvidence.confidence =
      (l'.filter (·.kind.isStable)).map IdentityEvidence.confidence :=
    (h.filter fun _ _ he => by rw [he.kind]).map_eq fun _ _ he => he.confidence
  unfold deviceConfidence
  rw [hconf]

theorem device_rel {rt : Runtime} {decisions : List CorrelationDecision}
    {l l' : List DeviceObservation} (h : Forall₂ SameObservation l l') :
    Except.Rel SameCanonical (device rt decisions l) (device rt decisions l') := by
  have hidents : Forall₂ SameIdentity (sortedBy identitySortKey (l.flatMap allIdentifiers))
      (sortedBy identitySortKey (l'.flatMap allIdentifiers)) :=
    sortedBy_forall₂ (fun _ _ he => he) (flatMap_allIdentifiers h)
  have hfacts : (sortedBy (factSortKey rt) (l.flatMap DeviceObservation.facts)).Perm
      (sortedBy (factSortKey rt) (l'.flatMap DeviceObservation.facts)) :=
    (sortedBy_perm _ _).trans ((flatMap_facts h).trans (sortedBy_perm _ _).symm)
  have hkey : canonicalKey rt l = canonicalKey rt l' := by
    rw [canonicalKey, canonicalKey, canonicalSeed_congr h]
  unfold device
  rw [hkey]
  cases canonicalKey rt l' with
  | error e => exact .error e
  | ok key =>
    refine .ok ⟨rfl, map_id_eq h, ?_, hidents, hfacts⟩
    simp only [map_id_eq h]
    exact deviceConfidence_congr hidents

/-! ## Conflicts -/

/-- The same conflict, its values in any order. -/
structure SameConflict (c c' : CorrelationConflict) : Prop where
  conflictKind : c.conflictKind = c'.conflictKind
  key : c.key = c'.key
  canonicalKeys : c.canonicalKeys = c'.canonicalKeys
  values : c.values.Perm c'.values
  observationIds : c.observationIds = c'.observationIds
  explanation : c.explanation = c'.explanation

theorem SameConflict.refl (c : CorrelationConflict) : SameConflict c c :=
  ⟨rfl, rfl, rfl, .refl _, rfl, rfl⟩

theorem reuseConflicts_congr {l l' : List CanonicalDevice} (h : Forall₂ SameCanonical l l') :
    reuseConflicts l = reuseConflicts l' := by
  have hclaims : Forall₂ (fun c c' : CanonicalDevice × IdentityEvidence =>
      SameCanonical c.1 c'.1 ∧ SameIdentity c.2 c'.2)
      (l.flatMap fun d => (d.identifiers.filter fun e => e.kind = .hostname || e.kind = .ipv4).map
        fun e => (d, e))
      (l'.flatMap fun d => (d.identifiers.filter fun e => e.kind = .hostname || e.kind = .ipv4).map
        fun e => (d, e)) := by
    refine rel_flatMap h fun d d' hd => ?_
    refine rel_map ?_ (hd.identifiers.filter fun _ _ he => by rw [he.kind])
    exact fun e e' he => ⟨hd, he⟩
  let kindAndValue : CanonicalDevice × IdentityEvidence → Str ×ₗ Str :=
    fun c => toLex (c.2.kind.value, c.2.value)
  have hkey : ∀ c c' : CanonicalDevice × IdentityEvidence,
      SameCanonical c.1 c'.1 ∧ SameIdentity c.2 c'.2 → kindAndValue c = kindAndValue c' :=
    fun c c' hc => by simp only [kindAndValue, hc.2.kind, hc.2.value]
  have hgroups := sortedBy_forall₂ (fun _ _ hg => hg.1) (groupBy_forall₂ hkey hclaims)
  unfold reuseConflicts
  rw [← forall₂_eq_eq_eq]
  refine rel_filterMap (fun g g' hg => ?_) hgroups
  have hkeys : g.2.map (fun c => c.1.canonicalKey) = g'.2.map fun c => c.1.canonicalKey :=
    hg.2.map_eq fun _ _ hc => hc.1.canonicalKey
  have hids : g.2.flatMap (fun c => c.1.observationIds) =
      g'.2.flatMap fun c => c.1.observationIds := by
    rw [flatMap_def, flatMap_def, hg.2.map_eq fun _ _ hc => hc.1.observationIds]
  simp only [hg.1, hkeys, hids]
  split
  · exact .some rfl
  · exact .none

theorem serialConflicts_congr {d d' : CanonicalDevice} (h : SameCanonical d d') :
    serialConflicts d = serialConflicts d' := by
  have hserials : (d.identifiers.filter (·.kind = .serial)).map IdentityEvidence.value =
      (d'.identifiers.filter (·.kind = .serial)).map IdentityEvidence.value :=
    (h.identifiers.filter fun _ _ he => by rw [he.kind]).map_eq fun _ _ he => he.value
  unfold serialConflicts
  rw [hserials, h.canonicalKey, h.observationIds]

theorem factConflicts_forall₂ (rt : Runtime) (so so' : SetOrder) {d d' : CanonicalDevice}
    (h : SameCanonical d d') :
    Forall₂ SameConflict (factConflicts rt so d) (factConflicts rt so' d') := by
  unfold factConflicts
  refine rel_filterMap (fun g g' hg => ?_)
    (sortedBy_groupBy_perm FactEvidence.field h.facts)
  have hvalues : (sortedBy rt.casefold (so.iterate (g.2.map fun f => f.value.val))).Perm
      (sortedBy rt.casefold (so'.iterate (g'.2.map fun f => f.value.val))) :=
    calc sortedBy rt.casefold (so.iterate (g.2.map fun f => f.value.val))
      _ |>.Perm (so.iterate (g.2.map fun f => f.value.val)) := sortedBy_perm _ _
      _ |>.Perm (g.2.map fun f => f.value.val).dedup := so.iterate_perm _
      _ |>.Perm (g'.2.map fun f => f.value.val).dedup := (hg.2.map _).dedup
      _ |>.Perm (so'.iterate (g'.2.map fun f => f.value.val)) := (so'.iterate_perm _).symm
      _ |>.Perm (sortedBy rt.casefold (so'.iterate (g'.2.map fun f => f.value.val))) :=
        (sortedBy_perm _ _).symm
  have hsources : (g.2.map fun f => f.source.val).dedup.length =
      (g'.2.map fun f => f.source.val).dedup.length := (hg.2.map _).dedup.length_eq
  simp only [hvalues.length_eq, hsources]
  split
  · exact .some ⟨rfl, hg.1, by rw [h.canonicalKey], hvalues, h.observationIds, rfl⟩
  · exact .none

theorem findConflicts_forall₂ (rt : Runtime) (so so' : SetOrder) {l l' : List CanonicalDevice}
    (h : Forall₂ SameCanonical l l') :
    Forall₂ SameConflict (findConflicts rt so l) (findConflicts rt so' l') := by
  unfold findConflicts
  refine sortedBy_forall₂ (fun c c' hc => ?_) (rel_append ?_ ?_)
  · rw [hc.conflictKind, hc.key, hc.canonicalKeys]
  · rw [reuseConflicts_congr h]
    exact forall₂_same.mpr fun c _ => .refl c
  · refine rel_flatMap h fun d d' hd => rel_append ?_ (factConflicts_forall₂ rt so so' hd)
    rw [serialConflicts_congr hd]
    exact forall₂_same.mpr fun c _ => .refl c

/-! ## Main theorem -/

/-- What two results have in common when only the order of their inputs differs. -/
structure SameResult (r r' : CorrelationResult) : Prop where
  devices : Forall₂ (fun d d' => d.canonicalKey = d'.canonicalKey ∧
    d.observationIds = d'.observationIds ∧ d.confidence = d'.confidence) r.devices r'.devices
  decisions : r.decisions = r'.decisions
  conflicts : Forall₂ SameConflict r.conflicts r'.conflicts

/-- Correlation does not depend on the order of the batch, nor on that of the evidence inside an
observation, nor on the iteration order of the sets on the way. -/
theorem correlate_order_insensitive (rt : Runtime) (so so' : SetOrder)
    {observations observations' : List DeviceObservation}
    (hnd : (observations.map DeviceObservation.id).Nodup)
    (h : Reordered observations observations') :
    Except.Rel SameResult (correlate rt so observations) (correlate rt so' observations') := by
  have hordered := h.ordered hnd
  have hdup : firstDuplicate ((ordered observations).map DeviceObservation.id) = none :=
    firstDuplicate_eq_none.mpr (((ordered_perm observations).map _).nodup_iff.mpr hnd)
  have hdup' := hdup
  rw [map_id_eq hordered] at hdup'
  unfold correlate
  simp only [hdup, hdup', merge_congr hordered]
  have hdevices : Except.Rel (Forall₂ SameCanonical)
      ((groups (ordered observations) (merge (ordered observations'))).mapM
        (device rt (merge (ordered observations')).decisions))
      ((groups (ordered observations') (merge (ordered observations'))).mapM
        (device rt (merge (ordered observations')).decisions)) :=
    Except.mapM_rel ((groups_forall₂ hordered).imp fun _ _ hg => device_rel hg)
  refine hdevices.bind fun devices devices' hdev => .ok ?_
  have hsorted : Forall₂ SameCanonical (sortedBy CanonicalDevice.canonicalKey devices)
      (sortedBy CanonicalDevice.canonicalKey devices') :=
    sortedBy_forall₂ (fun _ _ hd => hd.canonicalKey) hdev
  exact
    { devices := hsorted.imp fun _ _ hd => ⟨hd.canonicalKey, hd.observationIds, hd.confidence⟩
      decisions := rfl
      conflicts := findConflicts_forall₂ rt so so' hsorted }

/-- The evidence of an observation, listed the other way round. -/
def Sample.richReversed : DeviceObservation :=
  { Sample.rich with
    identifiers := Sample.rich.identifiers.reverse
    interfaces := Sample.rich.interfaces.reverse
    facts := Sample.rich.facts.reverse }

theorem correlate_order_insensitive_sample :
    (correlate Sample.runtime .insertion [Sample.rich, Sample.b, Sample.a]).isOk = true ∧
    Except.Rel SameResult
      (correlate Sample.runtime .insertion [Sample.rich, Sample.b, Sample.a])
      (correlate Sample.runtime .insertion [Sample.a, Sample.b, Sample.richReversed]) := by
  refine ⟨by decide +kernel, correlate_order_insensitive _ _ _ (by decide)
    ⟨[Sample.a, Sample.b, Sample.rich], reverse_perm [Sample.a, Sample.b, Sample.rich], ?_⟩⟩
  have hrich : SameObservation Sample.rich Sample.richReversed :=
    ⟨rfl, rfl, rfl, (reverse_perm _).symm, (reverse_perm _).symm, (reverse_perm _).symm⟩
  exact .cons (.refl _) (.cons (.refl _) (.cons hrich .nil))

end FieldDiscovery.Correlation
