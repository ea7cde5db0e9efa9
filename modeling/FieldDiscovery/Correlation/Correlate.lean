import FieldDiscovery.Lib.Sorted
import FieldDiscovery.Lib.UnionFind
import FieldDiscovery.Correlation.Evidence

/-!
# Device correlation

`correlate` of `correlation.py`, stage by stage: the observations are sorted and checked for
duplicate IDs, stable high-confidence identifiers are indexed by key, every key's claims are united
with its first claim, the observations are grouped by root, and conflicts are read off the groups.

A Python set of strings that is sorted by less than its full value leaks its iteration order, which
depends on the hash seed of the process. `SetOrder` is that order as a parameter.
-/

namespace FieldDiscovery.Correlation

open Py UnionFind

/-! ## Results -/

/-- Auditable reason two observations belong to one canonical device. -/
structure CorrelationDecision where
  leftObservationId : Str
  rightObservationId : Str
  evidenceKey : Str
  confidence : Confidence
  reason : Str
  deriving DecidableEq

/-- Conflicting or reused evidence retained rather than silently overwritten. -/
structure CorrelationConflict where
  conflictKind : Str
  key : Str
  canonicalKeys : List Str
  values : List Str
  observationIds : List Str
  explanation : Str
  deriving DecidableEq

/-- Deterministic correlated representation with all original evidence. -/
structure CanonicalDevice where
  canonicalKey : Str
  observationIds : List Str
  identifiers : List IdentityEvidence
  interfaces : List InterfaceEvidence
  facts : List FactEvidence
  confidence : Confidence

/-- Canonical devices plus explicit merge decisions and conflicts. -/
structure CorrelationResult where
  devices : List CanonicalDevice
  decisions : List CorrelationDecision
  conflicts : List CorrelationConflict

/-! ## Sort keys -/

/-- `_identity_sort_key`. -/
def identitySortKey (e : IdentityEvidence) : Str ×ₗ Str ×ₗ Str ×ₗ Str ×ₗ Confidence :=
  toLex (e.kind.value, toLex (e.value, toLex (e.source.val,
    toLex (e.observedAt.isoformat, e.confidence))))

/-- `_interface_sort_key`. -/
def interfaceSortKey (i : InterfaceEvidence) : Str ×ₗ Str ×ₗ Str ×ₗ Str :=
  toLex (i.interfaceKey.val, toLex (i.source.val,
    toLex (i.observedAt.isoformat, (i.macAddress.map Subtype.val).getD [])))

/-- `_fact_sort_key`. -/
def factSortKey (rt : Runtime) (f : FactEvidence) : Str ×ₗ Str ×ₗ Str ×ₗ Str :=
  toLex (f.field, toLex (rt.casefold f.value.val,
    toLex (f.source.val, f.observedAt.isoformat)))

/-- The identifiers of an observation, those of its interfaces included, in no order. -/
def DeviceObservation.carried (o : DeviceObservation) : List IdentityEvidence :=
  o.identifiers ++ o.interfaces.filterMap InterfaceEvidence.macIdentity

/-- `_all_identifiers`. -/
def allIdentifiers (o : DeviceObservation) : List IdentityEvidence :=
  sortedBy identitySortKey o.carried

/-! ## Canonical keys -/

/-- The seed of `_canonical_key`: the least stable key, else the first observation's ID. -/
def canonicalSeed (observations : List DeviceObservation) : Str :=
  let stable := sortedSet
    (((observations.flatMap allIdentifiers).filter (·.merges)).map IdentityEvidence.key)
  match stable, observations with
  | key :: _, _ => key
  | [], o :: _ => str "observation:" ++ o.id
  | [], [] => str "observation:"

/-- `f"device-{sha256(seed.encode()).hexdigest()[:20]}"`. -/
def deviceKey (rt : Runtime) (seed : Str) : Except Exc Str :=
  match encodeUtf8 seed with
  | some data => .ok (str "device-" ++ (rt.sha256 data).take 20)
  | none => .error .unicodeEncode

/-- `_canonical_key`. -/
def canonicalKey (rt : Runtime) (observations : List DeviceObservation) : Except Exc Str :=
  deviceKey rt (canonicalSeed observations)

/-! ## Merging -/

/-- The explanation stored with every decision. -/
def mergeReason : Str :=
  str "matched stable identifier; hostname and IP were not used as merge evidence"

/-- The mutable state of the merge loop. -/
structure MergeState where
  parent : Str → Str
  decisions : List CorrelationDecision

/-- One claim on stable evidence: the observation that holds it, and the evidence. -/
abbrev Claim := Str × IdentityEvidence

/-- The body of `for other_id, other_evidence in claims[1:]`. -/
def mergeStep (fuel : Nat) (evidenceKey : Str) (first : Claim) (st : MergeState)
    (other : Claim) : MergeState :=
  let (parent, firstRoot) := find fuel st.parent first.1
  let (parent, otherRoot) := find fuel parent other.1
  if firstRoot = otherRoot then { st with parent }
  else
    let decision : CorrelationDecision :=
      { leftObservationId := first.1, rightObservationId := other.1, evidenceKey
        confidence := min first.2.confidence other.2.confidence, reason := mergeReason }
    { parent := union fuel parent first.1 other.1, decisions := st.decisions ++ [decision] }

/-- The body of `for evidence_key in sorted(stable_index)`. -/
def mergeKey (fuel : Nat) (st : MergeState) (entry : Str × List Claim) : MergeState :=
  match sortedBy Prod.fst entry.2 with
  | [] => st
  | first :: rest => rest.foldl (mergeStep fuel entry.1 first) st

/-- Every claim on stable, high-confidence evidence, in the order the index is filled. -/
def stableClaims (ordered : List DeviceObservation) : List Claim :=
  ordered.flatMap fun o => ((allIdentifiers o).filter (·.merges)).map fun e => (o.id, e)

/-- `stable_index`. -/
def stableIndex (ordered : List DeviceObservation) : List (Str × List Claim) :=
  groupBy (fun claim => claim.2.key) (stableClaims ordered)

/-- The state after the merge loop. `parent` starts as the identity on the registered IDs, and the
fuel of `find` is their number. -/
def merge (ordered : List DeviceObservation) : MergeState :=
  (sortedBy Prod.fst (stableIndex ordered)).foldl (mergeKey ordered.length)
    { parent := fun id => id, decisions := [] }

/-! ## Grouping -/

/-- `for observation in ordered: groups[find(observation.observation_id)].append(observation)`,
with the parent table that `find` rewrites on the way. -/
def groupLoop (fuel : Nat) : (Str → Str) → List DeviceObservation →
    List (Str × DeviceObservation)
  | _, [] => []
  | parent, o :: rest =>
    let (parent, root) := find fuel parent o.id
    (root, o) :: groupLoop fuel parent rest

/-- `groups.values()`. -/
def groups (ordered : List DeviceObservation) (st : MergeState) : List (List DeviceObservation) :=
  (groupBy Prod.fst (groupLoop ordered.length st.parent ordered)).map fun g =>
    sortedBy DeviceObservation.id (g.2.map Prod.snd)

/-- The confidence of a device: that of its weakest decision, or of its best stable identifier. -/
def deviceConfidence (decisions : List CorrelationDecision) (ids : List Str)
    (identifiers : List IdentityEvidence) : Confidence :=
  let matching := decisions.filter fun d =>
    decide (d.leftObservationId ∈ ids) && decide (d.rightObservationId ∈ ids)
  match matching.map CorrelationDecision.confidence with
  | c :: cs => cs.foldl min c
  | [] =>
    match (identifiers.filter (·.kind.isStable)).map IdentityEvidence.confidence with
    | c :: cs => cs.foldl max c
    | [] => defaultConfidence

/-- The device of one group. -/
def device (rt : Runtime) (decisions : List CorrelationDecision)
    (members : List DeviceObservation) : Except Exc CanonicalDevice := do
  let canonicalKey ← canonicalKey rt members
  let observationIds := members.map DeviceObservation.id
  let identifiers := sortedBy identitySortKey (members.flatMap allIdentifiers)
  .ok
    { canonicalKey, observationIds, identifiers
      interfaces := sortedBy interfaceSortKey (members.flatMap DeviceObservation.interfaces)
      facts := sortedBy (factSortKey rt) (members.flatMap DeviceObservation.facts)
      confidence := deviceConfidence decisions observationIds identifiers }

/-! ## Conflicts -/

/-- Hostnames and IPv4 addresses seen on more than one device. -/
def reuseConflicts (devices : List CanonicalDevice) : List CorrelationConflict :=
  let claims := devices.flatMap fun d =>
    (d.identifiers.filter fun e => e.kind = .hostname || e.kind = .ipv4).map fun e => (d, e)
  let reusable := groupBy (fun c : CanonicalDevice × IdentityEvidence =>
    toLex (c.2.kind.value, c.2.value)) claims
  (sortedBy Prod.fst reusable).filterMap fun entry =>
    let (kind, value) := ofLex entry.1
    let canonicalKeys := sortedSet (entry.2.map fun c => c.1.canonicalKey)
    if 1 < canonicalKeys.length then
      some
        { conflictKind := str "reused_" ++ kind
          key := kind ++ str ":" ++ value
          canonicalKeys, values := [value]
          observationIds := sortedSet (entry.2.flatMap fun c => c.1.observationIds)
          explanation := kind ++ str " appears on multiple devices and was not used to merge them" }
    else none

/-- More than one serial on a device. -/
def serialConflicts (d : CanonicalDevice) : List CorrelationConflict :=
  let serials := sortedSet
    ((d.identifiers.filter (·.kind = .serial)).map IdentityEvidence.value)
  if 1 < serials.length then
    [{ conflictKind := str "conflicting_serial", key := str "serial"
       canonicalKeys := [d.canonicalKey], values := serials, observationIds := d.observationIds
       explanation := str ("sources reported different serials for a device joined by other " ++
         "stable evidence") }]
  else []

/-- Different values of one field from more than one source. -/
def factConflicts (rt : Runtime) (so : SetOrder) (d : CanonicalDevice) :
    List CorrelationConflict :=
  (sortedBy Prod.fst (groupBy FactEvidence.field d.facts)).filterMap fun entry =>
    let values : List Str := sortedBy rt.casefold (so.iterate (entry.2.map fun f => f.value.val))
    let sources : List Str := (entry.2.map fun f => f.source.val).dedup
    if 1 < values.length ∧ 1 < sources.length then
      some
        { conflictKind := str "source_disagreement", key := entry.1
          canonicalKeys := [d.canonicalKey], values, observationIds := d.observationIds
          explanation := str ("multiple sources reported different values; " ++
            "all evidence is retained") }
    else none

/-- `_find_conflicts`. -/
def findConflicts (rt : Runtime) (so : SetOrder) (devices : List CanonicalDevice) :
    List CorrelationConflict :=
  sortedBy (fun c : CorrelationConflict => toLex (c.conflictKind, toLex (c.key, c.canonicalKeys)))
    (reuseConflicts devices ++
      devices.flatMap fun d => serialConflicts d ++ factConflicts rt so d)

/-! ## The algorithm -/

/-- `ordered`, the observations by ID. -/
def ordered (observations : List DeviceObservation) : List DeviceObservation :=
  sortedBy DeviceObservation.id observations

/-- The first ID that the registration loop meets twice. -/
def firstDuplicate : List Str → Option Str
  | [] => none
  | id :: ids => if id ∈ ids then some id else firstDuplicate ids

/-- `correlate`. -/
def correlate (rt : Runtime) (so : SetOrder) (observations : List DeviceObservation) :
    Except Exc CorrelationResult :=
  let ordered := ordered observations
  match firstDuplicate (ordered.map DeviceObservation.id) with
  | some id => .error (.normalization (str "duplicate observation ID: " ++ id))
  | none => do
    let st := merge ordered
    let devices ← (groups ordered st).mapM (device rt st.decisions)
    let devices := sortedBy CanonicalDevice.canonicalKey devices
    .ok
      { devices
        decisions := sortedBy (fun d : CorrelationDecision =>
          toLex (d.evidenceKey, d.leftObservationId)) st.decisions
        conflicts := findConflicts rt so devices }

end FieldDiscovery.Correlation
