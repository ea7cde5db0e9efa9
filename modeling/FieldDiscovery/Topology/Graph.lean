import FieldDiscovery.Lib.Dict
import FieldDiscovery.Correlation.Evidence
import FieldDiscovery.Passive.Observation

/-!
# The records of a topology

The evidence, the nodes and the edges of `topology.py`, and the builder that merges them. What a
`__post_init__` checks or rewrites is a field of the structure.
-/

namespace FieldDiscovery.Topology

open Py Correlation Passive

/-! ## Values -/

/-- `raise TopologyError(message)` -/
def topologyError {α : Type} (message : Str) : Except Exc α := .error (.topology message)

/-- `_text` -/
def text (value : Str) (field : String) (maximum : Nat := 512) :
    Except Exc (BoundedText maximum) :=
  if h : strip value ≠ [] ∧ (strip value).length ≤ maximum ∧ cp '\x00' ∉ strip value then
    .ok ⟨strip value, isText_strip h⟩
  else
    topologyError (str field ++ str " is empty or exceeds " ++ natStr maximum ++
      str " characters")

/-- `_utc` -/
def utc : Stamp → Except Exc Utc
  | .naive => topologyError (str "topology evidence timestamp must be timezone-aware")
  | .aware d =>
    match d.astimezone with
    | some t => .ok t
    | none => .error .overflow

/-- `_valid_until` -/
def validUntil (value : Stamp) (observedAt : Utc) : Except Exc {t : Utc // observedAt ≤ t} := do
  let t ← utc value
  if h : observedAt ≤ t then .ok ⟨t, h⟩
  else topologyError (str "valid_until must not precede observed_at")

/-- `_confidence` -/
def checkConfidence (value : ℚ) : Except Exc Confidence :=
  if h : 0 ≤ value ∧ value ≤ 1 then .ok ⟨value, h⟩
  else topologyError (str "confidence must be between 0 and 1")

/-- `node_id` -/
def nodeId (rt : Runtime) (kind identity : Str) : Except Exc Str := do
  let kind ← text kind "node kind" 64
  let identity ← text identity "node identity"
  let kind := rt.casefold kind.val
  match encodeUtf8 (kind ++ str ":" ++ rt.casefold identity.val) with
  | some data => .ok (str "n_" ++ kind ++ str "_" ++ (rt.sha256 data).take 16)
  | none => .error .unicodeEncode

/-! ## Evidence -/

/-- When an item of evidence was observed, and until when it is valid. -/
structure Validity where
  observedAt : Utc
  validUntil : Option Utc
  ordered : ∀ t ∈ validUntil, observedAt ≤ t
  deriving DecidableEq

/-- `SubnetEvidence` -/
structure SubnetEvidence where
  network : Ipv4Network
  source : BoundedText 128
  validity : Validity
  confidence : Confidence

/-- `VlanEvidence` -/
structure VlanEvidence where
  vlanId : Fin 4095
  source : BoundedText 128
  validity : Validity
  subnetCidr : Option Ipv4Network
  name : Option (BoundedText 128)
  confidence : Confidence

/-! ## The graph -/

/-- `TopologyNode` -/
structure TopologyNode where
  nodeId : Str
  kind : Str
  label : BoundedText 512
  deriving DecidableEq

/-- `TopologyEdge` -/
structure TopologyEdge where
  sourceNode : Str
  targetNode : Str
  kind : BoundedText 128
  evidenceSource : BoundedText 128
  confidence : Confidence
  inferred : Bool
  validity : Validity
  noLoop : sourceNode ≠ targetNode

/-- `TopologyEdge(...)`, its `__post_init__` included. -/
def TopologyEdge.new (sourceNode targetNode kind evidenceSource : Str) (confidence : ℚ)
    (inferred : Bool) (observedAt : Utc) (valid : Option Utc) : Except Exc TopologyEdge :=
  if h : sourceNode = targetNode then
    topologyError (str "topology self-edges are not allowed")
  else do
    let kind ← text kind "edge kind" 128
    let evidenceSource ← text evidenceSource "edge evidence source" 128
    let confidence ← checkConfidence confidence
    match valid with
    | none =>
      .ok ⟨sourceNode, targetNode, kind, evidenceSource, confidence, inferred,
        ⟨observedAt, none, by simp⟩, h⟩
    | some t =>
      let t ← validUntil t.stamp observedAt
      .ok ⟨sourceNode, targetNode, kind, evidenceSource, confidence, inferred,
        ⟨observedAt, some t.val, by simpa using t.2⟩, h⟩

/-- `TopologyConflict` -/
structure TopologyConflict where
  kind : Str
  subject : Str
  details : List Str
  sources : List Str
  deriving DecidableEq

/-- `TopologyGraph` -/
structure TopologyGraph where
  nodes : List TopologyNode
  edges : List TopologyEdge
  conflicts : List TopologyConflict
  asOf : Utc
  excludedExpired : Nat
  excludedFuture : Nat
  limitations : List Str

/-! ## The builder -/

/-- The key under which an edge is kept. -/
abbrev EdgeKey := Str ×ₗ Str ×ₗ Str ×ₗ Str

/-- `(edge.source_node, edge.target_node, edge.kind, edge.evidence_source)` -/
def TopologyEdge.key (e : TopologyEdge) : EdgeKey :=
  toLex (e.sourceNode, toLex (e.targetNode, toLex (e.kind.val, e.evidenceSource.val)))

/-- `(edge.confidence, edge.observed_at, edge.valid_until or datetime.max.replace(tzinfo=UTC))` -/
def TopologyEdge.rank (e : TopologyEdge) : Confidence ×ₗ Utc ×ₗ Utc :=
  toLex (e.confidence, toLex (e.validity.observedAt, e.validity.validUntil.getD Utc.max))

/-- Labels compare by their folded form; the least is kept. -/
def TopologyNode.rank (rt : Runtime) (n : TopologyNode) : Strᵒᵈ :=
  OrderDual.toDual (rt.casefold n.label.val)

/-- `_Builder` -/
structure Builder where
  nodes : Dict Str TopologyNode := []
  edges : Dict EdgeKey TopologyEdge := []
  conflicts : List TopologyConflict := []
  excludedExpired : Nat := 0
  excludedFuture : Nat := 0

namespace Builder

/-- `label or identity` -/
def labelOr (label : Option Str) (identity : Str) : Str :=
  match label with
  | none => identity
  | some l => if l = [] then identity else l

/-- `_Builder.node` -/
def node (rt : Runtime) (b : Builder) (kind identity : Str) (label : Option Str := none) :
    Except Exc (Builder × Str) := do
  let identifier ← nodeId rt kind identity
  let label ← text (labelOr label identity) "node label"
  let candidate : TopologyNode := ⟨identifier, kind, label⟩
  .ok ({ b with nodes := keep (TopologyNode.rank rt) b.nodes identifier candidate }, identifier)

/-- `_Builder.edge` -/
def edge (b : Builder) (e : TopologyEdge) : Builder :=
  { b with edges := keep TopologyEdge.rank b.edges e.key e }

/-- `builder.conflicts.append(conflict)` -/
def conflict (b : Builder) (c : TopologyConflict) : Builder :=
  { b with conflicts := b.conflicts ++ [c] }

/-- `_Builder.active`, with the builder after it. -/
def active (b : Builder) (asOf observedAt : Utc) (valid : Option Utc) : Builder × Bool :=
  if asOf < observedAt then ({ b with excludedFuture := b.excludedFuture + 1 }, false)
  else
    match valid with
    | none => (b, true)
    | some t =>
      if t ≤ asOf then ({ b with excludedExpired := b.excludedExpired + 1 }, false) else (b, true)

/-- The `limitations` of `_Builder.result`. -/
def limitations (b : Builder) (asOf : Utc) : List Str :=
  (if b.excludedExpired = 0 then []
    else [natStr b.excludedExpired ++ str " expired evidence item(s) were excluded from the " ++
      str "active topology as of " ++ asOf.isoformat ++ str "."]) ++
  if b.excludedFuture = 0 then []
  else [natStr b.excludedFuture ++ str " future-dated evidence item(s) were excluded from the " ++
    str "topology as of " ++ asOf.isoformat ++ str "."]

/-- `(item.kind, item.subject, item.details)` -/
def conflictKey (c : TopologyConflict) : Str ×ₗ Str ×ₗ List Str :=
  toLex (c.kind, toLex (c.subject, c.details))

/-- `_Builder.result` -/
def result (b : Builder) (asOf : Utc) : TopologyGraph where
  nodes := sortedBy TopologyNode.nodeId (b.nodes.map Prod.snd)
  edges := sortedBy TopologyEdge.key (b.edges.map Prod.snd)
  conflicts := sortedBy conflictKey b.conflicts
  asOf := asOf
  excludedExpired := b.excludedExpired
  excludedFuture := b.excludedFuture
  limitations := b.limitations asOf

end Builder

end FieldDiscovery.Topology
