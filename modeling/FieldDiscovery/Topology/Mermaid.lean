import FieldDiscovery.Lib.Iso
import FieldDiscovery.Lib.JsonValue
import FieldDiscovery.Lib.Number
import FieldDiscovery.Lib.Separated
import FieldDiscovery.Passive.LinkLayer
import FieldDiscovery.Topology.Kinds

/-!
# The Mermaid source of a topology

`mermaid_source` writes the elements of a graph below each other. A line feed in the text of an
element starts another line, so each element has its own line exactly when no text has a line feed
(`oneElementPerLine_iff_lines`). In a graph that `build_topology` returns, only the labels of nodes,
the sources of edges and the subjects of conflicts are not the program's own words
(`oneElementPerLine_iff`).
-/

namespace FieldDiscovery.Topology

open Py Correlation Passive List Separated

/-! ## The source -/

/-- `text.replace('"', "'")` -/
def unquoted (s : Str) : Str := replace (str "\"") [singleQuote] s

/-- The line of a node. -/
def nodeLine (n : TopologyNode) : Str :=
  str "  " ++ n.nodeId ++ str "[\"" ++ unquoted n.label.val ++ str "<br/>[" ++ n.kind ++ str "]\"]"

/-- `edge.valid_until.isoformat() if edge.valid_until is not None else "open"` -/
def validity (e : TopologyEdge) : Str :=
  match e.validity.validUntil with
  | some t => t.isoformat
  | none => str "open"

/-- The text beside an edge. -/
def edgeLabel (e : TopologyEdge) : Str :=
  e.kind.val ++ str "; " ++ e.evidenceSource.val ++ str "; " ++ fixed2 e.confidence.val ++
    str "; " ++ (if e.inferred then str "inferred" else str "observed") ++ str "; until=" ++
    validity e

/-- The line of an edge. -/
def edgeLine (e : TopologyEdge) : Str :=
  str "  " ++ e.sourceNode ++ str " " ++ (if e.inferred then str "-.->" else str "-->") ++
    str "|" ++ edgeLabel e ++ str "| " ++ e.targetNode

/-- The lines of the conflict with the given index. -/
def conflictLines (p : TopologyConflict × Nat) : List Str :=
  [str "  conflict_" ++ padNat 4 p.2 ++ str "[\"" ++
      unquoted (str "CONFLICT: " ++ p.1.kind ++ str " — " ++ p.1.subject) ++ str "\"]",
    str "  style conflict_" ++ padNat 4 p.2 ++ str " fill:#fee,stroke:#c00,color:#900"]

/-- The line of the limitation with the given index. -/
def limitationLine (p : Str × Nat) : Str :=
  str "  limitation_" ++ padNat 4 p.2 ++ str "[\"" ++ unquoted (str "LIMITATION: " ++ p.1) ++
    str "\"]"

/-- The lines below the header. -/
def elementLines (g : TopologyGraph) : List Str :=
  g.nodes.map nodeLine ++ (g.edges.map edgeLine ++
    (g.conflicts.zipIdx.flatMap conflictLines ++ g.limitations.zipIdx.map limitationLine))

/-- The `lines` of `mermaid_source`. -/
def mermaidLines (g : TopologyGraph) : List Str := str "flowchart LR" :: elementLines g

/-- `mermaid_source` -/
def mermaidSource (g : TopologyGraph) : Str := join (str "\n") (mermaidLines g) ++ str "\n"

/-! ## One line for each element -/

/-- How the lines of the elements start: with an identifier, or a keyword and an identifier. -/
def openings (g : TopologyGraph) : List Str :=
  g.nodes.map (fun n => str "  " ++ n.nodeId ++ str "[") ++
    (g.edges.map (fun e => str "  " ++ e.sourceNode ++ str " ") ++
      (g.conflicts.zipIdx.flatMap (fun p => [str "  conflict_" ++ padNat 4 p.2 ++ str "[",
          str "  style conflict_" ++ padNat 4 p.2 ++ str " "]) ++
        g.limitations.zipIdx.map fun p => str "  limitation_" ++ padNat 4 p.2 ++ str "["))

/-- The source is the header, one line for each node, edge and limitation and two for each
conflict, each of which starts as its element does, and the line feed at the end. -/
def OneElementPerLine (g : TopologyGraph) (source : Str) : Prop :=
  ∃ body, source.splitOn (cp '\n') = str "flowchart LR" :: (body ++ [[]]) ∧
    Forall₂ (· <+: ·) (openings g) body

/-- The text stays on its line. -/
def OneLine (s : Str) : Prop := cp '\n' ∉ s

instance (s : Str) : Decidable (OneLine s) := inferInstanceAs (Decidable (cp '\n' ∉ s))

variable {g : TopologyGraph}

theorem elementLines_open (g : TopologyGraph) :
    Forall₂ (· <+: ·) (openings g) (elementLines g) := by
  have hmap : ∀ {α : Type} (l : List α) {f f' : α → Str}, (∀ a, f a <+: f' a) →
      Forall₂ (· <+: ·) (l.map f) (l.map f') := by
    intro α l f f' hf
    rw [forall₂_map_left_iff, forall₂_map_right_iff]
    exact forall₂_same.mpr fun a _ => hf a
  have hconflicts : ∀ l : List (TopologyConflict × Nat), Forall₂ (· <+: ·)
      (l.flatMap fun p => [str "  conflict_" ++ padNat 4 p.2 ++ str "[",
        str "  style conflict_" ++ padNat 4 p.2 ++ str " "]) (l.flatMap conflictLines) := by
    intro l
    induction l with
    | nil => exact .nil
    | cons p l ih =>
      refine .cons ?_ (.cons ?_ ih)
      · simp only [append_assoc, prefix_append_right_inj]
        exact ⟨_, rfl⟩
      · simp only [append_assoc, prefix_append_right_inj]
        exact ⟨_, rfl⟩
  unfold openings elementLines
  refine rel_append (hmap _ fun n => ?_) (rel_append (hmap _ fun e => ?_)
    (rel_append (hconflicts _) (hmap _ fun p => ?_)))
  · unfold nodeLine
    simp only [append_assoc, prefix_append_right_inj]
    exact ⟨_, rfl⟩
  · unfold edgeLine
    simp only [append_assoc, prefix_append_right_inj]
    exact ⟨_, rfl⟩
  · unfold limitationLine
    simp only [append_assoc, prefix_append_right_inj]
    exact ⟨_, rfl⟩

theorem mermaidSource_eq (g : TopologyGraph) :
    mermaidSource g = [cp '\n'].intercalate (mermaidLines g ++ [[]]) := by
  have hne : mermaidLines g ≠ [] := cons_ne_nil _ _
  rw [intercalate_append hne (cons_ne_nil _ _)]
  rfl

/-- Each element has its own line exactly when no line has a line feed. -/
theorem oneElementPerLine_iff_lines :
    OneElementPerLine g (mermaidSource g) ↔ ∀ line ∈ elementLines g, OneLine line := by
  have hne : mermaidLines g ++ [[]] ≠ [] := by simp
  have hheader : OneLine (str "flowchart LR") := by decide
  have hparts : (∀ part ∈ mermaidLines g ++ [[]], cp '\n' ∉ part) ↔
      ∀ line ∈ elementLines g, OneLine line := by
    rw [forall_mem_append, forall_mem_singleton, mermaidLines, forall_mem_cons]
    exact ⟨fun h => h.1.2, fun h => ⟨⟨hheader, h⟩, not_mem_nil⟩⟩
  rw [← hparts, mermaidSource_eq]
  constructor
  · rintro ⟨body, hsplit, hbody⟩
    have hlength := (elementLines_open g).length_eq.symm.trans hbody.length_eq
    rw [← length_pieces_eq_iff hne, ← Separated.splitOn_intercalate, hsplit, mermaidLines]
    simp only [length_cons, length_append, hlength]
    omega
  · intro h
    exact ⟨elementLines g, List.splitOn_intercalate _ h hne, elementLines_open g⟩

/-! ## The texts of a line -/

@[simp] theorem oneLine_append {s t : Str} : OneLine (s ++ t) ↔ OneLine s ∧ OneLine t := by
  unfold OneLine
  rw [mem_append, not_or]

@[simp] theorem oneLine_padNat (w n : Nat) : OneLine (padNat w n) := notMem_padNat rfl w n

@[simp] theorem oneLine_natStr (n : Nat) : OneLine (natStr n) := notMem_natStr rfl n

@[simp] theorem oneLine_unquoted {s : Str} : OneLine (unquoted s) ↔ OneLine s := by
  have hreplaced : unquoted s = s.flatMap fun c => if c = cp '"' then [singleQuote] else [c] :=
    replace_singleton _ _ s
  unfold OneLine
  rw [hreplaced, mem_flatMap, not_iff_not]
  constructor
  · rintro ⟨c, hc, hmem⟩
    split at hmem
    · exact absurd hmem (by decide)
    · rwa [mem_singleton.mp hmem]
  · intro h
    exact ⟨_, h, by decide⟩

theorem oneLine_ite {p : Prop} [Decidable p] {s t : Str} (hs : OneLine s) (ht : OneLine t) :
    OneLine (if p then s else t) := by
  split
  · exact hs
  · exact ht

@[simp] theorem oneLine_isoformat (t : Utc) : OneLine t.isoformat := by
  have hdash : OneLine (str "-") := by decide
  have hletter : OneLine (str "T") := by decide
  have hcolon : OneLine (str ":") := by decide
  have hzone : OneLine (str "+00:00") := by decide
  have hfraction : ∀ us, OneLine (Datetime.fraction us) := by
    intro us
    unfold Datetime.fraction
    exact oneLine_ite (oneLine_append.mpr ⟨by decide, oneLine_padNat 6 us⟩) not_mem_nil
  unfold Utc.isoformat
  rw [Datetime.isoformat_utc rfl]
  simp only [oneLine_append, oneLine_padNat, hdash, hletter, hcolon, hzone, hfraction, and_self]

theorem oneLine_nodeLine {n : TopologyNode} :
    OneLine (nodeLine n) ↔ OneLine n.nodeId ∧ OneLine n.label.val ∧ OneLine n.kind := by
  have hindent : OneLine (str "  ") := by decide
  have hopen : OneLine (str "[\"") := by decide
  have hbreak : OneLine (str "<br/>[") := by decide
  have hclose : OneLine (str "]\"]") := by decide
  unfold nodeLine
  simp only [oneLine_append, oneLine_unquoted, hindent, hopen, hbreak, hclose, true_and, and_true,
    and_assoc]

theorem oneLine_validity (e : TopologyEdge) : OneLine (validity e) := by
  unfold validity
  split
  · exact oneLine_isoformat _
  · decide

theorem oneLine_fixed2 (q : ℚ) : OneLine (fixed2 q) := by
  have hstop : OneLine (str ".") := by decide
  unfold fixed2
  simp only [oneLine_append, oneLine_natStr, oneLine_padNat, hstop, and_self]

theorem oneLine_edgeLine {e : TopologyEdge} : OneLine (edgeLine e) ↔ OneLine e.sourceNode ∧
    OneLine e.kind.val ∧ OneLine e.evidenceSource.val ∧ OneLine e.targetNode := by
  have hindent : OneLine (str "  ") := by decide
  have hspace : OneLine (str " ") := by decide
  have hbar : OneLine (str "|") := by decide
  have hclose : OneLine (str "| ") := by decide
  have hsemicolon : OneLine (str "; ") := by decide
  have huntil : OneLine (str "; until=") := by decide
  have hconnector : OneLine (if e.inferred then str "-.->" else str "-->") :=
    oneLine_ite (by decide) (by decide)
  have hstatus : OneLine (if e.inferred then str "inferred" else str "observed") :=
    oneLine_ite (by decide) (by decide)
  unfold edgeLine edgeLabel
  simp only [oneLine_append, oneLine_validity, oneLine_fixed2, hindent, hspace, hbar, hclose,
    hsemicolon, huntil, hconnector, hstatus, true_and, and_true, and_assoc]

theorem oneLine_conflictLines {p : TopologyConflict × Nat} :
    (∀ line ∈ conflictLines p, OneLine line) ↔ OneLine p.1.kind ∧ OneLine p.1.subject := by
  have hconflict : OneLine (str "  conflict_") := by decide
  have hopen : OneLine (str "[\"") := by decide
  have htitle : OneLine (str "CONFLICT: ") := by decide
  have hdash : OneLine (str " — ") := by decide
  have hclose : OneLine (str "\"]") := by decide
  have hstyle : OneLine (str "  style conflict_") := by decide
  have hfill : OneLine (str " fill:#fee,stroke:#c00,color:#900") := by decide
  unfold conflictLines
  rw [forall_mem_cons, forall_mem_singleton]
  simp only [oneLine_append, oneLine_unquoted, oneLine_padNat, hconflict, hopen, htitle, hdash,
    hclose, hstyle, hfill, true_and, and_true]

theorem oneLine_limitationLine {p : Str × Nat} : OneLine (limitationLine p) ↔ OneLine p.1 := by
  have hlimitation : OneLine (str "  limitation_") := by decide
  have hopen : OneLine (str "[\"") := by decide
  have htitle : OneLine (str "LIMITATION: ") := by decide
  have hclose : OneLine (str "\"]") := by decide
  unfold limitationLine
  simp only [oneLine_append, oneLine_unquoted, oneLine_padNat, hlimitation, hopen, htitle, hclose,
    true_and, and_true]

/-! ## The program's own words -/

theorem oneLine_of_mem_nodeKinds : ∀ kind ∈ nodeKinds, OneLine kind := by decide +kernel

theorem oneLine_of_mem_edgeKinds : ∀ kind ∈ edgeKinds, OneLine kind := by decide +kernel

theorem oneLine_of_mem_conflictKinds : ∀ kind ∈ conflictKinds, OneLine kind := by decide +kernel

variable {rt : Runtime}

theorem casefold_nodeKind (rt : Runtime) {kind : Str} (h : kind ∈ nodeKinds) :
    rt.casefold (strip kind) = kind := by
  simp only [nodeKinds, mem_cons, not_mem_nil, or_false] at h
  rcases h with rfl | rfl | rfl | rfl | rfl <;> rfl

theorem TopologyNode.Known.oneLine_nodeId {n : TopologyNode} (h : n.Known rt) :
    OneLine n.nodeId := by
  obtain ⟨identity, hid⟩ := h.identified
  obtain ⟨digest, -, hhex, hid⟩ := nodeId_kind rt hid
  have hstart : OneLine (str "n_") := by decide
  have hbar : OneLine (str "_") := by decide
  have hdigest : OneLine digest := by
    intro hmem
    exact absurd (all_eq_true.mp hhex _ hmem) (by decide)
  rw [hid, casefold_nodeKind rt h.kind]
  simp only [oneLine_append, oneLine_of_mem_nodeKinds _ h.kind, hstart, hbar, hdigest, and_self]

theorem oneLine_limitations {b : Builder} {asOf : Utc} : ∀ l ∈ b.limitations asOf, OneLine l := by
  have hexpired : OneLine (str " expired evidence item(s) were excluded from the ") := by decide
  have hactive : OneLine (str "active topology as of ") := by decide
  have hfuture : OneLine (str " future-dated evidence item(s) were excluded from the ") := by decide
  have htopology : OneLine (str "topology as of ") := by decide
  have hstop : OneLine (str ".") := by decide
  unfold Builder.limitations
  rw [forall_mem_append]
  constructor
  · split
    · simp
    · rw [forall_mem_singleton]
      simp only [oneLine_append, oneLine_natStr, oneLine_isoformat, hexpired, hactive, hstop,
        and_self]
  · split
    · simp
    · rw [forall_mem_singleton]
      simp only [oneLine_append, oneLine_natStr, oneLine_isoformat, hfuture, htopology, hstop,
        and_self]

/-! ## The graphs that are built -/

/-- No label of a node, source of an edge or subject of a conflict has a line feed. -/
structure TextsOnOneLine (g : TopologyGraph) : Prop where
  labels : ∀ n ∈ g.nodes, OneLine n.label.val
  sources : ∀ e ∈ g.edges, OneLine e.evidenceSource.val
  subjects : ∀ c ∈ g.conflicts, OneLine c.subject

instance decidableTextsOnOneLine (g : TopologyGraph) : Decidable (TextsOnOneLine g) :=
  decidable_of_iff ((∀ n ∈ g.nodes, OneLine n.label.val) ∧
      (∀ e ∈ g.edges, OneLine e.evidenceSource.val) ∧ ∀ c ∈ g.conflicts, OneLine c.subject)
    ⟨fun h => ⟨h.1, h.2.1, h.2.2⟩, fun h => ⟨h.labels, h.sources, h.subjects⟩⟩

/-- Each element of a built graph has its own line exactly when no text of the evidence has a line
feed. -/
theorem oneElementPerLine_iff {observations : List PassiveObservation} {localIdentity : Str}
    {asOf : Option Stamp} {localLabel : Option Str} {subnets : List SubnetEvidence}
    {vlans : List VlanEvidence}
    (h : buildTopology rt observations localIdentity asOf localLabel subnets vlans = .ok g) :
    OneElementPerLine g (mermaidSource g) ↔ TextsOnOneLine g := by
  obtain ⟨r, hread, hall, rfl⟩ := buildTopology_eq_ok.mp h
  have hlocal := read_localNode_known hread
  have hnode : ∀ n ∈ (r.graph rt subnets vlans).nodes, n.Known rt :=
    fun n hn => graph_node_known hlocal hn
  have hid : ∀ n ∈ (r.graph rt subnets vlans).nodes, OneLine n.nodeId :=
    fun n hn => (hnode n hn).oneLine_nodeId
  rw [oneElementPerLine_iff_lines]
  unfold elementLines
  simp only [forall_mem_append, forall_mem_map, mem_flatMap]
  constructor
  · rintro ⟨hnodes, hedges, hconflicts, -⟩
    refine ⟨fun n hn => (oneLine_nodeLine.mp (hnodes n hn)).2.1,
      fun e he => (oneLine_edgeLine.mp (hedges e he)).2.2.1, fun c hc => ?_⟩
    obtain ⟨k, hk⟩ := getElem?_of_mem hc
    have hmem : (c, k) ∈ (r.graph rt subnets vlans).conflicts.zipIdx :=
      mem_zipIdx_iff_getElem?.mpr (by simpa using hk)
    exact (oneLine_conflictLines.mp fun line hline => hconflicts line ⟨_, hmem, hline⟩).2
  · intro htexts
    refine ⟨fun n hn => ?_, fun e he => ?_, fun line hline => ?_, fun p hp => ?_⟩
    · have hkind := oneLine_of_mem_nodeKinds _ (hnode n hn).kind
      exact oneLine_nodeLine.mpr ⟨hid n hn, htexts.labels n hn, hkind⟩
    · obtain ⟨⟨m, hm, hsource⟩, n, hn, htarget⟩ := closed he
      have hkind := oneLine_of_mem_edgeKinds _ (graph_edge_kind hlocal he)
      rw [oneLine_edgeLine, ← hsource, ← htarget]
      exact ⟨hid m hm, hkind, htexts.sources e he, hid n hn⟩
    · obtain ⟨p, hp, hline⟩ := hline
      have hc := (mem_zipIdx' hp).2 ▸ getElem_mem _
      have hkind := oneLine_of_mem_conflictKinds _ (graph_conflict_kind hall hc)
      exact oneLine_conflictLines.mpr ⟨hkind, htexts.subjects _ hc⟩ line hline
    · have hl := (mem_zipIdx' hp).2 ▸ getElem_mem _
      exact oneLine_limitationLine.mpr (oneLine_limitations _ hl)

/-- The ARP reply of a neighbour has one line for each of its elements. -/
theorem oneElementPerLine_iff_reply : ∃ g,
    buildTopology sampleRuntime [arpReply] (str "scanner") (some epoch.stamp) none [] [] = .ok g ∧
      g.nodes.length = 2 ∧ OneElementPerLine g (mermaidSource g) := by
  have hrun : (buildTopology sampleRuntime [arpReply] (str "scanner") (some epoch.stamp) none []
      []).toOption.map (fun g => (g.nodes.length, decide (TextsOnOneLine g))) = some (2, true) := by
    decide +kernel
  obtain ⟨g, hg, htexts⟩ := Option.map_eq_some_iff.mp hrun
  obtain ⟨hnodes, htexts⟩ := Prod.mk.inj htexts
  have hbuilt := Except.toOption_eq_some.mp hg
  exact ⟨g, hbuilt, hnodes, (oneElementPerLine_iff hbuilt).mpr (of_decide_eq_true htexts)⟩

/-! ## A name of two lines -/

/-- An LLDP announcement whose system name is `a`, a line feed, `b`. -/
def twoLineFrame : PassiveFrame where
  protocol := str "lldp"
  payload := [2, 7, 4, 0, 17, 34, 51, 68, 85] ++ [4, 3, 7, 112, 49] ++ [6, 2, 0, 120] ++
    [10, 3, 97, 10, 98] ++ [0, 0]
  observedAt := epoch
  interface := none

/-- What the pipeline stores of a frame with one neighbour. -/
def storedNeighbor (frame : PassiveFrame) : Except Exc PassiveObservation := do
  let parsed ← Link.parseLldp frame
  match parsed with
  | [o] => normalizeObservation o frame.observedAt
  | _ => .error .value

/-- The topology of this device and the stored neighbour. -/
def neighborTopology (frame : PassiveFrame) : Except Exc TopologyGraph := do
  let o ← storedNeighbor frame
  buildTopology sampleRuntime [o] (str "scanner") (some epoch.stamp) none [] []

/-- The system name of a neighbour adds a line to the diagram. -/
theorem not_oneElementPerLine : ¬ ∀ frame g, neighborTopology frame = .ok g →
    OneElementPerLine g (mermaidSource g) := by
  intro h
  have hlines : (neighborTopology twoLineFrame).toOption.map
      (fun g => (elementLines g).all fun line => decide (OneLine line)) = some false := by
    decide +kernel
  cases hrun : neighborTopology twoLineFrame with
  | error e =>
    rw [hrun] at hlines
    cases hlines
  | ok g =>
    rw [hrun] at hlines
    have hall := oneElementPerLine_iff_lines.mp (h _ g hrun)
    have htrue : ((elementLines g).all fun line => decide (OneLine line)) = true :=
      all_eq_true.mpr fun line hline => decide_eq_true (hall line hline)
    exact absurd (htrue.symm.trans (Option.some.inj hlines)) Bool.noConfusion

end FieldDiscovery.Topology
