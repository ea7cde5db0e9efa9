import FieldDiscovery.Correlation.Correlate

/-!
# The merge loop

The invariant of the merge loop ties its three pieces of state together: the parent table, the
decision log and the claims processed so far.

* The table is a forest that represents both the processed pairs and the logged decisions, so the
  decisions span exactly the classes that the claims induce.
* The decisions close no cycle, and each of them removed one root.
* Each decision is supported: both observations claim its key.

`mergeStep_spec` is the step, `merge_spec` the run.
-/

namespace FieldDiscovery.Correlation

open Py UnionFind

/-! ## The invariant -/

/-- The two ends of every decision. -/
def decisionPairs (decisions : List CorrelationDecision) : List (Str × Str) :=
  decisions.map fun d => (d.leftObservationId, d.rightObservationId)

/-- A decision rests on two claims of its key, and its confidence is the weaker of the two. -/
structure Supported (claims : List Claim) (d : CorrelationDecision) : Prop where
  evidence : ∃ e e', (d.leftObservationId, e) ∈ claims ∧ (d.rightObservationId, e') ∈ claims ∧
    e.key = d.evidenceKey ∧ e'.key = d.evidenceKey ∧ d.confidence = min e.confidence e'.confidence

/-- What holds after the pairs `done` have been processed. -/
structure MergeInvariant (s : Finset Str) (claims : List Claim) (done : List (Str × Str))
    (st : MergeState) : Prop where
  forest : Forest s st.parent
  classes : Represents s st.parent done
  spanned : Represents s st.parent (decisionPairs st.decisions)
  acyclic : (pairGraph (decisionPairs st.decisions)).IsAcyclic
  count : st.decisions.length + (roots s st.parent).card = s.card
  supported : ∀ d ∈ st.decisions, Supported claims d

theorem MergeInvariant.init (s : Finset Str) (claims : List Claim) :
    MergeInvariant s claims [] { parent := fun id => id, decisions := [] } where
  forest := Forest.id s
  classes := represents_id s
  spanned := represents_id s
  acyclic := pairGraph_nil_isAcyclic
  count := by simp [roots]
  supported := by simp

/-! ## One claim -/

section Step

variable {s : Finset Str} {claims : List Claim} {done : List (Str × Str)} {st : MergeState}
  {fuel : Nat}

/-- A claim against the first claim of its key either finds the two observations in one class and
only halves paths, or unites them and logs one decision. -/
theorem mergeStep_cases (h : Forest s st.parent) (hfuel : s.card ≤ fuel) (key : Str)
    {first other : Claim} (hf : first.1 ∈ s) (ho : other.1 ∈ s) :
    (SameRoot s st.parent first.1 other.1 ∧
      (mergeStep fuel key first st other).decisions = st.decisions ∧
      Forest s (mergeStep fuel key first st other).parent ∧
      ∀ y, rootOf s (mergeStep fuel key first st other).parent y = rootOf s st.parent y) ∨
    (¬ SameRoot s st.parent first.1 other.1 ∧ ∃ q : Str → Str,
      Forest s q ∧ (∀ y, rootOf s q y = rootOf s st.parent y) ∧
      mergeStep fuel key first st other =
        { parent := union fuel q first.1 other.1
          decisions := st.decisions ++
            [{ leftObservationId := first.1, rightObservationId := other.1, evidenceKey := key
               confidence := min first.2.confidence other.2.confidence,
               reason := mergeReason }] }) := by
  obtain ⟨hf₁, hr₁, he₁⟩ := find_spec_card h hf hfuel
  obtain ⟨hf₂, hr₂, he₂⟩ := find_spec_card hf₁ ho hfuel
  have hroots : ∀ y, rootOf s (find fuel (find fuel st.parent first.1).1 other.1).1 y =
      rootOf s st.parent y := fun y => (hr₂ y).trans (hr₁ y)
  unfold mergeStep
  simp only [he₁, he₂, hr₁]
  by_cases hsame : rootOf s st.parent first.1 = rootOf s st.parent other.1
  · rw [if_pos hsame]
    exact Or.inl ⟨hsame, rfl, hf₂, hroots⟩
  · rw [if_neg hsame]
    exact Or.inr ⟨hsame, _, hf₂, hroots, rfl⟩

/-- The step lemma: a claim and the first claim of its key are one more processed pair. -/
theorem mergeStep_spec (h : MergeInvariant s claims done st) (hfuel : s.card ≤ fuel) {key : Str}
    {first other : Claim} (hfc : first ∈ claims) (hoc : other ∈ claims) (hf : first.1 ∈ s)
    (ho : other.1 ∈ s) (hfk : first.2.key = key) (hok : other.2.key = key) :
    MergeInvariant s claims (done ++ [(first.1, other.1)]) (mergeStep fuel key first st other) := by
  rcases mergeStep_cases h.forest hfuel key hf ho with
    ⟨hsame, hdec, hforest, hroots⟩ | ⟨hdiff, q, hq, hroots, heq⟩
  · have hcard : roots s (mergeStep fuel key first st other).parent = roots s st.parent := by
      ext r
      rw [mem_roots_iff hforest, mem_roots_iff h.forest, hroots]
    exact
      { forest := hforest
        classes := (h.classes.skip hsame).congr hroots
        spanned := hdec ▸ h.spanned.congr hroots
        acyclic := hdec ▸ h.acyclic
        count := by rw [hdec, hcard]; exact h.count
        supported := hdec ▸ h.supported }
  · have hclasses : Represents s q done := h.classes.congr hroots
    have hspanned : Represents s q (decisionPairs st.decisions) := h.spanned.congr hroots
    have hdiff' : ¬ SameRoot s q first.1 other.1 := by
      unfold SameRoot
      rw [hroots, hroots]
      exact hdiff
    have hcard : roots s q = roots s st.parent := by
      ext r
      rw [mem_roots_iff hq, mem_roots_iff h.forest, hroots]
    have hunion := card_roots_union hq hf ho hfuel hdiff'
    rw [heq]
    exact
      { forest := (union_spec hq hf ho hfuel).1
        classes := hclasses.union hq hf ho hfuel
        spanned := by
          simpa [decisionPairs] using hspanned.union hq hf ho hfuel
        acyclic := by
          have hlinked := mt (hspanned first.1 other.1).mpr hdiff'
          simpa [decisionPairs] using pairGraph_append_isAcyclic h.acyclic hlinked
        count := by
          have := h.count
          rw [← hcard] at this
          simp only [List.length_append, List.length_singleton]
          omega
        supported := by
          intro d hd
          rcases List.mem_append.mp hd with hd | hd
          · exact h.supported d hd
          · obtain rfl := List.mem_singleton.mp hd
            exact ⟨_, _, hfc, hoc, hfk, hok, rfl⟩ }

end Step

/-! ## The whole loop -/

/-- The pairs that one index entry makes the loop process. -/
def keyPairs (entry : Str × List Claim) : List (Str × Str) :=
  match sortedBy Prod.fst entry.2 with
  | [] => []
  | first :: rest => rest.map fun other => (first.1, other.1)

section Run

variable {s : Finset Str} {claims : List Claim} {fuel : Nat} (hfuel : s.card ≤ fuel)
  (hs : ∀ c ∈ claims, c.1 ∈ s)

include hfuel hs

theorem mergeKey_spec {done : List (Str × Str)} {st : MergeState}
    (h : MergeInvariant s claims done st) {entry : Str × List Claim}
    (hentry : ∀ c ∈ entry.2, c ∈ claims ∧ c.2.key = entry.1) :
    MergeInvariant s claims (done ++ keyPairs entry) (mergeKey fuel st entry) := by
  have hsorted : ∀ c ∈ sortedBy Prod.fst entry.2, c ∈ claims ∧ c.2.key = entry.1 :=
    fun c hc => hentry c (mem_sortedBy.mp hc)
  unfold keyPairs mergeKey
  generalize sortedBy Prod.fst entry.2 = sorted at hsorted
  cases sorted with
  | nil => simpa using h
  | cons first rest =>
    obtain ⟨hfc, hfk⟩ := hsorted first List.mem_cons_self
    have hrest : ∀ c ∈ rest, c ∈ claims ∧ c.2.key = entry.1 :=
      fun c hc => hsorted c (List.mem_cons_of_mem _ hc)
    clear hsorted
    simp only
    induction rest generalizing done st with
    | nil => simpa using h
    | cons other rest ih =>
      obtain ⟨hoc, hok⟩ := hrest other List.mem_cons_self
      have hstep := mergeStep_spec h hfuel hfc hoc (hs _ hfc) (hs _ hoc) hfk hok
      simpa using ih hstep fun c hc => hrest c (List.mem_cons_of_mem _ hc)

/-- The run lemma over any index whose entries hold claims of their own key. -/
theorem mergeKeys_spec {done : List (Str × Str)} {st : MergeState}
    (h : MergeInvariant s claims done st) {index : List (Str × List Claim)}
    (hindex : ∀ entry ∈ index, ∀ c ∈ entry.2, c ∈ claims ∧ c.2.key = entry.1) :
    MergeInvariant s claims (done ++ index.flatMap keyPairs) (index.foldl (mergeKey fuel) st) := by
  induction index generalizing done st with
  | nil => simpa using h
  | cons entry index ih =>
    have hkey := mergeKey_spec hfuel hs h (hindex entry List.mem_cons_self)
    simpa using ih hkey fun e he => hindex e (List.mem_cons_of_mem _ he)

end Run

/-! ## From pairs to keys -/

theorem mem_stableClaims {ordered : List DeviceObservation} {c : Claim} :
    c ∈ stableClaims ordered ↔
      ∃ o ∈ ordered, c.1 = o.id ∧ c.2 ∈ o.carried ∧ c.2.merges = true := by
  simp only [stableClaims, allIdentifiers, List.mem_flatMap, List.mem_map, List.mem_filter,
    mem_sortedBy]
  constructor
  · rintro ⟨o, ho, e, he, rfl⟩
    exact ⟨o, ho, rfl, he⟩
  · rintro ⟨o, ho, hid, he⟩
    exact ⟨o, ho, c.2, he, Prod.ext hid.symm rfl⟩

/-- The pairs of the index link exactly the observations that share a claimed key. -/
theorem merged_keyPairs {claims : List Claim} {x y : Str} :
    Merged ((sortedBy Prod.fst (groupBy (fun c : Claim => c.2.key) claims)).flatMap keyPairs) x y ↔
      Relation.EqvGen (fun a b => ∃ e e', (a, e) ∈ claims ∧ (b, e') ∈ claims ∧ e.key = e'.key)
        x y := by
  have hgroup : ∀ entry ∈ sortedBy Prod.fst (groupBy (fun c : Claim => c.2.key) claims),
      ∀ c, c ∈ sortedBy Prod.fst entry.2 ↔ c ∈ claims ∧ c.2.key = entry.1 := by
    intro entry hentry c
    rw [mem_sortedBy, groupBy_group (mem_sortedBy.mp hentry), List.mem_filter, decide_eq_true_eq]
  constructor
  · refine fun h => Relation.EqvGen.mono ?_ _ _ h
    intro a b hab
    obtain ⟨entry, hentry, hpair⟩ := List.mem_flatMap.mp hab
    have hmem := hgroup entry hentry
    unfold keyPairs at hpair
    generalize sortedBy Prod.fst entry.2 = sorted at hpair hmem
    cases sorted with
    | nil => exact absurd hpair List.not_mem_nil
    | cons first rest =>
      obtain ⟨other, hother, hp⟩ := List.mem_map.mp hpair
      obtain ⟨rfl, rfl⟩ := Prod.mk.inj hp
      obtain ⟨hfc, hfk⟩ := (hmem first).mp List.mem_cons_self
      obtain ⟨hoc, hok⟩ := (hmem other).mp (List.mem_cons_of_mem _ hother)
      exact ⟨first.2, other.2, hfc, hoc, hfk.trans hok.symm⟩
  · intro h
    have hequiv : Equivalence (Merged
      ((sortedBy Prod.fst (groupBy (fun c : Claim => c.2.key) claims)).flatMap keyPairs)) :=
      Relation.EqvGen.is_equivalence _
    induction h with
    | refl x => exact hequiv.refl x
    | symm _ _ _ ih => exact hequiv.symm ih
    | trans _ _ _ _ _ ih₁ ih₂ => exact hequiv.trans ih₁ ih₂
    | rel a b hab =>
      obtain ⟨e, e', he, he', hkey⟩ := hab
      have hentry : (e.key, claims.filter (fun c => c.2.key = e.key)) ∈
          sortedBy Prod.fst (groupBy (fun c : Claim => c.2.key) claims) :=
        mem_sortedBy.mpr (mem_groupBy.mpr ⟨List.mem_map.mpr ⟨_, he, rfl⟩, rfl⟩)
      have hmem := hgroup _ hentry
      -- every claim of the key is linked to the first one
      have hfirst : ∃ z, ∀ c ∈ claims, c.2.key = e.key → Merged
          ((sortedBy Prod.fst (groupBy (fun c : Claim => c.2.key) claims)).flatMap keyPairs)
          z c.1 := by
        have hpairs : ∀ p ∈ keyPairs (e.key, claims.filter (fun c => c.2.key = e.key)), p ∈
            (sortedBy Prod.fst (groupBy (fun c : Claim => c.2.key) claims)).flatMap keyPairs :=
          fun p hp => List.mem_flatMap.mpr ⟨_, hentry, hp⟩
        unfold keyPairs at hpairs
        generalize sortedBy Prod.fst (claims.filter (fun c => c.2.key = e.key)) = sorted
          at hpairs hmem
        cases sorted with
        | nil => exact absurd ((hmem (a, e)).mpr ⟨he, rfl⟩) List.not_mem_nil
        | cons first rest =>
          refine ⟨first.1, fun c hc hck => ?_⟩
          rcases List.mem_cons.mp ((hmem c).mpr ⟨hc, hck⟩) with rfl | hrest
          · exact hequiv.refl _
          · exact .rel _ _ (hpairs _ (List.mem_map.mpr ⟨c, hrest, rfl⟩))
      obtain ⟨z, hz⟩ := hfirst
      exact hequiv.trans (hequiv.symm (hz _ he rfl)) (hz _ he' hkey.symm)

end FieldDiscovery.Correlation
