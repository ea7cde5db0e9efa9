import FieldDiscovery.Lib.Dict
import FieldDiscovery.Lib.Sorted

/-!
# Merging in order

Items are sorted by an order key, each emits candidates for some keys, and the first best candidate
of a key is kept. What the merge keeps depends on the order of the items only through ties. An item
*leads* a key when its best candidate is best of all and no item with a smaller order key has one as
good. Every entry comes from a leader (`exists_leads`), and a leader wins unless an item in front of it
has its order key (`get_mergeItems_split`). So the merge is a function of the set of items exactly
when the leaders of each key agree.
-/

open List

namespace Py

variable {κ α ι ω ρ : Type*} [DecidableEq κ] [LinearOrder ρ] [LinearOrder ω]

section

variable (rank : α → ρ) (ord : ι → ω) (emit : ι → List (κ × α))

/-- The merge of items in ascending order of their keys. -/
def mergeItems (l : List ι) : Dict κ α := keepAll rank [] ((sortedBy ord l).flatMap emit)

/-- The best candidate that an item emits for a key. -/
def best (k : κ) (i : ι) : Option α := firstBest rank (candidates k (emit i))

/-- The item has a best candidate, and comes first among the items that have one as good. -/
def Leads (l : List ι) (k : κ) (i : ι) : Prop :=
  i ∈ l ∧ ∃ a, best rank emit k i = some a ∧ ∀ j ∈ l, ∀ b, best rank emit k j = some b →
    rank b < rank a ∨ rank b = rank a ∧ ord i ≤ ord j

end

variable {rank : α → ρ} {ord : ι → ω} {emit emit' : ι → List (κ × α)}

theorem candidates_flatMap (k : κ) (l : List ι) :
    candidates k (l.flatMap emit) = l.flatMap fun i => candidates k (emit i) := by
  unfold candidates
  rw [filterMap_flatMap]

variable (rank) in
theorem best_isSome {k : κ} {i : ι} {a : α} (h : a ∈ candidates k (emit i)) :
    ∃ b, best rank emit k i = some b ∧ rank a ≤ rank b := by
  cases hb : best rank emit k i with
  | none =>
    rw [firstBest_eq_none.mp hb] at h
    cases h
  | some b => exact ⟨b, rfl, firstBest_max hb a h⟩

theorem Leads.congr {l l' : List ι} {k : κ} {i : ι} (h : Leads rank ord emit l k i)
    (hmem : ∀ j, j ∈ l' ↔ j ∈ l) : Leads rank ord emit l' k i := by
  obtain ⟨hi, a, ha, hlead⟩ := h
  exact ⟨(hmem i).mpr hi, a, ha, fun j hj => hlead j ((hmem j).mp hj)⟩

/-- Every entry of the merge is the best candidate of a leader. -/
theorem exists_leads {l : List ι} {k : κ} {a : α}
    (h : (mergeItems rank ord emit l).get k = some a) :
    ∃ i, Leads rank ord emit l k i ∧ best rank emit k i = some a := by
  have hsorted := pairwise_sortedBy ord l
  unfold mergeItems at h
  rw [get_keepAll_nil, candidates_flatMap] at h
  obtain ⟨i, hi, hmem⟩ := mem_flatMap.mp (firstBest_mem h)
  obtain ⟨before, after, hsplit, hbefore, hafter⟩ := firstBest_eq_some.mp h
  -- split the sorted list at the item that emits the entry
  obtain ⟨pre, i, post, hl, hpre, hbest⟩ : ∃ pre i post, sortedBy ord l = pre ++ i :: post ∧
      (∀ j ∈ pre, ∀ b ∈ candidates k (emit j), rank b < rank a) ∧
      best rank emit k i = some a := by
    clear hsorted hi hmem h
    generalize sortedBy ord l = s at hsplit
    induction s generalizing before with
    | nil => simp at hsplit
    | cons m s ih =>
      rw [flatMap_cons] at hsplit
      rcases append_eq_append_iff.mp hsplit with ⟨mid, hmid, hrest⟩ | ⟨mid, hmid, hrest⟩
      · obtain ⟨pre, i, post, hl, hpre, hbest⟩ := ih mid (fun b hb => hbefore b (by
          rw [hmid]
          exact mem_append_right _ hb)) hrest
        refine ⟨m :: pre, i, post, by rw [hl]; rfl, ?_, hbest⟩
        intro j hj b hb
        rcases mem_cons.mp hj with rfl | hj
        · apply hbefore
          rw [hmid]
          exact mem_append_left _ hb
        · exact hpre j hj b hb
      · cases mid with
        | nil =>
          rw [append_nil] at hmid
          obtain ⟨pre, i, post, hl, hpre, hbest⟩ := ih [] (by simp) hrest.symm
          refine ⟨m :: pre, i, post, by rw [hl]; rfl, ?_, hbest⟩
          intro j hj b hb
          rcases mem_cons.mp hj with rfl | hj
          · apply hbefore
            rw [← hmid]
            exact hb
          · exact hpre j hj b hb
        | cons c mid =>
          rw [cons_append, cons.injEq] at hrest
          obtain ⟨rfl, hrest⟩ := hrest
          refine ⟨[], m, s, rfl, by simp, ?_⟩
          unfold best
          rw [hmid]
          apply firstBest_eq_some.mpr
          refine ⟨before, mid, rfl, hbefore, ?_⟩
          intro b hb
          apply hafter
          rw [hrest]
          exact mem_append_left _ hb
  refine ⟨i, ⟨?_, a, hbest, ?_⟩, hbest⟩
  · have hmem : i ∈ sortedBy ord l := by
      rw [hl]
      simp
    exact mem_sortedBy.mp hmem
  · intro j hj b hb
    have hjs : j ∈ pre ++ i :: post := by
      rw [← hl]
      exact mem_sortedBy.mpr hj
    rcases mem_append.mp hjs with hjs | hjs
    · exact Or.inl (hpre j hjs b (firstBest_mem hb))
    · have hle : rank b ≤ rank a := by
        apply firstBest_max h
        rw [mem_flatMap]
        exact ⟨j, mem_sortedBy.mpr hj, firstBest_mem hb⟩
      rcases hle.lt_or_eq with hlt | heq
      · exact Or.inl hlt
      · right
        refine ⟨heq, ?_⟩
        rcases mem_cons.mp hjs with rfl | hjs
        · exact le_rfl
        · rw [hl, pairwise_append, pairwise_cons] at hsorted
          exact hsorted.2.1.1 j hjs

theorem orderedInsert_split {f i : ι} {pre : List ι} (post : List ι) (hne : ord f ≠ ord i)
    (hpre : ∀ j ∈ pre, ord j < ord i) :
    ∃ pre' post', orderedInsert (fun a b => ord a ≤ ord b) f (pre ++ i :: post) =
        pre' ++ i :: post' ∧
      (∀ j ∈ pre', j ∈ f :: pre ∧ ord j < ord i) ∧ ∀ j ∈ post', j ∈ f :: post := by
  induction pre with
  | nil =>
    by_cases hf : ord f ≤ ord i
    · refine ⟨[f], post, by simp [hf], ?_, fun j hj => mem_cons_of_mem _ hj⟩
      simpa using lt_of_le_of_ne hf hne
    · refine ⟨[], orderedInsert (fun a b => ord a ≤ ord b) f post, by simp [hf], by simp, ?_⟩
      intro j hj
      exact ((perm_orderedInsert _ f post).mem_iff).mp hj
  | cons p pre ih =>
    have hp : ord p < ord i := hpre p mem_cons_self
    by_cases hf : ord f ≤ ord p
    · refine ⟨f :: p :: pre, post, by simp [hf], ?_, fun j hj => mem_cons_of_mem _ hj⟩
      intro j hj
      refine ⟨hj, ?_⟩
      rcases mem_cons.mp hj with rfl | hj
      · exact hf.trans_lt hp
      · exact hpre j hj
    · obtain ⟨pre', post', heq, hpre', hpost'⟩ := ih fun j hj => hpre j (mem_cons_of_mem _ hj)
      refine ⟨p :: pre', post', by simp [hf, heq], ?_, hpost'⟩
      intro j hj
      rcases mem_cons.mp hj with rfl | hj
      · exact ⟨by simp, hp⟩
      · obtain ⟨hmem, hlt⟩ := hpre' j hj
        refine ⟨?_, hlt⟩
        rcases mem_cons.mp hmem with rfl | hmem
        · exact mem_cons_self
        · exact mem_cons_of_mem _ (mem_cons_of_mem _ hmem)

/-- An item splits the sorted list, unless one in front of it has its order key. -/
theorem sortedBy_split {i : ι} {front : List ι} (hfront : ∀ j ∈ front, ord j ≠ ord i)
    (back : List ι) : ∃ pre post, sortedBy ord (front ++ i :: back) = pre ++ i :: post ∧
      (∀ j ∈ pre, j ∈ front ++ back ∧ ord j < ord i) ∧ ∀ j ∈ post, j ∈ front ++ back := by
  induction front with
  | nil =>
    refine ⟨(sortedBy ord back).takeWhile fun b => decide ¬ ord i ≤ ord b,
      (sortedBy ord back).dropWhile fun b => decide ¬ ord i ≤ ord b, ?_, ?_, ?_⟩
    · show orderedInsert _ i (sortedBy ord back) = _
      rw [orderedInsert_eq_take_drop]
    · intro j hj
      refine ⟨mem_sortedBy.mp (( takeWhile_prefix _).subset hj), ?_⟩
      simpa using mem_takeWhile_imp hj
    · intro j hj
      exact mem_sortedBy.mp ((dropWhile_suffix _).subset hj)
  | cons f front ih =>
    obtain ⟨pre, post, hs, hpre, hpost⟩ := ih fun j hj => hfront j (mem_cons_of_mem _ hj)
    obtain ⟨pre', post', heq, hpre', hpost'⟩ :=
      orderedInsert_split post (hfront f mem_cons_self) fun j hj => (hpre j hj).2
    refine ⟨pre', post', ?_, ?_, ?_⟩
    · show orderedInsert _ f (sortedBy ord (front ++ i :: back)) = _
      rw [hs, heq]
    · intro j hj
      obtain ⟨hmem, hlt⟩ := hpre' j hj
      refine ⟨?_, hlt⟩
      rcases mem_cons.mp hmem with rfl | hmem
      · exact mem_cons_self
      · exact mem_cons_of_mem _ (hpre j hmem).1
    · intro j hj
      rcases mem_cons.mp (hpost' j hj) with rfl | hmem
      · exact mem_cons_self
      · exact mem_cons_of_mem _ (hpost j hmem)

/-- A leader wins unless an item in front of it has its order key. -/
theorem get_mergeItems_split {l front back : List ι} {k : κ} {i : ι}
    (h : Leads rank ord emit l k i) (hfront : ∀ j ∈ front, ord j ≠ ord i)
    (hl : ∀ j ∈ front ++ back, j ∈ l) :
    (mergeItems rank ord emit (front ++ i :: back)).get k = best rank emit k i := by
  obtain ⟨hi, a, ha, hlead⟩ := h
  obtain ⟨pre, post, hs, hpre, hpost⟩ := sortedBy_split hfront back
  have hle : ∀ j ∈ l, ∀ b ∈ candidates k (emit j), rank b ≤ rank a := by
    intro j hj b hb
    obtain ⟨c, hc, hbc⟩ := best_isSome rank hb
    rcases hlead j hj c hc with hlt | ⟨heq, -⟩
    · exact hbc.trans hlt.le
    · exact hbc.trans heq.le
  obtain ⟨before, after, hsplit, hbefore, hafter⟩ := firstBest_eq_some.mp ha
  unfold mergeItems
  rw [get_keepAll_nil, candidates_flatMap, hs, flatMap_append, flatMap_cons, hsplit, ha]
  apply firstBest_eq_some.mpr
  refine ⟨pre.flatMap (fun j => candidates k (emit j)) ++ before,
    after ++ post.flatMap fun j => candidates k (emit j), by simp, ?_, ?_⟩
  · intro b hb
    rcases mem_append.mp hb with hb | hb
    · obtain ⟨j, hj, hb⟩ := mem_flatMap.mp hb
      obtain ⟨hjl, hord⟩ := hpre j hj
      obtain ⟨c, hc, hbc⟩ := best_isSome rank hb
      rcases hlead j (hl j hjl) c hc with hlt | ⟨-, hij⟩
      · exact hbc.trans_lt hlt
      · exact absurd hij (not_le.mpr hord)
    · exact hbefore b hb
  · intro b hb
    rcases mem_append.mp hb with hb | hb
    · exact hafter b hb
    · obtain ⟨j, hj, hb⟩ := mem_flatMap.mp hb
      exact hle j (hl j (hpost j hj)) b hb

theorem get_mergeItems_eq_none {l : List ι} {k : κ} :
    (mergeItems rank ord emit l).get k = none ↔ ∀ i ∈ l, candidates k (emit i) = [] := by
  unfold mergeItems
  rw [get_keepAll_nil, candidates_flatMap, firstBest_eq_none, flatMap_eq_nil_iff]
  simp

theorem keysNodup_mergeItems (l : List ι) : (mergeItems rank ord emit l).KeysNodup :=
  keysNodup_keepAll (by simp [Dict.KeysNodup])

/-- Where the leaders of a key under two ways of emitting agree, lists with the same members merge
to the same entry. -/
theorem get_mergeItems_congr {l l' : List ι} {k : κ} (h : ∀ i j, Leads rank ord emit l k i →
      Leads rank ord emit' l k j → best rank emit k i = best rank emit' k j)
    (hmem : ∀ j, j ∈ l' ↔ j ∈ l)
    (hkeys : ∀ i ∈ l, candidates k (emit' i) = [] ↔ candidates k (emit i) = []) :
    (mergeItems rank ord emit' l').get k = (mergeItems rank ord emit l).get k := by
  have hnone : (mergeItems rank ord emit' l').get k = none ↔
      (mergeItems rank ord emit l).get k = none := by
    rw [get_mergeItems_eq_none, get_mergeItems_eq_none]
    constructor
    · exact fun hall i hi => (hkeys i hi).mp (hall i ((hmem i).mpr hi))
    · exact fun hall i hi => (hkeys i ((hmem i).mp hi)).mpr (hall i ((hmem i).mp hi))
  cases hl : (mergeItems rank ord emit l).get k with
  | none => exact hnone.mpr hl
  | some a =>
    cases hl' : (mergeItems rank ord emit' l').get k with
    | none => rw [hnone.mp hl'] at hl; cases hl
    | some b =>
      obtain ⟨i, hi, ha⟩ := exists_leads hl
      obtain ⟨j, hj, hb⟩ := exists_leads hl'
      have hagree := h i j hi (hj.congr fun m => (hmem m).symm)
      rw [ha, hb] at hagree
      exact hagree.symm

theorem mem_mergeItems {l : List ι} {p : κ × α} (h : p ∈ mergeItems rank ord emit l) :
    ∃ i ∈ l, p ∈ emit i := by
  obtain ⟨k, a⟩ := p
  obtain ⟨i, hi, ha⟩ := exists_leads (Dict.get_of_mem (keysNodup_mergeItems l) h)
  exact ⟨i, hi.1, mem_candidates.mp (firstBest_mem ha)⟩

/-- When later items are repeated or rearranged, entries that one of them leads decide. -/
theorem get_mergeItems_append_congr {l m m' : List ι} {k : κ}
    (hlm : ∀ a ∈ l, ∀ b ∈ m, ord a < ord b) (hmem : ∀ j, j ∈ m' ↔ j ∈ m)
    (h : ∀ i ∈ m, ∀ j ∈ m, Leads rank ord emit (l ++ m) k i →
      Leads rank ord emit (l ++ m) k j → best rank emit k i = best rank emit k j) :
    (mergeItems rank ord emit (l ++ m')).get k = (mergeItems rank ord emit (l ++ m)).get k := by
  have hle : ∀ {m₁ : List ι}, (∀ j ∈ m₁, j ∈ m) → (mergeItems rank ord emit (l ++ m₁)).get k =
      firstBest rank ((sortedBy ord l).flatMap (fun i => candidates k (emit i)) ++
        (sortedBy ord m₁).flatMap fun i => candidates k (emit i)) := by
    intro m₁ hm₁
    unfold mergeItems
    rw [get_keepAll_nil, candidates_flatMap,
      sortedBy_append fun a ha b hb => (hlm a ha b (hm₁ b hb)).le, flatMap_append]
  by_cases hlead : ∃ i ∈ l, Leads rank ord emit (l ++ m) k i
  · -- the entry comes from the items in front, whatever follows
    obtain ⟨i, hil, -, a, ha, hbest⟩ := hlead
    have hmem' : a ∈ (sortedBy ord l).flatMap fun i => candidates k (emit i) :=
      mem_flatMap.mpr ⟨i, mem_sortedBy.mpr hil, firstBest_mem ha⟩
    obtain ⟨x, hx⟩ : ∃ x, firstBest rank
        ((sortedBy ord l).flatMap fun i => candidates k (emit i)) = some x := by
      cases hx : firstBest rank ((sortedBy ord l).flatMap fun i => candidates k (emit i)) with
      | none =>
        rw [firstBest_eq_none.mp hx] at hmem'
        cases hmem'
      | some x => exact ⟨x, rfl⟩
    have hfirst : ∀ {m₁ : List ι}, (∀ j ∈ m₁, j ∈ m) →
        (mergeItems rank ord emit (l ++ m₁)).get k = some x := by
      intro m₁ hm₁
      rw [hle hm₁]
      apply firstBest_append_of_le hx
      intro b hb
      obtain ⟨j, hj, hb⟩ := mem_flatMap.mp hb
      obtain ⟨c, hc, hbc⟩ := best_isSome rank hb
      have hcx : rank c ≤ rank a := by
        rcases hbest j (mem_append_right _ (hm₁ j (mem_sortedBy.mp hj))) c hc with hlt | ⟨heq, -⟩
        · exact hlt.le
        · exact heq.le
      exact (hbc.trans hcx).trans (firstBest_max hx a hmem')
    rw [hfirst fun j hj => (hmem j).mp hj, hfirst fun j hj => hj]
  · have hlater : ∀ i, Leads rank ord emit (l ++ m) k i → i ∈ m := by
      intro i hi
      rcases mem_append.mp hi.1 with hil | him
      · exact absurd ⟨i, hil, hi⟩ hlead
      · exact him
    refine get_mergeItems_congr (fun i j hi hj => h i (hlater i hi) j (hlater j hj) hi hj) ?_
      fun i _ => Iff.rfl
    intro j
    rw [mem_append, mem_append, hmem]

omit [DecidableEq κ] in
/-- The entries of a dictionary differ in their keys. -/
theorem entries_pairwise {d : Dict κ α} {key : α → κ} (hd : d.KeysNodup)
    (hkey : ∀ p ∈ d, key p.2 = p.1) : (d.map Prod.snd).Pairwise fun a b => key a ≠ key b := by
  unfold Dict.KeysNodup Nodup at hd
  rw [pairwise_map] at hd ⊢
  apply hd.imp_of_mem
  intro p q hp hq hne
  rw [hkey p hp, hkey q hq]
  exact hne

/-- Dictionaries whose keys are read off their entries list the same entries when they have the same
entries. -/
theorem sortedBy_entries_eq_iff {d d' : Dict κ α} {key : α → κ} {ord : α → ω}
    (hord : ∀ a b, ord a = ord b → key a = key b) (hd : d.KeysNodup) (hd' : d'.KeysNodup)
    (hkey : ∀ p ∈ d, key p.2 = p.1) (hkey' : ∀ p ∈ d', key p.2 = p.1) :
    sortedBy ord (d.map Prod.snd) = sortedBy ord (d'.map Prod.snd) ↔
      ∀ k, d.get k = d'.get k := by
  have hget : ∀ {d : Dict κ α}, d.KeysNodup → (∀ p ∈ d, key p.2 = p.1) → ∀ k a,
      d.get k = some a ↔ a ∈ sortedBy ord (d.map Prod.snd) ∧ key a = k := by
    intro d hd hkey k a
    rw [mem_sortedBy, mem_map]
    constructor
    · intro h
      exact ⟨⟨_, Dict.mem_of_get h, rfl⟩, hkey _ (Dict.mem_of_get h)⟩
    · rintro ⟨⟨p, hp, rfl⟩, rfl⟩
      apply Dict.get_of_mem hd
      rw [hkey p hp]
      exact hp
  constructor
  · intro h k
    apply Option.ext
    intro a
    rw [hget hd hkey, hget hd' hkey', h]
  · intro h
    apply sortedBy_eq_of_perm ((Dict.perm_of_get hd hd' h).map _)
    unfold Nodup
    rw [pairwise_map]
    exact (entries_pairwise hd hkey).imp fun hne heq => hne (hord _ _ heq)

end Py
