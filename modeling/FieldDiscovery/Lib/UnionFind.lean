import Mathlib

/-!
# Union-find with path halving and no ranks

A parent table over a linearly ordered type, where a union links the larger of two roots below
the smaller. The table is a total function that is the identity outside a finite set `s` of
registered items.

* `Forest s p`: parents are registered and never above their item. It carries termination (the
  chain of an item strictly descends inside `s`) and is kept by `find` and `union`.
* `rootOf s p x`: the root of `x`, the abstract reading of the table. `find` returns it and
  leaves it unchanged (`find_spec`), `union` redirects one root to the other (`rootOf_union`).
* `Merged L`: the equivalence closure of a list of united pairs; `SameRoot.merge` is the step of
  the simulation between the table and the closure.
* `roots s p`: the roots, of which a union of two different ones removes exactly one.
* `pairGraph L`: the pairs as edges, a forest as long as every pair joins two classes.
-/

open Finset

namespace UnionFind

variable {α : Type*} [LinearOrder α]

/-! ## The operations -/

/-- `while parent[item] != item: parent[item] = parent[parent[item]]; item = parent[item]`. -/
def find (fuel : Nat) (parent : α → α) (item : α) : (α → α) × α :=
  match fuel with
  | 0 => (parent, item)
  | fuel + 1 =>
    if parent item = item then (parent, item)
    else
      let halved := Function.update parent item (parent (parent item))
      find fuel halved (halved item)

/-- `first, second = sorted((find(left), find(right))); parent[second] = first`. -/
def union (fuel : Nat) (parent : α → α) (left right : α) : α → α :=
  let (parent, leftRoot) := find fuel parent left
  let (parent, rightRoot) := find fuel parent right
  Function.update parent (max leftRoot rightRoot) (min leftRoot rightRoot)

/-! ## The forest invariant -/

/-- Parents stay registered, never exceed their item, and unregistered items are untouched. -/
structure Forest (s : Finset α) (p : α → α) : Prop where
  le : ∀ x, p x ≤ x
  mem : ∀ x ∈ s, p x ∈ s
  fix : ∀ x, x ∉ s → p x = x

/-- The root of `x`: the chain of parents is constant after `s.card` steps. -/
def rootOf (s : Finset α) (p : α → α) (x : α) : α := p^[s.card] x

/-- Two items have one root. -/
def SameRoot (s : Finset α) (p : α → α) (x y : α) : Prop := rootOf s p x = rootOf s p y

/-- The initial table, every item its own root. -/
theorem Forest.id (s : Finset α) : Forest s (fun x => x) :=
  ⟨fun _ => le_rfl, fun _ hx => hx, fun _ _ => rfl⟩

section Roots

variable {s : Finset α} {p : α → α} (h : Forest s p)

include h

theorem Forest.iterate_le (x : α) (n : Nat) : p^[n] x ≤ x := by
  induction n with
  | zero => exact le_rfl
  | succ n ih =>
    rw [Function.iterate_succ_apply']
    exact (h.le _).trans ih

theorem Forest.iterate_mem {x : α} (hx : x ∈ s) (n : Nat) : p^[n] x ∈ s := by
  induction n with
  | zero => exact hx
  | succ n ih =>
    rw [Function.iterate_succ_apply']
    exact h.mem _ ih

/-- As many steps as there are registered items below `x` reach a root. -/
theorem Forest.iterate_isRoot (n : Nat) : ∀ x ∈ s, #{y ∈ s | y < x} ≤ n →
    p (p^[n] x) = p^[n] x := by
  induction n with
  | zero =>
    intro x hx hn
    by_contra hne
    have hlt : p x < x := lt_of_le_of_ne (h.le x) hne
    have : p x ∈ ({y ∈ s | y < x} : Finset α) := mem_filter.mpr ⟨h.mem x hx, hlt⟩
    rw [Nat.le_zero, card_eq_zero] at hn
    rw [hn] at this
    exact absurd this (notMem_empty _)
  | succ n ih =>
    intro x hx hn
    rw [Function.iterate_succ_apply]
    by_cases hroot : p x = x
    · rw [hroot]
      exact (Function.iterate_fixed hroot n).symm ▸ hroot
    · refine ih (p x) (h.mem x hx) ?_
      have hlt : p x < x := lt_of_le_of_ne (h.le x) hroot
      have hss : ({y ∈ s | y < p x} : Finset α) ⊂ {y ∈ s | y < x} := by
        refine (ssubset_iff_of_subset ?_).mpr ⟨p x, ?_, ?_⟩
        · intro y hy
          rw [mem_filter] at hy ⊢
          exact ⟨hy.1, hy.2.trans hlt⟩
        · exact mem_filter.mpr ⟨h.mem x hx, hlt⟩
        · exact fun hy => lt_irrefl _ (mem_filter.mp hy).2
      have := card_lt_card hss
      omega

/-- The root of an item is a root. -/
theorem Forest.rootOf_isRoot (x : α) : p (rootOf s p x) = rootOf s p x := by
  by_cases hx : x ∈ s
  · exact h.iterate_isRoot s.card x hx (card_filter_le _ _)
  · unfold rootOf
    rw [Function.iterate_fixed (h.fix x hx)]
    exact h.fix x hx

theorem Forest.rootOf_mem {x : α} (hx : x ∈ s) : rootOf s p x ∈ s := h.iterate_mem hx _

theorem Forest.rootOf_le (x : α) : rootOf s p x ≤ x := h.iterate_le x _

omit [LinearOrder α] h in
theorem rootOf_eq_self {r : α} (hr : p r = r) : rootOf s p r = r := Function.iterate_fixed hr _

/-- A step towards the root does not change it. -/
theorem Forest.rootOf_parent (x : α) : rootOf s p (p x) = rootOf s p x := by
  have hr := h.rootOf_isRoot x
  unfold rootOf at hr ⊢
  rw [← Function.iterate_succ_apply, Function.iterate_succ_apply', hr]

/-- The root map is the one map that is constant along parents and fixes every root. -/
theorem Forest.rootOf_unique {g : α → α} (hstep : ∀ x, g (p x) = g x)
    (hroot : ∀ r, p r = r → g r = r) (x : α) : rootOf s p x = g x := by
  have hiter : ∀ n, g (p^[n] x) = g x := by
    intro n
    induction n with
    | zero => rfl
    | succ n ih => rw [Function.iterate_succ_apply', hstep, ih]
  exact (hroot _ (h.rootOf_isRoot x)).symm.trans (hiter _)

/-! ## Path halving and linking -/

theorem Forest.halve (x : α) : Forest s (Function.update p x (p (p x))) where
  le y := by
    rw [Function.update_apply]
    split
    · next hy => exact hy ▸ (h.le _).trans (h.le _)
    · exact h.le y
  mem y hy := by
    rw [Function.update_apply]
    split
    · next hyx => exact h.mem _ (h.mem _ (hyx ▸ hy))
    · exact h.mem y hy
  fix y hy := by
    rw [Function.update_apply]
    split
    · next hyx =>
      subst hyx
      rw [h.fix _ hy, h.fix _ hy]
    · exact h.fix y hy

/-- Halving keeps every root. -/
theorem Forest.rootOf_halve (x y : α) :
    rootOf s (Function.update p x (p (p x))) y = rootOf s p y := by
  refine (h.halve x).rootOf_unique (g := rootOf s p) ?_ ?_ y
  · intro z
    rw [Function.update_apply]
    split
    · next hz => rw [h.rootOf_parent, h.rootOf_parent, hz]
    · exact h.rootOf_parent z
  · intro r hr
    rw [Function.update_apply] at hr
    split at hr
    · next hrx =>
      subst hrx
      refine rootOf_eq_self (le_antisymm (h.le r) ?_)
      calc r = p (p r) := hr.symm
        _ ≤ p r := h.le _
    · exact rootOf_eq_self hr

theorem Forest.link {a b : α} (ha : a ∈ s) (hb : b ∈ s) :
    Forest s (Function.update p (max a b) (min a b)) where
  le y := by
    rw [Function.update_apply]
    split
    · next hy => exact hy ▸ min_le_max
    · exact h.le y
  mem y hy := by
    rw [Function.update_apply]
    split
    · exact min_rec' (· ∈ s) ha hb
    · exact h.mem y hy
  fix y hy := by
    rw [Function.update_apply, if_neg]
    · exact h.fix y hy
    · rintro rfl
      exact hy (max_rec' (· ∈ s) ha hb)

/-- Linking two roots sends exactly the items below the larger root to the smaller. -/
theorem Forest.rootOf_link {a b : α} (ha : a ∈ s) (hb : b ∈ s) (hra : p a = a) (hrb : p b = b)
    (y : α) : rootOf s (Function.update p (max a b) (min a b)) y =
      if rootOf s p y = max a b then min a b else rootOf s p y := by
  have hmax : p (max a b) = max a b := max_rec' (fun z => p z = z) hra hrb
  have hmin : p (min a b) = min a b := min_rec' (fun z => p z = z) hra hrb
  refine (h.link ha hb).rootOf_unique
    (g := fun y => if rootOf s p y = max a b then min a b else rootOf s p y) ?_ ?_ y
  · intro z
    rw [Function.update_apply]
    split
    · next hz =>
      subst hz
      simp only [rootOf_eq_self hmin, rootOf_eq_self hmax, if_true]
      split <;> rfl
    · simp only [h.rootOf_parent]
  · intro r hr
    rw [Function.update_apply] at hr
    split at hr
    · next hrm =>
      subst hrm
      rw [rootOf_eq_self hmax, if_pos rfl]
      exact hr
    · next hrm => rw [rootOf_eq_self hr, if_neg hrm]

/-! ## `find` and `union` -/

/-- `find` returns the root, and only halves paths on the way. -/
theorem find_spec {x : α} (hx : x ∈ s) {fuel : Nat} (hfuel : #{y ∈ s | y < x} ≤ fuel) :
    Forest s (find fuel p x).1 ∧ (∀ y, rootOf s (find fuel p x).1 y = rootOf s p y) ∧
      (find fuel p x).2 = rootOf s p x := by
  induction fuel generalizing p x with
  | zero =>
    have hroot : p x = x := h.iterate_isRoot 0 x hx hfuel
    exact ⟨h, fun _ => rfl, (rootOf_eq_self hroot).symm⟩
  | succ fuel ih =>
    unfold find
    split
    · next hroot => exact ⟨h, fun _ => rfl, (rootOf_eq_self hroot).symm⟩
    · next hroot =>
      simp only [Function.update_self]
      have hlt : p x < x := lt_of_le_of_ne (h.le x) hroot
      have hcard : #{y ∈ s | y < p (p x)} ≤ fuel := by
        have hss : ({y ∈ s | y < p (p x)} : Finset α) ⊂ {y ∈ s | y < x} := by
          refine (ssubset_iff_of_subset ?_).mpr ⟨p x, mem_filter.mpr ⟨h.mem x hx, hlt⟩, ?_⟩
          · intro y hy
            rw [mem_filter] at hy ⊢
            exact ⟨hy.1, (hy.2.trans_le (h.le _)).trans hlt⟩
          · exact fun hy => absurd (mem_filter.mp hy).2 (not_lt.mpr (h.le _))
        have := card_lt_card hss
        omega
      obtain ⟨hf, hroots, hres⟩ := ih (h.halve x) (h.mem _ (h.mem _ hx)) hcard
      refine ⟨hf, fun y => (hroots y).trans (h.rootOf_halve x y), ?_⟩
      rw [hres, h.rootOf_halve, h.rootOf_parent, h.rootOf_parent]

/-- With as much fuel as registered items, `find` never runs out. -/
theorem find_spec_card {x : α} (hx : x ∈ s) {fuel : Nat} (hfuel : s.card ≤ fuel) :
    Forest s (find fuel p x).1 ∧ (∀ y, rootOf s (find fuel p x).1 y = rootOf s p y) ∧
      (find fuel p x).2 = rootOf s p x :=
  find_spec h hx ((card_filter_le _ _).trans hfuel)

/-- `union` redirects the larger of the two roots to the smaller. -/
theorem union_spec {a b : α} (ha : a ∈ s) (hb : b ∈ s) {fuel : Nat} (hfuel : s.card ≤ fuel) :
    Forest s (union fuel p a b) ∧ ∀ y, rootOf s (union fuel p a b) y =
      if rootOf s p y = max (rootOf s p a) (rootOf s p b) then
        min (rootOf s p a) (rootOf s p b) else rootOf s p y := by
  obtain ⟨hf₁, hr₁, he₁⟩ := find_spec_card h ha hfuel
  obtain ⟨hf₂, hr₂, he₂⟩ := find_spec_card hf₁ hb hfuel
  have hra : rootOf s p a = rootOf s (find fuel (find fuel p a).1 b).1 a :=
    ((hr₂ a).trans (hr₁ a)).symm
  have hrb : rootOf s p b = rootOf s (find fuel (find fuel p a).1 b).1 b :=
    ((hr₂ b).trans (hr₁ b)).symm
  have ha' : rootOf s p a ∈ s := h.rootOf_mem ha
  have hb' : rootOf s p b ∈ s := h.rootOf_mem hb
  have hfa : (find fuel (find fuel p a).1 b).1 (rootOf s p a) = rootOf s p a :=
    hra ▸ hf₂.rootOf_isRoot a
  have hfb : (find fuel (find fuel p a).1 b).1 (rootOf s p b) = rootOf s p b :=
    hrb ▸ hf₂.rootOf_isRoot b
  simp only [union, he₁, he₂, hr₁]
  refine ⟨hf₂.link ha' hb', fun y => ?_⟩
  rw [hf₂.rootOf_link ha' hb' hfa hfb, hr₂, hr₁]

/-- After a union, items share a root iff they did, or the union joined their classes. -/
theorem sameRoot_union {a b : α} (ha : a ∈ s) (hb : b ∈ s) {fuel : Nat} (hfuel : s.card ≤ fuel)
    (x y : α) : SameRoot s (union fuel p a b) x y ↔
      SameRoot s p x y ∨ (SameRoot s p x a ∧ SameRoot s p y b) ∨
        (SameRoot s p x b ∧ SameRoot s p y a) := by
  have hroot := (union_spec h ha hb hfuel).2
  unfold SameRoot
  rw [hroot x, hroot y]
  rcases le_total (rootOf s p a) (rootOf s p b) with hab | hab
  · rw [max_eq_right hab, min_eq_left hab]
    split <;> split <;> grind
  · rw [max_eq_left hab, min_eq_right hab]
    split <;> split <;> grind

/-! ## Counting roots -/

omit h in
/-- The registered roots. -/
def roots (s : Finset α) (p : α → α) : Finset α := {x ∈ s | p x = x}

theorem mem_roots_iff {r : α} : r ∈ roots s p ↔ r ∈ s ∧ rootOf s p r = r := by
  unfold roots
  rw [mem_filter]
  refine and_congr_right fun _ => ⟨rootOf_eq_self, fun hr => ?_⟩
  have := h.rootOf_isRoot r
  rwa [hr] at this

theorem rootOf_mem_roots {x : α} (hx : x ∈ s) : rootOf s p x ∈ roots s p :=
  mem_filter.mpr ⟨h.rootOf_mem hx, h.rootOf_isRoot x⟩

/-- A union of two different classes removes exactly one root. -/
theorem card_roots_union {a b : α} (ha : a ∈ s) (hb : b ∈ s) {fuel : Nat}
    (hfuel : s.card ≤ fuel) (hne : ¬ SameRoot s p a b) :
    (roots s (union fuel p a b)).card + 1 = (roots s p).card := by
  obtain ⟨hf, hroot⟩ := union_spec h ha hb hfuel
  have hra := h.rootOf_isRoot a
  have hrb := h.rootOf_isRoot b
  have hmaxroot : max (rootOf s p a) (rootOf s p b) ∈ roots s p :=
    max_rec' (· ∈ roots s p) (rootOf_mem_roots h ha) (rootOf_mem_roots h hb)
  have hmem : ∀ r, r ∈ roots s (union fuel p a b) ↔
      r ∈ (roots s p).erase (max (rootOf s p a) (rootOf s p b)) := by
    intro r
    rw [mem_erase, mem_roots_iff hf, mem_roots_iff h, hroot]
    have hlt : min (rootOf s p a) (rootOf s p b) ≠ max (rootOf s p a) (rootOf s p b) :=
      (min_lt_max.mpr hne).ne
    have hmin : rootOf s p (min (rootOf s p a) (rootOf s p b)) =
        min (rootOf s p a) (rootOf s p b) :=
      min_rec' (fun z => rootOf s p z = z) (rootOf_eq_self hra) (rootOf_eq_self hrb)
    have hmax : rootOf s p (max (rootOf s p a) (rootOf s p b)) =
        max (rootOf s p a) (rootOf s p b) := ((mem_roots_iff h).mp hmaxroot).2
    split
    · next he =>
      constructor
      · rintro ⟨-, rfl⟩
        exact absurd (hmin.symm.trans he) hlt
      · rintro ⟨hr, -, hr'⟩
        exact absurd (hr'.symm.trans he) hr
    · next he =>
      refine ⟨fun ⟨hs, hr⟩ => ⟨?_, hs, hr⟩, fun ⟨_, hs, hr⟩ => ⟨hs, hr⟩⟩
      rintro rfl
      exact he hmax
  have heq : roots s (union fuel p a b) =
      (roots s p).erase (max (rootOf s p a) (rootOf s p b)) := Finset.ext hmem
  rw [heq, card_erase_add_one hmaxroot]

end Roots

/-! ## The equivalence closure of the united pairs -/

/-- `x` and `y` are linked by a finite chain of the pairs of `L`. -/
def Merged (L : List (α × α)) : α → α → Prop := Relation.EqvGen fun x y => (x, y) ∈ L

omit [LinearOrder α] in
theorem Merged.mono {L L' : List (α × α)} (hL : L ⊆ L') {x y : α} (h : Merged L x y) :
    Merged L' x y := Relation.EqvGen.mono (fun _ _ hxy => hL hxy) _ _ h

omit [LinearOrder α] in
/-- One more pair joins the classes of its two ends. -/
theorem merged_append_pair (L : List (α × α)) (a b x y : α) :
    Merged (L ++ [(a, b)]) x y ↔
      Merged L x y ∨ (Merged L x a ∧ Merged L y b) ∨ (Merged L x b ∧ Merged L y a) := by
  have hequiv : Equivalence (Merged L) := Relation.EqvGen.is_equivalence _
  have hmono : ∀ {u v}, Merged L u v → Merged (L ++ [(a, b)]) u v :=
    fun h => h.mono (List.subset_append_left _ _)
  have hnew : Merged (L ++ [(a, b)]) a b := .rel _ _ (by simp)
  constructor
  · intro h
    induction h with
    | rel x y hxy =>
      rcases List.mem_append.mp hxy with hxy | hxy
      · exact Or.inl (.rel _ _ hxy)
      · obtain ⟨rfl, rfl⟩ := Prod.mk.inj (List.mem_singleton.mp hxy)
        exact Or.inr (Or.inl ⟨hequiv.refl _, hequiv.refl _⟩)
    | refl x => exact Or.inl (hequiv.refl x)
    | symm x y _ ih =>
      rcases ih with h | ⟨h₁, h₂⟩ | ⟨h₁, h₂⟩
      · exact Or.inl (hequiv.symm h)
      · exact Or.inr (Or.inr ⟨h₂, h₁⟩)
      · exact Or.inr (Or.inl ⟨h₂, h₁⟩)
    | trans x y z _ _ ih₁ ih₂ =>
      rcases ih₁ with h | ⟨h₁, h₂⟩ | ⟨h₁, h₂⟩ <;>
        rcases ih₂ with k | ⟨k₁, k₂⟩ | ⟨k₁, k₂⟩
      · exact Or.inl (hequiv.trans h k)
      · exact Or.inr (Or.inl ⟨hequiv.trans h k₁, k₂⟩)
      · exact Or.inr (Or.inr ⟨hequiv.trans h k₁, k₂⟩)
      · exact Or.inr (Or.inl ⟨h₁, hequiv.trans (hequiv.symm k) h₂⟩)
      · exact Or.inr (Or.inl ⟨h₁, k₂⟩)
      · exact Or.inl (hequiv.trans h₁ (hequiv.symm k₂))
      · exact Or.inr (Or.inr ⟨h₁, hequiv.trans (hequiv.symm k) h₂⟩)
      · exact Or.inl (hequiv.trans h₁ (hequiv.symm k₂))
      · exact Or.inr (Or.inr ⟨h₁, k₂⟩)
  · have hequiv' : Equivalence (Merged (L ++ [(a, b)])) := Relation.EqvGen.is_equivalence _
    rintro (h | ⟨h₁, h₂⟩ | ⟨h₁, h₂⟩)
    · exact hmono h
    · exact hequiv'.trans (hmono h₁) (hequiv'.trans hnew (hequiv'.symm (hmono h₂)))
    · exact hequiv'.trans (hmono h₁)
        (hequiv'.trans (hequiv'.symm hnew) (hequiv'.symm (hmono h₂)))

section Simulation

variable {s : Finset α} {p : α → α} {L : List (α × α)}

/-- The table reads as the closure of the pairs: the simulation relation. -/
def Represents (s : Finset α) (p : α → α) (L : List (α × α)) : Prop :=
  ∀ x y, SameRoot s p x y ↔ Merged L x y

omit [LinearOrder α] in
theorem represents_id (s : Finset α) : Represents s (fun x => x) [] := by
  intro x y
  have hroot : ∀ z, rootOf s (fun x => x) z = z := fun z => rootOf_eq_self rfl
  unfold SameRoot
  rw [hroot, hroot]
  constructor
  · rintro rfl
    exact .refl x
  · intro h
    induction h with
    | rel _ _ h => exact absurd h List.not_mem_nil
    | refl _ => rfl
    | symm _ _ _ ih => exact ih.symm
    | trans _ _ _ _ _ ih₁ ih₂ => exact ih₁.trans ih₂

omit [LinearOrder α] in
theorem Represents.congr {q : α → α} (h : Represents s p L)
    (hq : ∀ y, rootOf s q y = rootOf s p y) : Represents s q L := by
  intro x y
  unfold SameRoot
  rw [hq, hq]
  exact h x y

/-- Uniting two classes simulates adding the pair. -/
theorem Represents.union (h : Represents s p L) (hf : Forest s p) {a b : α} (ha : a ∈ s)
    (hb : b ∈ s) {fuel : Nat} (hfuel : s.card ≤ fuel) :
    Represents s (union fuel p a b) (L ++ [(a, b)]) := by
  intro x y
  rw [sameRoot_union hf ha hb hfuel, merged_append_pair]
  simp only [h x y, h x a, h y b, h x b, h y a]

omit [LinearOrder α] in
/-- A pair whose ends share a root already adds nothing. -/
theorem Represents.skip (h : Represents s p L) {a b : α} (hab : SameRoot s p a b) :
    Represents s p (L ++ [(a, b)]) := by
  have hab' := (h a b).mp hab
  have hequiv : Equivalence (Merged L) := Relation.EqvGen.is_equivalence _
  intro x y
  rw [h x y, merged_append_pair]
  refine ⟨Or.inl, ?_⟩
  rintro (h₀ | ⟨h₁, h₂⟩ | ⟨h₁, h₂⟩)
  · exact h₀
  · exact hequiv.trans h₁ (hequiv.trans hab' (hequiv.symm h₂))
  · exact hequiv.trans h₁ (hequiv.trans (hequiv.symm hab') (hequiv.symm h₂))

end Simulation

/-! ## The united pairs as a graph -/

section PairGraph

variable {V : Type*}

/-- The graph whose edges are the pairs of `L`. -/
def pairGraph (L : List (V × V)) : SimpleGraph V :=
  SimpleGraph.fromEdgeSet {e | ∃ p ∈ L, e = s(p.1, p.2)}

theorem pairGraph_adj {L : List (V × V)} {x y : V} :
    (pairGraph L).Adj x y ↔ ((x, y) ∈ L ∨ (y, x) ∈ L) ∧ x ≠ y := by
  unfold pairGraph
  rw [SimpleGraph.fromEdgeSet_adj]
  refine and_congr_left fun _ => ?_
  constructor
  · rintro ⟨⟨a, b⟩, hp, he⟩
    rcases Sym2.eq_iff.mp he with ⟨rfl, rfl⟩ | ⟨rfl, rfl⟩
    · exact Or.inl hp
    · exact Or.inr hp
  · rintro (h | h)
    · exact ⟨_, h, rfl⟩
    · exact ⟨_, h, Sym2.eq_swap⟩

theorem pairGraph_congr {L L' : List (V × V)} (h : ∀ p, p ∈ L ↔ p ∈ L') :
    pairGraph L = pairGraph L' := by
  ext x y
  rw [pairGraph_adj, pairGraph_adj, h, h]

/-- The components of the graph are the classes of the closure. -/
theorem pairGraph_reachable {L : List (V × V)} {x y : V} :
    (pairGraph L).Reachable x y ↔ Merged L x y := by
  constructor
  · rw [SimpleGraph.reachable_iff_reflTransGen]
    intro h
    induction h with
    | refl => exact .refl _
    | tail _ hadj ih =>
      refine ih.trans _ _ _ ?_
      rcases (pairGraph_adj.mp hadj).1 with h | h
      · exact .rel _ _ h
      · exact .symm _ _ (.rel _ _ h)
  · intro h
    induction h with
    | rel x y h =>
      by_cases hxy : x = y
      · exact hxy ▸ .rfl
      · exact (pairGraph_adj.mpr ⟨Or.inl h, hxy⟩).reachable
    | refl => exact .rfl
    | symm _ _ _ ih => exact ih.symm
    | trans _ _ _ _ _ ih₁ ih₂ => exact ih₁.trans ih₂

theorem pairGraph_append (L : List (V × V)) (x y : V) :
    pairGraph (L ++ [(x, y)]) = pairGraph L ⊔ SimpleGraph.edge x y := by
  ext u v
  rw [SimpleGraph.sup_adj, SimpleGraph.edge_adj, pairGraph_adj, pairGraph_adj]
  simp only [List.mem_append, List.mem_singleton, Prod.mk.injEq]
  grind

theorem pairGraph_nil_isAcyclic : (pairGraph ([] : List (V × V))).IsAcyclic := by
  have hbot : pairGraph ([] : List (V × V)) = ⊥ := by
    ext u v
    simp [pairGraph_adj]
  rw [hbot]
  exact SimpleGraph.isAcyclic_bot

/-- Adding a pair whose ends were not linked closes no cycle. -/
theorem pairGraph_append_isAcyclic {L : List (V × V)} {x y : V} (h : (pairGraph L).IsAcyclic)
    (hxy : ¬ Merged L x y) : (pairGraph (L ++ [(x, y)])).IsAcyclic := by
  rw [pairGraph_append]
  exact (SimpleGraph.isAcyclic_add_edge_iff_of_not_reachable x y
    (mt pairGraph_reachable.mp hxy)).mpr h

end PairGraph

end UnionFind
