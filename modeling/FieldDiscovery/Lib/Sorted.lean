import Mathlib

/-!
# Stable sorting by a key, and insertion-ordered grouping

`sortedBy key l` is Python's `sorted(l, key=key)`: stable, ascending in the key. `groupBy key l`
is the `defaultdict(list)` loop `for a in l: d[key(a)].append(a)`, as the list of its items in
insertion order.

The relational lemmas carry a pointwise relation through both (`Forall₂` in, `Forall₂` out), and
the permutation lemmas say what is left of the result when only the multiset of inputs is known.
-/

open List

namespace Py

variable {α β κ : Type*}

/-! ## Stable sorting -/

section SortedBy

variable [LinearOrder κ]

/-- `sorted(l, key=key)`. -/
def sortedBy (key : α → κ) (l : List α) : List α :=
  l.insertionSort fun a b => key a ≤ key b

theorem sortedBy_perm (key : α → κ) (l : List α) : (sortedBy key l).Perm l :=
  perm_insertionSort _ l

@[simp] theorem mem_sortedBy {key : α → κ} {l : List α} {a : α} : a ∈ sortedBy key l ↔ a ∈ l :=
  mem_insertionSort _

@[simp] theorem length_sortedBy (key : α → κ) (l : List α) :
    (sortedBy key l).length = l.length := length_insertionSort _ l

instance total_key (key : α → κ) : Std.Total fun a b => key a ≤ key b := ⟨fun _ _ => le_total _ _⟩

instance isTrans_key (key : α → κ) : IsTrans α fun a b => key a ≤ key b := ⟨fun _ _ _ => le_trans⟩

theorem pairwise_sortedBy (key : α → κ) (l : List α) :
    (sortedBy key l).Pairwise fun a b => key a ≤ key b :=
  pairwise_insertionSort _ l

/-- A list already in order is left as it is. -/
theorem sortedBy_eq_self {key : α → κ} {l : List α} (h : l.Pairwise fun a b => key a ≤ key b) :
    sortedBy key l = l := h.insertionSort_eq

/-- Sorting the keys and sorting by the keys agree. -/
theorem map_sortedBy (key : α → κ) (l : List α) :
    (sortedBy key l).map key = (l.map key).insertionSort (· ≤ ·) :=
  map_insertionSort _ _ key l fun _ _ _ _ => Iff.rfl

/-- The keys of the sorted list depend only on the multiset of inputs. -/
theorem map_sortedBy_of_perm {key : α → κ} {l l' : List α} (h : l.Perm l') :
    (sortedBy key l).map key = (sortedBy key l').map key := by
  rw [map_sortedBy, map_sortedBy]
  have hp : ((l.map key).insertionSort (· ≤ ·)).Perm ((l'.map key).insertionSort (· ≤ ·)) :=
    (perm_insertionSort _ _).trans ((h.map key).trans (perm_insertionSort _ _).symm)
  exact hp.eq_of_pairwise' (pairwise_insertionSort _ _) (pairwise_insertionSort _ _)

/-- With distinct keys the sorted list depends only on the multiset of inputs. -/
theorem sortedBy_eq_of_perm {key : α → κ} {l l' : List α} (h : l.Perm l')
    (hnd : (l.map key).Nodup) : sortedBy key l = sortedBy key l' := by
  have hinj : ∀ a ∈ l, ∀ b ∈ l, key a = key b → a = b :=
    fun a ha b hb => inj_on_of_nodup_map hnd ha hb
  have hp : (sortedBy key l).Perm (sortedBy key l') :=
    (sortedBy_perm key l).trans (h.trans (sortedBy_perm key l').symm)
  refine Perm.eq_of_pairwise ?_ (pairwise_sortedBy key l) (pairwise_sortedBy key l') hp
  intro a b ha hb hab hba
  exact hinj a (mem_sortedBy.mp ha) b (h.mem_iff.mpr (mem_sortedBy.mp hb)) (le_antisymm hab hba)

/-- Lists in ascending order are equal when they list the items of each key in the same order. -/
theorem eq_of_filter_key {key : α → κ} {s s' : List α} (hs : s.Pairwise fun a b => key a ≤ key b)
    (hs' : s'.Pairwise fun a b => key a ≤ key b)
    (h : ∀ k, s.filter (key · = k) = s'.filter (key · = k)) : s = s' := by
  induction s generalizing s' with
  | nil =>
    cases s' with
    | nil => rfl
    | cons b s' => simpa using h (key b)
  | cons a s ih =>
    cases s' with
    | nil => simpa using h (key a)
    | cons b s' =>
      rw [pairwise_cons] at hs hs'
      have hle : key b ≤ key a := by
        have ha : a ∈ (b :: s').filter (key · = key a) := by
          rw [← h]
          simp
        rcases mem_cons.mp (mem_of_mem_filter ha) with rfl | ha
        · exact le_rfl
        · exact hs'.1 a ha
      have hge : key a ≤ key b := by
        have hb : b ∈ (a :: s).filter (key · = key b) := by
          rw [h]
          simp
        rcases mem_cons.mp (mem_of_mem_filter hb) with rfl | hb
        · exact le_rfl
        · exact hs.1 b hb
      have hkey : key b = key a := le_antisymm hle hge
      obtain rfl : a = b := by
        have hhead := h (key a)
        rw [filter_cons_of_pos (by simp), filter_cons_of_pos (by simpa using hkey)] at hhead
        exact (cons.inj hhead).1
      congr 1
      apply ih hs.2 hs'.2
      intro k
      have hk := h k
      by_cases ha : key a = k
      · rw [filter_cons_of_pos (by simpa using ha), filter_cons_of_pos (by simpa using ha)] at hk
        exact (cons.inj hk).2
      · rwa [filter_cons_of_neg (by simpa using ha), filter_cons_of_neg (by simpa using ha)] at hk

/-- Sorting reads the keys through their order only. -/
theorem sortedBy_congr {κ' : Type*} [LinearOrder κ'] {key : α → κ} {key' : α → κ'}
    (h : ∀ a b, key a ≤ key b ↔ key' a ≤ key' b) (l : List α) :
    sortedBy key l = sortedBy key' l := by
  unfold sortedBy
  congr 1
  funext a b
  exact propext (h a b)

/-- Sorting images sorts the items by the keys of their images. -/
theorem sortedBy_map (f : β → α) (key : α → κ) (l : List β) :
    sortedBy key (l.map f) = (sortedBy (fun b => key (f b)) l).map f :=
  (map_insertionSort _ _ f l fun _ _ _ _ => Iff.rfl).symm

/-- Items with greater keys stay behind. -/
theorem sortedBy_append {key : α → κ} {l l' : List α} (h : ∀ a ∈ l, ∀ b ∈ l', key a ≤ key b) :
    sortedBy key (l ++ l') = sortedBy key l ++ sortedBy key l' := by
  have hinsert : ∀ (a : α) (s s' : List α), (∀ b ∈ s', key a ≤ key b) →
      (s ++ s').orderedInsert (fun x y => key x ≤ key y) a =
        s.orderedInsert (fun x y => key x ≤ key y) a ++ s' := by
    intro a s s' hs'
    induction s with
    | nil =>
      cases s' with
      | nil => rfl
      | cons b s' => simp [hs' b mem_cons_self]
    | cons b s ih =>
      rw [cons_append, orderedInsert_cons, orderedInsert_cons, ih]
      split <;> rfl
  induction l with
  | nil => rfl
  | cons a l ih =>
    show (sortedBy key (l ++ l')).orderedInsert _ a = _
    rw [ih fun b hb => h b (mem_cons_of_mem _ hb)]
    exact hinsert a _ _ fun b hb => h a mem_cons_self b (mem_sortedBy.mp hb)

/-- Filtering and sorting commute. -/
theorem filter_sortedBy (p : α → Bool) (key : α → κ) (l : List α) :
    (sortedBy key l).filter p = sortedBy key (l.filter p) := by
  have hinsert : ∀ (a : α) (s : List α), s.Pairwise (fun x y => key x ≤ key y) →
      (s.orderedInsert (fun x y => key x ≤ key y) a).filter p =
        if p a then (s.filter p).orderedInsert (fun x y => key x ≤ key y) a else s.filter p := by
    intro a s hs
    induction s with
    | nil => by_cases ha : p a <;> simp [ha]
    | cons b s ih =>
      rw [pairwise_cons] at hs
      rw [orderedInsert_cons]
      by_cases hab : key a ≤ key b
      · rw [if_pos hab]
        by_cases ha : p a
        · -- everything behind `a` has a key at least as great
          have hle : ∀ x ∈ (b :: s).filter p, key a ≤ key x := by
            intro x hx
            rcases mem_cons.mp (mem_of_mem_filter hx) with rfl | hx
            · exact hab
            · exact hab.trans (hs.1 x hx)
          rw [filter_cons_of_pos ha, if_pos ha]
          cases hf : (b :: s).filter p with
          | nil => rfl
          | cons x t =>
            rw [orderedInsert_cons, if_pos]
            exact hle x (hf ▸ mem_cons_self)
        · rw [filter_cons_of_neg ha, if_neg ha]
      · rw [if_neg hab, filter_cons, ih hs.2]
        by_cases hb : p b
        · by_cases ha : p a
          · simp [ha, hb, hab]
          · simp [ha, hb]
        · simp [hb]
  induction l with
  | nil => rfl
  | cons a l ih =>
    show ((sortedBy key l).orderedInsert _ a).filter p = _
    rw [hinsert a _ (pairwise_sortedBy key l), ih, filter_cons]
    split <;> rfl

/-- A stable sort depends only on the order of the items of each key. -/
theorem sortedBy_eq_of_filter {key : α → κ} {l l' : List α}
    (h : ∀ k, l.filter (key · = k) = l'.filter (key · = k)) :
    sortedBy key l = sortedBy key l' := by
  apply eq_of_filter_key (pairwise_sortedBy key l) (pairwise_sortedBy key l')
  intro k
  rw [filter_sortedBy, filter_sortedBy, h]

section Related

variable {key : α → κ} {key' : β → κ} {R : α → β → Prop} (hkey : ∀ a b, R a b → key a = key' b)

include hkey

theorem orderedInsert_forall₂ {a : α} {b : β} (hab : R a b) :
    ∀ {l : List α} {l' : List β}, Forall₂ R l l' →
      Forall₂ R (l.orderedInsert (fun x y => key x ≤ key y) a)
        (l'.orderedInsert (fun x y => key' x ≤ key' y) b)
  | [], [], .nil => .cons hab .nil
  | c :: l, d :: l', .cons hcd h => by
    rw [orderedInsert_cons, orderedInsert_cons, hkey a b hab, hkey c d hcd]
    split
    · exact .cons hab (.cons hcd h)
    · exact .cons hcd (orderedInsert_forall₂ hab h)

/-- Sorting two pointwise related lists by equal keys keeps them pointwise related. -/
theorem sortedBy_forall₂ : ∀ {l : List α} {l' : List β}, Forall₂ R l l' →
    Forall₂ R (sortedBy key l) (sortedBy key' l')
  | [], [], .nil => .nil
  | _ :: _, _ :: _, .cons hab h => orderedInsert_forall₂ hkey hab (sortedBy_forall₂ h)

end Related

end SortedBy

/-- `sorted(set(l))`: the distinct members in ascending order. The iteration order of the set
does not matter, since distinct members have distinct keys. -/
def sortedSet [LinearOrder κ] (l : List κ) : List κ := l.dedup.insertionSort (· ≤ ·)

@[simp] theorem mem_sortedSet [LinearOrder κ] {l : List κ} {a : κ} : a ∈ sortedSet l ↔ a ∈ l := by
  simp [sortedSet]

theorem nodup_sortedSet [LinearOrder κ] (l : List κ) : (sortedSet l).Nodup :=
  (perm_insertionSort _ _).nodup_iff.mpr (nodup_dedup l)

theorem pairwise_sortedSet [LinearOrder κ] (l : List κ) : (sortedSet l).Pairwise (· ≤ ·) :=
  pairwise_insertionSort _ _

theorem sortedSet_congr [LinearOrder κ] {l l' : List κ} (h : ∀ a, a ∈ l ↔ a ∈ l') :
    sortedSet l = sortedSet l' := by
  have hp : l.dedup.Perm l'.dedup :=
    (perm_ext_iff_of_nodup (nodup_dedup l) (nodup_dedup l')).mpr fun a => by simp [h a]
  have hq : (sortedSet l).Perm (sortedSet l') :=
    (perm_insertionSort _ _).trans (hp.trans (perm_insertionSort _ _).symm)
  exact hq.eq_of_pairwise' (pairwise_insertionSort _ _) (pairwise_insertionSort _ _)

/-! ## Grouping -/

section GroupBy

variable [DecidableEq κ]

/-- `d[k].append(a)` on a `defaultdict(list)`, given as its items in insertion order. -/
def push : List (κ × List α) → κ → α → List (κ × List α)
  | [], k, a => [(k, [a])]
  | (k', g) :: d, k, a => if k' = k then (k', g ++ [a]) :: d else (k', g) :: push d k a

/-- `for a in l: d[key(a)].append(a)`. -/
def groupBy (key : α → κ) (l : List α) : List (κ × List α) :=
  l.foldl (fun d a => push d (key a) a) []

@[simp] theorem groupBy_append_singleton (key : α → κ) (l : List α) (a : α) :
    groupBy key (l ++ [a]) = push (groupBy key l) (key a) a := by
  simp [groupBy]

theorem map_fst_push (d : List (κ × List α)) (k : κ) (a : α) :
    (push d k a).map Prod.fst =
      if k ∈ d.map Prod.fst then d.map Prod.fst else d.map Prod.fst ++ [k] := by
  induction d with
  | nil => simp [push]
  | cons p d ih =>
    obtain ⟨k', g⟩ := p
    by_cases hk : k' = k
    · simp [push, hk]
    · have hk' : k ≠ k' := fun h => hk h.symm
      simp only [push, hk, if_false, map_cons, mem_cons, hk', false_or, ih]
      split <;> rfl

/-- With distinct keys, `push` replaces the group of `k` by its extension. -/
theorem mem_push {d : List (κ × List α)} (hd : (d.map Prod.fst).Nodup) {k : κ} {a : α}
    {p : κ × List α} : p ∈ push d k a ↔ (p ∈ d ∧ p.1 ≠ k) ∨
      (p.1 = k ∧ ∃ g, p.2 = g ++ [a] ∧ ((k, g) ∈ d ∨ (g = [] ∧ k ∉ d.map Prod.fst))) := by
  obtain ⟨x, y⟩ := p
  induction d with
  | nil => simp [push]
  | cons q d ih =>
    obtain ⟨k', g'⟩ := q
    rw [map_cons, nodup_cons] at hd
    by_cases hk : k' = k
    · subst hk
      have hnot : ∀ g, (k', g) ∉ d := fun g hg => hd.1 (mem_map.mpr ⟨_, hg, rfl⟩)
      have hx : (x, y) ∈ d → x ≠ k' := fun h he => hnot y (he ▸ h)
      simp only [push, if_true, mem_cons, Prod.mk.injEq, hnot, or_false, map_cons, true_or,
        not_true_eq_false, and_false, true_and, ne_eq]
      constructor
      · rintro (⟨rfl, rfl⟩ | h)
        · exact Or.inr ⟨rfl, g', rfl, rfl⟩
        · exact Or.inl ⟨Or.inr h, hx h⟩
      · rintro (⟨⟨rfl, -⟩ | h, hne⟩ | ⟨rfl, g, rfl, rfl⟩)
        · exact absurd rfl hne
        · exact Or.inr h
        · exact Or.inl ⟨rfl, rfl⟩
    · have hk' : k ≠ k' := fun h => hk h.symm
      simp only [push, hk, if_false, mem_cons, Prod.mk.injEq, ih hd.2, map_cons, hk', false_and,
        false_or, ne_eq]
      constructor
      · rintro (⟨rfl, rfl⟩ | ⟨h, hne⟩ | h)
        · exact Or.inl ⟨Or.inl ⟨rfl, rfl⟩, hk⟩
        · exact Or.inl ⟨Or.inr h, hne⟩
        · exact Or.inr h
      · rintro (⟨h | h, hne⟩ | h)
        · exact Or.inl h
        · exact Or.inr (Or.inl ⟨h, hne⟩)
        · exact Or.inr (Or.inr h)

/-- The groups of a list: the keys are distinct, the group of `k` is the sublist with key `k`. -/
theorem groupBy_spec (key : α → κ) (l : List α) :
    ((groupBy key l).map Prod.fst).Nodup ∧
      (∀ k, k ∈ (groupBy key l).map Prod.fst ↔ k ∈ l.map key) ∧
      ∀ p ∈ groupBy key l, p.2 = l.filter (key · = p.1) := by
  induction l using List.reverseRecOn with
  | nil => simp [groupBy]
  | append_singleton l a ih =>
    obtain ⟨hnd, hkeys, hgrp⟩ := ih
    rw [groupBy_append_singleton]
    refine ⟨?_, ?_, ?_⟩
    · rw [map_fst_push]
      split
      · exact hnd
      · next h => exact hnd.append (nodup_singleton _) (by simpa using h)
    · intro k
      rw [map_fst_push, map_append, mem_append, map_singleton, mem_singleton, ← hkeys]
      split
      · next h =>
        exact ⟨Or.inl, fun h' => h'.elim id fun e => e ▸ h⟩
      · rw [mem_append, mem_singleton]
    · rintro ⟨k, g⟩ hp
      rw [filter_append]
      rcases (mem_push hnd).mp hp with ⟨hp, hne⟩ | ⟨hk, g', rfl, hg⟩
      · simp only [ne_eq] at hne
        rw [hgrp _ hp]
        simp [Ne.symm hne]
      · simp only at hk
        subst hk
        rcases hg with hg | ⟨rfl, hnot⟩
        · have hg' : g' = l.filter (key · = key a) := hgrp _ hg
          simp [hg']
        · have hnil : l.filter (key · = key a) = [] := by
            rw [hkeys] at hnot
            exact filter_eq_nil_iff.mpr fun x hx hxa =>
              hnot (mem_map.mpr ⟨x, hx, of_decide_eq_true hxa⟩)
          simp [hnil]

theorem groupBy_keys_nodup (key : α → κ) (l : List α) : ((groupBy key l).map Prod.fst).Nodup :=
  (groupBy_spec key l).1

theorem mem_groupBy_keys {key : α → κ} {l : List α} {k : κ} :
    k ∈ (groupBy key l).map Prod.fst ↔ k ∈ l.map key := (groupBy_spec key l).2.1 k

theorem groupBy_group {key : α → κ} {l : List α} {p : κ × List α} (h : p ∈ groupBy key l) :
    p.2 = l.filter (key · = p.1) := (groupBy_spec key l).2.2 p h

theorem mem_groupBy {key : α → κ} {l : List α} {p : κ × List α} :
    p ∈ groupBy key l ↔ p.1 ∈ l.map key ∧ p.2 = l.filter (key · = p.1) := by
  constructor
  · intro h
    exact ⟨mem_groupBy_keys.mp (mem_map_of_mem h), groupBy_group h⟩
  · rintro ⟨hk, hg⟩
    obtain ⟨q, hq, hqk⟩ := mem_map.mp (mem_groupBy_keys.mpr hk)
    have : q = p := Prod.ext hqk (by rw [groupBy_group hq, hg, hqk])
    exact this ▸ hq

/-- The groups together hold every item once. -/
theorem groupBy_flatten_perm (key : α → κ) (l : List α) :
    ((groupBy key l).flatMap Prod.snd).Perm l := by
  induction l using List.reverseRecOn with
  | nil => exact .refl _
  | append_singleton l a ih =>
    rw [groupBy_append_singleton]
    refine Perm.trans ?_ (ih.append_right [a])
    generalize groupBy key l = d
    induction d with
    | nil => exact .refl _
    | cons p d ihd =>
      obtain ⟨k', g⟩ := p
      unfold push
      split
      · simp only [flatMap_cons, append_assoc]
        exact Perm.append_left g perm_append_comm
      · simpa only [flatMap_cons, append_assoc] using Perm.append_left g ihd

theorem push_map (g : β → α) (d : List (κ × List β)) (k : κ) (b : β) :
    push (d.map fun p => (p.1, p.2.map g)) k (g b) =
      (push d k b).map fun p => (p.1, p.2.map g) := by
  induction d with
  | nil => rfl
  | cons p d ih =>
    simp only [map_cons, push, ih]
    split <;> simp

/-- Grouping the images groups the items by the key of their image. -/
theorem groupBy_map (g : β → α) (key : α → κ) (l : List β) :
    groupBy key (l.map g) = (groupBy (fun b => key (g b)) l).map fun p => (p.1, p.2.map g) := by
  induction l using List.reverseRecOn with
  | nil => rfl
  | append_singleton l b ih =>
    rw [map_append, map_singleton, groupBy_append_singleton, groupBy_append_singleton, ih,
      push_map]

variable {key : α → κ} {key' : β → κ} {R : α → β → Prop}

/-- Groups with equal keys and pointwise related members. -/
abbrev SameGroup (R : α → β → Prop) (p : κ × List α) (q : κ × List β) : Prop :=
  p.1 = q.1 ∧ Forall₂ R p.2 q.2

theorem push_forall₂ {a : α} {b : β} {k : κ} (hab : R a b) :
    ∀ {d : List (κ × List α)} {d' : List (κ × List β)}, Forall₂ (SameGroup R) d d' →
      Forall₂ (SameGroup R) (push d k a) (push d' k b)
  | [], [], .nil => .cons ⟨rfl, .cons hab .nil⟩ .nil
  | (k₁, g) :: d, (k₂, g') :: d', .cons hp h => by
    have hk : k₁ = k₂ := hp.1
    subst hk
    unfold push
    split
    · exact .cons ⟨rfl, rel_append hp.2 (.cons hab .nil)⟩ h
    · exact .cons hp (push_forall₂ hab h)

/-- Grouping two pointwise related lists by equal keys gives pointwise related groups. -/
theorem groupBy_forall₂ (hkey : ∀ a b, R a b → key a = key' b) {l : List α} {l' : List β}
    (h : Forall₂ R l l') : Forall₂ (SameGroup R) (groupBy key l) (groupBy key' l') := by
  unfold groupBy
  have hfold : ∀ {d : List (κ × List α)} {d' : List (κ × List β)}, Forall₂ (SameGroup R) d d' →
      Forall₂ (SameGroup R) (l.foldl (fun d a => push d (key a) a) d)
        (l'.foldl (fun d b => push d (key' b) b) d') := by
    induction h with
    | nil => exact id
    | cons hab _ ih =>
      intro d d' hd
      simp only [foldl_cons]
      rw [hkey _ _ hab]
      exact ih (push_forall₂ hab hd)
  exact hfold .nil

end GroupBy

section SortedGroups

variable [LinearOrder κ] [DecidableEq κ]

/-- The groups in ascending order of their keys, in closed form. -/
theorem sortedBy_groupBy (key : α → κ) (l : List α) :
    sortedBy Prod.fst (groupBy key l) =
      (sortedSet (l.map key)).map fun k => (k, l.filter (key · = k)) := by
  have hkeys : (sortedBy Prod.fst (groupBy key l)).map Prod.fst = sortedSet (l.map key) := by
    rw [map_sortedBy]
    have hp : ((groupBy key l).map Prod.fst).Perm (sortedSet (l.map key)) :=
      (perm_ext_iff_of_nodup (groupBy_keys_nodup key l) (nodup_sortedSet _)).mpr fun k => by
        rw [mem_groupBy_keys, mem_sortedSet]
    have hq := (perm_insertionSort (· ≤ ·) _).trans hp
    exact hq.eq_of_pairwise' (pairwise_insertionSort _ _) (pairwise_sortedSet _)
  rw [← hkeys, map_map]
  conv_lhs => rw [← map_id (sortedBy Prod.fst (groupBy key l))]
  exact map_congr_left fun p hp => Prod.ext rfl (groupBy_group (mem_sortedBy.mp hp))

/-- Grouping two permutations of one list gives, in ascending key order, the same keys with
permuted groups. -/
theorem sortedBy_groupBy_perm (key : α → κ) {l l' : List α} (h : l.Perm l') :
    Forall₂ (fun p q => p.1 = q.1 ∧ p.2.Perm q.2) (sortedBy Prod.fst (groupBy key l))
      (sortedBy Prod.fst (groupBy key l')) := by
  rw [sortedBy_groupBy, sortedBy_groupBy,
    sortedSet_congr fun k => (h.map key).mem_iff, forall₂_map_left_iff, forall₂_map_right_iff]
  exact forall₂_same.mpr fun k _ => ⟨rfl, h.filter _⟩

end SortedGroups

end Py
