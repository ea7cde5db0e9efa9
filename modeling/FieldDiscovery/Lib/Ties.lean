import FieldDiscovery.Lib.Except
import FieldDiscovery.Lib.Sorted

/-!
# Ties of a sort key

A stable sort leaves items whose keys tie in the order of the input. Its result does not depend on
that order exactly when the key separates the items of the list (`separates_iff`). Concatenated
blocks are sorted alike exactly when every block lists the items of each key alike
(`sortedBy_flatMap_iff`).

When two lists hold the items of each class alike, what is derived item by item for one class is
derived alike (`SameClasses.filter_flatMap`), in whichever order the classes are interleaved.
-/

open List

namespace Py

variable {α β γ κ : Type*}

/-- Items that the key does not tell apart are equal. -/
def Separates (key : α → κ) (l : List α) : Prop := ∀ a ∈ l, ∀ b ∈ l, key a = key b → a = b

instance [DecidableEq α] [DecidableEq κ] (key : α → κ) (l : List α) :
    Decidable (Separates key l) :=
  inferInstanceAs (Decidable (∀ a ∈ l, ∀ b ∈ l, key a = key b → a = b))

section

variable [LinearOrder κ] {key : α → κ}

/-- Both lists have the items of each key in the same order. -/
def SameTies (key : α → κ) (l l' : List α) : Prop :=
  ∀ k, l.filter (key · = k) = l'.filter (key · = k)

theorem SameTies.append {l l' m m' : List α} (h : SameTies key l l') (h' : SameTies key m m') :
    SameTies key (l ++ m) (l' ++ m') := by
  intro k
  rw [filter_append, filter_append, h k, h' k]

/-- A list whose items the key separates has one order for the items of each key. -/
theorem Separates.sameTies {l l' : List α} (h : Separates key l) (hp : l.Perm l') :
    SameTies key l l' := by
  intro k
  have hperm := hp.filter (key · = k)
  cases hl : l.filter (key · = k) with
  | nil =>
    rw [hl] at hperm
    exact hperm.nil_eq
  | cons a t =>
    have hall : ∀ b ∈ l.filter (key · = k), b = a := by
      intro b hb
      have ha : a ∈ l.filter (key · = k) := by rw [hl]; exact mem_cons_self
      obtain ⟨hmem, hkey⟩ := mem_filter.mp hb
      obtain ⟨hmem', hkey'⟩ := mem_filter.mp ha
      exact h b hmem a hmem' ((of_decide_eq_true hkey).trans (of_decide_eq_true hkey').symm)
    have hconst := eq_replicate_of_mem hall
    rw [hconst] at hperm
    rw [← hl, hconst, (replicate_perm.mp hperm).symm]

/-- An image of a list has one order for the items of each key exactly when the key separates it. -/
theorem separates_filterMap_iff {f : γ → Option α} {l : List γ} :
    (∀ l', l.Perm l' → SameTies key (l.filterMap f) (l'.filterMap f)) ↔
      Separates key (l.filterMap f) := by
  constructor
  · intro h a ha b hb hkey
    by_contra hne
    obtain ⟨x, hx, hfx⟩ := mem_filterMap.mp ha
    obtain ⟨y, hy, hfy⟩ := mem_filterMap.mp hb
    have hxy : x ≠ y := by
      rintro rfl
      exact hne (Option.some.inj (hfx.symm.trans hfy))
    classical
    have hy' : y ∈ l.erase x := (mem_erase_of_ne hxy.symm).mpr hy
    have hp : l.Perm (x :: y :: (l.erase x).erase y) :=
      (perm_cons_erase hx).trans ((perm_cons_erase hy').cons x)
    -- the two items come first, in one order and in the other
    have hfirst := h _ hp (key a)
    have hsecond := h _ (hp.trans (.swap _ _ _)) (key a)
    rw [filterMap_cons_some hfx, filterMap_cons_some hfy, filter_cons_of_pos (by simp),
      filter_cons_of_pos (by simp [hkey])] at hfirst
    rw [filterMap_cons_some hfy, filterMap_cons_some hfx, filter_cons_of_pos (by simp [hkey]),
      filter_cons_of_pos (by simp)] at hsecond
    exact hne (cons.inj (hfirst.symm.trans hsecond)).1
  · exact fun h l' hp => h.sameTies (hp.filterMap f)

theorem separates_iff {l : List α} :
    (∀ l', l.Perm l' → SameTies key l l') ↔ Separates key l := by
  have h := @separates_filterMap_iff α α κ _ key some l
  simpa only [filterMap_some] using h

end

/-! ## Sorting blocks -/

/-- Blocks of equal lengths are equal when their concatenations are. -/
theorem forall₂_eq_of_flatten_eq {l l' : List (List α)}
    (hlength : Forall₂ (fun a b => a.length = b.length) l l') (h : l.flatten = l'.flatten) :
    l = l' := by
  induction hlength with
  | nil => rfl
  | cons hab _ ih =>
    rw [flatten_cons, flatten_cons] at h
    obtain ⟨rfl, hrest⟩ := append_inj h hab
    rw [ih hrest]

variable [LinearOrder κ] {key : α → κ}

/-- Two lists sort alike exactly when they have the items of each key in the same order. -/
theorem sortedBy_eq_iff {l l' : List α} :
    sortedBy key l = sortedBy key l' ↔ SameTies key l l' := by
  have hfilter : ∀ (l : List α) (k : κ),
      (sortedBy key l).filter (key · = k) = l.filter (key · = k) := by
    intro l k
    have htied : (l.filter (key · = k)).Pairwise fun a b => key a ≤ key b :=
      pairwise_of_forall_mem_list fun a ha b hb =>
        ((of_decide_eq_true (mem_filter.mp ha).2).trans
          (of_decide_eq_true (mem_filter.mp hb).2).symm).le
    rw [filter_sortedBy, sortedBy_eq_self htied]
  constructor
  · intro h k
    rw [← hfilter l, ← hfilter l', h]
  · exact sortedBy_eq_of_filter

theorem sameTies_sortedBy_iff {l l' : List α} :
    SameTies key (sortedBy key l) (sortedBy key l') ↔ SameTies key l l' := by
  rw [← sortedBy_eq_iff, ← sortedBy_eq_iff, sortedBy_eq_self (pairwise_sortedBy key l),
    sortedBy_eq_self (pairwise_sortedBy key l')]

/-- Blocks sort alike exactly when each of them has the items of each key in the same order. -/
theorem sortedBy_flatMap_iff {f : γ → List α} {l l' : List γ}
    (h : Forall₂ (fun a b => (f a).Perm (f b)) l l') :
    sortedBy key (l.flatMap f) = sortedBy key (l'.flatMap f) ↔
      Forall₂ (fun a b => SameTies key (f a) (f b)) l l' := by
  rw [sortedBy_eq_iff]
  constructor
  · intro hties
    have hblocks : ∀ k, (l.map fun a => (f a).filter (key · = k)) =
        l'.map fun b => (f b).filter (key · = k) := by
      intro k
      have hflat := hties k
      rw [filter_flatMap, filter_flatMap, flatMap_def, flatMap_def] at hflat
      refine forall₂_eq_of_flatten_eq ?_ hflat
      rw [forall₂_map_left_iff, forall₂_map_right_iff]
      exact h.imp fun a b hab => (hab.filter _).length_eq
    clear hties
    induction h with
    | nil => exact .nil
    | cons _ _ ih =>
      simp only [map_cons, cons.injEq] at hblocks
      exact .cons (fun k => (hblocks k).1) (ih fun k => (hblocks k).2)
  · intro hties k
    rw [filter_flatMap, filter_flatMap, flatMap_def, flatMap_def,
      hties.map_eq fun a b hab => hab k]

/-! ## Classes -/

section Classes

variable {ω : Type*} [DecidableEq ω] {cls : α → ω} {l l' : List α}

/-- Both lists have the items of each class in the same order. -/
def SameClasses (cls : α → ω) (l l' : List α) : Prop :=
  ∀ k, l.filter (cls · = k) = l'.filter (cls · = k)

theorem SameClasses.mem_iff (h : SameClasses cls l l') {a : α} : a ∈ l ↔ a ∈ l' := by
  have hmem : ∀ m : List α, a ∈ m ↔ a ∈ m.filter (cls · = cls a) := by
    intro m
    simp
  rw [hmem l, hmem l', h]

/-- What is derived from the items of one class is derived alike. -/
theorem SameClasses.filter_flatMap (h : SameClasses cls l l') {f : α → List β} {p : β → Bool}
    {k : ω} (hp : ∀ a ∈ l, ∀ b ∈ f a, p b = true → cls a = k) :
    (l.flatMap f).filter p = (l'.flatMap f).filter p := by
  have hclass : ∀ m : List α, (∀ a ∈ m, ∀ b ∈ f a, p b = true → cls a = k) →
      (m.flatMap f).filter p = ((m.filter (cls · = k)).flatMap f).filter p := by
    intro m hm
    induction m with
    | nil => rfl
    | cons a m ih =>
      obtain ⟨ha, hrest⟩ := forall_mem_cons.mp hm
      rw [flatMap_cons, filter_append, ih hrest]
      by_cases hk : cls a = k
      · rw [filter_cons_of_pos (by simpa using hk), flatMap_cons, filter_append]
      · have hnone : (f a).filter p = [] :=
          filter_eq_nil_iff.mpr fun b hb hpb => hk (ha b hb hpb)
        rw [filter_cons_of_neg (by simpa using hk), hnone, nil_append]
  rw [hclass l hp, hclass l' fun a ha => hp a (h.mem_iff.mpr ha), h]

/-- Groups whose items come from one class are the same groups. -/
theorem SameClasses.groupBy_perm [DecidableEq γ] (h : SameClasses cls l l') {f : α → List β}
    {m : List β} (group : β → γ) (owner : γ → ω)
    (howner : ∀ a ∈ l, ∀ b ∈ f a, cls a = owner (group b)) :
    (groupBy group (l.flatMap f ++ m)).Perm (groupBy group (l'.flatMap f ++ m)) := by
  have hfilter : ∀ k, (l.flatMap f ++ m).filter (group · = k) =
      (l'.flatMap f ++ m).filter (group · = k) := by
    intro k
    have hleft : (l.flatMap f).filter (group · = k) = (l'.flatMap f).filter (group · = k) := by
      refine h.filter_flatMap (k := owner k) fun a ha b hb hk => ?_
      rw [howner a ha b hb, of_decide_eq_true hk]
    rw [filter_append, filter_append, hleft]
  have hkeys : ∀ k, k ∈ (l.flatMap f ++ m).map group ↔ k ∈ (l'.flatMap f ++ m).map group := by
    intro k
    simp only [mem_map, mem_append, mem_flatMap, h.mem_iff]
  refine (perm_ext_iff_of_nodup (groupBy_keys_nodup _ _).of_map (groupBy_keys_nodup _ _).of_map).mpr
    fun p => ?_
  rw [mem_groupBy, mem_groupBy, hkeys, hfilter]

/-- Items classed by a complete list of classes, one class after the other. -/
theorem flatMap_filter_perm (cls : α → ω) {classes : List ω} (hnodup : classes.Nodup) {l : List α}
    (hl : ∀ a ∈ l, cls a ∈ classes) :
    (classes.flatMap fun k => l.filter fun a => decide (cls a = k)).Perm l := by
  induction classes generalizing l with
  | nil =>
    cases l with
    | nil => exact .refl _
    | cons a l => exact absurd (hl a mem_cons_self) not_mem_nil
  | cons k classes ih =>
    obtain ⟨hk, hnodup⟩ := nodup_cons.mp hnodup
    let others := l.filter fun a => !decide (cls a = k)
    have hothers : ∀ k' ∈ classes, l.filter (fun a => decide (cls a = k')) =
        others.filter fun a => decide (cls a = k') := by
      intro k' hk'
      rw [filter_filter]
      refine filter_congr fun a _ => ?_
      by_cases ha : cls a = k'
      · have hne : cls a ≠ k := by
          rintro rfl
          exact hk (ha ▸ hk')
        rw [decide_eq_true ha, decide_eq_false hne]
        rfl
      · simp [ha]
    have hrest : ∀ a ∈ others, cls a ∈ classes := by
      intro a ha
      obtain ⟨hmem, hne⟩ := mem_filter.mp ha
      rcases mem_cons.mp (hl a hmem) with heq | hmem'
      · simp [heq] at hne
      · exact hmem'
    rw [flatMap_cons, flatMap_congr hothers]
    exact ((ih hnodup hrest).append_left _).trans (filter_append_perm _ l)

end Classes

end Py
