import Mathlib.Data.List.Perm.Basic

/-!
# One slot of a list is set

What is counted or collected over the slots of a list changes by what the old and the new content of
the slot contribute.
-/

namespace Py

variable {α β γ : Type*}

theorem countP_set {p : α → Bool} {l : List α} {i : Nat} {a : α} (hi : l[i]? = some a) (a' : α) :
    (l.set i a').countP p + (p a).toNat = l.countP p + (p a').toNat := by
  induction l generalizing i with
  | nil => cases hi
  | cons b l ih =>
    cases i with
    | zero =>
      cases hi
      simp only [List.set_cons_zero, List.countP_cons]
      cases p a <;> cases p a' <;> simp
    | succ i =>
      have htail := ih hi
      simp only [List.set_cons_succ, List.countP_cons]
      omega

/-- What is collected over the slots. -/
theorem filterMap_set {f : α → Option β} {l : List α} {i : Nat} {a : α} (hi : l[i]? = some a)
    (a' : α) : ((l.set i a').filterMap f ++ (f a).toList).Perm
      (l.filterMap f ++ (f a').toList) := by
  induction l generalizing i with
  | nil => cases hi
  | cons x l ih =>
    cases i with
    | zero =>
      cases hi
      simp only [List.set_cons_zero, List.filterMap_cons]
      cases f a <;> cases f a'
      · exact .refl _
      · simpa only [Option.toList_none, Option.toList_some, List.append_nil] using
          (List.perm_append_singleton _ _).symm
      · simpa only [Option.toList_none, Option.toList_some, List.append_nil] using
          List.perm_append_singleton _ _
      · next b b' =>
        show (b' :: (l.filterMap f ++ [b])).Perm (b :: (l.filterMap f ++ [b']))
        refine (List.Perm.cons b' List.perm_append_comm).trans ?_
        refine (List.Perm.swap b b' _).trans (List.Perm.cons b ?_)
        exact @List.perm_append_comm _ [b'] _
    | succ i =>
      have htail := ih hi
      simp only [List.set_cons_succ, List.filterMap_cons]
      cases f x with
      | none => exact htail
      | some b => exact htail.cons b

/-- What is collected without repetition comes from one slot. -/
theorem eq_of_nodup_filterMap {f : α → Option β} {l : List α} (h : (l.filterMap f).Nodup)
    {i j : Nat} {a a' : α} {b : β} (hi : l[i]? = some a) (hj : l[j]? = some a') (ha : f a = some b)
    (ha' : f a' = some b) : i = j := by
  induction l generalizing i j with
  | nil => cases hi
  | cons x l ih =>
    have htail : (l.filterMap f).Nodup := by
      rw [List.filterMap_cons] at h
      cases hx : f x with
      | none => rwa [hx] at h
      | some c =>
        rw [hx] at h
        exact (List.nodup_cons.mp h).2
    have hhead : ∀ {k : Nat} {y z : α}, (x :: l)[0]? = some y → l[k]? = some z → f y = some b →
        f z ≠ some b := by
      intro k y z hy hz hfy hfz
      cases hy
      rw [List.filterMap_cons, hfy] at h
      exact (List.nodup_cons.mp h).1 (List.mem_filterMap.mpr ⟨z, List.mem_of_getElem? hz, hfz⟩)
    cases i with
    | zero =>
      cases j with
      | zero => rfl
      | succ j => exact absurd ha' (hhead hi hj ha)
    | succ i =>
      cases j with
      | zero => exact absurd ha (hhead hj hi ha')
      | succ j => exact congrArg Nat.succ (ih htail hi hj)

theorem zip_set {l : List α} {m : List β} {i : Nat} {a : α} (ha : l[i]? = some a) (b : β) :
    l.zip (m.set i b) = (l.zip m).set i (a, b) := by
  induction l generalizing m i with
  | nil => cases ha
  | cons x l ih =>
    cases m with
    | nil => rfl
    | cons y m =>
      cases i with
      | zero =>
        cases ha
        rfl
      | succ i => exact congrArg ((x, y) :: ·) (ih ha)

/-- What is collected over the slots of two lists. -/
theorem filterMap_zip_set {f : α × β → Option γ} {l : List α} {m : List β} {i : Nat} {a : α} {b : β}
    (ha : l[i]? = some a) (hb : m[i]? = some b) (b' : β) :
    ((l.zip (m.set i b')).filterMap f ++ (f (a, b)).toList).Perm
      ((l.zip m).filterMap f ++ (f (a, b')).toList) := by
  rw [zip_set ha]
  exact filterMap_set (List.getElem?_zip_eq_some.mpr ⟨ha, hb⟩) (a, b')

end Py
