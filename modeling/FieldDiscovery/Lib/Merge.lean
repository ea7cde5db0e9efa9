import FieldDiscovery.Lib.Dict

/-!
# Merging dictionaries

`mergeWith f d s` puts the items of `s` into `d`: what stands under a key comes from what stood there
and from the new value by `f`. Without repeated keys every key is merged on its own (`get_mergeWith`),
so a merge that is repeated changes nothing when `f` has this property (`mergeWith_absorb`).
-/

open List

namespace Py.Dict

variable {κ α : Type*} [DecidableEq κ]

/-- `for k, a in s.items(): d[k] = f(d.get(k), a)` -/
def mergeWith (f : Option α → α → α) (d : Dict κ α) : Dict κ α → Dict κ α
  | [] => d
  | (k, a) :: s => mergeWith f (d.set k (f (d.get k) a)) s

variable {f : Option α → α → α} {d s : Dict κ α}

/-- Two dictionaries with the same keys in the same order, and the same values. -/
theorem ext_get {d' : Dict κ α} (hd : d.KeysNodup) (hkeys : d.map Prod.fst = d'.map Prod.fst)
    (hget : ∀ k ∈ d.map Prod.fst, d.get k = d'.get k) : d = d' := by
  induction d generalizing d' with
  | nil => exact (List.map_eq_nil_iff.mp hkeys.symm).symm
  | cons p d ih =>
    cases d' with
    | nil => cases hkeys
    | cons p' d' =>
      obtain ⟨hhead, htail⟩ := List.cons_eq_cons.mp hkeys
      have hnodup := List.nodup_cons.mp hd
      have hvalue := hget p.1 List.mem_cons_self
      rw [get, get, if_pos rfl, if_pos hhead.symm] at hvalue
      have hp : p = p' := Prod.ext hhead (Option.some.inj hvalue)
      rw [hp, ih hnodup.2 htail]
      intro k hk
      have hne : p.1 ≠ k := fun heq => hnodup.1 (heq ▸ hk)
      have hrest := hget k (List.mem_cons_of_mem _ hk)
      rwa [get, get, if_neg hne, if_neg (hhead ▸ hne)] at hrest

theorem get_mergeWith (hs : s.KeysNodup) (k : κ) :
    (d.mergeWith f s).get k = ((s.get k).map (f (d.get k))).or (d.get k) := by
  induction s generalizing d with
  | nil => rfl
  | cons p s ih =>
    obtain ⟨k', a⟩ := p
    have hnodup := List.nodup_cons.mp hs
    rw [mergeWith, ih hnodup.2, get_set, get]
    by_cases hk : k' = k
    · subst hk
      rw [if_pos rfl, if_pos rfl, get_eq_none.mpr hnodup.1]
      rfl
    · rw [if_neg hk, if_neg hk]

theorem keys_mergeWith (hs : s.KeysNodup) : (d.mergeWith f s).map Prod.fst =
    d.map Prod.fst ++ (s.map Prod.fst).filter fun k => k ∉ d.map Prod.fst := by
  induction s generalizing d with
  | nil => exact (List.append_nil _).symm
  | cons p s ih =>
    obtain ⟨k, a⟩ := p
    have hnodup := List.nodup_cons.mp hs
    rw [mergeWith, ih hnodup.2, map_fst_set, List.map_cons, List.filter_cons]
    by_cases hk : k ∈ d.map Prod.fst
    · rw [if_pos hk, if_neg (by simpa using hk)]
    · rw [if_neg hk, if_pos (by simpa using hk), List.append_assoc, List.singleton_append]
      congr 2
      refine List.filter_congr fun k' hk' => ?_
      have hne : k' ≠ k := fun heq => hnodup.1 (heq ▸ hk')
      simp [hne]

theorem keysNodup_mergeWith (hd : d.KeysNodup) : (d.mergeWith f s).KeysNodup := by
  induction s generalizing d with
  | nil => exact hd
  | cons p s ih => exact ih (hd.set p.1 _)

/-- What the merge has put together, it puts together again. -/
theorem mergeWith_absorb (hd : d.KeysNodup) (hs : s.KeysNodup)
    (hself : ∀ p ∈ d, f (some p.2) p.2 = p.2)
    (hf : ∀ p ∈ s, f (d.get p.1) (f (d.get p.1) p.2) = f (d.get p.1) p.2) :
    d.mergeWith f (d.mergeWith f s) = d.mergeWith f s := by
  have hr := keysNodup_mergeWith (f := f) (s := s) hd
  refine ext_get (keysNodup_mergeWith hd) ?_ fun k _ => ?_
  · rw [keys_mergeWith hr, keys_mergeWith hs, List.filter_append]
    congr 1
    rw [List.filter_filter, List.filter_eq_nil_iff.mpr (fun k hk => by simpa using hk),
      List.nil_append]
    exact List.filter_congr fun k _ => Bool.and_self _
  · rw [get_mergeWith hr, get_mergeWith hs]
    cases hnew : s.get k with
    | some a =>
      have habsorb := hf (k, a) (mem_of_get hnew)
      simp only [Option.map_some, Option.some_or]
      exact congrArg some habsorb
    | none =>
      simp only [Option.map_none, Option.none_or]
      cases hold : d.get k with
      | none => rfl
      | some a =>
        have habsorb := hself (k, a) (mem_of_get hold)
        simp only [Option.map_some, Option.some_or]
        exact congrArg some habsorb

/-- A dictionary merged into itself, when its values are. -/
theorem mergeWith_self (hd : d.KeysNodup) (hself : ∀ p ∈ d, f (some p.2) p.2 = p.2) :
    d.mergeWith f d = d := by
  refine ext_get (keysNodup_mergeWith hd) ?_ fun k _ => ?_
  · rw [keys_mergeWith hd, List.filter_eq_nil_iff.mpr (fun k hk => by simpa using hk),
      List.append_nil]
  · rw [get_mergeWith hd]
    cases hold : d.get k with
    | none => rfl
    | some a =>
      have habsorb := hself (k, a) (mem_of_get hold)
      simp only [Option.map_some, Option.some_or]
      exact congrArg some habsorb

end Py.Dict
