import Mathlib

/-!
# Dictionaries that keep the best

A `dict` is the list of its items in insertion order. `keep rank d k a` is the loop body
`if d.get(k) is None or rank(d[k]) < rank(a): d[k] = a`; over a list of candidates it leaves, for
each key, the first candidate of greatest rank (`get_keepAll_nil`, `firstBest_eq_some`).
-/

open List

namespace Py

variable {κ α ρ : Type*}

/-! ## Dictionaries -/

/-- A `dict`, as its items in insertion order. -/
abbrev Dict (κ α : Type*) := List (κ × α)

namespace Dict

variable [DecidableEq κ]

/-- `d.get(k)` -/
def get : Dict κ α → κ → Option α
  | [], _ => none
  | (k', a) :: d, k => if k' = k then some a else get d k

/-- `d[k] = a` -/
def set : Dict κ α → κ → α → Dict κ α
  | [], k, a => [(k, a)]
  | (k', b) :: d, k, a => if k' = k then (k', a) :: d else (k', b) :: set d k a

theorem get_set (d : Dict κ α) (k k' : κ) (a : α) :
    (d.set k a).get k' = if k = k' then some a else d.get k' := by
  induction d with
  | nil => simp [set, get]
  | cons p d ih =>
    obtain ⟨k₁, b⟩ := p
    by_cases hk : k₁ = k
    · subst hk
      by_cases hk' : k₁ = k' <;> simp [set, get, hk']
    · by_cases hk' : k₁ = k'
      · subst hk'
        simp [set, get, hk, Ne.symm hk]
      · simp [set, get, hk, hk', ih]

@[simp] theorem get_set_self (d : Dict κ α) (k : κ) (a : α) : (d.set k a).get k = some a := by
  simp [get_set]

/-- `for key in keys: d[key] = a` -/
theorem get_foldl_set_const (keys : List κ) (a : α) (d : Dict κ α) (k : κ) :
    (keys.foldl (fun d key => d.set key a) d).get k = if k ∈ keys then some a else d.get k := by
  induction keys generalizing d with
  | nil => rfl
  | cons key keys ih =>
    rw [foldl_cons, ih, get_set]
    by_cases hkey : key = k
    · simp [hkey]
    · simp [hkey, Ne.symm hkey]

theorem get_eq_none {d : Dict κ α} {k : κ} : d.get k = none ↔ k ∉ d.map Prod.fst := by
  induction d with
  | nil => simp [get]
  | cons p d ih =>
    by_cases hk : p.1 = k
    · simp [get, hk]
    · simp [get, hk, ih, Ne.symm hk]

theorem mem_set {d : Dict κ α} {k : κ} {a : α} {p : κ × α} (h : p ∈ d.set k a) :
    p ∈ d ∨ p = (k, a) := by
  induction d with
  | nil => exact Or.inr (List.mem_singleton.mp h)
  | cons q d ih =>
    unfold set at h
    split at h
    · next heq =>
      rcases List.mem_cons.mp h with rfl | h
      · right
        rw [heq]
      · exact Or.inl (List.mem_cons_of_mem _ h)
    · rcases List.mem_cons.mp h with rfl | h
      · exact Or.inl List.mem_cons_self
      · exact (ih h).imp_left (List.mem_cons_of_mem _)

theorem mem_of_get {d : Dict κ α} {k : κ} {a : α} (h : d.get k = some a) : (k, a) ∈ d := by
  induction d with
  | nil => simp [get] at h
  | cons p d ih =>
    obtain ⟨k₁, b⟩ := p
    by_cases hk : k₁ = k
    · simp only [get, hk, if_true, Option.some.injEq] at h
      simp [hk, h]
    · simp only [get, hk, if_false] at h
      exact mem_cons_of_mem _ (ih h)

/-- The keys of a `dict` are distinct. -/
def KeysNodup (d : Dict κ α) : Prop := (d.map Prod.fst).Nodup

theorem get_of_mem {d : Dict κ α} (hd : d.KeysNodup) {k : κ} {a : α} (h : (k, a) ∈ d) :
    d.get k = some a := by
  induction d with
  | nil => simp at h
  | cons p d ih =>
    obtain ⟨k₁, b⟩ := p
    unfold KeysNodup at hd
    rw [map_cons, nodup_cons] at hd
    rcases mem_cons.mp h with h | h
    · cases h
      simp [get]
    · have hk : k₁ ≠ k := by
        intro hk
        exact hd.1 (mem_map.mpr ⟨_, h, hk.symm⟩)
      simp only [get, hk, if_false]
      exact ih hd.2 h

theorem map_fst_set (d : Dict κ α) (k : κ) (a : α) : (d.set k a).map Prod.fst =
    if k ∈ d.map Prod.fst then d.map Prod.fst else d.map Prod.fst ++ [k] := by
  induction d with
  | nil => simp [set]
  | cons p d ih =>
    obtain ⟨k₁, b⟩ := p
    by_cases hk : k₁ = k
    · simp [set, hk]
    · simp only [set, hk, if_false, map_cons, mem_cons, Ne.symm hk, false_or, ih]
      split <;> rfl

theorem KeysNodup.set {d : Dict κ α} (hd : d.KeysNodup) (k : κ) (a : α) :
    (d.set k a).KeysNodup := by
  unfold KeysNodup
  rw [map_fst_set]
  split
  · exact hd
  · next h => exact hd.append (nodup_singleton _) (by simpa using h)

theorem set_of_not_mem {d : Dict κ α} {k : κ} (h : k ∉ d.map Prod.fst) (a : α) :
    d.set k a = d ++ [(k, a)] := by
  induction d with
  | nil => rfl
  | cons p d ih =>
    rw [map_cons, mem_cons, not_or] at h
    unfold set
    rw [if_neg (Ne.symm h.1), ih h.2, cons_append]

/-- Fields with distinct keys, set one after the other. -/
theorem foldl_set {d fields : Dict κ α} (h : (d ++ fields).KeysNodup) :
    fields.foldl (fun d field => d.set field.1 field.2) d = d ++ fields := by
  induction fields generalizing d with
  | nil => rw [append_nil]; rfl
  | cons field fields ih =>
    have hnot : field.1 ∉ d.map Prod.fst := by
      unfold KeysNodup at h
      rw [map_append, map_cons] at h
      exact fun hmem => (nodup_append.mp h).2.2 _ hmem _ mem_cons_self rfl
    rw [foldl_cons, set_of_not_mem hnot, ih (by rwa [append_assoc]), append_assoc]
    rfl

/-- Two dictionaries with the same entries have the same items, up to their order. -/
theorem perm_of_get {d d' : Dict κ α} (hd : d.KeysNodup) (hd' : d'.KeysNodup)
    (h : ∀ k, d.get k = d'.get k) : d.Perm d' := by
  apply (perm_ext_iff_of_nodup (hd.of_map _) (hd'.of_map _)).mpr
  intro p
  obtain ⟨k, a⟩ := p
  constructor
  · intro hp
    apply mem_of_get
    rw [← h]
    exact get_of_mem hd hp
  · intro hp
    apply mem_of_get
    rw [h]
    exact get_of_mem hd' hp

end Dict

/-! ## The first of the best -/

section FirstBest

variable [LinearOrder ρ] (rank : α → ρ)

/-- The loop `if best is None or rank(best) < rank(a): best = a`. -/
def better (best : Option α) (a : α) : Option α :=
  match best with
  | none => some a
  | some b => if rank b < rank a then some a else some b

/-- The first item of greatest rank. -/
def firstBest (l : List α) : Option α := l.foldl (better rank) none

variable {rank}

theorem foldl_better_some (b : α) (l : List α) (h : ∀ a ∈ l, rank a ≤ rank b) :
    l.foldl (better rank) (some b) = some b := by
  induction l with
  | nil => rfl
  | cons a l ih =>
    have ha : ¬ rank b < rank a := not_lt.mpr (h a mem_cons_self)
    rw [foldl_cons, better, if_neg ha]
    exact ih fun c hc => h c (mem_cons_of_mem _ hc)

theorem foldl_better_append {best : Option α} {l l' : List α} {a : α}
    (hbest : ∀ b ∈ best, rank b < rank a) (hl : ∀ b ∈ l, rank b < rank a)
    (hl' : ∀ b ∈ l', rank b ≤ rank a) :
    (l ++ a :: l').foldl (better rank) best = some a := by
  induction l generalizing best with
  | nil =>
    have hstep : better rank best a = some a := by
      cases best with
      | none => rfl
      | some b => simp [better, hbest b rfl]
    rw [nil_append, foldl_cons, hstep]
    exact foldl_better_some a l' hl'
  | cons c l ih =>
    rw [cons_append, foldl_cons]
    apply ih
    · intro b hb
      cases best with
      | none =>
        cases hb
        exact hl c mem_cons_self
      | some b₀ =>
        unfold better at hb
        simp only at hb
        split at hb
        · cases hb
          exact hl c mem_cons_self
        · cases hb
          exact hbest _ rfl
    · exact fun b hb => hl b (mem_cons_of_mem _ hb)

theorem firstBest_eq_none {l : List α} : firstBest rank l = none ↔ l = [] := by
  cases l with
  | nil => simp [firstBest]
  | cons a l =>
    have hsome : ∀ (l : List α) (b : α), l.foldl (better rank) (some b) ≠ none := by
      intro l
      induction l with
      | nil => simp
      | cons c l ih =>
        intro b
        rw [foldl_cons]
        unfold better
        simp only
        split
        · exact ih c
        · exact ih b
    simpa [firstBest, better] using hsome l a

/-- Where the first of the best stands. -/
theorem firstBest_eq_some {l : List α} {a : α} : firstBest rank l = some a ↔
    ∃ before after, l = before ++ a :: after ∧ (∀ b ∈ before, rank b < rank a) ∧
      ∀ b ∈ after, rank b ≤ rank a := by
  constructor
  · intro h
    induction l using List.reverseRecOn generalizing a with
    | nil => simp [firstBest] at h
    | append_singleton l c ih =>
      unfold firstBest at h
      rw [foldl_append, foldl_cons, foldl_nil] at h
      cases hl : firstBest rank l with
      | none =>
        have hnil := firstBest_eq_none.mp hl
        subst hnil
        cases h
        exact ⟨[], [], rfl, by simp, by simp⟩
      | some b =>
        unfold firstBest at hl
        rw [hl] at h
        obtain ⟨before, after, rfl, hbefore, hafter⟩ := ih hl
        unfold better at h
        simp only at h
        split at h
        · next hlt =>
          cases h
          refine ⟨before ++ b :: after, [], rfl, ?_, by simp⟩
          intro x hx
          rcases mem_append.mp hx with hx | hx
          · exact (hbefore x hx).trans hlt
          · rcases mem_cons.mp hx with rfl | hx
            · exact hlt
            · exact (hafter x hx).trans_lt hlt
        · next hge =>
          cases h
          refine ⟨before, after ++ [c], by simp, hbefore, ?_⟩
          intro x hx
          rcases mem_append.mp hx with hx | hx
          · exact hafter x hx
          · rw [mem_singleton.mp hx]
            exact not_lt.mp hge
  · rintro ⟨before, after, rfl, hbefore, hafter⟩
    exact foldl_better_append (by simp) hbefore hafter

theorem firstBest_mem {l : List α} {a : α} (h : firstBest rank l = some a) : a ∈ l := by
  obtain ⟨before, after, rfl, -, -⟩ := firstBest_eq_some.mp h
  simp

/-- Candidates that are no better do not change the first of the best. -/
theorem firstBest_append_of_le {l l' : List α} {a : α} (h : firstBest rank l = some a)
    (hle : ∀ b ∈ l', rank b ≤ rank a) : firstBest rank (l ++ l') = some a := by
  obtain ⟨before, after, rfl, hbefore, hafter⟩ := firstBest_eq_some.mp h
  rw [firstBest_eq_some]
  refine ⟨before, after ++ l', by simp, hbefore, ?_⟩
  intro b hb
  rcases mem_append.mp hb with hb | hb
  · exact hafter b hb
  · exact hle b hb

theorem firstBest_max {l : List α} {a : α} (h : firstBest rank l = some a) :
    ∀ b ∈ l, rank b ≤ rank a := by
  obtain ⟨before, after, rfl, hbefore, hafter⟩ := firstBest_eq_some.mp h
  intro b hb
  rcases mem_append.mp hb with hb | hb
  · exact (hbefore b hb).le
  · rcases mem_cons.mp hb with rfl | hb
    · exact le_rfl
    · exact hafter b hb

end FirstBest

/-! ## Keeping the best of each key -/

section Keep

variable [DecidableEq κ] [LinearOrder ρ] (rank : α → ρ)

/-- `if d.get(k) is None or rank(d[k]) < rank(a): d[k] = a` -/
def keep (d : Dict κ α) (k : κ) (a : α) : Dict κ α :=
  match d.get k with
  | none => d.set k a
  | some b => if rank b < rank a then d.set k a else d

/-- The loop over candidates. -/
def keepAll (d : Dict κ α) (l : List (κ × α)) : Dict κ α :=
  l.foldl (fun d p => keep rank d p.1 p.2) d

/-- The candidates for one key. -/
def candidates (k : κ) (l : List (κ × α)) : List α :=
  l.filterMap fun p => if p.1 = k then some p.2 else none

variable {rank}

theorem get_keep (d : Dict κ α) (k k' : κ) (a : α) : (keep rank d k a).get k' =
    if k = k' then better rank (d.get k') a else d.get k' := by
  unfold keep
  by_cases hk : k = k'
  · subst hk
    cases hd : d.get k with
    | none => simp [better]
    | some b =>
      simp only [if_true, better]
      split
      · simp
      · exact hd
  · cases hd : d.get k with
    | none => simp [Dict.get_set, hk]
    | some b =>
      simp only [hk, if_false]
      split
      · simp [Dict.get_set, hk]
      · rfl

theorem keysNodup_keep {d : Dict κ α} (hd : d.KeysNodup) (k : κ) (a : α) :
    (keep rank d k a).KeysNodup := by
  unfold keep
  split
  · exact hd.set k a
  · split
    · exact hd.set k a
    · exact hd

theorem keysNodup_keepAll {l : List (κ × α)} {d : Dict κ α} (hd : d.KeysNodup) :
    (keepAll rank d l).KeysNodup := by
  unfold keepAll
  induction l generalizing d with
  | nil => exact hd
  | cons p l ih => exact ih (keysNodup_keep hd p.1 p.2)

theorem keepAll_append (d : Dict κ α) (l l' : List (κ × α)) :
    keepAll rank d (l ++ l') = keepAll rank (keepAll rank d l) l' := foldl_append

/-- The entry of a key is the first best of its candidates. -/
theorem get_keepAll (d : Dict κ α) (l : List (κ × α)) (k : κ) :
    (keepAll rank d l).get k = (candidates k l).foldl (better rank) (d.get k) := by
  unfold keepAll
  induction l generalizing d with
  | nil => rfl
  | cons p l ih =>
    obtain ⟨k₁, a⟩ := p
    rw [foldl_cons, ih, get_keep]
    by_cases hk : k₁ = k <;> simp [candidates, hk]

theorem get_keepAll_nil (l : List (κ × α)) (k : κ) :
    (keepAll rank [] l).get k = firstBest rank (candidates k l) := get_keepAll [] l k

theorem keep_of_le {d : Dict κ α} {k : κ} {a b : α} (h : d.get k = some b)
    (hle : rank a ≤ rank b) : keep rank d k a = d := by
  unfold keep
  rw [h]
  exact if_neg (not_lt.mpr hle)

variable (rank) in
/-- Entries only improve, and beat every candidate. -/
theorem foldl_better_ge (b : α) (l : List α) : ∃ c, l.foldl (better rank) (some b) = some c ∧
    rank b ≤ rank c ∧ ∀ a ∈ l, rank a ≤ rank c := by
  induction l generalizing b with
  | nil => exact ⟨b, rfl, le_rfl, by simp⟩
  | cons a l ih =>
    rw [foldl_cons]
    by_cases hlt : rank b < rank a
    · obtain ⟨c, hc, hle, hall⟩ := ih a
      refine ⟨c, by simp [better, hlt, hc], hlt.le.trans hle, ?_⟩
      intro x hx
      rcases mem_cons.mp hx with rfl | hx
      · exact hle
      · exact hall x hx
    · obtain ⟨c, hc, hle, hall⟩ := ih b
      refine ⟨c, by simp [better, hlt, hc], hle, ?_⟩
      intro x hx
      rcases mem_cons.mp hx with rfl | hx
      · exact (not_lt.mp hlt).trans hle
      · exact hall x hx

variable (rank) in
theorem get_keepAll_ge {d : Dict κ α} {k : κ} {b : α} (h : d.get k = some b)
    (l : List (κ × α)) : ∃ c, (keepAll rank d l).get k = some c ∧ rank b ≤ rank c := by
  obtain ⟨c, hc, hle, -⟩ := foldl_better_ge rank b (candidates k l)
  refine ⟨c, ?_, hle⟩
  rw [get_keepAll, h, hc]

@[simp] theorem mem_candidates {k : κ} {l : List (κ × α)} {a : α} :
    a ∈ candidates k l ↔ (k, a) ∈ l := by
  unfold candidates
  rw [mem_filterMap]
  constructor
  · rintro ⟨p, hp, h⟩
    split at h
    · next hk =>
      cases h
      rw [← hk]
      exact hp
    · cases h
  · intro h
    exact ⟨_, h, by simp⟩

end Keep

end Py
