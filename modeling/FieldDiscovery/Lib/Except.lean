import Mathlib

/-!
# Code that may raise

A function that may raise returns `Except`. The lemmas here take a successful run apart into its
steps, so that no proof unfolds `bind` or `mapM`.
-/

open List

universe u v

/-! ## Pointwise related lists -/

namespace List.Forall₂

variable {α : Type u} {β : Type v} {R : α → β → Prop} {l : List α} {l' : List β}

theorem exists_of_mem_left (h : Forall₂ R l l') {a : α} (ha : a ∈ l) : ∃ b ∈ l', R a b := by
  induction h with
  | nil => exact absurd ha not_mem_nil
  | cons hab _ ih =>
    rcases mem_cons.mp ha with rfl | ha
    · exact ⟨_, mem_cons_self, hab⟩
    · obtain ⟨b, hb, hr⟩ := ih ha
      exact ⟨b, mem_cons_of_mem _ hb, hr⟩

theorem exists_of_mem_right (h : Forall₂ R l l') {b : β} (hb : b ∈ l') : ∃ a ∈ l, R a b :=
  exists_of_mem_left h.flip hb

theorem map_eq {γ : Type*} {f : α → γ} {g : β → γ} (h : Forall₂ R l l')
    (hfg : ∀ a b, R a b → f a = g b) : l.map f = l'.map g := by
  induction h with
  | nil => rfl
  | cons hab _ ih => rw [map_cons, map_cons, hfg _ _ hab, ih]

theorem filter {p : α → Bool} {q : β → Bool} (h : Forall₂ R l l')
    (hpq : ∀ a b, R a b → p a = q b) : Forall₂ R (l.filter p) (l'.filter q) :=
  rel_filter (fun a b hab => (hpq a b hab ▸ Iff.rfl : p a = true ↔ q b = true)) h

theorem pairwise {S : α → α → Prop} {T : β → β → Prop} (h : Forall₂ R l l') (hl : l.Pairwise S)
    (hST : ∀ a b a' b', R a b → R a' b' → S a a' → T b b') : l'.Pairwise T := by
  induction h with
  | nil => exact .nil
  | cons hab hrest ih =>
    rw [pairwise_cons] at hl ⊢
    refine ⟨fun b' hb' => ?_, ih hl.2⟩
    obtain ⟨a', ha', hr⟩ := hrest.exists_of_mem_right hb'
    exact hST _ _ _ _ hab hr (hl.1 a' ha')

end List.Forall₂

/-! ## Successful runs -/

namespace Except

variable {ε : Type u} {α β γ : Type v}

theorem bind_eq_ok {x : Except ε α} {f : α → Except ε β} {b : β} :
    (x >>= f) = .ok b ↔ ∃ a, x = .ok a ∧ f a = .ok b := by
  cases x <;> simp [bind, Except.bind]

@[simp] theorem ok_bind (a : α) (f : α → Except ε β) : ((.ok a : Except ε α) >>= f) = f a := rfl

@[simp] theorem error_bind (e : ε) (f : α → Except ε β) :
    ((.error e : Except ε α) >>= f) = .error e := rfl

theorem toOption_eq_some {x : Except ε α} {a : α} : x.toOption = some a ↔ x = .ok a := by
  cases x <;> simp [Except.toOption]

theorem mapError_eq_ok {ε' : Type*} {x : Except ε α} {f : ε → ε'} {a : α} :
    x.mapError f = .ok a ↔ x = .ok a := by
  cases x <;> simp [Except.mapError]

theorem exists_of_isOk {x : Except ε α} (h : x.isOk = true) : ∃ a, x = .ok a := by
  cases x with
  | ok a => exact ⟨a, rfl⟩
  | error e => cases h

theorem mapM_cons_eq (f : α → Except ε β) (a : α) (l : List α) :
    (a :: l).mapM f = f a >>= fun b => l.mapM f >>= fun bs => .ok (b :: bs) := by
  rw [List.mapM_cons]
  rfl

/-- A successful `[f(a) for a in l]` has one result for each item. -/
theorem mapM_eq_ok {f : α → Except ε β} {l : List α} {bs : List β} :
    l.mapM f = .ok bs ↔ Forall₂ (fun a b => f a = .ok b) l bs := by
  induction l generalizing bs with
  | nil =>
    cases bs with
    | nil => simp [pure, Except.pure]
    | cons => simp [pure, Except.pure]
  | cons a l ih =>
    rw [mapM_cons_eq, bind_eq_ok]
    constructor
    · rintro ⟨b, hb, h⟩
      obtain ⟨bs', hbs, h⟩ := bind_eq_ok.mp h
      cases h
      exact .cons hb (ih.mp hbs)
    · rintro (_ | ⟨hb, hbs⟩)
      exact ⟨_, hb, bind_eq_ok.mpr ⟨_, ih.mpr hbs, rfl⟩⟩

/-- A run whose later steps succeed independently of the earlier results. -/
theorem exists_bind_eq_ok {x : Except ε α} {f : α → Except ε β} {P : Prop}
    (h : ∀ a, x = .ok a → ((∃ b, f a = .ok b) ↔ P)) :
    (∃ b, (x >>= f) = .ok b) ↔ (∃ a, x = .ok a) ∧ P := by
  cases x with
  | error e => simp
  | ok a => simpa using h a rfl

theorem exists_mapM_eq_ok {f : α → Except ε β} {l : List α} :
    (∃ bs, l.mapM f = .ok bs) ↔ ∀ a ∈ l, ∃ b, f a = .ok b := by
  induction l with
  | nil => exact iff_of_true ⟨[], rfl⟩ (by simp)
  | cons a l ih =>
    rw [mapM_cons_eq, exists_bind_eq_ok (P := ∀ a ∈ l, ∃ b, f a = .ok b)]
    · simp
    · intro b _
      rw [exists_bind_eq_ok (P := True), and_true, ih]
      intro bs _
      exact iff_of_true ⟨_, rfl⟩ trivial

/-- Reading a permutation gives a permutation. -/
theorem mapM_perm {f : α → Except ε β} {l l' : List α} {bs : List β} (h : l.Perm l')
    (hl : l.mapM f = .ok bs) : ∃ bs', l'.mapM f = .ok bs' ∧ bs.Perm bs' := by
  obtain ⟨bs', hl', hp⟩ := List.perm_comp_forall₂ h.symm (mapM_eq_ok.mp hl)
  exact ⟨bs', mapM_eq_ok.mpr hl', hp.symm⟩

/-- Reading some of the items, in any order and as often as one likes, gives some of the results. -/
theorem mapM_subset {f : α → Except ε β} {l l' : List α} {bs : List β} (h : l' ⊆ l)
    (hl : l.mapM f = .ok bs) : ∃ bs', l'.mapM f = .ok bs' ∧ bs' ⊆ bs := by
  have hall := mapM_eq_ok.mp hl
  obtain ⟨bs', hbs'⟩ : ∃ bs', l'.mapM f = .ok bs' := by
    rw [exists_mapM_eq_ok]
    intro a ha
    obtain ⟨b, -, hb⟩ := hall.exists_of_mem_left (h ha)
    exact ⟨b, hb⟩
  refine ⟨bs', hbs', ?_⟩
  intro b hb
  obtain ⟨a, ha, hab⟩ := (mapM_eq_ok.mp hbs').exists_of_mem_right hb
  obtain ⟨b', hb', hab'⟩ := hall.exists_of_mem_left (h ha)
  cases hab.symm.trans hab'
  exact hb'

/-- Any result can be read first. -/
theorem mapM_front {f : α → Except ε β} {l : List α} {bs : List β} {b : β}
    (hl : l.mapM f = .ok bs) (hb : b ∈ bs) : ∃ a rest bs', l.Perm (a :: rest) ∧
      f a = .ok b ∧ rest.mapM f = .ok bs' ∧ bs.Perm (b :: bs') := by
  have hall := mapM_eq_ok.mp hl
  clear hl
  induction hall with
  | nil => cases hb
  | @cons a b₁ l bs hab hrest ih =>
    rcases List.mem_cons.mp hb with rfl | hb
    · exact ⟨a, l, bs, .refl _, hab, mapM_eq_ok.mpr hrest, .refl _⟩
    · obtain ⟨a', rest, bs', hp, ha', hmap, hp'⟩ := ih hb
      refine ⟨a', a :: rest, b₁ :: bs', (hp.cons a).trans (.swap _ _ _), ha', ?_,
        (hp'.cons b₁).trans (.swap _ _ _)⟩
      rw [mapM_cons_eq, hab, ok_bind, hmap, ok_bind]

/-- An invariant of one step is an invariant of the loop. -/
theorem foldlM_invariant {f : β → α → Except ε β} {P : β → Prop} {l : List α} {b b' : β}
    (hb : P b) (hstep : ∀ a ∈ l, ∀ b b', P b → f b a = .ok b' → P b')
    (h : l.foldlM f b = .ok b') : P b' := by
  induction l generalizing b with
  | nil =>
    cases h
    exact hb
  | cons a l ih =>
    rw [List.foldlM_cons] at h
    obtain ⟨b₁, h₁, h⟩ := bind_eq_ok.mp h
    exact ih (hstep a List.mem_cons_self b b₁ hb h₁)
      (fun a' ha' => hstep a' (List.mem_cons_of_mem _ ha')) h

/-- A loop keeps step with an account of what it has done. -/
theorem foldlM_related {δ : Type*} {f : β → α → Except ε β} {g : δ → α → δ} {R : δ → β → Prop}
    {l : List α} {d : δ} {b b' : β} (hb : R d b)
    (hstep : ∀ a ∈ l, ∀ d b b', R d b → f b a = .ok b' → R (g d a) b')
    (h : l.foldlM f b = .ok b') : R (l.foldl g d) b' := by
  induction l generalizing d b with
  | nil =>
    cases h
    exact hb
  | cons a l ih =>
    rw [List.foldlM_cons] at h
    obtain ⟨b₁, h₁, h⟩ := bind_eq_ok.mp h
    exact ih (hstep a List.mem_cons_self d b b₁ hb h₁)
      (fun a' ha' => hstep a' (List.mem_cons_of_mem _ ha')) h

/-- Both runs succeed with related results, or both fail with the same error. -/
inductive Rel (R : α → β → Prop) : Except ε α → Except ε β → Prop
  | ok {a : α} {b : β} : R a b → Rel R (.ok a) (.ok b)
  | error (e : ε) : Rel R (.error e) (.error e)

theorem Rel.bind {δ : Type v} {R : α → β → Prop} {S : γ → δ → Prop} {x : Except ε α}
    {y : Except ε β} {f : α → Except ε γ} {g : β → Except ε δ} (h : Rel R x y)
    (hfg : ∀ a b, R a b → Rel S (f a) (g b)) : Rel S (x >>= f) (y >>= g) := by
  cases h with
  | ok hab => exact hfg _ _ hab
  | error e => exact .error e

/-- Item by item related runs are related as a whole. -/
theorem mapM_rel {δ : Type v} {R : γ → δ → Prop} {f : α → Except ε γ} {g : β → Except ε δ}
    {l : List α} {l' : List β} (h : Forall₂ (fun a b => Rel R (f a) (g b)) l l') :
    Rel (Forall₂ R) (l.mapM f) (l'.mapM g) := by
  induction h with
  | nil => exact .ok .nil
  | cons hab _ ih =>
    rw [mapM_cons_eq, mapM_cons_eq]
    exact hab.bind fun c d hcd => ih.bind fun cs ds hcds => .ok (.cons hcd hcds)

end Except

/-- The same for a loop that may find nothing. -/
theorem Option.mapM_eq_some_iff {α β : Type v} {f : α → Option β} {l : List α} {bs : List β} :
    l.mapM f = some bs ↔ Forall₂ (fun a b => f a = some b) l bs := by
  induction l generalizing bs with
  | nil => cases bs <;> simp
  | cons a l ih =>
    rw [List.mapM_cons, Option.bind_eq_bind, Option.bind_eq_some_iff]
    constructor
    · rintro ⟨b, hb, h⟩
      obtain ⟨bs', hbs, h⟩ := Option.bind_eq_some_iff.mp h
      cases h
      exact .cons hb (ih.mp hbs)
    · rintro (_ | ⟨hb, hbs⟩)
      exact ⟨_, hb, Option.bind_eq_some_iff.mpr ⟨_, ih.mpr hbs, rfl⟩⟩
