import FieldDiscovery.Lib.Except

/-!
# What a run may raise

`RaisesOnly P x`: the run `x` returns, or raises an exception of the class `P`. Over the constructs of
a program it is a condition on the parts that are reached: on the continuation of a run that returns,
and on the first item of a loop that does not.
-/

universe u v

namespace Except

variable {ε : Type u} {α β γ : Type v}

/-- Every exception of the run is in the class. -/
def RaisesOnly (P : ε → Prop) (x : Except ε α) : Prop := ∀ e, x = .error e → P e

/-- The run returns. -/
def Returns (x : Except ε α) : Prop := ∃ a, x = .ok a

section

variable {P : ε → Prop}

theorem raisesOnly_ok (a : α) : RaisesOnly P (.ok a : Except ε α) := by
  rintro e ⟨⟩

@[simp] theorem raisesOnly_error {e : ε} : RaisesOnly P (.error e : Except ε α) ↔ P e :=
  ⟨fun h => h e rfl, fun h _ he => Except.error.inj he ▸ h⟩

theorem Returns.raisesOnly {x : Except ε α} (h : x.Returns) : RaisesOnly P x := by
  obtain ⟨a, rfl⟩ := h
  exact raisesOnly_ok a

theorem returns_ok (a : α) : (.ok a : Except ε α).Returns := ⟨a, rfl⟩

@[simp] theorem not_returns_error (e : ε) : ¬ (.error e : Except ε α).Returns := by
  rintro ⟨a, ⟨⟩⟩

/-- The continuation matters where the first part returns. -/
theorem raisesOnly_bind {x : Except ε α} {f : α → Except ε β} :
    RaisesOnly P (x >>= f) ↔ RaisesOnly P x ∧ ∀ a, x = .ok a → RaisesOnly P (f a) := by
  cases x with
  | error e =>
    rw [error_bind, raisesOnly_error, raisesOnly_error]
    exact (and_iff_left (by rintro a ⟨⟩)).symm
  | ok a =>
    rw [ok_bind]
    refine ⟨fun h => ⟨raisesOnly_ok a, ?_⟩, fun h => h.2 a rfl⟩
    rintro _ ⟨⟩
    exact h

theorem RaisesOnly.bind {x : Except ε α} {f : α → Except ε β} (hx : RaisesOnly P x)
    (hf : ∀ a, x = .ok a → RaisesOnly P (f a)) : RaisesOnly P (x >>= f) :=
  raisesOnly_bind.mpr ⟨hx, hf⟩

theorem RaisesOnly.ite {c : Prop} [Decidable c] {x y : Except ε α} (hx : c → RaisesOnly P x)
    (hy : ¬ c → RaisesOnly P y) : RaisesOnly P (if c then x else y) := by
  split
  · next h => exact hx h
  · next h => exact hy h

theorem returns_bind {x : Except ε α} {f : α → Except ε β} :
    (x >>= f).Returns ↔ ∃ a, x = .ok a ∧ (f a).Returns := by
  cases x with
  | error e => simp
  | ok a => simp

theorem RaisesOnly.foldlM {f : β → α → Except ε β} (hf : ∀ b a, RaisesOnly P (f b a)) (l : List α)
    (b : β) : RaisesOnly P (l.foldlM f b) := by
  induction l generalizing b with
  | nil => exact raisesOnly_ok b
  | cons a l ih =>
    rw [List.foldlM_cons]
    exact (hf b a).bind fun b' _ => ih b'

/-- A loop whose step returns for the same items in every state: it is the first item for which the
step does not return that matters. -/
theorem raisesOnly_foldlM {f : β → α → Except ε β} {accepts good : α → Prop}
    (haccepts : ∀ b a, (f b a).Returns ↔ accepts a) (hgood : ∀ b a, RaisesOnly P (f b a) ↔ good a)
    {l : List α} {b : β} :
    RaisesOnly P (l.foldlM f b) ↔
      ∀ front a back, l = front ++ a :: back → (∀ u ∈ front, accepts u) → good a := by
  induction l generalizing b with
  | nil =>
    refine iff_of_true (raisesOnly_ok b) fun front a back h => ?_
    exact absurd h (List.append_ne_nil_of_right_ne_nil _ (List.cons_ne_nil a back)).symm
  | cons a l ih =>
    rw [List.foldlM_cons, raisesOnly_bind, hgood]
    constructor
    · rintro ⟨ha, hl⟩ front u back hsplit hfront
      cases front with
      | nil =>
        obtain ⟨rfl, -⟩ := List.cons.inj hsplit
        exact ha
      | cons v front =>
        obtain ⟨rfl, htail⟩ := List.cons.inj hsplit
        obtain ⟨b', hb'⟩ := (haccepts b a).mpr (hfront a List.mem_cons_self)
        exact ih.mp (hl b' hb') front u back htail fun w hw => hfront w (List.mem_cons_of_mem _ hw)
    · intro h
      refine ⟨h [] a l rfl (by simp), fun b' hb' => ih.mpr fun front u back hsplit hfront => ?_⟩
      refine h (a :: front) u back (by rw [hsplit]; rfl) fun w hw => ?_
      rcases List.mem_cons.mp hw with rfl | hw
      · exact (haccepts b w).mp ⟨b', hb'⟩
      · exact hfront w hw

end

end Except
