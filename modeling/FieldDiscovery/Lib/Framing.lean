import FieldDiscovery.Lib.Raises
import FieldDiscovery.Lib.Str

/-!
# Items framed by their own length

A binary format in which every item tells where it ends (`Format`), and the loop of a generator that
reads items until the input is used up (`items`): it bounds their number, and may take an item as the
last one whatever follows. The loop ends without an error exactly on what `Framed` derives, and then
has yielded the items of the derivation (`items_eq_ok`).
-/

namespace Framing

open Py

/-! ## Numbers of two bytes -/

/-- `int.from_bytes(raw, "big")` -/
def fromBytes (raw : List Byte) : Nat := raw.foldl (fun n b => 256 * n + b.val) 0

/-- `n.to_bytes(2, "big")` -/
def word (n : Nat) : List Byte := [Fin.ofNat _ (n / 256), Fin.ofNat _ (n % 256)]

theorem fromBytes_pair (a b : Byte) : fromBytes [a, b] = 256 * a.val + b.val := by
  simp [fromBytes]

theorem fromBytes_pair_lt (a b : Byte) : fromBytes [a, b] < 65536 := by
  have := a.isLt
  have := b.isLt
  rw [fromBytes_pair]
  omega

theorem fromBytes_lt {raw : List Byte} {n : Nat} (h : raw.length = n) : fromBytes raw < 256 ^ n := by
  induction raw using List.reverseRecOn generalizing n with
  | nil => exact Nat.pow_pos (by decide)
  | append_singleton raw b ih =>
    rw [List.length_append, List.length_singleton] at h
    have hb := b.isLt
    have hraw := ih rfl
    rw [← h, Nat.pow_succ, fromBytes, List.foldl_append]
    change 256 * fromBytes raw + b.val < _
    omega

theorem fromBytes_word {n : Nat} (h : n < 65536) : fromBytes (word n) = n := by
  unfold word
  rw [fromBytes_pair, Fin.val_ofNat, Fin.val_ofNat]
  omega

/-- A number determines its two bytes. -/
theorem pair_eq_word {a b : Byte} {n : Nat} : [a, b] = word n ∧ n < 65536 ↔ fromBytes [a, b] = n := by
  constructor
  · rintro ⟨h, hn⟩
    rw [h, fromBytes_word hn]
  · rintro rfl
    refine ⟨?_, fromBytes_pair_lt a b⟩
    have := a.isLt
    have := b.isLt
    unfold word
    rw [fromBytes_pair]
    have ha : (Fin.ofNat 256 ((256 * a.val + b.val) / 256) : Byte) = a := by
      apply Fin.ext
      rw [Fin.val_ofNat]
      omega
    have hb : (Fin.ofNat 256 ((256 * a.val + b.val) % 256) : Byte) = b := by
      apply Fin.ext
      rw [Fin.val_ofNat]
      omega
    rw [ha, hb]

/-! ## Items -/

variable {ε α : Type}

/-- A way to write an item, and the reader that takes back exactly what is written. -/
structure Format (ε α : Type) where
  write : α → List Byte
  read : List Byte → Except ε (α × List Byte)
  read_eq_ok : ∀ bytes a rest, read bytes = .ok (a, rest) ↔ bytes = write a ++ rest
  write_ne_nil : ∀ a, write a ≠ []

/-- One item after the other. -/
def Format.writeAll (f : Format ε α) (l : List α) : List Byte := l.flatMap f.write

variable (f : Format ε α) (last : α → List Byte → Except ε Bool) (tooMany : ε)

/-- What the generator yields before it returns or raises, and what it raises. `last` looks at an
item and at what follows. -/
def items : Nat → List Byte → List α × Option ε
  | 0, bytes =>
    if bytes = [] then ([], none)
    else
      match f.read bytes with
      | .error e => ([], some e)
      | .ok _ => ([], some tooMany)
  | limit + 1, bytes =>
    if bytes = [] then ([], none)
    else
      match f.read bytes with
      | .error e => ([], some e)
      | .ok (a, rest) =>
        match last a rest with
        | .error e => ([], some e)
        | .ok true => ([a], none)
        | .ok false =>
          let tail := items limit rest
          (a :: tail.1, tail.2)

/-- The input is made of these items. -/
inductive Framed : List α → List Byte → Prop where
  | nil : Framed [] []
  | last {a : α} {rest : List Byte} : last a rest = .ok true → Framed [a] (f.write a ++ rest)
  | cons {a : α} {l : List α} {rest : List Byte} : last a rest = .ok false → Framed l rest →
      Framed (a :: l) (f.write a ++ rest)

variable {f last tooMany}

theorem Format.append_ne_nil (f : Format ε α) (a : α) (rest : List Byte) : f.write a ++ rest ≠ [] :=
  List.append_ne_nil_of_left_ne_nil (f.write_ne_nil a) _

theorem Format.read_append (f : Format ε α) (a : α) (rest : List Byte) :
    f.read (f.write a ++ rest) = .ok (a, rest) := (f.read_eq_ok _ _ _).mpr rfl

/-- The generator returns exactly on framed input that has no more items than the limit. -/
theorem items_eq_ok {limit : Nat} {bytes : List Byte} {l : List α} :
    items f last tooMany limit bytes = (l, none) ↔ Framed f last l bytes ∧ l.length ≤ limit := by
  constructor
  · intro h
    induction limit generalizing bytes l with
    | zero =>
      unfold items at h
      by_cases hnil : bytes = []
      · rw [if_pos hnil] at h
        cases h
        exact ⟨hnil ▸ .nil, Nat.le_refl 0⟩
      · rw [if_neg hnil] at h
        cases hread : f.read bytes with
        | error e =>
          rw [hread] at h
          cases h
        | ok p =>
          rw [hread] at h
          cases h
    | succ limit ih =>
      unfold items at h
      by_cases hnil : bytes = []
      · rw [if_pos hnil] at h
        cases h
        exact ⟨hnil ▸ .nil, Nat.zero_le _⟩
      · rw [if_neg hnil] at h
        cases hread : f.read bytes with
        | error e =>
          rw [hread] at h
          cases h
        | ok p =>
          obtain ⟨a, rest⟩ := p
          obtain rfl := (f.read_eq_ok _ _ _).mp hread
          rw [hread] at h
          simp only at h
          cases hlast : last a rest with
          | error e =>
            rw [hlast] at h
            cases h
          | ok isLast =>
            rw [hlast] at h
            cases isLast with
            | true =>
              cases h
              exact ⟨.last hlast, Nat.le_add_left 1 limit⟩
            | false =>
              simp only [Prod.mk.injEq] at h
              obtain ⟨rfl, herror⟩ := h
              obtain ⟨htail, hlength⟩ := ih (Prod.ext rfl herror)
              exact ⟨.cons hlast htail, Nat.succ_le_succ hlength⟩
  · rintro ⟨h, hlength⟩
    induction h generalizing limit with
    | nil => cases limit <;> rfl
    | @last a rest hlast =>
      obtain ⟨limit, rfl⟩ := Nat.exists_eq_add_of_le' hlength
      simp only [items, List.length_singleton] at *
      rw [if_neg (f.append_ne_nil a rest), f.read_append]
      simp only
      rw [hlast]
    | @cons a l rest hlast _ ih =>
      rw [List.length_cons] at hlength
      obtain ⟨limit, rfl⟩ := Nat.exists_eq_add_of_le' (Nat.one_le_of_lt (Nat.lt_of_lt_of_le
        (Nat.lt_succ_self _) hlength))
      simp only [items]
      rw [if_neg (f.append_ne_nil a rest), f.read_append]
      simp only
      rw [hlast, ih (by omega)]

/-- Without a last item, the input is the items one after the other. -/
theorem framed_iff_writeAll {l : List α} {bytes : List Byte} :
    Framed f (fun _ _ => .ok false) l bytes ↔ bytes = f.writeAll l := by
  constructor
  · intro h
    induction h with
    | nil => rfl
    | last hlast => cases hlast
    | @cons a l rest _ _ ih =>
      rw [ih]
      rfl
  · rintro rfl
    induction l with
    | nil => exact .nil
    | cons a l ih => exact .cons rfl ih

/-- Items are read off the front of an input in one way only. -/
theorem exists_append_of_writeAll (f : Format ε α) {l l' : List α} {rest : List Byte}
    (h : f.writeAll l ++ rest = f.writeAll l') : ∃ l₁, l' = l ++ l₁ ∧ rest = f.writeAll l₁ := by
  induction l generalizing l' with
  | nil => exact ⟨l', rfl, h⟩
  | cons a l ih =>
    have hfront : f.writeAll (a :: l) ++ rest = f.write a ++ (f.writeAll l ++ rest) := by
      simp [Format.writeAll]
    rw [hfront] at h
    cases l' with
    | nil => exact absurd h (f.append_ne_nil a _)
    | cons b l' =>
      have hread := f.read_append a (f.writeAll l ++ rest)
      rw [h] at hread
      obtain ⟨rfl, htail⟩ := Prod.mk.inj
        (Except.ok.inj ((f.read_append b (f.writeAll l')).symm.trans hread))
      obtain ⟨l₁, rfl, hrest⟩ := ih htail.symm
      exact ⟨l₁, rfl, hrest⟩

/-- The errors of a framing are those of its parts. -/
theorem items_error {P : ε → Prop} (hread : ∀ bytes, (f.read bytes).RaisesOnly P)
    (hlast : ∀ a rest, (last a rest).RaisesOnly P) (hmany : P tooMany) {limit : Nat}
    {bytes : List Byte} {l : List α} {e : ε} (h : items f last tooMany limit bytes = (l, some e)) :
    P e := by
  induction limit generalizing bytes l with
  | zero =>
    unfold items at h
    split at h
    · cases h
    split at h
    · next hfront =>
      cases h
      exact hread _ _ hfront
    · cases h
      exact hmany
  | succ limit ih =>
    unfold items at h
    split at h
    · cases h
    split at h
    · next hfront =>
      cases h
      exact hread _ _ hfront
    · split at h
      · next hend =>
        cases h
        exact hlast _ _ _ hend
      · cases h
      · obtain ⟨-, htail⟩ := Prod.mk.inj h
        exact ih (Prod.ext rfl htail)

end Framing
