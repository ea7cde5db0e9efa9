import FieldDiscovery.Lib.UnionFind

/-!
# Runs of finds and unions

Any sequence of `find` and `union` on registered items, from the table in which every item is its own
root (`run`). The loop of `find` is a relation without fuel here (`Finds`), so that a derivation says
that the loop ends. After every run the table is as `Grouping` says (`run_grouping`): parents are
never above their items, the loop ends from everywhere and changes no class, the root of a class is
its least item, and the classes are the closure of the united pairs.
-/

open Finset

namespace UnionFind

variable {α : Type*} [LinearOrder α]

/-! ## The loop of `find` -/

/-- The loop ends, with this table and at this item. -/
inductive Finds : (α → α) → α → (α → α) → α → Prop where
  | root {p : α → α} {item : α} : p item = item → Finds p item p item
  | halve {p q : α → α} {item root : α} : p item ≠ item →
      Finds (Function.update p item (p (p item))) (p (p item)) q root → Finds p item q root

section

variable {s : Finset α} {p : α → α}

/-- What `find` returns with some fuel left is what the loop ends with. -/
theorem Finds.of_find {item : α} {fuel : Nat}
    (hroot : (find fuel p item).1 (find fuel p item).2 = (find fuel p item).2) :
    Finds p item (find fuel p item).1 (find fuel p item).2 := by
  induction fuel generalizing p item with
  | zero => exact .root hroot
  | succ fuel ih =>
    unfold find at hroot ⊢
    split
    · next hself => exact .root hself
    · next hself =>
      rw [if_neg hself] at hroot
      simp only [Function.update_self] at hroot ⊢
      exact .halve hself (ih hroot)

/-- On a forest the loop ends at the root. -/
theorem Forest.finds (h : Forest s p) {x : α} (hx : x ∈ s) {fuel : Nat} (hfuel : s.card ≤ fuel) :
    Finds p x (find fuel p x).1 (rootOf s p x) := by
  obtain ⟨hf, hroots, hres⟩ := find_spec_card h hx hfuel
  rw [← hres]
  refine .of_find ?_
  rw [hres, ← hroots x]
  exact hf.rootOf_isRoot x

/-- The root of a class is its least item. -/
theorem Forest.isLeast (h : Forest s p) {x : α} (hx : x ∈ s) :
    IsLeast {y | y ∈ s ∧ SameRoot s p x y} (rootOf s p x) := by
  refine ⟨⟨h.rootOf_mem hx, (rootOf_eq_self (h.rootOf_isRoot x)).symm⟩, ?_⟩
  rintro y ⟨-, hxy⟩
  have hroot : rootOf s p x = rootOf s p y := hxy
  rw [hroot]
  exact h.rootOf_le y

end

/-! ## Runs -/

/-- A call on the table. -/
inductive Operation (α : Type*) where
  | find (item : α)
  | union (left right : α)

namespace Operation

/-- The items of the call. -/
def items : Operation α → List α
  | find item => [item]
  | union left right => [left, right]

/-- The pair that the call unites. -/
def united : Operation α → List (α × α)
  | find _ => []
  | union left right => [(left, right)]

/-- The table after the call. -/
def apply (fuel : Nat) (p : α → α) : Operation α → α → α
  | find item => (UnionFind.find fuel p item).1
  | union left right => UnionFind.union fuel p left right

end Operation

/-- The table after some calls. -/
def run (fuel : Nat) (p : α → α) (ops : List (Operation α)) : α → α :=
  ops.foldl (fun p op => op.apply fuel p) p

@[simp] theorem run_append (fuel : Nat) (p : α → α) (front back : List (Operation α)) :
    run fuel p (front ++ back) = run fuel (run fuel p front) back := List.foldl_append

/-- The calls without fuel: they all return, and leave this table. -/
inductive Runs : (α → α) → List (Operation α) → (α → α) → Prop where
  | nil {p : α → α} : Runs p [] p
  | find {p q p' : α → α} {item root : α} {ops : List (Operation α)} :
      Finds p item q root → Runs q ops p' → Runs p (.find item :: ops) p'
  | union {p q q' p' : α → α} {left right leftRoot rightRoot : α} {ops : List (Operation α)} :
      Finds p left q leftRoot → Finds q right q' rightRoot →
      Runs (Function.update q' (max leftRoot rightRoot) (min leftRoot rightRoot)) ops p' →
      Runs p (.union left right :: ops) p'

/-- The pairs that some calls unite. -/
def united (ops : List (Operation α)) : List (α × α) := ops.flatMap Operation.united

omit [LinearOrder α] in
@[simp] theorem united_append (front back : List (Operation α)) :
    united (front ++ back) = united front ++ united back := List.flatMap_append

/-- What a table says about the items when some pairs were united. -/
structure Grouping (s : Finset α) (p : α → α) (pairs : List (α × α)) : Prop where
  /-- A parent is an item, and is not above its own. -/
  parent : ∀ x ∈ s, p x ∈ s ∧ p x ≤ x
  /-- The loop of `find` ends, at the root, and leaves the roots as they are. -/
  finds : ∀ x ∈ s, ∃ q, Finds p x q (rootOf s p x) ∧ ∀ y, rootOf s q y = rootOf s p y
  /-- The root of a class is its least item. -/
  least : ∀ x ∈ s, IsLeast {y | y ∈ s ∧ SameRoot s p x y} (rootOf s p x)
  /-- The classes are the closure of the pairs. -/
  closure : ∀ x y, SameRoot s p x y ↔ Merged pairs x y

section

variable {s : Finset α} {p : α → α} {pairs : List (α × α)} {fuel : Nat}

theorem Forest.grouping (h : Forest s p) (hclasses : Represents s p pairs) :
    Grouping s p pairs where
  parent x hx := ⟨h.mem x hx, h.le x⟩
  finds _ hx := ⟨_, h.finds hx (Nat.le_refl _), (find_spec_card h hx (Nat.le_refl _)).2.1⟩
  least _ hx := h.isLeast hx
  closure := hclasses

/-- What a call preserves. -/
theorem Operation.apply_spec (h : Forest s p) (hclasses : Represents s p pairs)
    (hfuel : s.card ≤ fuel) {op : Operation α} (hitems : ∀ x ∈ op.items, x ∈ s) :
    Forest s (op.apply fuel p) ∧ Represents s (op.apply fuel p) (pairs ++ op.united) := by
  cases op with
  | find item =>
    obtain ⟨hf, hroots, -⟩ := find_spec_card h (hitems item List.mem_cons_self) hfuel
    refine ⟨hf, ?_⟩
    rw [Operation.united, List.append_nil]
    exact hclasses.congr hroots
  | union left right =>
    have hleft := hitems left List.mem_cons_self
    have hright := hitems right (List.mem_cons_of_mem _ List.mem_cons_self)
    exact ⟨(union_spec h hleft hright hfuel).1, hclasses.union h hleft hright hfuel⟩

/-- What a run preserves. -/
theorem run_spec (h : Forest s p) (hclasses : Represents s p pairs) (hfuel : s.card ≤ fuel)
    {ops : List (Operation α)} (hitems : ∀ op ∈ ops, ∀ x ∈ op.items, x ∈ s) :
    Forest s (run fuel p ops) ∧ Represents s (run fuel p ops) (pairs ++ united ops) := by
  induction ops generalizing p pairs with
  | nil =>
    rw [united, List.flatMap_nil, List.append_nil]
    exact ⟨h, hclasses⟩
  | cons op ops ih =>
    obtain ⟨hop, hops⟩ := List.forall_mem_cons.mp hitems
    obtain ⟨hforest, hrepresents⟩ := Operation.apply_spec h hclasses hfuel hop
    have hrest := ih hforest hrepresents hops
    rw [List.append_assoc] at hrest
    exact hrest

/-- With as much fuel as items, the run is the one without fuel. -/
theorem runs_run (h : Forest s p) (hfuel : s.card ≤ fuel) {ops : List (Operation α)}
    (hitems : ∀ op ∈ ops, ∀ x ∈ op.items, x ∈ s) : Runs p ops (run fuel p ops) := by
  induction ops generalizing p with
  | nil => exact .nil
  | cons op ops ih =>
    obtain ⟨hop, hops⟩ := List.forall_mem_cons.mp hitems
    cases op with
    | find item =>
      have hitem := hop item List.mem_cons_self
      exact .find (h.finds hitem hfuel) (ih (find_spec_card h hitem hfuel).1 hops)
    | union left right =>
      have hleft := hop left List.mem_cons_self
      have hright := hop right (List.mem_cons_of_mem _ List.mem_cons_self)
      obtain ⟨hforest, hroots, hres⟩ := find_spec_card h hleft hfuel
      have hunion := ih (union_spec h hleft hright hfuel).1 hops
      unfold union at hunion
      simp only [hres, (find_spec_card hforest hright hfuel).2.2] at hunion
      have hrest := Runs.union (h.finds hleft hfuel) (hforest.finds hright hfuel) hunion
      rw [run, List.foldl_cons, Operation.apply, union]
      simp only [hres, (find_spec_card hforest hright hfuel).2.2]
      exact hrest

/-- After any calls from the start. -/
theorem run_grouping (hfuel : s.card ≤ fuel) {ops : List (Operation α)}
    (hitems : ∀ op ∈ ops, ∀ x ∈ op.items, x ∈ s) :
    Runs (fun x => x) ops (run fuel (fun x => x) ops) ∧
      Grouping s (run fuel (fun x => x) ops) (united ops) := by
  obtain ⟨hforest, hclasses⟩ := run_spec (Forest.id s) (represents_id s) hfuel hitems
  exact ⟨runs_run (Forest.id s) hfuel hitems, hforest.grouping hclasses⟩

end

/-! ## The calls of a loop -/

section

variable {σ τ : Type*} {step : σ → τ → σ} {calls : σ → τ → List (Operation α)} {table : σ → α → α}

variable (step calls) in
/-- The calls of a loop, from those of its body. -/
def callsOf : σ → List τ → List (Operation α)
  | _, [] => []
  | st, x :: xs => calls st x ++ callsOf (step st x) xs

/-- The loop leaves the table that its calls leave. -/
theorem run_callsOf {fuel : Nat} (hstep : ∀ st x, run fuel (table st) (calls st x) = table (step st x))
    (st : σ) (xs : List τ) : run fuel (table st) (callsOf step calls st xs) =
      table (xs.foldl step st) := by
  induction xs generalizing st with
  | nil => rfl
  | cons x xs ih => rw [callsOf, run_append, hstep, ih, List.foldl_cons]

omit [LinearOrder α] in
theorem forall_callsOf {P : Operation α → Prop} {xs : List τ}
    (hcalls : ∀ st, ∀ x ∈ xs, ∀ op ∈ calls st x, P op) (st : σ) :
    ∀ op ∈ callsOf step calls st xs, P op := by
  induction xs generalizing st with
  | nil => rintro op ⟨⟩
  | cons x xs ih =>
    obtain ⟨hx, hxs⟩ := forall_and.mp fun st => List.forall_mem_cons.mp (hcalls st)
    rw [callsOf, List.forall_mem_append]
    exact ⟨hx st, ih hxs _⟩

end

end UnionFind
