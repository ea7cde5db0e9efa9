import FieldDiscovery.Config.Schema
import FieldDiscovery.Lib.Merge

/-!
# The merged mapping

What `_merge` builds from the defaults and a document it builds again from the defaults and its own
result (`mergeItems_absorb`), and the result passes the checks that the document has passed
(`rejectInlineSecrets_merged`, `checkChild_merged`).
-/

namespace FieldDiscovery.Config

open Py

/-! ## Parts of a value -/

namespace Yaml

/-- `u` stands somewhere in `v`. -/
inductive Part (u : Yaml) : Yaml → Prop
  | refl : Part u u
  | field {key : Key} {w : Yaml} {fields : List (Key × Yaml)} (h : (key, w) ∈ fields)
      (h' : Part u w) : Part u (.dict fields)
  | element {w : Yaml} {elements : List Yaml} (h : w ∈ elements) (h' : Part u w) :
      Part u (.list elements)

/-- No mapping has a key twice, at any depth. -/
def Distinct (v : Yaml) : Prop := ∀ fields, Part (.dict fields) v → Dict.KeysNodup fields

/-- The key of a mapping, at any depth. -/
def HasKey (key : Key) (v : Yaml) : Prop :=
  ∃ fields, Part (.dict fields) v ∧ key ∈ fields.map Prod.fst

/-- Induction over the parts of a value. -/
theorem parts_induction {P : Yaml → Prop}
    (hdict : ∀ fields : List (Key × Yaml), (∀ field ∈ fields, P field.2) → P (.dict fields))
    (hlist : ∀ elements : List Yaml, (∀ v ∈ elements, P v) → P (.list elements))
    (hleaf : ∀ v : Yaml, (∀ fields, v ≠ .dict fields) → (∀ elements, v ≠ .list elements) → P v) :
    ∀ v, P v := by
  refine @Yaml.rec P (fun elements => ∀ v ∈ elements, P v) (fun fields => ∀ field ∈ fields, P field.2)
    (fun field => P field.2) ?_ ?_ ?_ ?_ ?_ (fun elements => hlist elements)
    (fun fields => hdict fields) ?_ ?_ ?_ ?_ ?_ ?_
  -- the leaves
  · exact hleaf _ (fun _ h => by cases h) fun _ h => by cases h
  · exact fun _ => hleaf _ (fun _ h => by cases h) fun _ h => by cases h
  · exact fun _ => hleaf _ (fun _ h => by cases h) fun _ h => by cases h
  · exact fun _ => hleaf _ (fun _ h => by cases h) fun _ h => by cases h
  · exact fun _ => hleaf _ (fun _ h => by cases h) fun _ h => by cases h
  · exact fun _ _ => hleaf _ (fun _ h => by cases h) fun _ h => by cases h
  -- the lists of elements and of fields
  · exact fun _ h => absurd h List.not_mem_nil
  · exact fun head tail hhead htail => List.forall_mem_cons.mpr ⟨hhead, htail⟩
  · exact fun _ h => absurd h List.not_mem_nil
  · exact fun head tail hhead htail => List.forall_mem_cons.mpr ⟨hhead, htail⟩
  · exact fun _ _ ih => ih

variable {v w : Yaml} {fields : List (Key × Yaml)} {key : Key}

theorem Distinct.field (h : (dict fields).Distinct) (hw : (key, w) ∈ fields) : w.Distinct :=
  fun _ hpart => h _ (.field hw hpart)

theorem Distinct.keys (h : (dict fields).Distinct) : Dict.KeysNodup fields := h _ .refl

end Yaml

namespace Yaml

mutual

/-- Whether no mapping has a key twice. -/
def distinctKeys : Yaml → Bool
  | dict items => decide (items.map Prod.fst).Nodup && distinctItems items
  | list items => distinctElements items
  | _ => true

def distinctItems : List (Key × Yaml) → Bool
  | [] => true
  | (_, child) :: rest => distinctKeys child && distinctItems rest

def distinctElements : List Yaml → Bool
  | [] => true
  | child :: rest => distinctKeys child && distinctElements rest

end

theorem distinctItems_eq (fields : List (Key × Yaml)) :
    distinctItems fields = fields.all fun field => distinctKeys field.2 := by
  induction fields with
  | nil => rfl
  | cons field fields ih =>
    obtain ⟨key, child⟩ := field
    rw [distinctItems, ih, List.all_cons]

theorem distinctElements_eq (elements : List Yaml) :
    distinctElements elements = elements.all distinctKeys := by
  induction elements with
  | nil => rfl
  | cons child elements ih => rw [distinctElements, ih, List.all_cons]

theorem distinctKeys_eq_true {v : Yaml} : distinctKeys v = true ↔ v.Distinct := by
  induction v using parts_induction with
  | hdict fields ih =>
    rw [distinctKeys, distinctItems_eq, Bool.and_eq_true, decide_eq_true_iff, List.all_eq_true]
    constructor
    · rintro ⟨hkeys, hfields⟩ fields' hpart
      cases hpart with
      | refl => exact hkeys
      | field h hpart => exact (ih _ h).mp (hfields _ h) fields' hpart
    · exact fun h => ⟨h.keys, fun field hfield => (ih field hfield).mpr (h.field hfield)⟩
  | hlist elements ih =>
    rw [distinctKeys, distinctElements_eq, List.all_eq_true]
    constructor
    · intro h fields hpart
      cases hpart with
      | element hmem hpart => exact (ih _ hmem).mp (h _ hmem) fields hpart
    · exact fun h v hmem => (ih v hmem).mpr fun fields hpart => h fields (.element hmem hpart)
  | hleaf v hdict hlist =>
    refine iff_of_true ?_ fun fields hpart => ?_
    · cases v with
      | dict fields => exact absurd rfl (hdict fields)
      | list elements => exact absurd rfl (hlist elements)
      | null | bool | int | float | string | other => rfl
    · cases hpart with
      | refl => exact absurd rfl (hdict fields)
      | field => exact absurd rfl (hdict _)
      | element => exact absurd rfl (hlist _)

instance decidableDistinct (v : Yaml) : Decidable v.Distinct :=
  decidable_of_iff _ distinctKeys_eq_true

end Yaml

theorem distinct_defaults : (Yaml.dict defaults).Distinct := by decide +kernel

/-! ## Merging again -/

theorem mergeItems_eq (d s : List (Key × Yaml)) :
    mergeItems d s = Dict.mergeWith (fun old => mergeValue old) d s := by
  induction s generalizing d with
  | nil => rfl
  | cons p s ih =>
    obtain ⟨key, value⟩ := p
    rw [mergeItems, Dict.mergeWith, ih]

theorem mergeValue_dict (old s : List (Key × Yaml)) : mergeValue (some (.dict old)) (.dict s) =
    .dict (mergeItems old s) := rfl

theorem mergeValue_of_not_dict {old : Option Yaml} (h : ∀ d, old ≠ some (.dict d)) (v : Yaml) :
    mergeValue old v = v := by
  cases v with
  | dict s =>
    unfold mergeValue
    split
    · next d => exact absurd rfl (h d)
    · rfl
  | null | bool | int | float | string | list | other => rfl

/-- A value merged into itself. -/
theorem mergeValue_self {v : Yaml} (h : v.Distinct) : mergeValue (some v) v = v := by
  induction v using Yaml.parts_induction with
  | hdict fields ih =>
    rw [mergeValue_dict, mergeItems_eq, Dict.mergeWith_self h.keys]
    exact fun field hfield => ih field hfield (h.field hfield)
  | hlist elements => rfl
  | hleaf v hdict =>
    refine mergeValue_of_not_dict (fun d heq => ?_) v
    exact hdict d (Option.some.inj heq)

/-- A merge that is repeated changes nothing. -/
theorem mergeValue_absorb {old v : Yaml} (hold : old.Distinct) (h : v.Distinct) :
    mergeValue (some old) (mergeValue (some old) v) = mergeValue (some old) v := by
  induction v using Yaml.parts_induction generalizing old with
  | hdict fields ih =>
    cases old with
    | dict d =>
      rw [mergeValue_dict, mergeValue_dict, mergeItems_eq, mergeItems_eq,
        Dict.mergeWith_absorb hold.keys h.keys]
      · exact fun field hfield => mergeValue_self (hold.field hfield)
      · intro field hfield
        cases hget : Dict.get d field.1 with
        | none =>
          rw [mergeValue_of_not_dict (fun _ heq => by cases heq),
            mergeValue_of_not_dict (fun _ heq => by cases heq)]
        | some w => exact ih field hfield (hold.field (Dict.mem_of_get hget)) (h.field hfield)
    | null | bool | int | float | string | list | other => rfl
  | hlist elements => rfl
  | hleaf v hdict =>
    have hv : mergeValue (some old) v = v := by
      cases v with
      | dict fields => exact absurd rfl (hdict fields)
      | null | bool | int | float | string | list | other => rfl
    rw [hv, hv]

/-- What is merged into a mapping is merged into it again. -/
theorem mergeItems_absorb {d s : List (Key × Yaml)} (hd : (Yaml.dict d).Distinct)
    (hs : (Yaml.dict s).Distinct) : mergeItems d (mergeItems d s) = mergeItems d s := by
  have h := mergeValue_absorb hd hs
  rw [mergeValue_dict, mergeValue_dict] at h
  exact Yaml.dict.inj h

/-- Where an item of a merged mapping comes from. -/
theorem mem_mergeItems {d s : List (Key × Yaml)} (hd : Dict.KeysNodup d) (hs : Dict.KeysNodup s)
    {field : Key × Yaml} (h : field ∈ mergeItems d s) :
    field ∈ d ∨ ∃ v, (field.1, v) ∈ s ∧ field.2 = mergeValue (Dict.get d field.1) v := by
  obtain ⟨key, w⟩ := field
  rw [mergeItems_eq] at h
  have hget := Dict.get_of_mem (Dict.keysNodup_mergeWith hd) h
  rw [Dict.get_mergeWith hs] at hget
  rcases Option.or_eq_some_iff.mp hget with hnew | ⟨-, hold⟩
  · obtain ⟨v, hv, hw⟩ := Option.map_eq_some_iff.mp hnew
    exact .inr ⟨v, Dict.mem_of_get hv, hw.symm⟩
  · exact .inl (Dict.mem_of_get hold)

/-! ## Inline secrets -/

namespace Yaml

variable {key : Key} {fields : List (Key × Yaml)} {elements : List Yaml} {v : Yaml}

theorem hasKey_dict : HasKey key (.dict fields) ↔
    key ∈ fields.map Prod.fst ∨ ∃ field ∈ fields, HasKey key field.2 := by
  constructor
  · rintro ⟨fields', hpart, hkey⟩
    cases hpart with
    | refl => exact .inl hkey
    | field h hpart => exact .inr ⟨_, h, fields', hpart, hkey⟩
  · rintro (hkey | ⟨field, hfield, fields', hpart, hkey⟩)
    · exact ⟨fields, .refl, hkey⟩
    · exact ⟨fields', .field hfield hpart, hkey⟩

theorem hasKey_list : HasKey key (.list elements) ↔ ∃ v ∈ elements, HasKey key v := by
  constructor
  · rintro ⟨fields', hpart, hkey⟩
    cases hpart with
    | element h hpart => exact ⟨_, h, fields', hpart, hkey⟩
  · rintro ⟨v, hv, fields', hpart, hkey⟩
    exact ⟨fields', .element hv hpart, hkey⟩

theorem not_hasKey_leaf (hdict : ∀ fields, v ≠ .dict fields)
    (hlist : ∀ elements, v ≠ .list elements) : ¬ HasKey key v := by
  rintro ⟨fields', hpart, -⟩
  cases hpart with
  | refl => exact hdict _ rfl
  | field => exact hdict _ rfl
  | element => exact hlist _ rfl

end Yaml

theorem rejectSecretItems_eq_ok {path : Str} {fields : List (Key × Yaml)} {u : Unit} :
    rejectSecretItems path fields = .ok u ↔ ∀ field ∈ fields, field.1.isSecret = false ∧
      rejectInlineSecrets (childPath path field.1.shown) field.2 = .ok () := by
  induction fields with
  | nil => exact iff_of_true rfl fun _ h => absurd h List.not_mem_nil
  | cons field fields ih =>
    obtain ⟨key, child⟩ := field
    rw [List.forall_mem_cons, ← ih, rejectSecretItems]
    constructor
    · intro h
      obtain ⟨⟨⟩, hkey, h⟩ := Except.bind_eq_ok.mp h
      obtain ⟨⟨⟩, hchild, h⟩ := Except.bind_eq_ok.mp h
      exact ⟨⟨Bool.eq_false_iff.mpr (reject_eq_ok.mp hkey), hchild⟩, h⟩
    · rintro ⟨⟨hkey, hchild⟩, h⟩
      refine Except.bind_eq_ok.mpr ⟨(), reject_eq_ok.mpr ?_, Except.bind_eq_ok.mpr ⟨(), hchild, h⟩⟩
      rw [hkey]
      exact Bool.false_ne_true

theorem checkEach_eq_ok {check : Str → Yaml → Except Exc Unit} {path : Str} {index : Nat}
    {elements : List Yaml} {u : Unit} : checkEach check path index elements = .ok u ↔
      ∀ i v, elements[i]? = some v → check (indexPath path (index + i)) v = .ok () := by
  induction elements generalizing index with
  | nil => exact iff_of_true rfl fun _ _ h => by cases h
  | cons v elements ih =>
    have hindex (i : Nat) : index + (i + 1) = index + 1 + i := by omega
    rw [checkEach]
    constructor
    · intro h i w hi
      obtain ⟨⟨⟩, hhead, h⟩ := Except.bind_eq_ok.mp h
      cases i with
      | zero =>
        cases hi
        exact hhead
      | succ i =>
        rw [hindex]
        exact ih.mp h i w hi
    · intro h
      refine Except.bind_eq_ok.mpr ⟨(), h 0 v rfl, ih.mpr fun i w hi => ?_⟩
      rw [← hindex]
      exact h (i + 1) w hi

theorem rejectSecretElements_eq (path : Str) (index : Nat) (elements : List Yaml) :
    rejectSecretElements path index elements =
      checkEach rejectInlineSecrets path index elements := by
  induction elements generalizing index with
  | nil => rfl
  | cons v elements ih =>
    rw [rejectSecretElements, checkEach]
    exact congrArg _ (funext fun _ => ih (index + 1))

/-- Whatever its path, a value is accepted exactly when none of its keys names a secret. -/
theorem rejectInlineSecrets_eq_ok {path : Str} {v : Yaml} {u : Unit} :
    rejectInlineSecrets path v = .ok u ↔ ∀ key, v.HasKey key → key.isSecret = false := by
  induction v using Yaml.parts_induction generalizing path u with
  | hdict fields ih =>
    rw [rejectInlineSecrets, rejectSecretItems_eq_ok]
    constructor
    · intro h key hkey
      rcases Yaml.hasKey_dict.mp hkey with hkey | ⟨field, hfield, hkey⟩
      · obtain ⟨field, hfield, rfl⟩ := List.mem_map.mp hkey
        exact (h field hfield).1
      · exact (ih field hfield).mp (h field hfield).2 key hkey
    · intro h field hfield
      exact ⟨h _ (Yaml.hasKey_dict.mpr (.inl (List.mem_map_of_mem hfield))),
        (ih field hfield).mpr fun key hkey => h key (Yaml.hasKey_dict.mpr (.inr ⟨field, hfield, hkey⟩))⟩
  | hlist elements ih =>
    rw [rejectInlineSecrets, rejectSecretElements_eq, checkEach_eq_ok]
    constructor
    · intro h key hkey
      obtain ⟨v, hv, hkey⟩ := Yaml.hasKey_list.mp hkey
      obtain ⟨i, hi⟩ := List.mem_iff_getElem?.mp hv
      exact (ih v hv).mp (h i v hi) key hkey
    · intro h i v hi
      have hv := List.mem_of_getElem? hi
      exact (ih v hv).mpr fun key hkey => h key (Yaml.hasKey_list.mpr ⟨v, hv, hkey⟩)
  | hleaf v hdict hlist =>
    refine iff_of_true ?_ fun key hkey => absurd hkey (Yaml.not_hasKey_leaf hdict hlist)
    cases v with
    | dict fields => exact absurd rfl (hdict fields)
    | list elements => exact absurd rfl (hlist elements)
    | null | bool | int | float | string | other => rfl

/-- The keys of a merged value are those of the two values. -/
theorem hasKey_mergeValue {key : Key} {old v : Yaml} (hold : old.Distinct) (hv : v.Distinct)
    (h : (mergeValue (some old) v).HasKey key) : old.HasKey key ∨ v.HasKey key := by
  induction v using Yaml.parts_induction generalizing old with
  | hdict fields ih =>
    cases old with
    | dict d =>
      rw [mergeValue_dict] at h
      rcases Yaml.hasKey_dict.mp h with hkey | ⟨field, hfield, hkey⟩
      · rw [mergeItems_eq, Dict.keys_mergeWith hv.keys] at hkey
        rcases List.mem_append.mp hkey with hkey | hkey
        · exact .inl (Yaml.hasKey_dict.mpr (.inl hkey))
        · exact .inr (Yaml.hasKey_dict.mpr (.inl (List.mem_filter.mp hkey).1))
      · rcases mem_mergeItems hold.keys hv.keys hfield with hfield | ⟨w, hw, heq⟩
        · exact .inl (Yaml.hasKey_dict.mpr (.inr ⟨field, hfield, hkey⟩))
        · have hright : w.HasKey key → (Yaml.dict fields).HasKey key := fun hkey =>
            Yaml.hasKey_dict.mpr (.inr ⟨_, hw, hkey⟩)
          rw [heq] at hkey
          cases hget : Dict.get d field.1 with
          | none =>
            rw [hget, mergeValue_of_not_dict fun _ heq => by cases heq] at hkey
            exact .inr (hright hkey)
          | some w' =>
            have hmem := Dict.mem_of_get hget
            rw [hget] at hkey
            rcases ih _ hw (hold.field hmem) (hv.field hw) hkey with hkey | hkey
            · exact .inl (Yaml.hasKey_dict.mpr (.inr ⟨_, hmem, hkey⟩))
            · exact .inr (hright hkey)
    | null | bool | int | float | string | list | other => exact .inr h
  | hlist elements => exact .inr h
  | hleaf v hdict =>
    cases v with
    | dict fields => exact absurd rfl (hdict fields)
    | null | bool | int | float | string | list | other => exact .inr h

/-! ## Known keys -/

theorem ne_nil_of_mapM {α β : Type} {f : α → Option β} {a : α} {l : List α} {bs : List β}
    (h : (a :: l).mapM f = some bs) : bs ≠ [] := by
  rw [List.mapM_cons] at h
  obtain ⟨b, -, h⟩ := Option.bind_eq_some_iff.mp h
  obtain ⟨rest, -, h⟩ := Option.bind_eq_some_iff.mp h
  cases h
  exact List.cons_ne_nil b rest

theorem head?_sortedBy_ne_none {α β : Type} [LinearOrder β] {f : α → β} {l : List α} (h : l ≠ []) :
    (sortedBy f l).head? ≠ none := by
  rw [Ne, List.head?_eq_none_iff]
  intro hnil
  obtain ⟨a, ha⟩ := List.exists_mem_of_ne_nil l h
  have hmem : a ∈ sortedBy f l := mem_sortedBy.mpr ha
  rw [hnil] at hmem
  exact List.not_mem_nil hmem

theorem firstKey_eq_none {keys : List Key} : firstKey keys = .ok none ↔ keys = [] := by
  constructor
  · intro h
    rcases keys with _ | ⟨key, _ | ⟨key', keys⟩⟩
    · rfl
    · cases h
    · simp only [firstKey] at h
      split at h
      · next texts htexts =>
        have hhead := Option.map_eq_none_iff.mp (Except.ok.inj h)
        exact absurd hhead (head?_sortedBy_ne_none (ne_nil_of_mapM htexts))
      · split at h
        · next numbers hnumbers =>
          have hhead := Option.map_eq_none_iff.mp (Except.ok.inj h)
          exact absurd hhead (head?_sortedBy_ne_none (ne_nil_of_mapM hnumbers))
        · cases h
  · rintro rfl
    rfl

theorem rejectUnknown_eq_ok {location : Str} {allowed : List Str} {fields : List (Key × Yaml)}
    {u : Unit} : rejectUnknown location allowed fields = .ok u ↔
      ∀ key ∈ fields.map Prod.fst, key ∈ allowed.map Key.text := by
  have hnil : ((fields.map Prod.fst).filter fun key => key ∉ allowed.map Key.text) = [] ↔
      ∀ key ∈ fields.map Prod.fst, key ∈ allowed.map Key.text := by
    rw [List.filter_eq_nil_iff]
    exact forall₂_congr fun key _ => by simp
  rw [← hnil, rejectUnknown]
  constructor
  · intro h
    obtain ⟨first, hfirst, h⟩ := Except.bind_eq_ok.mp h
    cases first with
    | none => exact firstKey_eq_none.mp hfirst
    | some key => cases h
  · intro h
    exact Except.bind_eq_ok.mpr ⟨none, firstKey_eq_none.mpr h, rfl⟩

/-- The keys are strings, and known ones where the section has known keys. -/
def KnownKeys (path : Str) (key : Key) : Prop :=
  (∃ s, key = .text s) ∧ ∀ allowed, allowedKeys path = some allowed → key ∈ allowed.map Key.text

theorem textKeys_eq_true {fields : List (Key × Yaml)} :
    (fields.all fun item => item.1.isText) = true ↔
      ∀ key ∈ fields.map Prod.fst, ∃ s, key = .text s := by
  rw [List.all_eq_true, List.forall_mem_map]
  refine forall₂_congr fun field _ => ?_
  obtain ⟨key, v⟩ := field
  cases key with
  | text s => exact iff_of_true rfl ⟨s, rfl⟩
  | number | other =>
    refine iff_of_false Bool.false_ne_true ?_
    rintro ⟨s, h⟩
    cases h

theorem checkKeys_eq_ok {path : Str} (hpath : path ≠ str "secret_providers")
    {fields : List (Key × Yaml)} {b : Bool} : checkKeys path fields = .ok b ↔
      (∀ key ∈ fields.map Prod.fst, KnownKeys path key) ∧ b = (allowedKeys path).isSome := by
  have hsplit : (∀ key ∈ fields.map Prod.fst, KnownKeys path key) ↔
      (∀ key ∈ fields.map Prod.fst, ∃ s, key = .text s) ∧
      ∀ allowed, allowedKeys path = some allowed →
        ∀ key ∈ fields.map Prod.fst, key ∈ allowed.map Key.text :=
    ⟨fun h => ⟨fun key hkey => (h key hkey).1, fun allowed ha key hkey => (h key hkey).2 allowed ha⟩,
      fun h key hkey => ⟨h.1 key hkey, fun allowed ha => h.2 allowed ha key hkey⟩⟩
  rw [hsplit, checkKeys, if_neg hpath]
  constructor
  · intro h
    obtain ⟨⟨⟩, htext, h⟩ := Except.bind_eq_ok.mp h
    have htext := textKeys_eq_true.mp (Bool.not_eq_false _ |>.mp (reject_eq_ok.mp htext))
    cases hallowed : allowedKeys path with
    | none =>
      rw [hallowed] at h
      cases h
      exact ⟨⟨htext, fun _ heq => by cases heq⟩, rfl⟩
    | some allowed =>
      rw [hallowed] at h
      obtain ⟨⟨⟩, hknown, h⟩ := Except.bind_eq_ok.mp h
      cases h
      refine ⟨⟨htext, fun _ heq => ?_⟩, rfl⟩
      cases heq
      exact rejectUnknown_eq_ok.mp hknown
  · rintro ⟨⟨htext, hknown⟩, rfl⟩
    refine Except.bind_eq_ok.mpr ⟨(), reject_eq_ok.mpr ?_, ?_⟩
    · rw [textKeys_eq_true.mpr htext]
      exact Bool.false_ne_true.symm
    · cases hallowed : allowedKeys path with
      | none => rfl
      | some allowed =>
        exact Except.bind_eq_ok.mpr ⟨(), rejectUnknown_eq_ok.mpr (hknown allowed hallowed), rfl⟩

theorem checkChildren_eq_ok {path : Str} {fields : List (Key × Yaml)} {u : Unit} :
    checkChildren path fields = .ok u ↔
      ∀ field ∈ fields, checkChild (childPath path field.1.shown) field.2 = .ok () := by
  induction fields with
  | nil => exact iff_of_true rfl fun _ h => absurd h List.not_mem_nil
  | cons field fields ih =>
    obtain ⟨key, child⟩ := field
    rw [List.forall_mem_cons, ← ih, checkChildren]
    constructor
    · intro h
      obtain ⟨⟨⟩, hchild, h⟩ := Except.bind_eq_ok.mp h
      exact ⟨hchild, h⟩
    · rintro ⟨hchild, h⟩
      exact Except.bind_eq_ok.mpr ⟨(), hchild, h⟩

/-- A mapping passes when its keys are known and, in a section that has known keys, its children
pass. -/
theorem checkChild_dict {path : Str} (hpath : path ≠ str "secret_providers")
    {fields : List (Key × Yaml)} : checkChild path (.dict fields) = .ok () ↔
      (∀ key ∈ fields.map Prod.fst, KnownKeys path key) ∧ ((allowedKeys path).isSome = true →
        ∀ field ∈ fields, checkChild (childPath path field.1.shown) field.2 = .ok ()) := by
  rw [checkChild, ← checkChildren_eq_ok (u := ())]
  constructor
  · intro h
    obtain ⟨b, hkeys, h⟩ := Except.bind_eq_ok.mp h
    obtain ⟨hknown, rfl⟩ := (checkKeys_eq_ok hpath).mp hkeys
    refine ⟨hknown, fun hsome => ?_⟩
    rwa [if_pos hsome] at h
  · rintro ⟨hkeys, h⟩
    refine Except.bind_eq_ok.mpr ⟨_, (checkKeys_eq_ok hpath).mpr ⟨hkeys, rfl⟩, ?_⟩
    split
    · next hsome => exact h hsome
    · rfl

theorem childPath_ne_nil {path key : Str} (h : path ≠ []) : childPath path key ≠ [] := by
  rw [childPath, if_neg h, List.append_assoc]
  exact List.append_ne_nil_of_left_ne_nil h _

/-- The path of a section inside a section has a dot. -/
theorem childPath_ne_providers {path key : Str} (h : path ≠ []) :
    childPath path key ≠ str "secret_providers" := by
  intro heq
  have hdot : cp '.' ∈ childPath path key := by
    rw [childPath, if_neg h]
    exact List.mem_append_left _ (List.mem_append_right _ List.mem_cons_self)
  rw [heq] at hdot
  exact absurd hdot (by decide)

/-- Merged values have known keys when the two values have. -/
theorem checkChild_mergeValue {path : Str} (hnil : path ≠ [])
    (hproviders : path ≠ str "secret_providers") {old v : Yaml} (hold : old.Distinct)
    (hv : v.Distinct) (hcheck : checkChild path old = .ok ()) (hcheck' : checkChild path v = .ok ()) :
    checkChild path (mergeValue (some old) v) = .ok () := by
  induction v using Yaml.parts_induction generalizing old path with
  | hdict fields ih =>
    cases old with
    | dict d =>
      obtain ⟨hkeys, hfields⟩ := (checkChild_dict hproviders).mp hcheck
      obtain ⟨hkeys', hfields'⟩ := (checkChild_dict hproviders).mp hcheck'
      rw [mergeValue_dict]
      refine (checkChild_dict hproviders).mpr ⟨fun key hkey => ?_, fun hsome field hfield => ?_⟩
      · rw [mergeItems_eq, Dict.keys_mergeWith hv.keys] at hkey
        rcases List.mem_append.mp hkey with hkey | hkey
        · exact hkeys key hkey
        · exact hkeys' key (List.mem_filter.mp hkey).1
      · rcases mem_mergeItems hold.keys hv.keys hfield with hfield | ⟨w, hw, heq⟩
        · exact hfields hsome field hfield
        · rw [heq]
          have hw' := hfields' hsome _ hw
          cases hget : Dict.get d field.1 with
          | none => rwa [mergeValue_of_not_dict fun _ heq => by cases heq]
          | some w' =>
            have hmem := Dict.mem_of_get hget
            exact ih _ hw (childPath_ne_nil hnil) (childPath_ne_providers hnil) (hold.field hmem)
              (hv.field hw) (hfields hsome _ hmem) hw'
    | null | bool | int | float | string | list | other => exact hcheck'
  | hlist elements => exact hcheck'
  | hleaf v hdict =>
    cases v with
    | dict fields => exact absurd rfl (hdict fields)
    | null | bool | int | float | string | list | other => exact hcheck'

/-! ## The whole document -/

theorem rejectInlineSecrets_defaults : rejectInlineSecrets [] (.dict defaults) = .ok () := by
  decide +kernel

theorem checkChild_defaults : checkChild [] (.dict defaults) = .ok () := by
  decide +kernel

theorem mergeItems_nil {fields : List (Key × Yaml)} (h : Dict.KeysNodup fields) :
    mergeItems [] fields = fields := by
  rw [mergeItems_eq]
  refine Dict.ext_get (Dict.keysNodup_mergeWith List.nodup_nil) ?_ fun key _ => ?_
  · rw [Dict.keys_mergeWith h]
    exact List.filter_eq_self.mpr fun key _ => by simp
  · rw [Dict.get_mergeWith h]
    cases hget : Dict.get fields key with
    | none => rfl
    | some v => exact congrArg some (mergeValue_of_not_dict (fun _ heq => by cases heq) v)

variable {document : List (Key × Yaml)}

/-- The merged mapping has no secrets. -/
theorem rejectInlineSecrets_merged (hdoc : (Yaml.dict document).Distinct)
    (h : rejectInlineSecrets [] (.dict document) = .ok ()) :
    rejectInlineSecrets [] (.dict (mergeItems defaults document)) = .ok () := by
  refine rejectInlineSecrets_eq_ok.mpr fun key hkey => ?_
  rcases hasKey_mergeValue distinct_defaults hdoc hkey with hkey | hkey
  · exact rejectInlineSecrets_eq_ok.mp rejectInlineSecrets_defaults key hkey
  · exact rejectInlineSecrets_eq_ok.mp h key hkey

theorem root_ne_providers : ([] : Str) ≠ str "secret_providers" := by decide

theorem get_defaults_providers :
    Dict.get defaults (.text (str "secret_providers")) = some (.dict []) := rfl

theorem shown_ne_nil : ∀ field ∈ defaults, field.1.shown ≠ [] := by decide +kernel

/-- The merged mapping has known keys. -/
theorem checkChild_merged (hdoc : (Yaml.dict document).Distinct)
    (h : checkChild [] (.dict document) = .ok ()) :
    checkChild [] (.dict (mergeItems defaults document)) = .ok () := by
  obtain ⟨hkeys, hfields⟩ := (checkChild_dict root_ne_providers).mp checkChild_defaults
  obtain ⟨hkeys', hfields'⟩ := (checkChild_dict root_ne_providers).mp h
  refine (checkChild_dict root_ne_providers).mpr ⟨fun key hkey => ?_, fun hsome field hfield => ?_⟩
  · rw [mergeItems_eq, Dict.keys_mergeWith hdoc.keys] at hkey
    rcases List.mem_append.mp hkey with hkey | hkey
    · exact hkeys key hkey
    · exact hkeys' key (List.mem_filter.mp hkey).1
  rcases mem_mergeItems distinct_defaults.keys hdoc.keys hfield with hfield | ⟨v, hv, heq⟩
  · exact hfields hsome field hfield
  have hcheck := hfields' hsome _ hv
  rw [heq]
  cases hget : Dict.get defaults field.1 with
  | none => rwa [mergeValue_of_not_dict fun _ heq => by cases heq]
  | some old =>
    have hmem := Dict.mem_of_get hget
    by_cases hproviders : field.1.shown = str "secret_providers"
    · -- the default has no providers, so those of the document stay as they are
      obtain ⟨⟨s, hs⟩, -⟩ := hkeys _ (List.mem_map_of_mem hmem)
      simp only at hs
      rw [hs, Key.shown] at hproviders
      rw [hs, hproviders, get_defaults_providers] at hget
      cases hget
      cases v with
      | dict fields =>
        rw [mergeValue_dict, mergeItems_nil (hdoc.field hv).keys]
        exact hcheck
      | null | bool | int | float | string | list | other => exact hcheck
    · exact checkChild_mergeValue (shown_ne_nil _ hmem) hproviders (distinct_defaults.field hmem)
        (hdoc.field hv) (hfields hsome _ hmem) hcheck

theorem get_defaults_version : Dict.get defaults (.text (str "schema_version")) = none := rfl

/-- The version of the merged mapping is that of the document. -/
theorem get_version (hdoc : (Yaml.dict document).Distinct) :
    Dict.get (mergeItems defaults document) (.text (str "schema_version")) =
      Dict.get document (.text (str "schema_version")) := by
  rw [mergeItems_eq, Dict.get_mergeWith hdoc.keys, get_defaults_version, Option.or_none]
  cases Dict.get document (.text (str "schema_version")) with
  | none => rfl
  | some v => exact congrArg some (mergeValue_of_not_dict (fun _ heq => by cases heq) v)

end FieldDiscovery.Config
