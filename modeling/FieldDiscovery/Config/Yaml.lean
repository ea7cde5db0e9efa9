import FieldDiscovery.Errors
import FieldDiscovery.Lib.Dict
import FieldDiscovery.Lib.Except
import FieldDiscovery.Redaction.Redactor

/-!
# Parsed YAML

What `yaml.safe_load` returns, as far as `config.py` looks at it, with the operators of Python that
`config.py` applies. An operator that a value does not have raises.
-/

namespace FieldDiscovery.Config

open Py

/-- A key of a mapping. -/
inductive Key where
  | text (s : Str)
  /-- A Boolean or a number, with its `str`. -/
  | number (shown : Str) (value : ℚ)
  /-- Any other key, with its `str`. -/
  | other (shown : Str)
  deriving DecidableEq

/-- `str(key)` -/
def Key.shown : Key → Str
  | text s => s
  | number shown _ => shown
  | other shown => shown

/-- A value. -/
inductive Yaml where
  | null
  | bool (b : Bool)
  | int (n : Int)
  /-- `none` is `nan` or an infinity. -/
  | float (value : Option ℚ)
  | string (s : Str)
  | list (items : List Yaml)
  | dict (items : List (Key × Yaml))
  /-- A date, bytes, a set or a tuple. `size` is its length, if it can be iterated over. -/
  | other (hashable : Bool) (size : Option Nat)

/-- A mapping with keys written out. -/
def Yaml.fields (items : List (String × Yaml)) : Yaml :=
  .dict (items.map fun item => (.text (str item.1), item.2))

namespace Yaml

/-! ## Operators -/

/-- `bool(v)` -/
def truthy : Yaml → Bool
  | null => false
  | bool b => b
  | int n => n ≠ 0
  | float value => value ≠ some 0
  | string s => s ≠ []
  | list items => !items.isEmpty
  | dict items => !items.isEmpty
  | other _ size => size ≠ some 0

/-- `v == 1` -/
def isOne : Yaml → Bool
  | bool b => b
  | int n => n = 1
  | float value => value = some 1
  | _ => false

/-- `v[key]` for a `str` key. -/
def item (key : String) : Yaml → Except Exc Yaml
  | dict items => (Dict.get items (.text (str key))).elim (.error .key) .ok
  | _ => .error .type

/-- `v.get(key, default)` -/
def get (v : Yaml) (key : String) (default : Yaml) : Except Exc Yaml :=
  match v with
  | dict items => .ok ((Dict.get items (.text (str key))).getD default)
  | _ => .error .attribute

/-- `v.items()` -/
def items : Yaml → Except Exc (List (Key × Yaml))
  | dict items => .ok items
  | _ => .error .attribute

/-- `for item in v`. The items of an `other` value have none of the methods of a mapping. -/
def iterate : Yaml → Except Exc (List Yaml)
  | list items => .ok items
  | dict items => .ok (items.map fun item =>
      match item.1 with
      | .text s => string s
      | .number _ value => float (some value)
      | .other _ => other true none)
  | string s => .ok (s.map fun c => string [c])
  | other _ (some n) => .ok (List.replicate n (other true none))
  | _ => .error .type

/-- `v in options` for a set of strings. -/
def isOneOf (options : List String) : Yaml → Except Exc Bool
  | string s => .ok (decide (s ∈ options.map str))
  | list _ | dict _ | other false _ => .error .type
  | _ => .ok false

/-- `len(v)` of a list, for a value that is one. -/
def isList : Yaml → Bool
  | list _ => true
  | _ => false

end Yaml

/-! ## Errors -/

/-- `raise ConfigurationError(message)` -/
def configurationError {α : Type} (message : Str) : Except Exc α := .error (.configuration message)

/-- `if …: raise ConfigurationError(message)` -/
def reject (condition : Prop) [Decidable condition] (message : Str) : Except Exc Unit :=
  if condition then configurationError message else .ok ()

section

variable {condition : Prop} [Decidable condition] {message : Str}

theorem reject_eq_ok {u : Unit} : reject condition message = .ok u ↔ ¬ condition := by
  unfold reject
  split
  · next h => exact iff_of_false (fun heq => by cases heq) (not_not_intro h)
  · next h => exact iff_of_true rfl h

end

theorem forM_eq_ok {α : Type} {f : α → Except Exc Unit} {l : List α} {u : Unit} :
    l.forM f = .ok u ↔ ∀ a ∈ l, f a = .ok () := by
  induction l with
  | nil => exact iff_of_true rfl fun _ h => absurd h List.not_mem_nil
  | cons a l ih =>
    rw [List.forall_mem_cons, ← ih]
    constructor
    · intro h
      obtain ⟨⟨⟩, ha, h⟩ := Except.bind_eq_ok.mp h
      exact ⟨ha, h⟩
    · rintro ⟨ha, h⟩
      exact Except.bind_eq_ok.mpr ⟨(), ha, h⟩

namespace Yaml

variable {v w : Yaml} {key : String}

theorem item_dict (fields : List (Key × Yaml)) (key : String) : (dict fields).item key =
    (Dict.get fields (.text (str key))).elim (.error .key) .ok := rfl

theorem item_eq_ok : v.item key = .ok w ↔
    ∃ fields, v = .dict fields ∧ Dict.get fields (.text (str key)) = some w := by
  cases v with
  | dict fields =>
    constructor
    · intro h
      refine ⟨fields, rfl, ?_⟩
      rw [item_dict] at h
      cases hget : Dict.get fields (.text (str key)) with
      | none =>
        rw [hget] at h
        cases h
      | some v =>
        rw [hget] at h
        cases h
        rfl
    · rintro ⟨_, heq, hw⟩
      cases heq
      rw [item_dict, hw]
      rfl
  | null | bool | int | float | string | list | other =>
    refine iff_of_false (fun h => by cases h) ?_
    rintro ⟨_, heq, -⟩
    cases heq

theorem items_eq_ok {fields : List (Key × Yaml)} :
    v.items = .ok fields ↔ v = .dict fields := by
  cases v with
  | dict fields' =>
    constructor
    · intro h
      cases h
      rfl
    · intro h
      cases h
      rfl
  | null | bool | int | float | string | list | other =>
    exact iff_of_false (fun h => by cases h) fun h => by cases h

end Yaml

end FieldDiscovery.Config
