import FieldDiscovery.Errors
import FieldDiscovery.Lib.Call
import Mathlib.Data.Rat.Defs

/-!
# Statements of the repository

What every repository call shares: binding its parameters, and `Repository.transaction`.
-/

namespace FieldDiscovery.Repository

open Py

/-- A parameter of a statement, and a value of a column. -/
inductive Value where
  | null
  | integer (n : Int)
  | real (q : ℚ)
  | text (s : Str)
  deriving DecidableEq

/-- The parameter that stands for an optional text. -/
def Value.ofText : Option Str → Value
  | none => .null
  | some s => .text s

/-- `sqlite3` takes 64-bit integers, and text that has a UTF-8 form. -/
def Value.check : Value → Except Exc Unit
  | .null | .real _ => .ok ()
  | .integer n => if -2 ^ 63 ≤ n ∧ n < 2 ^ 63 then .ok () else .error .overflow
  | .text s => if Encodable s then .ok () else .error .unicodeEncode

/-- Binding the parameters of a statement, in their order. -/
def bind (values : List Value) : Except Exc Unit := values.forM Value.check

theorem bind_eq_ok {values : List Value} :
    bind values = .ok () ↔ ∀ v ∈ values, v.check = .ok () := by
  induction values with
  | nil => simp [bind, pure, Except.pure]
  | cons v values ih =>
    have hcons : bind (v :: values) = (v.check >>= fun _ => bind values) := by
      simp [bind]
    rw [hcons, List.forall_mem_cons, ← ih]
    cases hv : v.check with
    | ok u => exact ⟨fun h => ⟨rfl, h⟩, fun h => h.2⟩
    | error e =>
      refine iff_of_false (fun h => ?_) fun h => ?_
      · cases h
      · cases h.1

theorem check_text {s : Str} : (Value.text s).check = .ok () ↔ Encodable s := by
  unfold Value.check
  simp only
  split
  · next h => exact iff_of_true rfl h
  · next h => exact iff_of_false (by simp) h

/-- `Repository.transaction` around a body. -/
def transaction {σ α : Type} (body : Call (Sql.Connection σ) Exc α) :
    Call (Sql.Connection σ) Exc α :=
  Sql.transaction (.repository (str "nested repository transactions are not supported")) {} body

end FieldDiscovery.Repository
