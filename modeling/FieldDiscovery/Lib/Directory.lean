import FieldDiscovery.Lib.Call
import FieldDiscovery.Lib.Dict
import FieldDiscovery.Lib.Str

/-!
# A directory of regular files, call by call

A directory gives every name its content. A call that changes it keeps the state before it, so that a
program knows every state in which it may be cut off (`Traced.cut`).
-/

open List

namespace Py

namespace Dict

variable {κ α : Type*} [DecidableEq κ]

/-- `del d[k]` -/
def del : Dict κ α → κ → Dict κ α
  | [], _ => []
  | (k', a) :: d, k => if k' = k then d else (k', a) :: del d k

theorem del_sublist (d : Dict κ α) (k : κ) : (d.del k).Sublist d := by
  induction d with
  | nil => exact .refl []
  | cons p d ih =>
    unfold del
    split
    · exact sublist_cons_self ..
    · exact ih.cons_cons _

theorem KeysNodup.del {d : Dict κ α} (hd : d.KeysNodup) (k : κ) : (d.del k).KeysNodup :=
  Nodup.sublist ((del_sublist d k).map _) hd

theorem get_del {d : Dict κ α} (hd : d.KeysNodup) (k k' : κ) :
    (d.del k).get k' = if k = k' then none else d.get k' := by
  induction d with
  | nil => simp [Dict.del, get]
  | cons p d ih =>
    obtain ⟨k₁, a⟩ := p
    unfold KeysNodup at hd
    rw [map_cons, nodup_cons] at hd
    by_cases hk : k₁ = k
    · subst hk
      by_cases hk' : k₁ = k'
      · subst hk'
        simpa [Dict.del] using get_eq_none.mpr hd.1
      · simp [Dict.del, get, hk']
    · by_cases hk' : k₁ = k'
      · subst hk'
        simp [Dict.del, get, hk, Ne.symm hk]
      · simp [Dict.del, get, hk, hk', ih hd.2]

/-- An entry that is made and taken away again. -/
theorem del_set_self {d : Dict κ α} {k : κ} (h : d.get k = none) (a : α) : (d.set k a).del k = d := by
  induction d with
  | nil => simp [Dict.set, Dict.del]
  | cons p d ih =>
    obtain ⟨k', b⟩ := p
    by_cases hk : k' = k
    · simp [get, hk] at h
    · simp only [get, hk, if_false] at h
      simp only [Dict.set, Dict.del, hk, if_false, ih h]

theorem del_set_of_ne {d : Dict κ α} {k k' : κ} (h : k ≠ k') (a : α) :
    (d.set k a).del k' = (d.del k').set k a := by
  induction d with
  | nil => simp [Dict.set, Dict.del, h]
  | cons p d ih =>
    obtain ⟨k₁, b⟩ := p
    by_cases hk : k₁ = k
    · subst hk
      simp [Dict.set, Dict.del, h]
    · by_cases hk' : k₁ = k'
      · subst hk'
        simp [Dict.set, Dict.del, hk]
      · simp [Dict.set, Dict.del, hk, hk', ih]

theorem set_set (d : Dict κ α) (k : κ) (a b : α) : (d.set k a).set k b = d.set k b := by
  induction d with
  | nil => simp [Dict.set]
  | cons p d ih =>
    obtain ⟨k', c⟩ := p
    by_cases hk : k' = k
    · simp [Dict.set, hk]
    · simp [Dict.set, hk, ih]

end Dict

/-! ## States on the way -/

/-- A state, and the states before the changes that led to it. -/
structure Traced (S : Type) where
  current : S
  passed : List S

namespace Traced

variable {S : Type}

def start (s : S) : Traced S := ⟨s, []⟩

/-- One more change. -/
def next (t : Traced S) (s : S) : Traced S := ⟨s, t.passed ++ [t.current]⟩

/-- The state in which a program that stops after `n` changes leaves the system; `none` stops at its
end. -/
def cut (t : Traced S) : Option Nat → S
  | none => t.current
  | some n => t.passed[n]?.getD t.current

/-- Every state that a program passes through. -/
def states (t : Traced S) : List S := t.passed ++ [t.current]

theorem cut_mem (t : Traced S) (stop : Option Nat) : t.cut stop ∈ t.states := by
  unfold cut states
  cases stop with
  | none => exact mem_append_right _ mem_cons_self
  | some n =>
    simp only
    cases h : t.passed[n]? with
    | none => exact mem_append_right _ mem_cons_self
    | some s => exact mem_append_left _ (mem_of_getElem? h)

end Traced

/-! ## Calls -/

/-- A directory that holds regular files only. -/
abbrev Directory := Dict Str (List Byte)

/-- What a call raises when a name is taken, and when it is not there. -/
structure FileErrors (ε : Type) where
  taken : ε
  missing : ε

namespace Directory

section

variable {ε : Type} (errors : FileErrors ε)

/-- What the directory holds when the call begins. -/
def reads {α : Type} (f : Directory → Except ε α) : Call (Traced Directory) ε α :=
  fun t => (f t.current, t)

/-- `os.open(name, O_CREAT | O_EXCL)` -/
def openExclusive (name : Str) : Call (Traced Directory) ε Unit := fun t =>
  if (t.current.get name).isSome then (.error errors.taken, t)
  else (.ok (), t.next (t.current.set name []))

/-- The content of a file that is open for writing. -/
def fill (name : Str) (data : List Byte) : Call (Traced Directory) ε Unit := fun t =>
  (.ok (), t.next (t.current.set name data))

/-- `os.link(source, target)` -/
def link (source target : Str) : Call (Traced Directory) ε Unit := fun t =>
  match t.current.get source with
  | none => (.error errors.missing, t)
  | some data =>
    if (t.current.get target).isSome then (.error errors.taken, t)
    else (.ok (), t.next (t.current.set target data))

/-- `os.unlink(name)` -/
def unlink (name : Str) : Call (Traced Directory) ε Unit := fun t =>
  match t.current.get name with
  | none => (.error errors.missing, t)
  | some _ => (.ok (), t.next (t.current.del name))

/-- `os.stat(name)` -/
def stat (name : Str) : Call (Traced Directory) ε Unit :=
  reads fun d =>
    match d.get name with
    | none => .error errors.missing
    | some _ => .ok ()

variable {errors} {d : Directory} {passed : List Directory} {name source target : Str}
  {data : List Byte}

theorem openExclusive_taken (h : d.get name ≠ none) :
    openExclusive errors name ⟨d, passed⟩ = (.error errors.taken, ⟨d, passed⟩) :=
  if_pos (Option.isSome_iff_ne_none.mpr h)

theorem openExclusive_free (h : d.get name = none) :
    openExclusive errors name ⟨d, passed⟩ = (.ok (), ⟨d.set name [], passed ++ [d]⟩) := by
  unfold openExclusive
  simp only [h]
  rfl

theorem link_taken (hsource : d.get source = some data) (htarget : d.get target ≠ none) :
    link errors source target ⟨d, passed⟩ = (.error errors.taken, ⟨d, passed⟩) := by
  unfold link
  simp only [hsource]
  exact if_pos (Option.isSome_iff_ne_none.mpr htarget)

theorem link_free (hsource : d.get source = some data) (htarget : d.get target = none) :
    link errors source target ⟨d, passed⟩ = (.ok (), ⟨d.set target data, passed ++ [d]⟩) := by
  unfold link
  simp only [hsource, htarget]
  rfl

theorem unlink_present (h : d.get name = some data) :
    unlink errors name ⟨d, passed⟩ = (.ok (), ⟨d.del name, passed ++ [d]⟩) := by
  unfold unlink
  simp only [h]
  rfl

theorem stat_present (h : d.get name = some data) :
    stat errors name ⟨d, passed⟩ = (.ok (), ⟨d, passed⟩) := by
  unfold stat reads
  simp only [h]

theorem stat_missing (h : d.get name = none) :
    stat errors name ⟨d, passed⟩ = (.error errors.missing, ⟨d, passed⟩) := by
  unfold stat reads
  simp only [h]

end

end Directory

end Py
