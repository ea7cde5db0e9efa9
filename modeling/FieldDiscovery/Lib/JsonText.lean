import FieldDiscovery.Lib.Json

/-!
# JSON texts in UTF-8

`json.dumps` of a value whose texts have a UTF-8 form has one as well, also when it leaves characters
outside ASCII as they are.
-/

namespace Py

theorem Encodable.append {s t : Str} (hs : Encodable s) (ht : Encodable t) : Encodable (s ++ t) :=
  List.forall_mem_append.mpr ⟨hs, ht⟩

theorem encodable_of_lt {s : Str} (h : ∀ c ∈ s, c.val < 128) : Encodable s := by
  intro c hc
  have := h c hc
  simp only [isSurrogate, Bool.and_eq_false_iff, decide_eq_false_iff_not]
  omega

theorem encodable_flatMap {α : Type} {f : α → Str} {l : List α} (h : ∀ a ∈ l, Encodable (f a)) :
    Encodable (l.flatMap f) := by
  intro c hc
  obtain ⟨a, ha, hc⟩ := List.mem_flatMap.mp hc
  exact h a ha c hc

theorem encodable_join {sep : Str} {parts : List Str} (hsep : Encodable sep)
    (h : ∀ s ∈ parts, Encodable s) : Encodable (join sep parts) := by
  induction parts with
  | nil => exact fun c hc => absurd hc List.not_mem_nil
  | cons s parts ih =>
    have hs := h s List.mem_cons_self
    have hrest := ih fun t ht => h t (List.mem_cons_of_mem _ ht)
    cases parts with
    | nil => simpa [join, List.intercalate] using hs
    | cons t rest =>
      have heq : join sep (s :: t :: rest) = s ++ (sep ++ join sep (t :: rest)) := by
        simp [join, List.intercalate, List.intersperse]
      rw [heq]
      exact hs.append (hsep.append hrest)

theorem encodable_natStr (n : Nat) : Encodable (natStr n) := by
  refine encodable_of_lt fun c hc => ?_
  have := List.all_eq_true.mp (natStr_digits n) c hc
  simp only [isDigit, Bool.and_eq_true, decide_eq_true_eq] at this
  omega

theorem encodable_intStr (n : Int) : Encodable (intStr n) := by
  unfold intStr
  split
  · exact Encodable.append (by decide) (encodable_natStr _)
  · exact encodable_natStr _

theorem hexDigit_lt (n : Nat) : (hexDigit n).val < 128 := by
  unfold hexDigit
  split
  · rw [Fin.val_ofNat]
    omega
  · rw [Fin.val_ofNat]
    omega

theorem encodable_unicodeEscape (n : Nat) : Encodable (unicodeEscape n) := by
  refine Encodable.append (by decide) (encodable_of_lt ?_)
  intro c hc
  simp only [List.mem_cons, List.not_mem_nil, or_false] at hc
  rcases hc with rfl | rfl | rfl | rfl <;> exact hexDigit_lt _

theorem encodable_escapeChar {ensureAscii : Bool} {c : CodePoint} (hc : isSurrogate c = false) :
    Encodable (escapeChar ensureAscii c) := by
  unfold escapeChar
  repeat' split
  all_goals first
    | exact Encodable.append (encodable_unicodeEscape _) (encodable_unicodeEscape _)
    | exact encodable_unicodeEscape _
    | exact fun d hd => List.mem_singleton.mp hd ▸ hc
    | decide

theorem encodable_quoted {ensureAscii : Bool} {s : Str} (hs : Encodable s) :
    Encodable (quoted ensureAscii s) :=
  (Encodable.append (by decide) (encodable_flatMap fun c hc => encodable_escapeChar (hs c hc))).append
    (by decide)

namespace Json

mutual

/-- Every text of the value has a UTF-8 form. -/
def Writable : Json → Prop
  | float repr => Encodable repr
  | nonFinite rendering => Encodable rendering
  | string s => Encodable s
  | list items => AreWritable items
  | dict items => FieldsWritable items
  | _ => True

def AreWritable : List Json → Prop
  | [] => True
  | v :: vs => Writable v ∧ AreWritable vs

def FieldsWritable : List (Str × Json) → Prop
  | [] => True
  | (k, v) :: rest => Encodable k ∧ Writable v ∧ FieldsWritable rest

end

section

variable {style : DumpStyle}

mutual

theorem encodable_dumps (hitem : Encodable style.itemSeparator)
    (hkey : Encodable style.keySeparator) : ∀ v : Json, v.Writable → Encodable (v.dumps style)
  | null, _ => by
    unfold dumps
    decide
  | bool b, _ => by
    unfold dumps
    cases b <;> decide
  | int n, _ => by
    unfold dumps
    exact encodable_intStr n
  | float _, h => by
    unfold dumps
    unfold Writable at h
    exact h
  | nonFinite _, h => by
    unfold dumps
    unfold Writable at h
    exact h
  | string _, h => by
    unfold dumps
    unfold Writable at h
    exact encodable_quoted h
  | list items, h => by
    unfold dumps
    unfold Writable at h
    have hitems := encodable_dumpsItems hitem hkey items h
    exact (Encodable.append (by decide) (encodable_join hitem hitems)).append (by decide)
  | dict items, h => by
    unfold dumps
    unfold Writable at h
    refine (Encodable.append (by decide) (encodable_join hitem ?_)).append (by decide)
    intro s hs
    obtain ⟨p, hp, rfl⟩ := List.mem_map.mp hs
    obtain ⟨hk, hv⟩ := encodable_dumpsFields hitem hkey items h p (mem_sortedBy.mp hp)
    exact ((encodable_quoted hk).append hkey).append hv

theorem encodable_dumpsItems (hitem : Encodable style.itemSeparator)
    (hkey : Encodable style.keySeparator) : ∀ vs : List Json, AreWritable vs →
      ∀ s ∈ dumpsItems style vs, Encodable s
  | [], _ => by
    unfold dumpsItems
    simp
  | v :: vs, h => by
    unfold dumpsItems
    unfold AreWritable at h
    intro s hs
    rcases List.mem_cons.mp hs with rfl | hs
    · exact encodable_dumps hitem hkey v h.1
    · exact encodable_dumpsItems hitem hkey vs h.2 s hs

theorem encodable_dumpsFields (hitem : Encodable style.itemSeparator)
    (hkey : Encodable style.keySeparator) : ∀ fields : List (Str × Json), FieldsWritable fields →
      ∀ p ∈ dumpsFields style fields, Encodable p.1 ∧ Encodable p.2
  | [], _ => by
    unfold dumpsFields
    simp
  | (k, v) :: rest, h => by
    unfold dumpsFields
    unfold FieldsWritable at h
    intro p hp
    rcases List.mem_cons.mp hp with rfl | hp
    · exact ⟨h.1, encodable_dumps hitem hkey v h.2.1⟩
    · exact encodable_dumpsFields hitem hkey rest h.2.2 p hp

end

end

theorem fieldsWritable_iff {fields : List (Str × Json)} :
    FieldsWritable fields ↔ ∀ p ∈ fields, Encodable p.1 ∧ p.2.Writable := by
  induction fields with
  | nil => simp [FieldsWritable]
  | cons p rest ih => simp [FieldsWritable, ih, and_assoc]

theorem fieldsFinite_iff {fields : List (Str × Json)} :
    fieldsFinite fields = true ↔ ∀ p ∈ fields, p.2.isFinite = true := by
  induction fields with
  | nil => simp [fieldsFinite]
  | cons p rest ih => simp [fieldsFinite, ih]

end Json

end Py
