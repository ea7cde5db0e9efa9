import FieldDiscovery.Lib.Raises
import FieldDiscovery.Redaction.Redactor

/-!
# When the redactor raises

`json.loads` on a key is all that can raise in `Redactor.text`. So the redactor returns exactly on the
texts in which every quoted key that its two patterns find is a JSON string (`text_returns`).
-/

open Except

namespace FieldDiscovery

open Py

/-! ## Substitutions -/

section Sub

variable {ε : Type} {p : Pattern} {f : List Str → Except ε Str}

/-- A substitution returns when every replacement does. -/
theorem subFrom_returns {skip offset : Nat} {prev : Option CodePoint} {s : Str} :
    (subFrom p f skip prev s).Returns ↔
      ∀ m ∈ findFrom p skip offset prev s, (f m.2).Returns := by
  induction s generalizing skip offset prev with
  | nil =>
    refine iff_of_true ?_ ?_
    · rw [subFrom]
      exact returns_ok _
    · rw [findFrom]
      rintro m ⟨⟩
  | cons c s ih =>
    cases skip with
    | succ skip =>
      rw [subFrom, findFrom]
      exact ih
    | zero =>
      rw [subFrom, findFrom]
      split
      · next pieces _ =>
        rw [returns_bind, List.forall_mem_cons, ← @ih _ (offset + 1)]
        simp only [returns_bind]
        constructor
        · rintro ⟨replacement, hreplacement, rest, hrest, -⟩
          exact ⟨⟨replacement, hreplacement⟩, rest, hrest⟩
        · rintro ⟨⟨replacement, hreplacement⟩, rest, hrest⟩
          exact ⟨replacement, hreplacement, rest, hrest, returns_ok _⟩
      · rw [returns_bind, ← @ih _ (offset + 1)]
        constructor
        · rintro ⟨rest, hrest, -⟩
          exact ⟨rest, hrest⟩
        · rintro ⟨rest, hrest⟩
          exact ⟨rest, hrest, returns_ok _⟩

theorem sub_returns {s : Str} :
    (sub p f s).Returns ↔ ∀ m ∈ finditer p s, (f m.2).Returns := subFrom_returns

theorem subFrom_raisesOnly {P : ε → Prop} (hf : ∀ pieces, RaisesOnly P (f pieces)) (skip : Nat)
    (prev : Option CodePoint) (s : Str) : RaisesOnly P (subFrom p f skip prev s) := by
  induction s generalizing skip prev with
  | nil =>
    rw [subFrom]
    exact raisesOnly_ok _
  | cons c s ih =>
    cases skip with
    | succ skip =>
      rw [subFrom]
      exact ih _ _
    | zero =>
      rw [subFrom]
      split
      · exact (hf _).bind fun _ _ => (ih _ _).bind fun _ _ => raisesOnly_ok _
      · exact (ih _ _).bind fun _ _ => raisesOnly_ok _

theorem findFrom_length {skip offset : Nat} {prev : Option CodePoint} {s : Str} {m : Nat × List Str}
    (h : m ∈ findFrom p skip offset prev s) : m.2.length = p.length := by
  induction s generalizing skip offset prev with
  | nil =>
    rw [findFrom] at h
    cases h
  | cons c s ih =>
    cases skip with
    | succ skip =>
      rw [findFrom] at h
      exact ih h
    | zero =>
      rw [findFrom] at h
      split at h
      · next pieces hpieces =>
        rcases List.mem_cons.mp h with rfl | h
        · obtain ⟨-, rest, hmatch, -⟩ := piecesAt_spec hpieces
          exact IsMatch.length ⟨prev, _, rest, hmatch⟩
        · exact ih h
      · exact ih h

end Sub

/-! ## Keys -/

namespace Redaction

variable (rt : Runtime) (r : Redactor)

/-- The keys of the JSON-like fields are JSON strings: those that stand in the text after the masking
of tokens, and then the escaped ones. -/
structure KeysDecode (t : Str) : Prop where
  plain : ∀ m ∈ finditer jsonField (r.maskTokens rt (r.replaceVariants t)),
    jsonLoadsString (m.2.getD 0 []) ≠ none
  escaped : ∀ s, sub jsonField (redactJsonAuthorization rt)
      (r.maskTokens rt (r.replaceVariants t)) = .ok s →
    ∀ m ∈ finditer escapedJsonField s, jsonLoadsString (unescapedKey (m.2.getD 0 [])) ≠ none

variable {rt r}

theorem redactJsonAuthorization_returns {pieces : List Str} (h : pieces.length = 3) :
    (redactJsonAuthorization rt pieces).Returns ↔ jsonLoadsString (pieces.getD 0 []) ≠ none := by
  match pieces, h with
  | [key, separator, value], _ =>
    change (redactJsonAuthorization rt [key, separator, value]).Returns ↔ jsonLoadsString key ≠ none
    simp only [redactJsonAuthorization]
    cases hkey : jsonLoadsString key with
    | none => simp
    | some name =>
      simp only [ne_eq, reduceCtorEq, not_false_eq_true, iff_true]
      split
      · exact returns_ok _
      · exact returns_ok _

theorem redactEscapedJsonAuthorization_returns {pieces : List Str} (h : pieces.length = 3) :
    (redactEscapedJsonAuthorization rt pieces).Returns ↔
      jsonLoadsString (unescapedKey (pieces.getD 0 [])) ≠ none := by
  match pieces, h with
  | [key, separator, value], _ =>
    change (redactEscapedJsonAuthorization rt [key, separator, value]).Returns ↔
      jsonLoadsString (unescapedKey key) ≠ none
    simp only [redactEscapedJsonAuthorization]
    cases hkey : jsonLoadsString (unescapedKey key) with
    | none => simp
    | some name =>
      simp only [ne_eq, reduceCtorEq, not_false_eq_true, iff_true]
      split
      · exact returns_ok _
      · exact returns_ok _

theorem Redactor.text_returns {t : Str} : (r.text rt t).Returns ↔ KeysDecode rt r t := by
  unfold Redactor.text
  simp only [returns_bind]
  constructor
  · rintro ⟨s, hs, u, hu, -⟩
    refine ⟨fun m hm => ?_, fun s' hs' m hm => ?_⟩
    · exact (redactJsonAuthorization_returns (findFrom_length hm)).mp (sub_returns.mp ⟨s, hs⟩ m hm)
    · obtain rfl : s = s' := Except.ok.inj (hs.symm.trans hs')
      exact (redactEscapedJsonAuthorization_returns (findFrom_length hm)).mp
        (sub_returns.mp ⟨u, hu⟩ m hm)
  · intro h
    obtain ⟨s, hs⟩ : (sub jsonField (redactJsonAuthorization rt)
        (r.maskTokens rt (r.replaceVariants t))).Returns :=
      sub_returns.mpr fun m hm =>
        (redactJsonAuthorization_returns (findFrom_length hm)).mpr (h.plain m hm)
    obtain ⟨u, hu⟩ : (sub escapedJsonField (redactEscapedJsonAuthorization rt) s).Returns :=
      sub_returns.mpr fun m hm =>
        (redactEscapedJsonAuthorization_returns (findFrom_length hm)).mpr (h.escaped s hs m hm)
    exact ⟨s, hs, u, hu, returns_ok _⟩

/-- The redactor raises nothing but the error of a key that is no JSON. -/
theorem Redactor.text_raisesOnly (rt : Runtime) (r : Redactor) (t : Str) :
    RaisesOnly (· = Exc.jsonDecode) (r.text rt t) := by
  have hplain : ∀ pieces, RaisesOnly (· = Exc.jsonDecode) (redactJsonAuthorization rt pieces) := by
    intro pieces
    unfold redactJsonAuthorization
    repeat' split
    · exact raisesOnly_error.mpr rfl
    all_goals exact raisesOnly_ok _
  have hescaped : ∀ pieces,
      RaisesOnly (· = Exc.jsonDecode) (redactEscapedJsonAuthorization rt pieces) := by
    intro pieces
    unfold redactEscapedJsonAuthorization
    repeat' split
    · exact raisesOnly_error.mpr rfl
    all_goals exact raisesOnly_ok _
  exact (subFrom_raisesOnly hplain _ _ _).bind fun _ _ =>
    (subFrom_raisesOnly hescaped _ _ _).bind fun _ _ => raisesOnly_ok _

end Redaction

end FieldDiscovery
