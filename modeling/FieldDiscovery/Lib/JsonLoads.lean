import FieldDiscovery.Lib.Dict
import FieldDiscovery.Lib.JsonText
import FieldDiscovery.Lib.Literal
import FieldDiscovery.Lib.Number

/-!
# Reading JSON

`json.loads`. A number with a fraction or an exponent becomes a `float`, whose `repr` is a parameter.
An object is read field by field, and a later field of one name replaces an earlier one.

`loads_object` reads back what `json.dumps` writes in the compact style for an object of strings and
natural numbers. The writer escapes every surrogate and the reader joins two that stand together
(`joinPairs`), so a string survives when no high surrogate is followed by a low one (`IsPaired`).
-/

namespace Py

/-! ## Numbers -/

/-- `-?(?:0|[1-9][0-9]*)` at the front. -/
def jsonInteger (s : Str) : Option (Str × Str) :=
  let (sign, s) := if s.head? = some (cp '-') then ([cp '-'], s.tail) else ([], s)
  match s with
  | [] => none
  | c :: rest =>
    if c = cp '0' then some (sign ++ [c], rest)
    else if isDigit c then some (sign ++ (c :: rest).takeWhile isDigit, (c :: rest).dropWhile isDigit)
    else none

/-- `(\.[0-9]+)?` at the front. -/
def jsonFraction (s : Str) : Str × Str :=
  let digits := s.tail.takeWhile isDigit
  if s.head? = some (cp '.') ∧ digits ≠ [] then (cp '.' :: digits, s.tail.dropWhile isDigit)
  else ([], s)

/-- `([eE][-+]?[0-9]+)?` at the front. -/
def jsonExponent (s : Str) : Str × Str :=
  let signed := s.tail.head? = some (cp '-') ∨ s.tail.head? = some (cp '+')
  let front := if signed then s.take 2 else s.take 1
  let rest := s.drop front.length
  let digits := rest.takeWhile isDigit
  if (s.head? = some (cp 'e') ∨ s.head? = some (cp 'E')) ∧ digits ≠ [] then
    (front ++ digits, rest.dropWhile isDigit)
  else ([], s)

/-- `int(text)` of a JSON integer; `none` is `ValueError`. -/
def jsonInt (s : Str) : Option Int :=
  let digits := if s.head? = some (cp '-') then s.tail else s
  if maxIntDigits < digits.length then none
  else if s.head? = some (cp '-') then some (-(decimal digits : Int))
  else some (decimal digits)

section

variable (floatRepr : Str → Str)

/-- A number at the front, with what follows it. -/
def jsonNumber (s : Str) : Option (Json × Str) := do
  let (integer, rest) ← jsonInteger s
  let (fraction, rest) := jsonFraction rest
  let (exponent, rest) := jsonExponent rest
  if fraction = [] ∧ exponent = [] then
    let n ← jsonInt integer
    some (.int n, rest)
  else some (.float (floatRepr (integer ++ fraction ++ exponent)), rest)

/-! ## Values -/

/-- `WHITESPACE.match(s, end).end()` -/
def skipSpace (s : Str) : Str := s.dropWhile isJsonSpace

/-- A number, or one of the constants that the number pattern does not match. -/
def jsonScalar (s : Str) : Option (Json × Str) :=
  if str "null" <+: s then some (.null, s.drop 4)
  else if str "true" <+: s then some (.bool true, s.drop 4)
  else if str "false" <+: s then some (.bool false, s.drop 5)
  else
    match jsonInteger s with
    | some _ => jsonNumber floatRepr s
    | none =>
      if str "NaN" <+: s then some (.nonFinite (str "NaN"), s.drop 3)
      else if str "Infinity" <+: s then some (.nonFinite (str "Infinity"), s.drop 8)
      else if str "-Infinity" <+: s then some (.nonFinite (str "-Infinity"), s.drop 9)
      else none

mutual

/-- The value at the front of a text, with what follows it. -/
def jsonValue : Nat → Str → Option (Json × Str)
  | 0, _ => none
  | _, [] => none
  | fuel + 1, c :: s =>
    if c = cp '"' then (jsonString (s.length + 1) s).map fun m => (.string m.1, m.2)
    else if c = cp '\x7b' then
      if (skipSpace s).head? = some (cp '\x7d') then some (.dict [], (skipSpace s).tail)
      else (jsonFields fuel (skipSpace s)).map fun m =>
        (.dict (m.1.foldl (fun d field => Dict.set d field.1 field.2) []), m.2)
    else if c = cp '[' then
      if (skipSpace s).head? = some (cp ']') then some (.list [], (skipSpace s).tail)
      else (jsonItems fuel (skipSpace s)).map fun m => (.list m.1, m.2)
    else jsonScalar floatRepr (c :: s)

/-- The fields of an object from one of its keys on. -/
def jsonFields : Nat → Str → Option (List (Str × Json) × Str)
  | 0, _ => none
  | _, [] => none
  | fuel + 1, c :: s =>
    if c = cp '"' then do
      let (key, s) ← jsonString (s.length + 1) s
      if (skipSpace s).head? = some (cp ':') then
        let (value, s) ← jsonValue fuel (skipSpace (skipSpace s).tail)
        match skipSpace s with
        | [] => none
        | d :: s =>
          if d = cp '\x7d' then some ([(key, value)], s)
          else if d = cp ',' then do
            let (fields, s) ← jsonFields fuel (skipSpace s)
            some ((key, value) :: fields, s)
          else none
      else none
    else none

/-- The items of an array from one of them on. -/
def jsonItems : Nat → Str → Option (List Json × Str)
  | 0, _ => none
  | fuel + 1, s => do
    let (value, s) ← jsonValue fuel s
    match skipSpace s with
    | [] => none
    | d :: s =>
      if d = cp ']' then some ([value], s)
      else if d = cp ',' then do
        let (items, s) ← jsonItems fuel (skipSpace s)
        some (value :: items, s)
      else none

end

/-- `json.loads(text)`; `none` is `JSONDecodeError`. -/
def Json.loads (text : Str) : Option Json :=
  match jsonValue floatRepr (text.length + 1) (skipSpace text) with
  | some (value, rest) => if skipSpace rest = [] then some value else none
  | none => none

end

/-! ## Strings -/

def isHighSurrogate (c : CodePoint) : Bool := 0xD800 ≤ c.val && c.val ≤ 0xDBFF

def isLowSurrogate (c : CodePoint) : Bool := 0xDC00 ≤ c.val && c.val ≤ 0xDFFF

/-- No high surrogate stands before a low one. -/
def IsPaired (s : Str) : Prop :=
  s.IsChain fun c d => ¬ (isHighSurrogate c = true ∧ isLowSurrogate d = true)

instance (s : Str) : Decidable (IsPaired s) := inferInstanceAs (Decidable (List.IsChain _ s))

/-- The text with every such pair as one character. -/
def joinPairs : Str → Str
  | [] => []
  | [c] => [c]
  | c :: d :: s =>
    if isHighSurrogate c = true ∧ isLowSurrogate d = true then joinSurrogates c d :: joinPairs s
    else c :: joinPairs (d :: s)

theorem hexDigit_val (n : Nat) : (hexDigit n).val = if n % 16 < 10 then 48 + n % 16 else
    87 + n % 16 := by
  unfold hexDigit
  split <;> rw [Fin.val_ofNat] <;> omega

theorem isHex_hexDigit (n : Nat) : isHex (hexDigit n) = true := by
  have hval := hexDigit_val n
  simp only [isHex, isDigit, Bool.or_eq_true, Bool.and_eq_true, decide_eq_true_eq]
  split at hval <;> omega

theorem hexValue_hexDigit (n : Nat) : hexValue (hexDigit n) = n % 16 := by
  have hval := hexDigit_val n
  unfold hexValue
  simp only [isDigit, isLower, Bool.and_eq_true, decide_eq_true_eq]
  by_cases h : n % 16 < 10
  · rw [if_pos h] at hval
    rw [if_pos (by omega)]
    omega
  · rw [if_neg h] at hval
    rw [if_neg (by omega), if_pos (by omega)]
    omega

theorem hexCodePoint_escape {n : Nat} (h : n < 65536) : ∃ hn,
    hexCodePoint [hexDigit (n / 4096), hexDigit (n / 256), hexDigit (n / 16), hexDigit n] =
      some ⟨n, hn⟩ := by
  have hnumber : hexNumber [hexDigit (n / 4096), hexDigit (n / 256), hexDigit (n / 16),
      hexDigit n] = n := by
    simp only [hexNumber, List.foldl_cons, List.foldl_nil, hexValue_hexDigit]
    omega
  refine ⟨by omega, ?_⟩
  unfold hexCodePoint
  rw [dif_pos ⟨by simp, by simp [isHex_hexDigit], by omega⟩]
  exact congrArg some (Fin.ext hnumber)

/-- How a character is written in ASCII. -/
theorem escapeChar_cases (c : CodePoint) :
    (∃ d, escapeChar true c = [cp '\\', d] ∧ d ≠ cp 'u' ∧ jsonEscape d = some c) ∨
    (escapeChar true c = [c] ∧ (32 ≤ c.val ∧ c.val < 127) ∧ c ≠ cp '"' ∧ c ≠ cp '\\') ∨
    (escapeChar true c = unicodeEscape c.val ∧ c.val < 65536) ∨
    65536 ≤ c.val ∧ escapeChar true c = unicodeEscape (0xD800 + (c.val - 0x10000) / 0x400) ++
      unicodeEscape (0xDC00 + (c.val - 0x10000) % 0x400) := by
  unfold escapeChar
  by_cases hquote : c = cp '"'
  · exact Or.inl ⟨cp '"', if_pos hquote, by decide, by rw [hquote]; decide⟩
  rw [if_neg hquote]
  by_cases hback : c = cp '\\'
  · exact Or.inl ⟨cp '\\', if_pos hback, by decide, by rw [hback]; decide⟩
  rw [if_neg hback]
  by_cases hn : c = cp '\n'
  · exact Or.inl ⟨cp 'n', if_pos hn, by decide, by rw [hn]; decide⟩
  rw [if_neg hn]
  by_cases hr : c = cp '\r'
  · exact Or.inl ⟨cp 'r', if_pos hr, by decide, by rw [hr]; decide⟩
  rw [if_neg hr]
  by_cases ht : c = cp '\t'
  · exact Or.inl ⟨cp 't', if_pos ht, by decide, by rw [ht]; decide⟩
  rw [if_neg ht]
  by_cases hf : c.val = 12
  · have hc : c = cp '\x0c' := Fin.ext hf
    exact Or.inl ⟨cp 'f', if_pos hf, by decide, by rw [hc]; decide⟩
  rw [if_neg hf]
  by_cases hb : c.val = 8
  · have hc : c = cp '\x08' := Fin.ext hb
    exact Or.inl ⟨cp 'b', if_pos hb, by decide, by rw [hc]; decide⟩
  rw [if_neg hb]
  by_cases hcontrol : c.val < 32
  · exact Or.inr (Or.inr (Or.inl ⟨if_pos hcontrol, by omega⟩))
  rw [if_neg hcontrol]
  by_cases hascii : c.val < 127
  · exact Or.inr (Or.inl ⟨if_pos (Or.inl hascii), ⟨by omega, hascii⟩, hquote, hback⟩)
  rw [if_neg (by simpa using hascii)]
  by_cases hbasic : c.val < 0x10000
  · exact Or.inr (Or.inr (Or.inl ⟨if_pos hbasic, hbasic⟩))
  · exact Or.inr (Or.inr (Or.inr ⟨by omega, if_neg hbasic⟩))

/-- The code unit that an escape at the front of a text stands for. -/
def escapedUnit (s : Str) : Option CodePoint :=
  if s.take 2 = str "\\u" then hexCodePoint ((s.drop 2).take 4) else none

theorem unicodeEscape_length (n : Nat) : (unicodeEscape n).length = 6 := rfl

theorem escapedUnit_unicodeEscape {n : Nat} (h : n < 65536) (s : Str) :
    ∃ hn, escapedUnit (unicodeEscape n ++ s) = some ⟨n, hn⟩ := by
  obtain ⟨hn, hcode⟩ := hexCodePoint_escape h
  exact ⟨hn, hcode⟩

/-- The characters before a closing quotation mark do not begin with the escape of a low surrogate
unless they begin with one. -/
theorem escapedUnit_not_low {s rest : Str} (h : ∀ d ∈ s.head?, isLowSurrogate d = false)
    {low : CodePoint}
    (hlow : escapedUnit (s.flatMap (escapeChar true) ++ cp '"' :: rest) = some low) :
    isLowSurrogate low = false := by
  cases s with
  | nil =>
    unfold escapedUnit at hlow
    rw [if_neg] at hlow
    · cases hlow
    · intro heq
      exact absurd (congrArg List.head? heq) (by simp [str, cp])
  | cons d s =>
    have hd := h d rfl
    rw [List.flatMap_cons, List.append_assoc] at hlow
    rcases escapeChar_cases d with ⟨e, he, hu, -⟩ | ⟨he, -, -, hback⟩ | ⟨he, hlt⟩ | ⟨hge, he⟩
    · rw [he] at hlow
      unfold escapedUnit at hlow
      rw [if_neg] at hlow
      · cases hlow
      · intro heq
        exact hu (List.cons.inj (List.cons.inj heq).2).1
    · rw [he] at hlow
      unfold escapedUnit at hlow
      rw [if_neg] at hlow
      · cases hlow
      · intro heq
        exact hback (Option.some.inj (congrArg List.head? heq))
    · rw [he] at hlow
      obtain ⟨hn, hunit⟩ := escapedUnit_unicodeEscape hlt
        (s.flatMap (escapeChar true) ++ cp '"' :: rest)
      rw [hunit] at hlow
      cases hlow
      exact hd
    · have hd' := d.isLt
      rw [he, List.append_assoc] at hlow
      obtain ⟨hn, hunit⟩ := escapedUnit_unicodeEscape
        (show 0xD800 + (d.val - 0x10000) / 0x400 < 65536 by omega)
        (unicodeEscape (0xDC00 + (d.val - 0x10000) % 0x400) ++
          (s.flatMap (escapeChar true) ++ cp '"' :: rest))
      rw [hunit] at hlow
      cases hlow
      unfold isLowSurrogate
      simp only [Bool.and_eq_false_iff, decide_eq_false_iff_not]
      omega

theorem jsonString_quote (fuel : Nat) (s : Str) :
    jsonString (fuel + 1) (cp '"' :: s) = some ([], s) := by
  unfold jsonString
  exact if_pos rfl

theorem jsonString_plain {c : CodePoint} (hlow : 32 ≤ c.val) (hquote : c ≠ cp '"')
    (hback : c ≠ cp '\\') (fuel : Nat) (s : Str) :
    jsonString (fuel + 1) (c :: s) = (jsonString fuel s).map fun m => (c :: m.1, m.2) := by
  conv => lhs; unfold jsonString
  simp only
  rw [if_neg hquote, if_neg (by omega), if_pos hback]

theorem jsonString_letter {c d : CodePoint} (hu : d ≠ cp 'u') (h : jsonEscape d = some c)
    (fuel : Nat) (s : Str) : jsonString (fuel + 1) (cp '\\' :: d :: s) =
      (jsonString fuel s).map fun m => (c :: m.1, m.2) := by
  conv => lhs; unfold jsonString
  simp only
  rw [if_neg (by decide), if_neg (by decide), if_neg (by decide), if_neg hu, h]
  cases jsonString fuel s <;> rfl

/-- An escape of a code unit, which joins with the low surrogate after it when it is a high one. -/
theorem jsonString_unit {c : CodePoint} (hc : c.val < 65536) (s : Str) (fuel : Nat) :
    jsonString (fuel + 1) (unicodeEscape c.val ++ s) =
      match (escapedUnit s).filter fun low => decide (0xD800 ≤ c.val ∧ c.val ≤ 0xDBFF ∧
          6 ≤ s.length ∧ 0xDC00 ≤ low.val ∧ low.val ≤ 0xDFFF) with
      | some low => (jsonString fuel (s.drop 6)).map fun m => (joinSurrogates c low :: m.1, m.2)
      | none => (jsonString fuel s).map fun m => (c :: m.1, m.2) := by
  obtain ⟨hn, hcode⟩ := hexCodePoint_escape hc
  have htext : unicodeEscape c.val ++ s = cp '\\' :: cp 'u' :: ([hexDigit (c.val / 4096),
      hexDigit (c.val / 256), hexDigit (c.val / 16), hexDigit c.val] ++ s) := rfl
  rw [htext]
  conv => lhs; unfold jsonString
  simp only
  rw [if_neg (by decide), if_neg (by decide), if_neg (by decide), if_pos trivial, if_pos (by simp),
    List.take_left' (i := 4) rfl, List.drop_left' (i := 4) rfl, hcode]
  simp only [Option.bind_eq_bind, Option.bind_some]
  unfold escapedUnit
  cases Option.filter _ (if s.take 2 = str "\\u" then hexCodePoint ((s.drop 2).take 4) else none) with
  | none => cases jsonString fuel s <;> rfl
  | some low => cases jsonString fuel (s.drop 6) <;> rfl

theorem jsonString_single {c : CodePoint} (hc : c.val < 65536) {s : Str}
    (hjoin : isHighSurrogate c = true → ∀ low, escapedUnit s = some low →
      isLowSurrogate low = false) (fuel : Nat) :
    jsonString (fuel + 1) (unicodeEscape c.val ++ s) =
      (jsonString fuel s).map fun m => (c :: m.1, m.2) := by
  have hnone : (escapedUnit s).filter (fun low => decide (0xD800 ≤ c.val ∧ c.val ≤ 0xDBFF ∧
      6 ≤ s.length ∧ 0xDC00 ≤ low.val ∧ low.val ≤ 0xDFFF)) = none := by
    rw [Option.filter_eq_none_iff]
    intro low hlow hall
    simp only [decide_eq_true_eq] at hall
    have hnot := hjoin (by simp [isHighSurrogate, hall.1, hall.2.1]) low hlow
    simp only [isLowSurrogate, Bool.and_eq_false_iff, decide_eq_false_iff_not] at hnot
    omega
  rw [jsonString_unit hc, hnone]

/-- Two escapes of a character outside the basic plane. -/
theorem jsonString_pair {c : CodePoint} (hc : 65536 ≤ c.val) (fuel : Nat) (s : Str) :
    jsonString (fuel + 1) (unicodeEscape (0xD800 + (c.val - 0x10000) / 0x400) ++
      (unicodeEscape (0xDC00 + (c.val - 0x10000) % 0x400) ++ s)) =
      (jsonString fuel s).map fun m => (c :: m.1, m.2) := by
  have hlt := c.isLt
  obtain ⟨hlow, hunit⟩ := escapedUnit_unicodeEscape
    (show 0xDC00 + (c.val - 0x10000) % 0x400 < 65536 by omega) s
  have hhigh : 0xD800 + (c.val - 0x10000) / 0x400 < 0x110000 := by omega
  have hjoin : joinSurrogates ⟨_, hhigh⟩ ⟨_, hlow⟩ = c := by
    refine Fin.ext ?_
    unfold joinSurrogates
    rw [Fin.val_ofNat]
    simp only
    omega
  have hstep := jsonString_unit (c := ⟨_, hhigh⟩) (by simp only; omega)
    (unicodeEscape (0xDC00 + (c.val - 0x10000) % 0x400) ++ s) fuel
  rw [hunit, Option.filter_some, if_pos] at hstep
  · simp only [hjoin] at hstep
    exact hstep
  · simp only [decide_eq_true_eq, List.length_append, unicodeEscape_length]
    omega

/-- An escaped character that does not join with what follows. -/
theorem jsonString_escapeChar {c : CodePoint} {s : Str}
    (h : isHighSurrogate c = true → ∀ d ∈ s.head?, isLowSurrogate d = false) (rest : Str)
    (fuel : Nat) :
    jsonString (fuel + 1) (escapeChar true c ++ (s.flatMap (escapeChar true) ++ cp '"' :: rest)) =
      (jsonString fuel (s.flatMap (escapeChar true) ++ cp '"' :: rest)).map
        fun m => (c :: m.1, m.2) := by
  rcases escapeChar_cases c with ⟨e, he, hu, hletter⟩ | ⟨he, hlow, hquote, hback⟩ | ⟨he, hlt⟩ |
    ⟨hge, he⟩
  · rw [he, List.cons_append, List.cons_append, List.nil_append, jsonString_letter hu hletter]
  · rw [he, List.cons_append, List.nil_append, jsonString_plain hlow.1 hquote hback]
  · rw [he, jsonString_single hlt]
    exact fun hhigh low hunit => escapedUnit_not_low (h hhigh) hunit
  · rw [he, List.append_assoc, jsonString_pair hge]

/-- The escapes of a high surrogate and of a low one after it. -/
theorem jsonString_joined {c d : CodePoint} (hc : isHighSurrogate c = true)
    (hd : isLowSurrogate d = true) (rest : Str) (fuel : Nat) :
    jsonString (fuel + 1) (escapeChar true c ++ (escapeChar true d ++ rest)) =
      (jsonString fuel rest).map fun m => (joinSurrogates c d :: m.1, m.2) := by
  simp only [isHighSurrogate, isLowSurrogate, Bool.and_eq_true, decide_eq_true_eq] at hc hd
  have hescape : ∀ e : CodePoint, 0xD800 ≤ e.val → e.val ≤ 0xDFFF →
      escapeChar true e = unicodeEscape e.val := by
    intro e hlow hhigh
    have hne : ∀ x : CodePoint, x.val < 0xD800 → e ≠ x := by
      rintro x hx rfl
      omega
    unfold escapeChar
    rw [if_neg (hne _ (by decide)), if_neg (hne _ (by decide)), if_neg (hne _ (by decide)),
      if_neg (hne _ (by decide)), if_neg (hne _ (by decide)), if_neg (by omega), if_neg (by omega),
      if_neg (by omega), if_neg (by simp; omega), if_pos (by omega)]
  obtain ⟨hlt, hunit⟩ := escapedUnit_unicodeEscape (show d.val < 65536 by omega) rest
  rw [hescape c (by omega) (by omega), hescape d (by omega) (by omega), jsonString_unit (by omega),
    hunit, Option.filter_some, if_pos]
  · rfl
  · simp only [decide_eq_true_eq, List.length_append, unicodeEscape_length]
    omega

theorem escapeChar_pos (c : CodePoint) : 0 < (escapeChar true c).length := by
  rcases escapeChar_cases c with ⟨e, he, -⟩ | ⟨he, -⟩ | ⟨he, -⟩ | ⟨-, he⟩ <;> rw [he]
  · exact Nat.succ_pos _
  · exact Nat.succ_pos _
  · exact Nat.succ_pos _
  · exact Nat.succ_pos _

theorem jsonString_escaped (s rest : Str) {fuel : Nat}
    (hfuel : (s.flatMap (escapeChar true)).length < fuel) :
    jsonString fuel (s.flatMap (escapeChar true) ++ cp '"' :: rest) = some (joinPairs s, rest) := by
  obtain ⟨fuel, rfl⟩ := Nat.exists_eq_succ_of_ne_zero (Nat.ne_of_gt (Nat.zero_lt_of_lt hfuel))
  induction s using joinPairs.induct generalizing fuel with
  | case1 => exact jsonString_quote fuel rest
  | case2 c =>
    have hpos := escapeChar_pos c
    rw [List.flatMap_singleton] at hfuel
    obtain ⟨fuel, rfl⟩ : ∃ n, fuel = n + 1 := ⟨fuel - 1, by omega⟩
    have hfirst := jsonString_escapeChar (c := c) (s := []) (fun _ _ hd => by cases hd) rest (fuel + 1)
    rw [List.flatMap_nil, List.nil_append, jsonString_quote] at hfirst
    rw [List.flatMap_singleton, hfirst]
    rfl
  | case3 c d s hjoin ih =>
    have hpos := escapeChar_pos c
    rw [List.flatMap_cons, List.flatMap_cons, List.length_append, List.length_append] at hfuel
    obtain ⟨fuel, rfl⟩ : ∃ n, fuel = n + 1 := ⟨fuel - 1, by omega⟩
    rw [List.flatMap_cons, List.flatMap_cons, List.append_assoc, List.append_assoc,
      jsonString_joined hjoin.1 hjoin.2, ih fuel (by omega), joinPairs, if_pos hjoin]
    rfl
  | case4 c d s hjoin ih =>
    have hpos := escapeChar_pos c
    rw [List.flatMap_cons, List.length_append] at hfuel
    obtain ⟨fuel, rfl⟩ : ∃ n, fuel = n + 1 := ⟨fuel - 1, by omega⟩
    rw [List.flatMap_cons, List.append_assoc, jsonString_escapeChar, ih fuel (by omega), joinPairs,
      if_neg hjoin]
    · rfl
    · intro hc e he
      cases he
      rw [Bool.eq_false_iff]
      exact fun hd => hjoin ⟨hc, hd⟩

theorem IsPaired.joinPairs_eq {s : Str} (h : IsPaired s) : joinPairs s = s := by
  induction s using joinPairs.induct with
  | case1 => rfl
  | case2 c => rfl
  | case3 c d s hjoin ih => exact absurd hjoin (List.isChain_cons_cons.mp h).1
  | case4 c d s hjoin ih =>
    rw [joinPairs, if_neg hjoin, ih (List.isChain_cons_cons.mp h).2]

/-! ## Natural numbers -/

theorem natStr_eq_cons (n : Nat) : ∃ c s, natStr n = c :: s ∧ isDigit c = true ∧
    (c = cp '0' → s = []) := by
  have hdigits := natStr_digits n
  by_cases hn : n = 0
  · subst hn
    exact ⟨digit 0, [], rfl, by decide, fun _ => rfl⟩
  have hne : Nat.digits 10 n ≠ [] := Nat.digits_ne_nil_iff_ne_zero.mpr hn
  have htext : natStr n = digit ((Nat.digits 10 n).getLast hne) ::
      ((Nat.digits 10 n).dropLast.map digit).reverse := by
    unfold natStr
    rw [if_neg hn]
    conv => lhs; rw [← List.dropLast_append_getLast hne]
    rw [List.map_append, List.reverse_append]
    rfl
  refine ⟨_, _, htext, ?_, fun hzero => absurd ?_ (Nat.getLast_digit_ne_zero 10 hn)⟩
  · exact List.all_eq_true.mp hdigits _ (by rw [htext]; exact List.mem_cons_self)
  · have hlt : (Nat.digits 10 n).getLast hne < 10 :=
      Nat.digits_lt_base (by norm_num) (List.getLast_mem hne)
    have hval := congrArg Fin.val hzero
    rw [digit_val] at hval
    change 48 + _ = 48 at hval
    omega

/-- What may follow a number: nothing that would continue it. -/
def EndsNumber (s : Str) : Prop :=
  ∀ c ∈ s.head?, isDigit c = false ∧ c ≠ cp '.' ∧ c ≠ cp 'e' ∧ c ≠ cp 'E'

theorem takeWhile_isDigit {s rest : Str} (hs : s.all isDigit = true) (hrest : EndsNumber rest) :
    (s ++ rest).takeWhile isDigit = s ∧ (s ++ rest).dropWhile isDigit = rest := by
  have hall := List.all_eq_true.mp hs
  rw [List.takeWhile_append_of_pos hall, List.dropWhile_append_of_pos hall]
  cases rest with
  | nil => exact ⟨List.append_nil s, rfl⟩
  | cons c rest =>
    have hc := (hrest c rfl).1
    rw [List.takeWhile_cons_of_neg (by simp [hc]), List.dropWhile_cons_of_neg (by simp [hc])]
    exact ⟨List.append_nil s, rfl⟩

theorem jsonInteger_natStr (n : Nat) {rest : Str} (hrest : EndsNumber rest) :
    jsonInteger (natStr n ++ rest) = some (natStr n, rest) := by
  obtain ⟨c, s, htext, hc, hzero⟩ := natStr_eq_cons n
  have hsplit := takeWhile_isDigit (natStr_digits n) hrest
  have hsign : c ≠ cp '-' := by
    rintro rfl
    exact absurd hc (by decide)
  unfold jsonInteger
  rw [htext] at hsplit ⊢
  rw [List.cons_append] at hsplit ⊢
  rw [if_neg (by simpa using hsign)]
  simp only [List.nil_append]
  by_cases h0 : c = cp '0'
  · rw [if_pos h0, hzero h0, List.nil_append]
  · rw [if_neg h0, if_pos hc, hsplit.1, hsplit.2]

theorem jsonNumber_natStr {n : Nat} (hn : (natStr n).length ≤ maxIntDigits) {rest : Str}
    (hrest : EndsNumber rest) (floatRepr : Str → Str) :
    jsonNumber floatRepr (natStr n ++ rest) = some (.int n, rest) := by
  have hfraction : jsonFraction rest = ([], rest) := by
    unfold jsonFraction
    refine if_neg fun h => ?_
    exact (hrest _ (by rw [h.1]; rfl)).2.1 rfl
  have hexponent : jsonExponent rest = ([], rest) := by
    unfold jsonExponent
    refine if_neg fun h => ?_
    rcases h.1 with h | h
    · exact (hrest _ (by rw [h]; rfl)).2.2.1 rfl
    · exact (hrest _ (by rw [h]; rfl)).2.2.2 rfl
  obtain ⟨c, s, htext, hc, -⟩ := natStr_eq_cons n
  have hsign : (natStr n).head? ≠ some (cp '-') := by
    rw [htext]
    intro h
    rw [Option.some.inj h] at hc
    exact absurd hc (by decide)
  have hint : jsonInt (natStr n) = some (n : Int) := by
    unfold jsonInt
    rw [if_neg hsign]
    simp only
    rw [if_neg (by omega), if_neg hsign, decimal_natStr]
  unfold jsonNumber
  rw [jsonInteger_natStr n hrest]
  simp only [Option.bind_eq_bind, Option.bind_some, hfraction, hexponent, and_self, if_true, hint]

theorem jsonScalar_natStr {n : Nat} (hn : (natStr n).length ≤ maxIntDigits) {rest : Str}
    (hrest : EndsNumber rest) (floatRepr : Str → Str) :
    jsonScalar floatRepr (natStr n ++ rest) = some (.int n, rest) := by
  obtain ⟨c, s, htext, hc, -⟩ := natStr_eq_cons n
  have hword : ∀ d w, isDigit d = false → ¬ d :: w <+: natStr n ++ rest := by
    intro d w hd hstarts
    rw [htext, List.cons_append, List.cons_prefix_cons] at hstarts
    rw [hstarts.1, hc] at hd
    cases hd
  have hnull : ¬ str "null" <+: natStr n ++ rest := hword (cp 'n') (str "ull") (by decide)
  have htrue : ¬ str "true" <+: natStr n ++ rest := hword (cp 't') (str "rue") (by decide)
  have hfalse : ¬ str "false" <+: natStr n ++ rest := hword (cp 'f') (str "alse") (by decide)
  unfold jsonScalar
  rw [if_neg hnull, if_neg htrue, if_neg hfalse, jsonInteger_natStr n hrest]
  exact jsonNumber_natStr hn hrest floatRepr

/-! ## Objects -/

/-- A string, or a natural number that is not too long to be read. -/
def Json.IsPlain : Json → Prop
  | .string _ => True
  | .int n => 0 ≤ n ∧ (intStr n).length ≤ maxIntDigits
  | _ => False

/-- A string as it is read back. -/
def Json.joined : Json → Json
  | .string s => .string (joinPairs s)
  | v => v

theorem jsonValue_plain {v : Json} (hv : v.IsPlain) {style : DumpStyle}
    (hstyle : style.ensureAscii = true) {rest : Str} (hrest : EndsNumber rest) (floatRepr : Str → Str)
    (fuel : Nat) : jsonValue floatRepr (fuel + 1) (v.dumps style ++ rest) = some (v.joined, rest) := by
  cases v with
  | string s =>
    unfold Json.dumps quoted
    rw [hstyle, List.append_assoc, List.append_assoc]
    change jsonValue floatRepr (fuel + 1) (cp '"' :: (s.flatMap (escapeChar true) ++
      cp '"' :: rest)) = _
    unfold jsonValue
    simp only
    rw [if_pos trivial, jsonString_escaped s rest (by rw [List.length_append]; omega)]
    rfl
  | int n =>
    obtain ⟨hn, hlength⟩ := hv
    obtain ⟨n, rfl⟩ := Int.eq_ofNat_of_zero_le hn
    have htext : intStr n = natStr n := by
      unfold intStr
      rw [if_neg (by omega), Int.natAbs_natCast]
    unfold Json.dumps
    rw [htext] at hlength ⊢
    have hscalar := jsonScalar_natStr hlength hrest floatRepr
    obtain ⟨c, s, hcons, hc, -⟩ := natStr_eq_cons n
    have hne : ∀ d, isDigit d = false → c ≠ d := by
      rintro d hd rfl
      rw [hc] at hd
      cases hd
    rw [hcons, List.cons_append] at hscalar ⊢
    unfold jsonValue
    rw [if_neg (hne _ (by decide)), if_neg (hne _ (by decide)), if_neg (hne _ (by decide)), hscalar]
    rfl
  | _ => exact absurd hv id

/-- A field as the compact style writes it. -/
def compactField (style : DumpStyle) (field : Str × Json) : Str :=
  quoted true field.1 ++ cp ':' :: field.2.dumps style

theorem skipSpace_cons {c : CodePoint} (hc : isJsonSpace c = false) (s : Str) :
    skipSpace (c :: s) = c :: s := List.dropWhile_cons_of_neg (by simp [hc])

theorem skipSpace_plain {v : Json} (hv : v.IsPlain) (style : DumpStyle) (rest : Str) :
    skipSpace (v.dumps style ++ rest) = v.dumps style ++ rest := by
  cases v with
  | string s =>
    unfold Json.dumps
    exact skipSpace_cons (by decide) _
  | int n =>
    obtain ⟨n, rfl⟩ := Int.eq_ofNat_of_zero_le hv.1
    unfold Json.dumps intStr
    rw [if_neg (by omega), Int.natAbs_natCast]
    obtain ⟨c, s, hcons, hc, -⟩ := natStr_eq_cons n
    rw [hcons]
    refine skipSpace_cons ?_ _
    simp only [isDigit, Bool.and_eq_true, decide_eq_true_eq] at hc
    have hne : ∀ d : CodePoint, d.val < 48 → (decide (c = d)) = false := by
      intro d hd
      rw [decide_eq_false_iff_not]
      rintro rfl
      omega
    unfold isJsonSpace
    rw [hne _ (by decide), hne _ (by decide), hne _ (by decide), hne _ (by decide)]
    rfl
  | _ => exact absurd hv id

/-- One field, up to the character after it. -/
theorem jsonFields_field {style : DumpStyle} (hstyle : style.ensureAscii = true)
    (floatRepr : Str → Str) {field : Str × Json} (hkey : IsPaired field.1) (hvalue : field.2.IsPlain)
    {d : CodePoint} (hspace : isJsonSpace d = false) {rest : Str} (hrest : EndsNumber (d :: rest))
    (fuel : Nat) : jsonFields floatRepr (fuel + 2) (compactField style field ++ d :: rest) =
      if d = cp '\x7d' then some ([(field.1, field.2.joined)], rest)
      else if d = cp ',' then
        (jsonFields floatRepr (fuel + 1) (skipSpace rest)).map
          fun m => ((field.1, field.2.joined) :: m.1, m.2)
      else none := by
  obtain ⟨key, value⟩ := field
  have htext : compactField style (key, value) ++ d :: rest = cp '"' ::
      (key.flatMap (escapeChar true) ++ cp '"' :: (cp ':' :: (value.dumps style ++ d :: rest))) := by
    simp [compactField, quoted, str, List.append_assoc]
  rw [htext]
  conv => lhs; unfold jsonFields
  simp only
  rw [if_pos trivial, jsonString_escaped key _ (by
      rw [List.length_append]
      exact Nat.lt_succ_of_le (Nat.le_add_right _ _))]
  simp only [Option.bind_eq_bind, Option.bind_some]
  rw [skipSpace_cons (by decide), if_pos (by rfl), List.tail_cons, skipSpace_plain hvalue,
    jsonValue_plain hvalue hstyle hrest, hkey.joinPairs_eq]
  simp only [Option.bind_some, skipSpace_cons hspace]
  cases jsonFields floatRepr (fuel + 1) (skipSpace rest) <;> rfl

theorem jsonFields_plain {style : DumpStyle} (hstyle : style.ensureAscii = true)
    (floatRepr : Str → Str) (rest : Str) {fields : List (Str × Json)} (hne : fields ≠ [])
    (h : ∀ field ∈ fields, IsPaired field.1 ∧ field.2.IsPlain) {fuel : Nat}
    (hfuel : fields.length < fuel) :
    jsonFields floatRepr fuel (join (str ",") (fields.map (compactField style)) ++
      cp '\x7d' :: rest) = some (fields.map fun field => (field.1, field.2.joined), rest) := by
  have hend : ∀ (d : CodePoint) (t : Str), isDigit d = false ∧ d ≠ cp '.' ∧ d ≠ cp 'e' ∧ d ≠ cp 'E' →
      EndsNumber (d :: t) := by
    intro d t hd c hc
    cases hc
    exact hd
  induction fields generalizing fuel with
  | nil => exact absurd rfl hne
  | cons field fields ih =>
    obtain ⟨fuel, rfl⟩ : ∃ n, fuel = n + 2 := ⟨fuel - 2, by simp at hfuel; omega⟩
    obtain ⟨hkey, hvalue⟩ := h field List.mem_cons_self
    cases fields with
    | nil =>
      rw [List.map_singleton, join, List.intercalate_singleton,
        jsonFields_field hstyle floatRepr hkey hvalue (by decide) (hend _ _ (by decide)), if_pos rfl]
      rfl
    | cons next fields =>
      have hrest := @ih (List.cons_ne_nil _ _) (fun f hf => h f (List.mem_cons_of_mem _ hf))
        (fuel + 1) (by simp at hfuel ⊢; omega)
      have htext : join (str ",") ((field :: next :: fields).map (compactField style)) ++
          cp '\x7d' :: rest = compactField style field ++ cp ',' ::
            (join (str ",") ((next :: fields).map (compactField style)) ++ cp '\x7d' :: rest) := by
        simp [join, List.intercalate, str]
      have hspace : skipSpace (join (str ",") ((next :: fields).map (compactField style)) ++
          cp '\x7d' :: rest) = join (str ",") ((next :: fields).map (compactField style)) ++
            cp '\x7d' :: rest := by
        cases fields <;> exact skipSpace_cons (by decide) _
      rw [htext, jsonFields_field hstyle floatRepr hkey hvalue (by decide) (hend _ _ (by decide)),
        if_neg (by decide), if_pos rfl, hspace, hrest]
      rfl

theorem compactFields_length (style : DumpStyle) (fields : List (Str × Json)) :
    fields.length ≤ (join (str ",") (fields.map (compactField style))).length := by
  induction fields with
  | nil => exact Nat.zero_le _
  | cons field fields ih =>
    cases fields with
    | nil =>
      rw [List.map_singleton, join, List.intercalate_singleton, compactField, List.length_append,
        List.length_cons, List.length_nil, List.length_cons (a := cp ':')]
      omega
    | cons next fields =>
      have htext : join (str ",") ((field :: next :: fields).map (compactField style)) =
          compactField style field ++ cp ',' ::
            join (str ",") ((next :: fields).map (compactField style)) := by
        simp [join, List.intercalate, str]
      rw [htext, List.length_append, List.length_cons, List.length_cons (a := cp ',')]
      omega

theorem Json.dumpsFields_eq (style : DumpStyle) (fields : List (Str × Json)) :
    dumpsFields style fields = fields.map fun field => (field.1, field.2.dumps style) := by
  induction fields with
  | nil => rfl
  | cons field fields ih =>
    rw [dumpsFields, ih]
    rfl

theorem Json.dumps_object {fields : List (Str × Json)}
    (hsorted : fields.Pairwise fun a b => a.1 < b.1) :
    (Json.dict fields).dumps (.compact true) = cp '\x7b' ::
      (join (str ",") (fields.map (compactField (.compact true))) ++ [cp '\x7d']) := by
  unfold Json.dumps
  rw [dumpsFields_eq, sortedBy_eq_self, List.map_map]
  · simp [DumpStyle.compact, str]
    rfl
  · rw [List.pairwise_map]
    exact hsorted.imp le_of_lt

/-- What `json.dumps` writes for an object of strings and numbers in ascending order of its keys,
`json.loads` reads. -/
theorem Json.loads_object (floatRepr : Str → Str) {fields : List (Str × Json)}
    (hsorted : fields.Pairwise fun a b => a.1 < b.1)
    (h : ∀ field ∈ fields, IsPaired field.1 ∧ field.2.IsPlain) :
    loads floatRepr ((Json.dict fields).dumps (.compact true)) =
      some (.dict (fields.map fun field => (field.1, field.2.joined))) := by
  have hkeys : Dict.KeysNodup (fields.map fun field => (field.1, field.2.joined)) := by
    unfold Dict.KeysNodup
    rw [List.map_map, List.nodup_iff_pairwise_ne, List.pairwise_map]
    exact hsorted.imp ne_of_lt
  have htext := dumps_object hsorted
  have hstart : jsonValue floatRepr (((Json.dict fields).dumps (.compact true)).length + 1)
      (skipSpace ((Json.dict fields).dumps (.compact true))) =
        some (.dict (fields.map fun field => (field.1, field.2.joined)), []) := by
    rw [htext, skipSpace_cons (by decide)]
    unfold jsonValue
    rw [if_neg (by decide), if_pos (by rfl)]
    cases hcases : fields with
    | nil => rfl
    | cons field rest =>
      have hspace : skipSpace (join (str ",") (fields.map (compactField (.compact true))) ++
          [cp '\x7d']) = join (str ",") (fields.map (compactField (.compact true))) ++ [cp '\x7d'] := by
        rw [hcases]
        cases rest <;> exact skipSpace_cons (by decide) _
      have hhead : (join (str ",") (fields.map (compactField (.compact true))) ++
          [cp '\x7d']).head? ≠ some (cp '\x7d') := by
        rw [hcases]
        cases rest <;> exact fun h => absurd (Option.some.inj h) (by decide)
      have hlength := compactFields_length (.compact true) fields
      rw [← hcases, hspace, if_neg hhead, jsonFields_plain rfl floatRepr [] (by simp [hcases]) h
        (by simp only [List.length_cons, List.length_append]; omega)]
      simp only [Option.map_some]
      rw [Dict.foldl_set (d := []) hkeys, List.nil_append]
  unfold loads
  rw [hstart]
  rfl

/-! ## Bytes -/

def isAsciiByte (b : Byte) : Bool := 0 < b.val && b.val < 128

/-- `json.loads(raw)` of `bytes`. Bytes of ASCII without a null byte are taken for UTF-8; what other
bytes stand for is a parameter. -/
def Json.loadsBytes (floatRepr : Str → Str) (decode : List Byte → Option Str) (raw : List Byte) :
    Option Json :=
  if raw.all isAsciiByte then loads floatRepr (raw.map fun b => Fin.ofNat _ b.val)
  else (decode raw).bind (loads floatRepr)

/-- A text of ASCII characters without the null character. -/
def AsciiText (s : Str) : Prop := ∀ c ∈ s, 0 < c.val ∧ c.val < 128

instance (s : Str) : Decidable (AsciiText s) := List.decidableBAll _ s

theorem AsciiText.append {s t : Str} (hs : AsciiText s) (ht : AsciiText t) : AsciiText (s ++ t) :=
  List.forall_mem_append.mpr ⟨hs, ht⟩

theorem asciiText_natStr (n : Nat) : AsciiText (natStr n) := by
  intro c hc
  have hdigit := List.all_eq_true.mp (natStr_digits n) c hc
  simp only [isDigit, Bool.and_eq_true, decide_eq_true_eq] at hdigit
  omega

theorem asciiText_unicodeEscape (n : Nat) : AsciiText (unicodeEscape n) := by
  have hdigit : ∀ m, 0 < (hexDigit m).val ∧ (hexDigit m).val < 128 := by
    intro m
    have hval := hexDigit_val m
    split at hval <;> omega
  refine AsciiText.append (by decide) fun c hc => ?_
  simp only [List.mem_cons, List.not_mem_nil, or_false] at hc
  rcases hc with rfl | rfl | rfl | rfl <;> exact hdigit _

theorem jsonEscape_ascii {c d : CodePoint} (h : jsonEscape d = some c) : AsciiText [d] := by
  unfold jsonEscape at h
  repeat' split at h
  all_goals first
    | cases h; done
    | next hd => rw [hd]; decide
    | next hd => rcases hd with rfl | rfl | rfl <;> decide

theorem asciiText_escapeChar (c : CodePoint) : AsciiText (escapeChar true c) := by
  rcases escapeChar_cases c with ⟨e, he, -, hletter⟩ | ⟨he, hlow, -⟩ | ⟨he, -⟩ | ⟨-, he⟩
  · rw [he]
    exact AsciiText.append (s := [cp '\\']) (by decide) (jsonEscape_ascii hletter)
  · rw [he]
    intro d hd
    cases List.mem_singleton.mp hd
    omega
  · rw [he]
    exact asciiText_unicodeEscape _
  · rw [he]
    exact (asciiText_unicodeEscape _).append (asciiText_unicodeEscape _)

theorem asciiText_quoted (s : Str) : AsciiText (quoted true s) := by
  refine (AsciiText.append (by decide) fun d hd => ?_).append (by decide)
  obtain ⟨c, -, hd⟩ := List.mem_flatMap.mp hd
  exact asciiText_escapeChar c d hd

theorem asciiText_join {sep : Str} (hsep : AsciiText sep) {parts : List Str}
    (h : ∀ s ∈ parts, AsciiText s) : AsciiText (join sep parts) := by
  induction parts with
  | nil => exact fun c hc => absurd hc List.not_mem_nil
  | cons s parts ih =>
    have hs := h s List.mem_cons_self
    cases parts with
    | nil => simpa [join] using hs
    | cons t parts =>
      have heq : join sep (s :: t :: parts) = s ++ (sep ++ join sep (t :: parts)) := by
        simp [join, List.intercalate]
      rw [heq]
      exact hs.append (hsep.append (ih fun u hu => h u (List.mem_cons_of_mem _ hu)))

theorem encodeUtf8_ascii {s : Str} (h : AsciiText s) :
    encodeUtf8 s = some (s.map fun c => Fin.ofNat _ c.val) := by
  rw [encodeUtf8_eq_some]
  refine ⟨encodable_of_lt fun c hc => (h c hc).2, ?_⟩
  induction s with
  | nil => rfl
  | cons c s ih =>
    rw [List.flatMap_cons, List.map_cons, ih fun d hd => h d (List.mem_cons_of_mem _ hd)]
    unfold utf8Char
    simp only
    rw [if_pos (h c List.mem_cons_self).2]
    rfl

theorem Json.asciiText_object {fields : List (Str × Json)}
    (hsorted : fields.Pairwise fun a b => a.1 < b.1) (h : ∀ field ∈ fields, field.2.IsPlain) :
    AsciiText ((Json.dict fields).dumps (.compact true)) := by
  rw [dumps_object hsorted]
  refine AsciiText.append (s := [cp '\x7b']) (by decide) (AsciiText.append ?_ (by decide))
  refine asciiText_join (by decide) fun s hs => ?_
  obtain ⟨field, hfield, rfl⟩ := List.mem_map.mp hs
  refine (asciiText_quoted _).append (AsciiText.append (s := [cp ':']) (by decide) ?_)
  have hplain := h field hfield
  obtain ⟨key, value⟩ := field
  cases value with
  | string s => exact asciiText_quoted s
  | int n =>
    obtain ⟨n, rfl⟩ := Int.eq_ofNat_of_zero_le hplain.1
    simp only [dumps, intStr]
    rw [if_neg (by omega)]
    exact asciiText_natStr _
  | _ => exact absurd hplain id

/-- The bytes of such an object are read as the object. -/
theorem Json.loadsBytes_object (floatRepr : Str → Str) (decode : List Byte → Option Str)
    {fields : List (Str × Json)} (hsorted : fields.Pairwise fun a b => a.1 < b.1)
    (h : ∀ field ∈ fields, IsPaired field.1 ∧ field.2.IsPlain) : ∃ raw,
    encodeUtf8 ((Json.dict fields).dumps (.compact true)) = some raw ∧
      raw.length = ((Json.dict fields).dumps (.compact true)).length ∧
      loadsBytes floatRepr decode raw =
        some (.dict (fields.map fun field => (field.1, field.2.joined))) := by
  have htext := asciiText_object hsorted fun field hfield => (h field hfield).2
  refine ⟨_, encodeUtf8_ascii htext, List.length_map .., ?_⟩
  have hmap : ((Json.dict fields).dumps (.compact true)).map
      ((fun b : Byte => (Fin.ofNat _ b.val : CodePoint)) ∘ fun c => Fin.ofNat _ c.val) =
        (Json.dict fields).dumps (.compact true) := by
    conv => rhs; rw [← List.map_id ((Json.dict fields).dumps (.compact true))]
    refine List.map_congr_left fun c hc => Fin.ext ?_
    have hc := htext c hc
    simp only [Function.comp_apply, Fin.val_ofNat, id]
    omega
  unfold loadsBytes
  rw [if_pos, List.map_map, hmap, loads_object floatRepr hsorted h]
  rw [List.all_map, List.all_eq_true]
  intro c hc
  have hc := htext c hc
  simp only [Function.comp_apply, isAsciiByte, Fin.val_ofNat, Bool.and_eq_true, decide_eq_true_eq]
  omega

end Py
