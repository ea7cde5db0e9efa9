import Mathlib

/-!
# Python strings

A Python `str` is a sequence of code points, lone surrogates included, so it is a list over
`CodePoint` and not Lean's `String`. The order is the lexicographic order of code points, as
Python compares strings. Literals are written `str "..."`.

Only the operations with a fixed, finite definition stand here. What depends on the Unicode
database (case folding, IDNA, decompositions) is a field of `Runtime`, with the ASCII part fixed.
-/

namespace Py

/-- A Unicode code point, `0 .. 0x10FFFF`. -/
abbrev CodePoint := Fin 1114112

instance neZero_codePoint : NeZero 1114112 := ⟨by decide⟩

instance lawfulBEq_codePoint : LawfulBEq CodePoint := inferInstance

/-- A Python `str`. -/
abbrev Str := List CodePoint

instance lawfulBEq_str : LawfulBEq Str := inferInstance

/-- The code point of a character. -/
def cp (c : Char) : CodePoint := Fin.ofNat _ c.toNat

/-- A string literal. -/
def str (s : String) : Str := s.toList.map cp

/-! ## Character classes -/

/-- `str.isspace` of one character, also the class `\s` of a `str` pattern. -/
def isSpace (c : CodePoint) : Bool :=
  (9 ≤ c.val && c.val ≤ 13) || (28 ≤ c.val && c.val ≤ 32) || c.val == 0x85 || c.val == 0xA0 ||
    c.val == 0x1680 || (0x2000 ≤ c.val && c.val ≤ 0x200A) || c.val == 0x2028 || c.val == 0x2029 ||
    c.val == 0x202F || c.val == 0x205F || c.val == 0x3000

/-- `[0-9]`. -/
def isDigit (c : CodePoint) : Bool := 48 ≤ c.val && c.val ≤ 57

/-- `[a-z]`. -/
def isLower (c : CodePoint) : Bool := 97 ≤ c.val && c.val ≤ 122

/-- `[A-Z]`. -/
def isUpper (c : CodePoint) : Bool := 65 ≤ c.val && c.val ≤ 90

/-- `[A-Za-z0-9]`. -/
def isAsciiAlnum (c : CodePoint) : Bool := isDigit c || isLower c || isUpper c

/-- `[0-9a-fA-F]`. -/
def isHex (c : CodePoint) : Bool :=
  isDigit c || (97 ≤ c.val && c.val ≤ 102) || (65 ≤ c.val && c.val ≤ 70)

/-- Lone surrogates, which no UTF-8 text encodes. -/
def isSurrogate (c : CodePoint) : Bool := 0xD800 ≤ c.val && c.val ≤ 0xDFFF

/-- `c.lower()` for ASCII `c`, the identity elsewhere. -/
def lowerAscii (c : CodePoint) : CodePoint := if isUpper c then Fin.ofNat _ (c.val + 32) else c

/-! ## Operations -/

/-- `s.strip(chars)` with the stripped class as a predicate. -/
def stripBy (p : CodePoint → Bool) (s : Str) : Str := (s.dropWhile p).rdropWhile p

/-- `s.strip()`. -/
def strip (s : Str) : Str := stripBy isSpace s

/-- `sub in s`. -/
def contains (sub s : Str) : Bool := decide (sub <:+: s)

/-- `sep.join(parts)`. -/
def join (sep : Str) (parts : List Str) : Str := sep.intercalate parts

/-- The scan of `s.replace(old, new)`: `skip` characters of the last match are still to drop. -/
def replaceFrom (old new : Str) : Nat → Str → Str
  | _, [] => []
  | skip + 1, _ :: s => replaceFrom old new skip s
  | 0, c :: s =>
    if old <+: c :: s then new ++ replaceFrom old new (old.length - 1) s
    else c :: replaceFrom old new 0 s

/-- `s.replace(old, new)` for a non-empty `old`: leftmost matches, none overlapping. -/
def replace (old new s : Str) : Str := replaceFrom old new 0 s

/-- One decimal digit. -/
def digit (d : Nat) : CodePoint := Fin.ofNat _ (48 + d % 10)

/-- `str(n)` for a natural number. -/
def natStr (n : Nat) : Str :=
  if n = 0 then [digit 0] else ((Nat.digits 10 n).map digit).reverse

/-- `f"{n:0{width}d}"`: decimal, padded with zeros on the left. -/
def padNat (width n : Nat) : Str :=
  List.replicate (width - (natStr n).length) (digit 0) ++ natStr n

/-- The number written by decimal digits. -/
def decimal (s : Str) : Nat := s.foldl (fun n c => 10 * n + (c.val - 48)) 0

/-! ## Sets of strings -/

/-- The iteration order of a set of strings, given the insertions that built it. -/
structure SetOrder where
  iterate : List Str → List Str
  iterate_perm : ∀ l, (iterate l).Perm l.dedup

/-- The order of first insertion. -/
def SetOrder.insertion : SetOrder := ⟨List.dedup, fun _ => .refl _⟩

/-! ## Bytes -/

/-- One byte. -/
abbrev Byte := Fin 256

instance neZero_byte : NeZero 256 := ⟨by decide⟩

instance lawfulBEq_byte : LawfulBEq Byte := inferInstance

/-- The UTF-8 encoding of one code point that is not a surrogate. -/
def utf8Char (c : CodePoint) : List Byte :=
  let n := c.val
  if n < 0x80 then [Fin.ofNat _ n]
  else if n < 0x800 then [Fin.ofNat _ (0xC0 + n / 64), Fin.ofNat _ (0x80 + n % 64)]
  else if n < 0x10000 then
    [Fin.ofNat _ (0xE0 + n / 4096), Fin.ofNat _ (0x80 + n / 64 % 64), Fin.ofNat _ (0x80 + n % 64)]
  else
    [Fin.ofNat _ (0xF0 + n / 262144), Fin.ofNat _ (0x80 + n / 4096 % 64),
      Fin.ofNat _ (0x80 + n / 64 % 64), Fin.ofNat _ (0x80 + n % 64)]

/-- `s` has a UTF-8 encoding. -/
def Encodable (s : Str) : Prop := ∀ c ∈ s, isSurrogate c = false

instance (s : Str) : Decidable (Encodable s) := List.decidableBAll _ s

/-- `s.encode("utf-8")`; `none` is `UnicodeEncodeError`. -/
def encodeUtf8 (s : Str) : Option (List Byte) :=
  if Encodable s then some (s.flatMap utf8Char) else none

/-! ## Lemmas -/

/-- One character is replaced wherever it stands. -/
theorem replace_singleton (c : CodePoint) (new s : Str) :
    replace [c] new s = s.flatMap fun d => if d = c then new else [d] := by
  induction s with
  | nil => rfl
  | cons d s ih =>
    rw [replace] at ih ⊢
    rw [replaceFrom, List.flatMap_cons, ← ih]
    by_cases h : d = c
    · subst h
      rw [if_pos ⟨s, rfl⟩, if_pos rfl]
      rfl
    · have hne : ¬ [c] <+: d :: s := fun hstart => h (List.cons_prefix_cons.mp hstart).1.symm
      rw [if_neg hne, if_neg h]
      rfl

theorem encodeUtf8_eq_none {s : Str} : encodeUtf8 s = none ↔ ¬ Encodable s := by
  unfold encodeUtf8
  split <;> simp_all

theorem encodeUtf8_eq_some {s : Str} {data : List Byte} :
    encodeUtf8 s = some data ↔ Encodable s ∧ s.flatMap utf8Char = data := by
  unfold encodeUtf8
  split <;> simp_all

theorem utf8Char_ne_nil (c : CodePoint) : utf8Char c ≠ [] := by
  unfold utf8Char
  simp only
  split <;> [skip; split <;> [skip; split]] <;> exact List.cons_ne_nil _ _

/-- No code point's encoding is a prefix of another's: the first byte gives the length. -/
theorem utf8Char_append_inj {c d : CodePoint} {s t : List Byte}
    (h : utf8Char c ++ s = utf8Char d ++ t) : c = d ∧ s = t := by
  have hc := c.isLt
  have hd := d.isLt
  unfold utf8Char at h
  simp only at h
  -- the lengths of `c` and of `d`, four each; unequal lengths differ in the first byte
  split at h <;> [skip; split at h <;> [skip; split at h]] <;>
  (split at h <;> [skip; split at h <;> [skip; split at h]]) <;>
  · simp only [List.cons_append, List.nil_append, List.cons.injEq, Fin.ext_iff, Fin.val_ofNat] at h
    refine ⟨Fin.ext (by omega), ?_⟩
    first
    | exact h.2
    | exact h.2.2
    | exact h.2.2.2
    | exact h.2.2.2.2
    | omega

theorem flatMap_utf8Char_injective : Function.Injective fun s : Str => s.flatMap utf8Char := by
  intro s t h
  simp only at h
  induction s generalizing t with
  | nil =>
    cases t with
    | nil => rfl
    | cons d t =>
      rw [List.flatMap_nil, List.flatMap_cons] at h
      exact absurd (List.append_eq_nil_iff.mp h.symm).1 (utf8Char_ne_nil d)
  | cons c s ih =>
    cases t with
    | nil =>
      rw [List.flatMap_nil, List.flatMap_cons] at h
      exact absurd (List.append_eq_nil_iff.mp h).1 (utf8Char_ne_nil c)
    | cons d t =>
      rw [List.flatMap_cons, List.flatMap_cons] at h
      obtain ⟨rfl, hst⟩ := utf8Char_append_inj h
      rw [ih hst]

theorem encodeUtf8_injective {s t : Str} {data : List Byte} (hs : encodeUtf8 s = some data)
    (ht : encodeUtf8 t = some data) : s = t :=
  flatMap_utf8Char_injective
    ((encodeUtf8_eq_some.mp hs).2.trans (encodeUtf8_eq_some.mp ht).2.symm)

theorem digit_val (d : Nat) : (digit d).val = 48 + d % 10 := by
  unfold digit
  rw [Fin.val_ofNat]
  omega

theorem natStr_injective : Function.Injective natStr := by
  intro m n h
  have hdigit : ∀ {a b : List Nat}, (∀ d ∈ a, d < 10) → (∀ d ∈ b, d < 10) →
      a.map digit = b.map digit → a = b := by
    intro a b ha hb hab
    have hval := congrArg (List.map fun c : CodePoint => c.val - 48) hab
    simp only [List.map_map] at hval
    have hid : ∀ {l : List Nat}, (∀ d ∈ l, d < 10) →
        l.map ((fun c : CodePoint => c.val - 48) ∘ digit) = l := by
      intro l hl
      conv_rhs => rw [← List.map_id l]
      refine List.map_congr_left fun d hd => ?_
      have := hl d hd
      simp only [Function.comp_apply, digit_val, id_eq]
      omega
    rwa [hid ha, hid hb] at hval
  have hlt : ∀ k, ∀ d ∈ Nat.digits 10 k, d < 10 := fun k d hd =>
    Nat.digits_lt_base (by norm_num) hd
  have hzero : ∀ k, k ≠ 0 → ((Nat.digits 10 k).map digit).reverse ≠ [digit 0] := by
    intro k hk hc
    have h1 : (Nat.digits 10 k).map digit = [0].map digit := by
      simpa using congrArg List.reverse hc
    have h2 := hdigit (hlt k) (by simp) h1
    have h3 := Nat.ofDigits_digits 10 k
    rw [h2] at h3
    exact hk (by simpa using h3.symm)
  unfold natStr at h
  by_cases hm : m = 0 <;> by_cases hn : n = 0
  · rw [hm, hn]
  · rw [if_pos hm, if_neg hn] at h
    exact absurd h.symm (hzero n hn)
  · rw [if_neg hm, if_pos hn] at h
    exact absurd h (hzero m hm)
  · rw [if_neg hm, if_neg hn] at h
    have h1 := hdigit (hlt m) (hlt n) (List.reverse_injective h)
    exact Nat.digits_inj_iff.mp h1

/-! ## Decimal numbers -/

theorem decimal_append (s t : Str) : decimal (s ++ t) = decimal s * 10 ^ t.length + decimal t := by
  have hfold : ∀ (t : Str) (n : Nat), t.foldl (fun n c => 10 * n + (c.val - 48)) n =
      n * 10 ^ t.length + t.foldl (fun n c => 10 * n + (c.val - 48)) 0 := by
    intro t
    induction t with
    | nil => intro n; simp
    | cons c t ih =>
      intro n
      rw [List.foldl_cons, List.foldl_cons, ih, ih (10 * 0 + _), List.length_cons]
      ring
  unfold decimal
  rw [List.foldl_append, hfold]

theorem natStr_digits (n : Nat) : (natStr n).all isDigit = true := by
  have hdigit : ∀ d, isDigit (digit d) = true := by
    intro d
    simp only [isDigit, digit_val, Bool.and_eq_true, decide_eq_true_eq]
    omega
  unfold natStr
  split <;> simp [hdigit]

theorem natStr_ne_nil (n : Nat) : natStr n ≠ [] := by
  unfold natStr
  split
  · exact List.cons_ne_nil _ _
  · next hn =>
    rw [Ne, List.reverse_eq_nil_iff, List.map_eq_nil_iff]
    exact Nat.digits_ne_nil_iff_ne_zero.mpr hn

theorem notMem_natStr {c : CodePoint} (hc : isDigit c = false) (n : Nat) : c ∉ natStr n := by
  intro hmem
  have := List.all_eq_true.mp (natStr_digits n) c hmem
  rw [hc] at this
  cases this

theorem decimal_natStr (n : Nat) : decimal (natStr n) = n := by
  have hrev : ∀ l : List Nat, (∀ d ∈ l, d < 10) →
      decimal ((l.map digit).reverse) = Nat.ofDigits 10 l := by
    intro l hl
    induction l with
    | nil => rfl
    | cons d l ih =>
      rw [List.map_cons, List.reverse_cons, decimal_append, ih fun d hd => hl d (by simp [hd])]
      have := hl d (by simp)
      simp only [decimal, List.foldl_cons, List.foldl_nil, digit_val, List.length_singleton,
        Nat.ofDigits_cons]
      omega
  unfold natStr
  split
  · next h => rw [h]; rfl
  · rw [hrev _ fun d hd => Nat.digits_lt_base (by norm_num) hd, Nat.ofDigits_digits]

theorem natStr_length_le {n w : Nat} (hw : 0 < w) (h : n < 10 ^ w) : (natStr n).length ≤ w := by
  unfold natStr
  split
  · exact hw
  · rw [List.length_reverse, List.length_map]
    exact (Nat.digits_length_le_iff (by norm_num) n).mpr h

theorem padNat_length {n w : Nat} (hw : 0 < w) (h : n < 10 ^ w) : (padNat w n).length = w := by
  have := natStr_length_le hw h
  unfold padNat
  rw [List.length_append, List.length_replicate]
  omega

theorem padNat_digits (w n : Nat) : (padNat w n).all isDigit = true := by
  unfold padNat
  rw [List.all_append, natStr_digits, Bool.and_true, List.all_replicate]
  split <;> rfl

theorem notMem_padNat {c : CodePoint} (hc : isDigit c = false) (w n : Nat) : c ∉ padNat w n := by
  intro hmem
  have := List.all_eq_true.mp (padNat_digits w n) c hmem
  rw [hc] at this
  cases this

theorem decimal_padNat (w n : Nat) : decimal (padNat w n) = n := by
  have hzeros : ∀ k, decimal (List.replicate k (digit 0)) = 0 := by
    intro k
    induction k with
    | zero => rfl
    | succ k ih => rw [List.replicate_succ', decimal_append, ih]; rfl
  unfold padNat
  rw [decimal_append, hzeros, decimal_natStr]
  omega

/-! ## Stripping -/

theorem rdropWhile_getLast (p : CodePoint → Bool) (s : Str) :
    ∀ c ∈ (s.rdropWhile p).getLast?, p c = false := by
  intro c hc
  have hne : s.rdropWhile p ≠ [] := by
    rintro h
    rw [h] at hc
    simp at hc
  rw [List.getLast?_eq_some_getLast hne, Option.mem_some_iff] at hc
  subst hc
  simpa using List.rdropWhile_last_not p s hne

theorem stripBy_head (p : CodePoint → Bool) (s : Str) : ∀ c ∈ (stripBy p s).head?, p c = false := by
  intro c hc
  have hstarts : stripBy p s <+: s.dropWhile p := List.rdropWhile_prefix p _
  have hhead : (s.dropWhile p).head? = some c := by
    obtain ⟨t, ht⟩ := hstarts
    rw [← ht, List.head?_append, Option.mem_def.mp hc]
    rfl
  simpa [hhead] using List.head?_dropWhile_not p s

theorem stripBy_sublist (p : CodePoint → Bool) (s : Str) : (stripBy p s).Sublist s :=
  (List.rdropWhile_prefix p _).sublist.trans (List.dropWhile_suffix p).sublist

/-- A run ends where the next character is not of its kind. -/
theorem takeWhile_append_eq {p : CodePoint → Bool} {run after : Str} (hrun : run.all p = true)
    (hafter : ∀ c ∈ after.head?, p c = false) : (run ++ after).takeWhile p = run := by
  rw [List.takeWhile_append_of_pos (List.all_eq_true.mp hrun)]
  cases after with
  | nil => rw [List.takeWhile_nil, List.append_nil]
  | cons c after => rw [List.takeWhile_cons, hafter c rfl, if_neg Bool.false_ne_true, List.append_nil]

/-- A string bounded by non-space characters is its own `strip()`. -/
theorem stripBy_eq_self {p : CodePoint → Bool} {s : Str} (hhead : ∀ c ∈ s.head?, p c = false)
    (hlast : ∀ c ∈ s.getLast?, p c = false) : stripBy p s = s := by
  unfold stripBy
  have hd : s.dropWhile p = s := by
    cases s with
    | nil => rfl
    | cons c s => exact List.dropWhile_cons_of_neg (by simpa using hhead c rfl)
  rw [hd]
  by_cases hs : s = []
  · subst hs; rfl
  · rw [List.rdropWhile_eq_self_iff]
    intro hne
    simpa using hlast _ (List.getLast?_eq_some_getLast hne)

end Py
