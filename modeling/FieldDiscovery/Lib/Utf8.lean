import FieldDiscovery.Lib.Codec

/-!
# UTF-8

Decoding is the inverse of encoding: a byte string is decoded exactly when it is the encoding of a
text without surrogates, and then to this text (`decodeUtf8_eq_some`). The decoder takes one sequence
after the other, so this is a fact about one sequence (`utf8Front_utf8Char`, `exists_encodes`).
-/

namespace Py

/-! ## One sequence -/

theorem byte_val {n : Nat} (h : n < 256) : (Fin.ofNat 256 n).val = n := Nat.mod_eq_of_lt h

theorem isContinuation_ofNat {n : Nat} (h : n < 64) :
    isContinuation (Fin.ofNat 256 (0x80 + n)) = true := by
  unfold isContinuation
  rw [byte_val (by omega)]
  simp only [Bool.and_eq_true, decide_eq_true_eq]
  omega

/-- The decoder takes the encoding of a code point as one sequence. -/
theorem utf8Front_utf8Char {c : CodePoint} (hc : isSurrogate c = false) (rest : List Byte) :
    utf8Front (utf8Char c ++ rest) = (utf8Char c, true) := by
  have hmax := c.isLt
  have hsurrogate : ¬ (0xD800 ≤ c.val ∧ c.val ≤ 0xDFFF) := by
    simpa [isSurrogate] using hc
  unfold utf8Char
  simp only
  by_cases h₁ : c.val < 0x80
  · have hlead : leadLength (Fin.ofNat 256 c.val) = 1 := by
      unfold leadLength
      rw [byte_val (by omega), if_pos h₁]
    rw [if_pos h₁, List.singleton_append, utf8Front]
    simp only [hlead]
  rw [if_neg h₁]
  by_cases h₂ : c.val < 0x800
  · have hlead : leadLength (Fin.ofNat 256 (0xC0 + c.val / 64)) = 2 := by
      unfold leadLength
      rw [byte_val (by omega), if_neg (by omega), if_pos (by omega)]
    have hsecond : isSecond (Fin.ofNat 256 (0xC0 + c.val / 64))
        (Fin.ofNat 256 (0x80 + c.val % 64)) = true := by
      unfold isSecond
      rw [isContinuation_ofNat (by omega), byte_val (by omega), byte_val (by omega)]
      simp only [Bool.true_and, Bool.and_eq_true, Bool.or_eq_true, bne_iff_ne, decide_eq_true_eq]
      omega
    rw [if_pos h₂, List.cons_append, List.singleton_append, utf8Front]
    simp only [hlead, hsecond]
    rfl
  rw [if_neg h₂]
  have hthird := isContinuation_ofNat (n := c.val % 64) (by omega)
  by_cases h₃ : c.val < 0x10000
  · have hlead : leadLength (Fin.ofNat 256 (0xE0 + c.val / 4096)) = 3 := by
      unfold leadLength
      rw [byte_val (by omega), if_neg (by omega), if_neg (by omega), if_pos (by omega)]
    have hsecond : isSecond (Fin.ofNat 256 (0xE0 + c.val / 4096))
        (Fin.ofNat 256 (0x80 + c.val / 64 % 64)) = true := by
      unfold isSecond
      rw [isContinuation_ofNat (by omega), byte_val (by omega), byte_val (by omega)]
      simp only [Bool.true_and, Bool.and_eq_true, Bool.or_eq_true, bne_iff_ne, decide_eq_true_eq]
      omega
    rw [if_pos h₃, List.cons_append, List.cons_append, List.singleton_append, utf8Front]
    simp only [hlead, hsecond, List.take_succ_cons, List.take_zero, List.takeWhile_cons, hthird]
    rfl
  rw [if_neg h₃]
  have hfourth := isContinuation_ofNat (n := c.val / 64 % 64) (by omega)
  have hlead : leadLength (Fin.ofNat 256 (0xF0 + c.val / 262144)) = 4 := by
    unfold leadLength
    rw [byte_val (by omega), if_neg (by omega), if_neg (by omega), if_neg (by omega),
      if_pos (by omega)]
  have hsecond : isSecond (Fin.ofNat 256 (0xF0 + c.val / 262144))
      (Fin.ofNat 256 (0x80 + c.val / 4096 % 64)) = true := by
    unfold isSecond
    rw [isContinuation_ofNat (by omega), byte_val (by omega), byte_val (by omega)]
    simp only [Bool.true_and, Bool.and_eq_true, Bool.or_eq_true, bne_iff_ne, decide_eq_true_eq]
    omega
  rw [List.cons_append, List.cons_append, List.cons_append, List.singleton_append, utf8Front]
  simp only [hlead, hsecond, List.take_succ_cons, List.take_zero, List.takeWhile_cons, hthird,
    hfourth]
  rfl

theorem utf8Value_utf8Char (c : CodePoint) : utf8Value (utf8Char c) = c := by
  have hmax := c.isLt
  unfold utf8Char
  simp only
  apply Fin.ext
  by_cases h₁ : c.val < 0x80
  · rw [if_pos h₁, utf8Value, byte_val (by omega), Fin.val_ofNat]
    omega
  rw [if_neg h₁]
  by_cases h₂ : c.val < 0x800
  · rw [if_pos h₂, utf8Value, byte_val (by omega), byte_val (by omega), Fin.val_ofNat]
    omega
  rw [if_neg h₂]
  by_cases h₃ : c.val < 0x10000
  · rw [if_pos h₃, utf8Value, byte_val (by omega), byte_val (by omega), byte_val (by omega),
      Fin.val_ofNat]
    omega
  have hfirst : (0xF0 + c.val / 262144) % 8 = c.val / 262144 := by omega
  have hrest : ∀ n, (0x80 + n % 64) % 64 = n % 64 := fun n => by omega
  rw [if_neg h₃, utf8Value, byte_val (by omega), byte_val (by omega), byte_val (by omega),
    byte_val (by omega), Fin.val_ofNat, hfirst, hrest, hrest, hrest]
  omega

theorem isContinuation_iff {b : Byte} : isContinuation b = true ↔ 0x80 ≤ b.val ∧ b.val ≤ 0xBF := by
  simp [isContinuation]

theorem isSecond_iff {a b : Byte} : isSecond a b = true ↔ (0x80 ≤ b.val ∧ b.val ≤ 0xBF) ∧
    (a.val = 0xE0 → 0xA0 ≤ b.val) ∧ (a.val = 0xED → b.val ≤ 0x9F) ∧ (a.val = 0xF0 → 0x90 ≤ b.val) ∧
    (a.val = 0xF4 → b.val ≤ 0x8F) := by
  unfold isSecond
  simp only [Bool.and_eq_true, isContinuation_iff, Bool.or_eq_true, bne_iff_ne, ne_eq,
    decide_eq_true_eq, and_assoc, Decidable.imp_iff_not_or]

/-- Taking as many continuation bytes as there are to take. -/
theorem takeWhile_take {n : Nat} {bytes : List Byte}
    (h : ((bytes.take n).takeWhile isContinuation).length = n) :
    n ≤ bytes.length ∧ (bytes.take n).takeWhile isContinuation = bytes.take n ∧
      ∀ b ∈ bytes.take n, isContinuation b = true := by
  have hprefix := List.takeWhile_prefix (l := bytes.take n) isContinuation
  have hle := hprefix.length_le
  rw [h, List.length_take] at hle
  have heq : (bytes.take n).takeWhile isContinuation = bytes.take n := by
    apply hprefix.eq_of_length
    rw [h, List.length_take]
    omega
  exact ⟨by omega, heq, List.takeWhile_eq_self_iff.mp heq⟩

/-! The sequences that the decoder takes as well formed, by their length. -/

theorem codePoint_val {n : Nat} (h : n < 1114112) : (Fin.ofNat 1114112 n).val = n :=
  Nat.mod_eq_of_lt h

theorem ofNat_eq_byte {n : Nat} {b : Byte} (h : n = b.val) : Fin.ofNat 256 n = b :=
  h ▸ Fin.ext (Nat.mod_eq_of_lt b.isLt)

theorem isSurrogate_ofNat {n : Nat} (hmax : n < 1114112) (h : n < 0xD800 ∨ 0xDFFF < n) :
    isSurrogate (Fin.ofNat 1114112 n) = false := by
  unfold isSurrogate
  rw [codePoint_val hmax]
  simp only [Bool.and_eq_false_iff, decide_eq_false_iff_not]
  omega

/-- A code point that is no surrogate, and its encoding. -/
def Encodes (c : CodePoint) (bytes : List Byte) : Prop :=
  isSurrogate c = false ∧ utf8Char c = bytes

theorem encodes_one {a : Byte} (ha : a.val < 0x80) : Encodes (Fin.ofNat _ a.val) [a] := by
  refine ⟨isSurrogate_ofNat (by omega) (by omega), ?_⟩
  unfold utf8Char
  simp only
  rw [codePoint_val (by omega), if_pos ha, ofNat_eq_byte rfl]

theorem encodes_two {a b : Byte} (ha : 0xC2 ≤ a.val ∧ a.val ≤ 0xDF) (hb : isSecond a b = true) :
    Encodes (Fin.ofNat _ (a.val % 32 * 64 + b.val % 64)) [a, b] := by
  obtain ⟨⟨hlo, hhi⟩, -⟩ := isSecond_iff.mp hb
  refine ⟨isSurrogate_ofNat (by omega) (by omega), ?_⟩
  unfold utf8Char
  simp only
  rw [codePoint_val (by omega), if_neg (by omega), if_pos (by omega),
    ofNat_eq_byte (b := a) (by omega), ofNat_eq_byte (b := b) (by omega)]

theorem encodes_three {a b c : Byte} (ha : 0xE0 ≤ a.val ∧ a.val ≤ 0xEF) (hb : isSecond a b = true)
    (hc : isContinuation c = true) :
    Encodes (Fin.ofNat _ (a.val % 16 * 4096 + b.val % 64 * 64 + c.val % 64)) [a, b, c] := by
  obtain ⟨⟨hlo, hhi⟩, hlow, hhigh, -⟩ := isSecond_iff.mp hb
  obtain ⟨hlo', hhi'⟩ := isContinuation_iff.mp hc
  refine ⟨isSurrogate_ofNat (by omega) (by omega), ?_⟩
  unfold utf8Char
  simp only
  rw [codePoint_val (by omega), if_neg (by omega), if_neg (by omega), if_pos (by omega),
    ofNat_eq_byte (b := a) (by omega), ofNat_eq_byte (b := b) (by omega),
    ofNat_eq_byte (b := c) (by omega)]

theorem encodes_four {a b c d : Byte} (ha : 0xF0 ≤ a.val ∧ a.val ≤ 0xF4)
    (hb : isSecond a b = true) (hc : isContinuation c = true) (hd : isContinuation d = true) :
    Encodes (Fin.ofNat _ (a.val % 8 * 262144 + b.val % 64 * 4096 + c.val % 64 * 64 + d.val % 64))
      [a, b, c, d] := by
  obtain ⟨⟨hlo, hhi⟩, -, -, hlow, hhigh⟩ := isSecond_iff.mp hb
  obtain ⟨hlo', hhi'⟩ := isContinuation_iff.mp hc
  obtain ⟨hlo'', hhi''⟩ := isContinuation_iff.mp hd
  refine ⟨isSurrogate_ofNat (by omega) (by omega), ?_⟩
  unfold utf8Char
  simp only
  rw [codePoint_val (by omega), if_neg (by omega), if_neg (by omega), if_neg (by omega),
    ofNat_eq_byte (b := a) (by omega), ofNat_eq_byte (b := b) (by omega),
    ofNat_eq_byte (b := c) (by omega), ofNat_eq_byte (b := d) (by omega)]

/-- A sequence that the decoder takes as well formed is the encoding of a code point. -/
theorem exists_encodes {bytes front : List Byte} (h : utf8Front bytes = (front, true)) :
    ∃ c rest, Encodes c front ∧ bytes = front ++ rest := by
  cases bytes with
  | nil => cases h
  | cons a bs =>
    rw [utf8Front] at h
    by_cases h₁ : a.val < 0x80
    · have hlead : leadLength a = 1 := by
        unfold leadLength
        rw [if_pos h₁]
      simp only [hlead] at h
      cases h
      exact ⟨_, bs, encodes_one h₁, rfl⟩
    by_cases h₂ : 0xC2 ≤ a.val ∧ a.val ≤ 0xDF
    · have hlead : leadLength a = 2 := by
        unfold leadLength
        rw [if_neg h₁, if_pos h₂]
      simp only [hlead] at h
      cases bs with
      | nil => cases h
      | cons b bs =>
        simp only at h
        by_cases hsecond : isSecond a b = true
        swap
        · rw [if_neg hsecond] at h
          cases h
        rw [if_pos hsecond] at h
        obtain rfl : [a, b] = front := by
          simpa using congrArg Prod.fst h
        exact ⟨_, bs, encodes_two h₂ hsecond, rfl⟩
    by_cases h₃ : 0xE0 ≤ a.val ∧ a.val ≤ 0xEF
    · have hlead : leadLength a = 3 := by
        unfold leadLength
        rw [if_neg h₁, if_neg h₂, if_pos h₃]
      simp only [hlead] at h
      cases bs with
      | nil => cases h
      | cons b bs =>
        simp only at h
        by_cases hsecond : isSecond a b = true
        swap
        · rw [if_neg hsecond] at h
          cases h
        rw [if_pos hsecond] at h
        obtain ⟨hfront, hwhole⟩ := Prod.mk.inj h
        obtain ⟨hlength, htail, hcontinue⟩ := takeWhile_take (of_decide_eq_true hwhole)
        rw [htail] at hfront
        match bs, hlength with
        | c :: bs, _ =>
        obtain rfl : [a, b, c] = front := hfront
        exact ⟨_, bs, encodes_three h₃ hsecond (hcontinue c List.mem_cons_self), rfl⟩
    by_cases h₄ : 0xF0 ≤ a.val ∧ a.val ≤ 0xF4
    · have hlead : leadLength a = 4 := by
        unfold leadLength
        rw [if_neg h₁, if_neg h₂, if_neg h₃, if_pos h₄]
      simp only [hlead] at h
      cases bs with
      | nil => cases h
      | cons b bs =>
        simp only at h
        by_cases hsecond : isSecond a b = true
        swap
        · rw [if_neg hsecond] at h
          cases h
        rw [if_pos hsecond] at h
        obtain ⟨hfront, hwhole⟩ := Prod.mk.inj h
        obtain ⟨hlength, htail, hcontinue⟩ := takeWhile_take (of_decide_eq_true hwhole)
        rw [htail] at hfront
        match bs, hlength with
        | c :: d :: bs, _ =>
        obtain rfl : [a, b, c, d] = front := hfront
        exact ⟨_, bs, encodes_four h₄ hsecond (hcontinue c List.mem_cons_self)
          (hcontinue d (List.mem_cons_of_mem _ List.mem_cons_self)), rfl⟩
    · have hlead : leadLength a = 0 := by
        unfold leadLength
        rw [if_neg h₁, if_neg h₂, if_neg h₃, if_neg h₄]
      simp only [hlead] at h
      cases h

/-! ## Texts -/

theorem encodable_cons {c : CodePoint} {s : Str} :
    Encodable (c :: s) ↔ isSurrogate c = false ∧ Encodable s := List.forall_mem_cons

/-- The first sequence, and the others. -/
theorem utf8Split_append {fuel : Nat} {c : CodePoint} (hc : isSurrogate c = false)
    (rest : List Byte) :
    utf8Split (fuel + 1) (utf8Char c ++ rest) = (utf8Char c, true) :: utf8Split fuel rest := by
  have hfront := utf8Front_utf8Char hc rest
  match hbytes : utf8Char c ++ rest with
  | [] => exact absurd (List.append_eq_nil_iff.mp hbytes).1 (utf8Char_ne_nil c)
  | a :: bs =>
    rw [hbytes] at hfront
    rw [utf8Split, hfront, ← hbytes, List.drop_left]

/-- The sequences of an encoding give the text, and no others give one. -/
theorem mapM_utf8Split {fuel : Nat} {data : List Byte} {s : Str} (hfuel : data.length ≤ fuel) :
    (utf8Split fuel data).mapM (fun front => if front.2 then some (utf8Value front.1) else none) =
      some s ↔ Encodable s ∧ s.flatMap utf8Char = data := by
  induction fuel generalizing data s with
  | zero =>
    obtain rfl : data = [] := List.length_eq_zero_iff.mp (Nat.le_zero.mp hfuel)
    cases s with
    | nil => simp [utf8Split, Encodable]
    | cons c s => simp [utf8Split, utf8Char_ne_nil]
  | succ fuel ih =>
    have hstep : ∀ {c rest}, isSurrogate c = false → data = utf8Char c ++ rest →
        ((utf8Split (fuel + 1) data).mapM (fun front =>
          if front.2 then some (utf8Value front.1) else none) = some s ↔
          ∃ t, (Encodable t ∧ t.flatMap utf8Char = rest) ∧ c :: t = s) := by
      rintro c rest hc rfl
      have hlength : rest.length ≤ fuel := by
        have := List.length_pos_of_ne_nil (utf8Char_ne_nil c)
        rw [List.length_append] at hfuel
        omega
      rw [utf8Split_append hc, List.mapM_cons, if_pos rfl, utf8Value_utf8Char]
      simp only [Option.bind_eq_bind, Option.bind_some, Option.pure_def, Option.bind_eq_some_iff,
        Option.some.injEq, ih hlength]
    constructor
    · intro h
      cases data with
      | nil =>
        cases h
        exact ⟨fun _ h => absurd h List.not_mem_nil, rfl⟩
      | cons a bs =>
        cases hfront : utf8Front (a :: bs) with
        | mk front whole =>
        cases whole with
        | false =>
          rw [utf8Split, hfront, List.mapM_cons] at h
          cases h
        | true =>
          obtain ⟨c, rest, ⟨hc, rfl⟩, hbytes⟩ := exists_encodes hfront
          obtain ⟨t, ⟨ht, hrest⟩, rfl⟩ := (hstep hc hbytes).mp h
          refine ⟨encodable_cons.mpr ⟨hc, ht⟩, ?_⟩
          rw [List.flatMap_cons, hrest, hbytes]
    · rintro ⟨hs, hbytes⟩
      cases s with
      | nil =>
        subst hbytes
        rfl
      | cons c t =>
        obtain ⟨hc, ht⟩ := encodable_cons.mp hs
        exact (hstep hc hbytes.symm).mpr ⟨t, ⟨ht, rfl⟩, rfl⟩

/-- A byte string is decoded exactly when it encodes a text, and then to this text. -/
theorem decodeUtf8_eq_some {data : List Byte} {s : Str} :
    decodeUtf8 data = some s ↔ Encodable s ∧ s.flatMap utf8Char = data :=
  mapM_utf8Split (Nat.le_refl _)

/-- The first character of a byte string that starts with the encoding of one. -/
theorem decodeUtf8_char {c : CodePoint} (hc : isSurrogate c = false) {rest : List Byte} {s : Str} :
    decodeUtf8 (utf8Char c ++ rest) = some s ↔ ∃ t, decodeUtf8 rest = some t ∧ s = c :: t := by
  simp only [decodeUtf8_eq_some]
  constructor
  · rintro ⟨hs, hbytes⟩
    cases s with
    | nil => exact absurd (List.append_eq_nil_iff.mp hbytes.symm).1 (utf8Char_ne_nil c)
    | cons d t =>
      rw [List.flatMap_cons] at hbytes
      obtain ⟨rfl, hrest⟩ := utf8Char_append_inj hbytes
      exact ⟨t, ⟨(encodable_cons.mp hs).2, hrest⟩, rfl⟩
  · rintro ⟨t, ⟨ht, hrest⟩, rfl⟩
    rw [List.flatMap_cons, hrest]
    exact ⟨encodable_cons.mpr ⟨hc, ht⟩, rfl⟩

/-- A text that is encoded at the front of a byte string is decoded as the front of the text. -/
theorem decodeUtf8_append {front : Str} (hfront : Encodable front) {rest : List Byte} {s : Str} :
    decodeUtf8 (front.flatMap utf8Char ++ rest) = some s ↔
      ∃ t, decodeUtf8 rest = some t ∧ s = front ++ t := by
  induction front generalizing s with
  | nil => simp
  | cons c front ih =>
    obtain ⟨hc, hfront⟩ := encodable_cons.mp hfront
    rw [List.flatMap_cons, List.append_assoc, decodeUtf8_char hc]
    constructor
    · rintro ⟨u, hu, rfl⟩
      obtain ⟨t, ht, rfl⟩ := (ih hfront).mp hu
      exact ⟨t, ht, rfl⟩
    · rintro ⟨t, ht, rfl⟩
      exact ⟨front ++ t, (ih hfront).mpr ⟨t, ht, rfl⟩, rfl⟩

end Py
