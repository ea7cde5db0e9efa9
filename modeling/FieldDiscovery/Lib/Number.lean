import FieldDiscovery.Lib.Regex
import FieldDiscovery.Lib.Runtime

/-!
# Numbers

`int` and `float` of a text, and the doubles that true division and the clock work with. A finite
double is the rational it stands for; `toDouble` rounds a rational to one, to nearest and ties to
even, and fails where Python raises `OverflowError`.
-/

namespace Py

/-! ## Numerals -/

/-- The white space of C, which `int` and `float` skip. -/
def isCSpace (c : CodePoint) : Bool := (9 ≤ c.val && c.val ≤ 13) || c.val == 32

/-- The ASCII form of a numeral: decimal digits of any script and white space are replaced. -/
def asciiNumeral (rt : Runtime) (s : Str) : Option Str :=
  if s.all isAscii then some s
  else s.mapM fun c =>
    if isAscii c then some c
    else if isSpace c then some (cp ' ')
    else (rt.decimalChar c).map digit

/-- `sys.get_int_max_str_digits()` -/
def maxIntDigits : Nat := 4300

/-- The value of `digits` with single underscores between them. -/
def parseDigits (s : Str) : Option Nat :=
  let groups := s.splitOn (cp '_')
  if groups.any fun g => g = [] || !g.all isDigit then none
  else if maxIntDigits < groups.flatten.length then none
  else some (decimal groups.flatten)

/-- `int(s)`; `none` is `ValueError`. -/
def parseInt (rt : Runtime) (s : Str) : Option Int :=
  (asciiNumeral rt s).bind fun t =>
    match stripBy isCSpace t with
    | [] => none
    | c :: u =>
      if c = cp '-' then (parseDigits u).map fun n => -(n : Int)
      else if c = cp '+' then (parseDigits u).map Int.ofNat
      else (parseDigits (c :: u)).map Int.ofNat

/-- The grammar of `float`. -/
def floatNumeral : Pattern :=
  let digits := Re.seq (.chr isDigit) (.star (.seq (.opt (.lit '_')) (.chr isDigit)))
  let sign := Re.opt (.chr fun c => c == cp '+' || c == cp '-')
  let mantissa := Re.alt (.seq digits (.opt (.seq (.lit '.') (.opt digits))))
    (.seq (.lit '.') digits)
  let exponent := Re.opt (.seqs [.wordIgnoreCase "e", sign, digits])
  [.re sign, .re (.alts [.seq mantissa exponent, .wordIgnoreCase "infinity",
    .wordIgnoreCase "inf", .wordIgnoreCase "nan"])]

/-- `float(s)` returns. -/
def isFloat (rt : Runtime) (s : Str) : Bool :=
  (asciiNumeral rt s).any fun t => (fullmatch floatNumeral (stripBy isCSpace t)).isSome

/-- `int(str(n))` -/
theorem parseInt_natStr (rt : Runtime) {n : Nat} (h : (natStr n).length ≤ maxIntDigits) :
    parseInt rt (natStr n) = some (n : Int) := by
  have hdigits := List.all_eq_true.mp (natStr_digits n)
  have hclass : ∀ c : CodePoint, isDigit c = true →
      isAscii c = true ∧ isCSpace c = false ∧ c ≠ cp '-' ∧ c ≠ cp '+' ∧ c ≠ cp '_' := by
    intro c hc
    unfold isDigit at hc
    rw [Bool.and_eq_true, decide_eq_true_eq, decide_eq_true_eq] at hc
    have hne : ∀ d : CodePoint, d.val < 48 ∨ 57 < d.val → c ≠ d := by
      rintro d hd rfl
      omega
    refine ⟨decide_eq_true (by omega), ?_, hne _ (.inl (by decide)), hne _ (.inl (by decide)),
      hne _ (.inr (by decide))⟩
    simp only [isCSpace, Bool.or_eq_false_iff, Bool.and_eq_false_iff, decide_eq_false_iff_not,
      beq_eq_false_iff_ne]
    omega
  have hascii : (natStr n).all isAscii = true :=
    List.all_eq_true.mpr fun c hc => (hclass c (hdigits c hc)).1
  have hstrip : stripBy isCSpace (natStr n) = natStr n :=
    stripBy_eq_self (fun c hc => (hclass c (hdigits c (List.mem_of_mem_head? hc))).2.1)
      fun c hc => (hclass c (hdigits c (List.mem_of_mem_getLast? hc))).2.1
  have hparse : parseDigits (natStr n) = some n := by
    have hgroups : (natStr n).splitOn (cp '_') = [natStr n] :=
      List.splitOnP_eq_singleton fun c hc => beq_false_of_ne (hclass c (hdigits c hc)).2.2.2.2
    unfold parseDigits
    rw [hgroups]
    simp [natStr_ne_nil, natStr_digits, decimal_natStr, not_lt.mpr h]
  obtain ⟨c, s, hcons⟩ := List.exists_cons_of_ne_nil (natStr_ne_nil n)
  obtain ⟨-, -, hminus, hplus, -⟩ := hclass c (hdigits c (by rw [hcons]; exact List.mem_cons_self))
  unfold parseInt asciiNumeral
  rw [if_pos hascii, Option.bind_some, hstrip]
  rw [hcons] at hparse ⊢
  simp only [if_neg hminus, if_neg hplus, hparse]
  rfl
/-! ## Doubles -/

/-- The nearest integer, and the even one of two. -/
def roundHalfEven (q : ℚ) : ℤ :=
  if q - ⌊q⌋ < 1 / 2 then ⌊q⌋
  else if 1 / 2 < q - ⌊q⌋ then ⌊q⌋ + 1
  else ⌊q⌋ + ⌊q⌋ % 2

/-- The exponent of the last binary digit of the double next to `q`. -/
def ulpExponent (q : ℚ) : ℤ := max (Int.log 2 |q| - 52) (-1074)

/-- The double nearest to `q`; `none` is `OverflowError`. -/
def toDouble (q : ℚ) : Option ℚ :=
  let d := roundHalfEven (q / 2 ^ ulpExponent q) * (2 : ℚ) ^ ulpExponent q
  if |d| < 2 ^ (1024 : ℤ) then some d else none

theorem roundHalfEven_error (q : ℚ) : |(roundHalfEven q : ℚ) - q| ≤ 1 / 2 := by
  have hlo := Int.floor_le q
  have hhi := Int.lt_floor_add_one q
  rw [abs_le, roundHalfEven]
  by_cases hbelow : q - ⌊q⌋ < 1 / 2
  · rw [if_pos hbelow]
    constructor <;> linarith
  · by_cases habove : 1 / 2 < q - ⌊q⌋
    · rw [if_neg hbelow, if_pos habove]
      push_cast
      constructor <;> linarith
    · have hodd : ((⌊q⌋ % 2 : ℤ) : ℚ) = 0 ∨ ((⌊q⌋ % 2 : ℤ) : ℚ) = 1 := by
        rcases Int.emod_two_eq_zero_or_one ⌊q⌋ with h | h
        · exact Or.inl (by rw [h]; rfl)
        · exact Or.inr (by rw [h]; rfl)
      rw [if_neg hbelow, if_neg habove]
      push_cast
      rcases hodd with h | h
      · rw [h]
        constructor <;> linarith
      · rw [h]
        constructor <;> linarith

/-- Rounding does not cross an integer. -/
theorem roundHalfEven_le {q : ℚ} {n : ℤ} (h : q ≤ n) : roundHalfEven q ≤ n := by
  have herror := (abs_le.mp (roundHalfEven_error q)).2
  have hlt : (roundHalfEven q : ℚ) < (n + 1 : ℤ) := by
    push_cast
    linarith
  have := Int.cast_lt.mp hlt
  omega

theorem le_roundHalfEven {q : ℚ} {n : ℤ} (h : n ≤ q) : n ≤ roundHalfEven q := by
  have herror := (abs_le.mp (roundHalfEven_error q)).1
  have hlt : ((n - 1 : ℤ) : ℚ) < roundHalfEven q := by
    push_cast
    linarith
  have := Int.cast_lt.mp hlt
  omega

/-- The last digit of a double is far below its value. -/
theorem ulp_le {q : ℚ} (h : 1 / 128 ≤ |q|) : (2 : ℚ) ^ ulpExponent q ≤ |q| / 2 ^ (52 : ℤ) := by
  have hpos : 0 < |q| := by linarith
  have hlog : -7 ≤ Int.log 2 |q| := by
    apply (Int.zpow_le_iff_le_log (by norm_num) hpos).mp
    norm_num
    linarith
  have hexp : ulpExponent q = Int.log 2 |q| - 52 := by
    unfold ulpExponent
    omega
  have hself : (2 : ℚ) ^ Int.log 2 |q| ≤ |q| := Int.zpow_log_le_self (by norm_num) hpos
  rw [hexp, zpow_sub₀ (by norm_num)]
  exact div_le_div_of_nonneg_right hself (by positivity)

/-- A hundredth of an integer rounds into `[0, 1]` exactly when the integer lies in `[0, 100]`. -/
theorem toDouble_percent (a : ℤ) :
    (∃ d, toDouble (a / 100) = some d ∧ 0 ≤ d ∧ d ≤ 1) ↔ 0 ≤ a ∧ a ≤ 100 := by
  generalize hq : (a / 100 : ℚ) = q
  have hu : (0 : ℚ) < 2 ^ ulpExponent q := by positivity
  have herror := abs_le.mp (roundHalfEven_error (q / 2 ^ ulpExponent q))
  unfold toDouble
  simp only
  generalize hm : roundHalfEven (q / 2 ^ ulpExponent q) = m at herror
  constructor
  · rintro ⟨d, hd, hd0, hd1⟩
    split at hd
    · obtain rfl := Option.some.inj hd
      by_contra hrange
      have hfar : 1 / 128 ≤ |q| ∧ (q < 0 ∨ 101 / 100 ≤ q) := by
        rw [← hq]
        rcases not_and_or.mp hrange with h | h
        · have ha : (a : ℚ) ≤ (-1 : ℤ) := Int.cast_le.mpr (by omega)
          push_cast at ha
          exact ⟨le_abs.mpr (Or.inr (by linarith)), Or.inl (by linarith)⟩
        · have ha : ((101 : ℤ) : ℚ) ≤ a := Int.cast_le.mpr (by omega)
          push_cast at ha
          exact ⟨le_abs.mpr (Or.inl (by linarith)), Or.inr (by linarith)⟩
      have hulp := ulp_le hfar.1
      have hscaled : m * 2 ^ ulpExponent q - q ≤ 2 ^ ulpExponent q / 2 ∧
          -(2 ^ ulpExponent q / 2) ≤ m * 2 ^ ulpExponent q - q := by
        have hcancel : q / 2 ^ ulpExponent q * 2 ^ ulpExponent q = q :=
          div_mul_cancel₀ q hu.ne'
        constructor
        · nlinarith [mul_le_mul_of_nonneg_right herror.2 hu.le]
        · nlinarith [mul_le_mul_of_nonneg_right herror.1 hu.le]
      norm_num at hulp
      rcases hfar.2 with hneg | hbig
      · rw [abs_of_neg hneg] at hulp
        linarith
      · rw [abs_of_pos (by linarith)] at hulp
        linarith
    · cases hd
  · rintro ⟨h0, h1⟩
    have hq0 : 0 ≤ q := by
      rw [← hq]
      positivity
    have hq1 : q ≤ 1 := by
      have ha : (a : ℚ) ≤ (100 : ℤ) := Int.cast_le.mpr h1
      push_cast at ha
      rw [← hq]
      linarith
    have hm0 : 0 ≤ m := by
      rw [← hm]
      apply le_roundHalfEven
      push_cast
      positivity
    have hexp : ulpExponent q ≤ 0 := by
      have hlog : Int.log 2 |q| ≤ 0 := by
        rcases hq0.eq_or_lt with hzero | hpos
        · rw [← hzero, abs_zero, Int.log_zero_right]
        · rw [abs_of_pos hpos, ← Int.log_one_right (R := ℚ) 2]
          exact Int.log_mono_right hpos hq1
      unfold ulpExponent
      omega
    -- one is a multiple of the last digit, so rounding does not cross it
    obtain ⟨k, hk⟩ := Int.eq_ofNat_of_zero_le (neg_nonneg.mpr hexp)
    have hone : (2 : ℚ) ^ ulpExponent q * ((2 ^ k : ℤ) : ℚ) = 1 := by
      have hneg : ulpExponent q = -(k : ℤ) := by omega
      rw [hneg, zpow_neg, zpow_natCast]
      push_cast
      exact inv_mul_cancel₀ (by positivity)
    have hmk : m ≤ 2 ^ k := by
      rw [← hm]
      apply roundHalfEven_le
      rw [div_le_iff₀ hu, mul_comm, hone]
      exact hq1
    have hd0 : (0 : ℚ) ≤ m * 2 ^ ulpExponent q := mul_nonneg (by exact_mod_cast hm0) hu.le
    have hd1 : (m : ℚ) * 2 ^ ulpExponent q ≤ 1 := by
      rw [← hone, mul_comm ((2 : ℚ) ^ ulpExponent q)]
      exact mul_le_mul_of_nonneg_right (by exact_mod_cast hmk) hu.le
    refine ⟨_, if_pos ?_, hd0, hd1⟩
    rw [abs_of_nonneg hd0]
    calc (m : ℚ) * 2 ^ ulpExponent q ≤ 1 := hd1
      _ < 2 ^ (1024 : ℤ) := one_lt_zpow₀ (by norm_num) (by norm_num)

/-! ## Two decimals -/

/-- `round(q, 2)`, of a quotient that is read as the exact rational. -/
def round2 (q : ℚ) : ℚ := roundHalfEven (q * 100) / 100

/-- `f"{q:.2f}"` for a `q` that is not negative. -/
def fixed2 (q : ℚ) : Str :=
  let hundredths := (roundHalfEven (q * 100)).toNat
  natStr (hundredths / 100) ++ str "." ++ padNat 2 (hundredths % 100)

/-- Half below an even number rounds up to it. -/
theorem even_le_roundHalfEven_iff {q : ℚ} {k : ℤ} :
    2 * k ≤ roundHalfEven q ↔ 2 * (k : ℚ) - 1 / 2 ≤ q := by
  have herror := abs_le.mp (roundHalfEven_error q)
  constructor
  · intro h
    have hcast : ((2 * k : ℤ) : ℚ) ≤ roundHalfEven q := Int.cast_le.mpr h
    push_cast at hcast
    linarith
  · intro h
    by_contra hlt
    have hfloor : ⌊q⌋ = 2 * k - 1 := by
      have hround : (roundHalfEven q : ℚ) ≤ (2 * k - 1 : ℤ) := Int.cast_le.mpr (by omega)
      push_cast at hround
      refine Int.floor_eq_iff.mpr ⟨?_, ?_⟩
      · push_cast
        linarith
      · push_cast
        linarith
    unfold roundHalfEven at hlt
    rw [hfloor] at hlt
    push_cast at hlt
    split at hlt
    · linarith
    · split at hlt
      · omega
      · omega

/-- A quotient reaches a whole number after rounding from half a hundredth below it. -/
theorem le_round2_iff {q : ℚ} {n : ℤ} : (n : ℚ) ≤ round2 q ↔ n - 1 / 200 ≤ q := by
  rw [round2, le_div_iff₀ (by norm_num)]
  have hround := even_le_roundHalfEven_iff (q := q * 100) (k := 50 * n)
  rw [← Int.cast_le (R := ℚ)] at hround
  push_cast at hround
  constructor
  · intro h
    have := hround.mp (by linarith)
    linarith
  · intro h
    have := hround.mpr (by linarith)
    linarith

end Py
