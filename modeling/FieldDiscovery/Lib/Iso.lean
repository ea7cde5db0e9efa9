import FieldDiscovery.Lib.Clock
import Mathlib

/-!
# ISO texts compare as times

`isoformat` of a UTC time leaves its microseconds out when there are none, so the texts differ in
length. Compared as texts they still order the times (`isoformat_lt_iff`): every field is padded,
and `+`, which ends a text without a fraction, comes before the full stop that begins one.
-/

open List

namespace Py

/-! ## Texts of one length -/

theorem append_lt_append_iff {α : Type*} [LinearOrder α] {a a' b b' : List α}
    (h : a.length = a'.length) : a ++ b < a' ++ b' ↔ a < a' ∨ a = a' ∧ b < b' := by
  induction a generalizing a' with
  | nil =>
    cases a' with
    | nil => simp
    | cons c a' => simp at h
  | cons c a ih =>
    cases a' with
    | nil => simp at h
    | cons c' a' =>
      have hlen : a.length = a'.length := by simpa using h
      simp only [cons_append, cons_lt_cons_iff, ih hlen, cons.injEq]
      tauto

theorem decimal_lt (s : Str) (h : s.all isDigit = true) : decimal s < 10 ^ s.length := by
  induction s using List.reverseRecOn with
  | nil => simp [decimal]
  | append_singleton s c ih =>
    rw [all_append, Bool.and_eq_true] at h
    have hs := ih h.1
    have hc : 48 ≤ c.val ∧ c.val ≤ 57 := by simpa [isDigit] using h.2
    have hone : decimal (s ++ [c]) = decimal s * 10 + (c.val - 48) := by
      rw [decimal_append]
      simp [decimal]
    rw [hone, length_append, length_singleton, Nat.pow_succ]
    omega

/-- Digits of one length compare as their numbers do. -/
theorem lt_iff_decimal_lt {s t : Str} (hlen : s.length = t.length) (hs : s.all isDigit = true)
    (ht : t.all isDigit = true) : s < t ↔ decimal s < decimal t := by
  induction s generalizing t with
  | nil =>
    cases t with
    | nil => simp
    | cons d t => simp at hlen
  | cons c s ih =>
    cases t with
    | nil => simp at hlen
    | cons d t =>
      have hlen' : s.length = t.length := by simpa using hlen
      rw [all_cons, Bool.and_eq_true] at hs ht
      have hc : 48 ≤ c.val ∧ c.val ≤ 57 := by simpa [isDigit] using hs.1
      have hd : 48 ≤ d.val ∧ d.val ≤ 57 := by simpa [isDigit] using ht.1
      have hdec : ∀ (x : CodePoint) (u : Str),
          decimal (x :: u) = (x.val - 48) * 10 ^ u.length + decimal u := by
        intro x u
        have happ := decimal_append [x] u
        rw [singleton_append] at happ
        rw [happ]
        simp [decimal]
      have hs' := decimal_lt s hs.2
      have ht' := decimal_lt t ht.2
      rw [cons_lt_cons_iff, ih hlen' hs.2 ht.2, hdec, hdec, hlen']
      rw [hlen'] at hs'
      set p := 10 ^ t.length
      rcases lt_trichotomy c d with hlt | rfl | hgt
      · have hval : c.val < d.val := hlt
        have hmul : (c.val - 48 + 1) * p ≤ (d.val - 48) * p := Nat.mul_le_mul_right p (by omega)
        rw [Nat.add_mul, one_mul] at hmul
        exact iff_of_true (Or.inl hlt) (by omega)
      · simp
      · have hval : d.val < c.val := hgt
        have hmul : (d.val - 48 + 1) * p ≤ (c.val - 48) * p := Nat.mul_le_mul_right p (by omega)
        rw [Nat.add_mul, one_mul] at hmul
        refine iff_of_false ?_ (by omega)
        rintro (h | ⟨rfl, -⟩)
        · exact lt_asymm h hgt
        · exact lt_irrefl _ hgt

theorem padNat_lt_iff {w n m : Nat} (hw : 0 < w) (hn : n < 10 ^ w) (hm : m < 10 ^ w) :
    padNat w n < padNat w m ↔ n < m := by
  rw [lt_iff_decimal_lt (by rw [padNat_length hw hn, padNat_length hw hm]) (padNat_digits w n)
    (padNat_digits w m), decimal_padNat, decimal_padNat]

theorem padNat_inj {w n m : Nat} (h : padNat w n = padNat w m) : n = m := by
  rw [← decimal_padNat w n, h, decimal_padNat]

namespace Datetime

theorem monthDay_succ (leap : Bool) : ∀ n < 364,
    toLex (monthDay (leap = true) n) < toLex (monthDay (leap = true) (n + 1)) := by
  cases leap <;> decide +kernel

/-! ## The calendar -/

/-- The date of a day number, ordered as dates are. -/
def dateKey (n : Nat) : ℕ ×ₗ ℕ ×ₗ ℕ := toLex ((ord2ymd n).1, toLex (ord2ymd n).2)

/-- Counting up either stays in a cycle or begins the next one. -/
theorem succ_div_mod (n : Nat) {k : Nat} (hk : 0 < k) :
    ((n + 1) / k = n / k ∧ (n + 1) % k = n % k + 1 ∧ n % k + 1 < k) ∨
      ((n + 1) / k = n / k + 1 ∧ (n + 1) % k = 0 ∧ n % k + 1 = k) := by
  have hn := Nat.mod_add_div n k
  rcases Nat.lt_or_ge (n % k + 1) k with h | h
  · obtain ⟨hdiv, hmod⟩ := (Nat.div_mod_unique hk).mpr
      ⟨show n % k + 1 + k * (n / k) = n + 1 by omega, h⟩
    exact Or.inl ⟨hdiv, hmod, h⟩
  · have heq : n % k + 1 = k := le_antisymm (Nat.mod_lt n hk) h
    obtain ⟨hdiv, hmod⟩ := (Nat.div_mod_unique hk).mpr
      ⟨show 0 + k * (n / k + 1) = n + 1 by rw [Nat.mul_add, Nat.mul_one]; omega, hk⟩
    exact Or.inr ⟨hdiv, hmod, heq⟩

theorem dateKey_succ (n : Nat) : dateKey n < dateKey (n + 1) := by
  unfold dateKey ord2ymd
  simp only
  rw [Prod.Lex.lt_iff]
  simp only [ofLex_toLex]
  have hr := Nat.mod_lt n (show 0 < 146097 by norm_num)
  rcases succ_div_mod n (show 0 < 146097 by norm_num) with ⟨h1, h1', h⟩ | ⟨h1, h1', h⟩
  swap
  · -- a cycle of 400 years ends
    rw [h1, h1', show n % 146097 = 146096 by omega]
    left
    norm_num
    omega
  rw [h1, h1']
  generalize n / 146097 = a
  generalize n % 146097 = r at *
  clear h1 h1' hr
  have hr2 := Nat.mod_lt r (show 0 < 36524 by norm_num)
  have hb := Nat.div_add_mod r 36524
  rcases succ_div_mod r (show 0 < 36524 by norm_num) with ⟨h2, h2', h⟩ | ⟨h2, h2', h⟩
  swap
  · -- a century ends
    rw [h2, h2', show r % 36524 = 36523 by omega]
    generalize r / 36524 = b at *
    rcases (show b ≤ 2 ∨ b = 3 by omega) with hb | rfl
    · rw [if_neg (by omega), if_neg (by omega)]
      left
      simp only
      omega
    · rw [if_neg (by decide), if_pos (by decide)]
      refine Or.inr ⟨by simp only; omega, ?_⟩
      change toLex (monthDay (36523 % 1461 / 365 = 3 ∧ (36523 / 1461 ≠ 24 ∨ 3 = 3))
        (36523 % 1461 % 365)) < toLex (12, 31)
      decide
  rw [h2, h2']
  generalize r / 36524 = b at *
  generalize r % 36524 = r2 at *
  clear h2 h2'
  have hr3 := Nat.mod_lt r2 (show 0 < 1461 by norm_num)
  have hc := Nat.div_add_mod r2 1461
  rcases succ_div_mod r2 (show 0 < 1461 by norm_num) with ⟨h3, h3', h⟩ | ⟨h3, h3', h⟩
  swap
  · -- four years end
    rw [h3, h3', show r2 % 1461 = 1460 by omega]
    generalize r2 / 1461 = c at *
    norm_num
    left
    split
    · simp only
      omega
    · simp only
      omega
  rw [h3, h3']
  generalize r2 / 1461 = c at *
  generalize r2 % 1461 = r3 at *
  clear h3 h3'
  have he := Nat.mod_lt r3 (show 0 < 365 by norm_num)
  have hd := Nat.div_add_mod r3 365
  rcases succ_div_mod r3 (show 0 < 365 by norm_num) with ⟨h4, h4', h⟩ | ⟨h4, h4', h⟩
  · -- the next day of the year
    rw [h4, h4']
    generalize r3 / 365 = d at *
    generalize r3 % 365 = e at *
    rw [if_neg (by omega), if_neg (by omega)]
    have hsucc := monthDay_succ (decide (d = 3 ∧ (c ≠ 24 ∨ b = 3))) e (by omega)
    right
    refine ⟨rfl, ?_⟩
    simpa only [decide_eq_true_eq] using hsucc
  · -- 365 days end
    rw [h4, h4', show r3 % 365 = 364 by omega]
    generalize r3 / 365 = d at *
    rw [if_neg (by omega)]
    split
    · next hlast =>
      have hleap : d = 3 ∧ (c ≠ 24 ∨ b = 3) := by omega
      right
      refine ⟨by simp only; omega, ?_⟩
      simp only [hleap, monthDay]
      decide
    · left
      simp only
      omega

theorem dateKey_strictMono : StrictMono dateKey := strictMono_nat_of_lt_succ dateKey_succ

/-! ## Fields -/

theorem lt_iff_div_mod {a b : Nat} {k : Nat} (hk : 0 < k) :
    a < b ↔ a / k < b / k ∨ a / k = b / k ∧ a % k < b % k := by
  have ha := Nat.mod_add_div a k
  have hb := Nat.mod_add_div b k
  have hak := Nat.mod_lt a hk
  have hbk := Nat.mod_lt b hk
  rcases lt_trichotomy (a / k) (b / k) with h | h | h
  · have hmul : k * (a / k + 1) ≤ k * (b / k) := Nat.mul_le_mul_left k h
    rw [Nat.mul_add, Nat.mul_one] at hmul
    exact iff_of_true (by omega) (Or.inl h)
  · rw [h] at ha ⊢
    simp only [lt_irrefl, true_and, false_or]
    omega
  · have hmul : k * (b / k + 1) ≤ k * (a / k) := Nat.mul_le_mul_left k h
    rw [Nat.mul_add, Nat.mul_one] at hmul
    exact iff_of_false (by omega) (by omega)

theorem padNat_append_lt {w n m : Nat} {s t : Str} (hw : 0 < w) (hn : n < 10 ^ w)
    (hm : m < 10 ^ w) : padNat w n ++ s < padNat w m ++ t ↔ n < m ∨ n = m ∧ s < t := by
  rw [append_lt_append_iff (by rw [padNat_length hw hn, padNat_length hw hm]),
    padNat_lt_iff hw hn hm]
  constructor
  · rintro (h | ⟨h, hlt⟩)
    · exact Or.inl h
    · exact Or.inr ⟨padNat_inj h, hlt⟩
  · rintro (h | ⟨rfl, hlt⟩)
    · exact Or.inl h
    · exact Or.inr ⟨rfl, hlt⟩

theorem append_lt_append_left {α : Type*} [LinearOrder α] (a : List α) {b b' : List α} :
    a ++ b < a ++ b' ↔ b < b' := by
  rw [append_lt_append_iff rfl]
  simp

/-- The microseconds of `isoformat`, left out when there are none. -/
def fraction (us : Nat) : Str := if us ≠ 0 then str "." ++ padNat 6 us else []

theorem fraction_lt {us us' : Nat} (h : us < 1000000) (h' : us' < 1000000) :
    fraction us ++ str "+00:00" < fraction us' ++ str "+00:00" ↔ us < us' := by
  unfold fraction
  by_cases hus : us = 0 <;> by_cases hus' : us' = 0
  · simp [hus, hus']
  · rw [if_neg (by simpa using hus), if_pos hus', hus]
    exact iff_of_true (by rw [append_assoc]; exact List.cons_lt_cons_iff.mpr (Or.inl (by decide)))
      (Nat.pos_of_ne_zero hus')
  · rw [if_pos hus, if_neg (by simpa using hus'), hus']
    refine iff_of_false ?_ (by omega)
    rw [append_assoc, not_lt]
    exact (List.cons_lt_cons_iff.mpr (Or.inl (by decide))).le
  · rw [if_pos hus, if_pos hus', append_assoc, append_assoc, append_lt_append_left,
      padNat_append_lt (by norm_num) (by omega) (by omega)]
    simp

theorem lex_assoc {P p Q q R : Prop} : (P ∨ p ∧ Q) ∨ (p ∧ q) ∧ R ↔ P ∨ p ∧ (Q ∨ q ∧ R) := by
  tauto

/-- One field of a mixed-radix number decides before the rest. -/
theorem mod_lt_iff {a b k : Nat} (hk : 0 < k) (r : Nat) : a % (k * r) < b % (k * r) ↔
    a / k % r < b / k % r ∨ a / k % r = b / k % r ∧ a % k < b % k := by
  rw [lt_iff_div_mod hk, Nat.mod_mul_right_div_self, Nat.mod_mul_right_div_self,
    Nat.mod_mul_right_mod, Nat.mod_mul_right_mod]

/-- `isoformat` of a UTC time, field by field. -/
theorem isoformat_utc {d : Datetime} (h : d.offset = 0) : d.isoformat =
    padNat 4 d.ymd.1 ++ (str "-" ++ (padNat 2 d.ymd.2.1 ++ (str "-" ++ (padNat 2 d.ymd.2.2 ++
      (str "T" ++ (padNat 2 (d.micros / 3600000000 % 24) ++ (str ":" ++
      (padNat 2 (d.micros / 60000000 % 60) ++ (str ":" ++ (padNat 2 (d.micros / 1000000 % 60) ++
      (fraction (d.micros % 1000000) ++ str "+00:00"))))))))))) := by
  have hhour : d.micros % microsPerDay / 1000000 / 3600 = d.micros / 3600000000 % 24 := by
    unfold microsPerDay
    omega
  have hminute : d.micros % microsPerDay / 1000000 / 60 % 60 = d.micros / 60000000 % 60 := by
    unfold microsPerDay
    omega
  have hsecond : d.micros % microsPerDay / 1000000 % 60 = d.micros / 1000000 % 60 := by
    unfold microsPerDay
    omega
  unfold isoformat
  simp only [h, hhour, hminute, hsecond, append_assoc]
  rfl

/-- Among UTC times, the order of the texts is the order of the instants. -/
theorem isoformat_lt_iff {d e : Datetime} (hd : d.offset = 0) (he : e.offset = 0) :
    d.isoformat < e.isoformat ↔ d.instant < e.instant := by
  have hdate := d.ymd_isDate
  have hdate' := e.ymd_isDate
  have hday := hdate.day_lt
  have hday' := hdate'.day_lt
  have hbounds := And.intro hdate.year_le hdate.month_le
  have hbounds' := And.intro hdate'.year_le hdate'.month_le
  rw [isoformat_utc hd, isoformat_utc he]
  rw [padNat_append_lt (by norm_num) (by omega) (by omega), append_lt_append_left,
    padNat_append_lt (by norm_num) (by omega) (by omega), append_lt_append_left,
    padNat_append_lt (by norm_num) (by omega) (by omega), append_lt_append_left,
    padNat_append_lt (by norm_num) (by omega) (by omega), append_lt_append_left,
    padNat_append_lt (by norm_num) (by omega) (by omega), append_lt_append_left,
    padNat_append_lt (by norm_num) (by omega) (by omega),
    fraction_lt (Nat.mod_lt _ (by norm_num)) (Nat.mod_lt _ (by norm_num))]
  have hinstant : d.instant < e.instant ↔ d.micros < e.micros := by
    unfold instant
    rw [hd, he]
    omega
  have hmicros : d.micros < e.micros ↔
      d.micros / microsPerDay < e.micros / microsPerDay ∨
        d.micros / microsPerDay = e.micros / microsPerDay ∧
        (d.micros / 3600000000 % 24 < e.micros / 3600000000 % 24 ∨
          d.micros / 3600000000 % 24 = e.micros / 3600000000 % 24 ∧
          (d.micros / 60000000 % 60 < e.micros / 60000000 % 60 ∨
            d.micros / 60000000 % 60 = e.micros / 60000000 % 60 ∧
            (d.micros / 1000000 % 60 < e.micros / 1000000 % 60 ∨
              d.micros / 1000000 % 60 = e.micros / 1000000 % 60 ∧
              d.micros % 1000000 < e.micros % 1000000))) := by
    have hhour : d.micros % microsPerDay < e.micros % microsPerDay ↔ _ :=
      mod_lt_iff (show 0 < 3600000000 by norm_num) 24
    have hminute : d.micros % 3600000000 < e.micros % 3600000000 ↔ _ :=
      mod_lt_iff (show 0 < 60000000 by norm_num) 60
    have hsecond : d.micros % 60000000 < e.micros % 60000000 ↔ _ :=
      mod_lt_iff (show 0 < 1000000 by norm_num) 60
    rw [lt_iff_div_mod (show 0 < microsPerDay by decide), hhour, hminute, hsecond]
  have hday : d.micros / microsPerDay < e.micros / microsPerDay ↔
      d.ymd.1 < e.ymd.1 ∨ d.ymd.1 = e.ymd.1 ∧ (d.ymd.2.1 < e.ymd.2.1 ∨
        d.ymd.2.1 = e.ymd.2.1 ∧ d.ymd.2.2 < e.ymd.2.2) := by
    rw [← dateKey_strictMono.lt_iff_lt]
    unfold dateKey
    rw [Prod.Lex.lt_iff, ofLex_toLex, ofLex_toLex, Prod.Lex.lt_iff]
    rfl
  have hsame : d.micros / microsPerDay = e.micros / microsPerDay ↔
      d.ymd.1 = e.ymd.1 ∧ d.ymd.2.1 = e.ymd.2.1 ∧ d.ymd.2.2 = e.ymd.2.2 := by
    rw [← dateKey_strictMono.injective.eq_iff]
    unfold dateKey
    simp only [EmbeddingLike.apply_eq_iff_eq, Prod.ext_iff]
    rfl
  rw [hinstant, hmicros, hday, hsame, lex_assoc, lex_assoc]

theorem isoformat_ascii (d : Datetime) : d.isoformat.all (fun c => decide (c.val < 128)) = true := by
  have hdigits : ∀ w n, (padNat w n).all (fun c => decide (c.val < 128)) = true := by
    intro w n
    refine all_eq_true.mpr fun c hc => ?_
    have hdigit : isDigit c = true := all_eq_true.mp (padNat_digits w n) c hc
    simp only [isDigit, Bool.and_eq_true, decide_eq_true_eq] at hdigit ⊢
    omega
  have hdash : (str "-").all (fun c => decide (c.val < 128)) = true := by decide
  have hplus : (str "+").all (fun c => decide (c.val < 128)) = true := by decide
  have hcolon : (str ":").all (fun c => decide (c.val < 128)) = true := by decide
  have hstop : (str ".").all (fun c => decide (c.val < 128)) = true := by decide
  have hletter : (str "T").all (fun c => decide (c.val < 128)) = true := by decide
  have hsign : (if d.offset < 0 then str "-" else str "+").all (fun c => decide (c.val < 128)) =
      true := by
    split
    · exact hdash
    · exact hplus
  have hoptional : ∀ {p : Prop} [Decidable p] {s : Str},
      s.all (fun c => decide (c.val < 128)) = true →
      (if p then s else []).all (fun c => decide (c.val < 128)) = true := by
    intro p _ s hs
    split
    · exact hs
    · rfl
  have hfraction : ∀ n, (str "." ++ padNat 6 n).all (fun c => decide (c.val < 128)) = true := by
    intro n
    rw [all_append, hstop, hdigits, Bool.and_self]
  have hseconds : ∀ n, (str ":" ++ padNat 2 n).all (fun c => decide (c.val < 128)) = true := by
    intro n
    rw [all_append, hcolon, hdigits, Bool.and_self]
  unfold isoformat isoOffset
  simp only [all_append, hdigits, hdash, hcolon, hletter, hsign, hoptional (hfraction _),
    hoptional (hseconds _), Bool.and_self]

end Datetime

namespace Utc

/-- Texts of UTC times order as the times do. -/
theorem isoformat_strictMono : StrictMono Utc.isoformat := by
  intro t t' h
  refine (Datetime.isoformat_lt_iff rfl rfl).mpr ?_
  have hlt : t.val < t'.val := h
  unfold Datetime.instant
  simp only
  omega

theorem isoformat_encodable (t : Utc) : Encodable t.isoformat := by
  intro c hc
  have hlt := all_eq_true.mp (Datetime.isoformat_ascii _) c hc
  simp only [decide_eq_true_eq] at hlt
  unfold isSurrogate
  simp only [Bool.and_eq_false_iff, decide_eq_false_iff_not]
  omega

end Utc

end Py
