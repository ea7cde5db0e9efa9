import FieldDiscovery.Correlation.Evidence
import FieldDiscovery.Passive.Arp

/-!
# MAC addresses of neighbors and of devices

`_mac` of `neighbor.py` and `_normalize_mac` of `correlation.py` remove the same punctuation and
count the same twelve characters, but `bytes.fromhex` skips ASCII whitespace between bytes. The two
agree on a string exactly when it does not hide whitespace among whole pairs of digits
(`macsAgree_iff`).
-/

namespace FieldDiscovery.Passive.Neighbor

open Py Correlation Dhcp

/-! ## What `bytes.fromhex` reads -/

/-- Pairs of hexadecimal digits with ASCII whitespace around them. -/
inductive HexPairs : Str → Prop where
  | nil : HexPairs []
  | space {c : CodePoint} {s : Str} : isAsciiSpace c → HexPairs s → HexPairs (c :: s)
  | pair {c d : CodePoint} {s : Str} : isHex c → isHex d → HexPairs s → HexPairs (c :: d :: s)

theorem not_isHex_of_isAsciiSpace {c : CodePoint} (h : isAsciiSpace c) : isHex c = false := by
  simp only [isAsciiSpace, Bool.or_eq_true, Bool.and_eq_true, beq_iff_eq, decide_eq_true_eq] at h
  simp only [isHex, isDigit, Bool.or_eq_false_iff, Bool.and_eq_false_iff, decide_eq_false_iff_not]
  omega

theorem bytesFromHex_isSome_iff {s : Str} : (bytesFromHex s).isSome ↔ HexPairs s := by
  constructor
  · intro h
    induction s using bytesFromHex.induct with
    | case1 => exact .nil
    | case2 c hspace => exact .space hspace .nil
    | case3 c hspace =>
      rw [bytesFromHex, if_neg hspace] at h
      cases h
    | case4 c d s hspace ih =>
      rw [bytesFromHex, if_pos hspace] at h
      exact .space hspace (ih h)
    | case5 c d s hspace hhex ih =>
      rw [bytesFromHex, if_neg hspace, if_pos hhex, Option.isSome_map] at h
      exact .pair hhex.1 hhex.2 (ih h)
    | case6 c d s hspace hhex =>
      rw [bytesFromHex, if_neg hspace, if_neg hhex] at h
      cases h
  · intro h
    induction h with
    | nil => rfl
    | @space c s hspace hrest ih =>
      cases s with
      | nil =>
        rw [bytesFromHex, if_pos hspace]
        rfl
      | cons d s =>
        rw [bytesFromHex, if_pos hspace]
        exact ih
    | @pair c d s hc hd _ ih =>
      have hspace : ¬ isAsciiSpace c = true := by
        intro hspace
        rw [not_isHex_of_isAsciiSpace hspace] at hc
        cases hc
      rw [bytesFromHex, if_neg hspace, if_pos ⟨hc, hd⟩, Option.isSome_map]
      exact ih

/-- Without whitespace they are digits. -/
theorem HexPairs.all_isHex {s : Str} (h : HexPairs s) (hspace : ∀ c ∈ s, isAsciiSpace c = false) :
    s.all isHex = true := by
  induction h with
  | nil => rfl
  | space hc _ _ =>
    rw [hspace _ List.mem_cons_self] at hc
    cases hc
  | pair hc hd _ ih =>
    simp only [List.all_cons, hc, hd, Bool.true_and]
    exact ih fun c hmem => hspace c (List.mem_cons_of_mem _ (List.mem_cons_of_mem _ hmem))

/-- Two digits are the byte that they write. -/
theorem hexBytes_pair {c d : CodePoint} (hc : isHex c) (hd : isHex d) :
    hexBytes [Fin.ofNat _ (hexNumber [c, d])] = [lowerAscii c, lowerAscii d] := by
  have hdigit : ∀ {x : CodePoint}, isHex x = true →
      hexValue x < 16 ∧ ∀ n, n % 16 = hexValue x → lowerAscii (upperHexDigit n) = lowerAscii x := by
    intro x hx
    have hlt : x.val < 103 := by
      simp only [isHex, isDigit, Bool.or_eq_true, Bool.and_eq_true, decide_eq_true_eq] at hx
      omega
    have hall : ∀ n : Fin 103, isHex (Fin.ofNat 1114112 n.val) = true →
        hexValue (Fin.ofNat 1114112 n.val) < 16 ∧
          lowerAscii (upperHexDigit (hexValue (Fin.ofNat 1114112 n.val))) =
            lowerAscii (Fin.ofNat 1114112 n.val) := by
      decide
    have hfin := hall ⟨x.val, hlt⟩
    have hself : Fin.ofNat 1114112 x.val = x := by ext; simp
    rw [hself] at hfin
    obtain ⟨hvalue, htext⟩ := hfin hx
    refine ⟨hvalue, fun n hn => ?_⟩
    rw [← htext]
    unfold upperHexDigit
    rw [hn, Nat.mod_eq_of_lt hvalue]
  obtain ⟨hcval, hctext⟩ := hdigit hc
  obtain ⟨hdval, hdtext⟩ := hdigit hd
  have hnumber : hexNumber [c, d] = 16 * hexValue c + hexValue d := by
    simp [hexNumber]
  have hval : (Fin.ofNat 256 (hexNumber [c, d])).val = 16 * hexValue c + hexValue d := by
    rw [Fin.val_ofNat, hnumber]
    omega
  simp only [hexBytes, upperHex, List.flatMap_cons, List.flatMap_nil, List.append_nil,
    List.map_cons, List.map_nil]
  rw [hctext _ (by rw [hval]; omega), hdtext _ (by rw [hval]; omega)]

/-- What `bytes.fromhex` returns for digits alone. -/
theorem bytesFromHex_of_all {n : Nat} {s : Str} (hlen : s.length = 2 * n)
    (hhex : s.all isHex = true) : ∃ raw, bytesFromHex s = some raw ∧
      raw.map (fun octet => hexBytes [octet]) =
        (List.range n).map fun i => ((s.drop (2 * i)).take 2).map lowerAscii := by
  induction n generalizing s with
  | zero =>
    obtain rfl := List.length_eq_zero_iff.mp hlen
    exact ⟨[], rfl, rfl⟩
  | succ n ih =>
    match s, hlen with
    | c :: d :: s, hlen =>
      simp only [List.all_cons, Bool.and_eq_true] at hhex
      obtain ⟨hc, hd, hrest⟩ := hhex
      obtain ⟨raw, hraw, htext⟩ := ih (by simpa [Nat.mul_add] using hlen) hrest
      have hspace : ¬ isAsciiSpace c = true := by
        intro hspace
        rw [not_isHex_of_isAsciiSpace hspace] at hc
        cases hc
      refine ⟨Fin.ofNat _ (hexNumber [c, d]) :: raw, ?_, ?_⟩
      · rw [bytesFromHex, if_neg hspace, if_pos ⟨hc, hd⟩, hraw, Option.map_some]
      · rw [List.map_cons, htext, hexBytes_pair hc hd, List.range_succ_eq_map, List.map_cons,
          List.map_map]
        rfl

/-! ## The two normal forms -/

/-- The string stripped, without its colons and hyphens. -/
def plain (value : Str) : Str := (strip value).filter fun c => !(c == cp ':' || c == cp '-')

theorem replace_single (c : CodePoint) (s : Str) :
    replace [c] [] s = s.filter fun d => !(d == c) := by
  rw [replace_singleton]
  induction s with
  | nil => rfl
  | cons d s ih => by_cases h : d = c <;> simp [h, ih]

theorem plain_eq (value : Str) :
    replace (str "-") [] (replace (str ":") [] (strip value)) = plain value := by
  have hcolon : str ":" = [cp ':'] := rfl
  have hhyphen : str "-" = [cp '-'] := rfl
  rw [hcolon, hhyphen, replace_single, replace_single, List.filter_filter, plain]
  refine List.filter_congr fun c _ => ?_
  rw [Bool.not_or, Bool.and_comm]

/-- Six pairs of lower-case hexadecimal digits, with colons between them. -/
def IsSixOctets (s : Str) : Prop :=
  ∃ octets : List Str, octets.length = 6 ∧
    (∀ octet ∈ octets, octet.length = 2 ∧ ∀ c ∈ octet, isHex c ∧ lowerAscii c = c) ∧
    s = join (str ":") octets

/-- What `_normalize_mac` returns, it returns for twelve digits, and has six octets. -/
theorem normalizeMac_eq_ok_iff {value mac : Str} : normalizeMac value = .ok mac ↔
    ((plain value).length = 12 ∧ (plain value).all isHex = true) ∧
      mac = join (str ":") ((List.range 6).map fun i =>
        (((plain value).drop (2 * i)).take 2).map lowerAscii) := by
  unfold normalizeMac
  simp only [← plain.eq_def]
  split
  · next h => simp only [h, Except.ok.injEq, and_self, true_and, eq_comm]
  · next h => simp only [h, false_and, reduceCtorEq]

theorem normalizeMac_isSixOctets {value mac : Str} (h : normalizeMac value = .ok mac) :
    IsSixOctets mac := by
  obtain ⟨⟨hlen, hhex⟩, rfl⟩ := normalizeMac_eq_ok_iff.mp h
  refine ⟨_, by simp, ?_, rfl⟩
  intro octet hoctet
  obtain ⟨i, hi, rfl⟩ := List.mem_map.mp hoctet
  rw [List.mem_range] at hi
  refine ⟨?_, fun c hc => ?_⟩
  · rw [List.length_map, List.length_take, List.length_drop, hlen]
    omega
  · obtain ⟨d, hd, rfl⟩ := List.mem_map.mp hc
    have hmem := List.all_eq_true.mp hhex d (List.mem_of_mem_drop (List.mem_of_mem_take hd))
    exact ⟨(isHex_lowerAscii hmem).1, (isHex_lowerAscii hmem).2.1⟩

/-- What `_normalize_mac` accepts, `_mac` reads alike. -/
theorem normalMac_of_normalizeMac {value mac : Str} (h : normalizeMac value = .ok mac) :
    normalMac value = .ok mac := by
  obtain ⟨⟨hlen, hhex⟩, rfl⟩ := normalizeMac_eq_ok_iff.mp h
  obtain ⟨raw, hraw, htext⟩ := bytesFromHex_of_all (n := 6) hlen hhex
  unfold normalMac
  simp only [plain_eq, hlen, hraw, ne_eq, not_true_eq_false, if_false, macText, htext]

/-- What `_mac` accepts is twelve characters of pairs and whitespace. -/
theorem hexPairs_of_normalMac {value mac : Str} (h : normalMac value = .ok mac) :
    (plain value).length = 12 ∧ HexPairs (plain value) := by
  unfold normalMac at h
  simp only [plain_eq] at h
  split at h
  · cases h
  · next hlen =>
    refine ⟨not_not.mp hlen, bytesFromHex_isSome_iff.mp ?_⟩
    split at h
    · cases h
    · next raw hraw =>
      rw [hraw]
      rfl

/-! ## Evidence -/

/-- Evidence is made with this MAC address, whatever else it says. -/
def Accepts (rt : Runtime) (value : Str) (e : NeighborEvidence) : Prop :=
  ∃ address interface state source observedAt operation, NeighborEvidence.make rt address
    (some value) interface state source observedAt operation = .ok e

/-- What a MAC address adds to the checks of the other arguments. -/
theorem make_some_eq_ok_iff {rt : Runtime} {address value interface state source : Str}
    {observedAt : Utc} {operation : Option Str} {e : NeighborEvidence} :
    NeighborEvidence.make rt address (some value) interface state source observedAt operation =
      .ok e ↔ ∃ mac e', normalMac value = .ok mac ∧
        NeighborEvidence.make rt address none interface state source observedAt operation = .ok e' ∧
        e = { e' with macAddress := some mac } := by
  unfold NeighborEvidence.make
  cases haddress : normalIpv4 address with
  | error exc => simp [bind, Except.bind]
  | ok ip =>
    cases hmac : normalMac value with
    | error exc => simp [bind, Except.bind, hmac]
    | ok mac =>
      simp only [bind, Except.bind, Option.mapM, hmac, pure, Except.pure, Functor.map, Except.map]
      by_cases htexts : strip interface ≠ [] ∧ strip source ≠ []
      · by_cases hstate : rt.casefold (strip state) ∈ validStates
        · rw [dif_pos htexts, dif_pos hstate, dif_pos htexts, dif_pos hstate]
          simp [eq_comm]
        · rw [dif_pos htexts, dif_neg hstate, dif_pos htexts, dif_neg hstate]
          simp [passiveParseError]
      · rw [dif_neg htexts, dif_neg htexts]
        simp [passiveParseError]

/-- Evidence about one address in one state. -/
def plainEvidence : NeighborEvidence where
  address := str "192.0.2.1"
  macAddress := none
  interface := str "eth0"
  state := str "reachable"
  source := str "passive.arp"
  observedAt := ⟨0, zero_inCalendar⟩
  operation := none
  interface_ne := by decide
  source_ne := by decide
  state_valid := by decide

theorem make_plainEvidence (rt : Runtime) :
    NeighborEvidence.make rt (str "192.0.2.1") none (str "eth0") (str "reachable")
      (str "passive.arp") ⟨0, by decide⟩ none = .ok plainEvidence := rfl

/-- The MAC addresses of neighbors and of devices agree about a string: what is stored is six octets
and what the device normalizes to, and what the device accepts makes evidence with any other
arguments that make some. -/
structure MacsAgree (rt : Runtime) (value : Str) : Prop where
  stored : ∀ e, Accepts rt value e → ∃ mac, e.macAddress = some mac ∧ IsSixOctets mac ∧
    normalizeMac value = .ok mac
  accepted : ∀ mac, normalizeMac value = .ok mac → ∀ address interface state source observedAt
    operation e, NeighborEvidence.make rt address none interface state source observedAt operation =
      .ok e → (NeighborEvidence.make rt address (some value) interface state source observedAt
        operation).isOk = true

/-- Twelve characters, whole pairs of digits with ASCII whitespace among them. -/
def Spaced (value : Str) : Prop :=
  (plain value).length = 12 ∧ HexPairs (plain value) ∧ ∃ c ∈ plain value, isAsciiSpace c

/-! ## Main theorem -/

/-- The two agree about a string exactly when it is not twelve characters of whole pairs of digits
with whitespace among them. -/
theorem macsAgree_iff (rt : Runtime) (value : Str) : MacsAgree rt value ↔ ¬ Spaced value := by
  constructor
  · rintro hagree ⟨hlen, hpairs, c, hc, hspace⟩
    obtain ⟨raw, hraw⟩ := Option.isSome_iff_exists.mp (bytesFromHex_isSome_iff.mpr hpairs)
    have hmac : normalMac value = .ok (macText raw) := by
      unfold normalMac
      simp only [plain_eq, hlen, hraw, ne_eq, not_true_eq_false, if_false]
    have hmake := make_some_eq_ok_iff.mpr ⟨_, _, hmac, make_plainEvidence rt, rfl⟩
    obtain ⟨mac, -, -, hnormal⟩ := hagree.stored _ ⟨_, _, _, _, _, _, hmake⟩
    have hhex := List.all_eq_true.mp (normalizeMac_eq_ok_iff.mp hnormal).1.2 c hc
    rw [not_isHex_of_isAsciiSpace hspace] at hhex
    cases hhex
  · intro hspaced
    refine ⟨?_, ?_⟩
    · rintro e ⟨address, interface, state, source, observedAt, operation, hmake⟩
      obtain ⟨mac, e', hmac, -, rfl⟩ := make_some_eq_ok_iff.mp hmake
      obtain ⟨hlen, hpairs⟩ := hexPairs_of_normalMac hmac
      have hspace : ∀ c ∈ plain value, isAsciiSpace c = false := by
        intro c hc
        rw [Bool.eq_false_iff]
        exact fun hspace => hspaced ⟨hlen, hpairs, c, hc, hspace⟩
      have hnormal := normalizeMac_eq_ok_iff.mpr ⟨⟨hlen, hpairs.all_isHex hspace⟩, rfl⟩
      have heq := (normalMac_of_normalizeMac hnormal).symm.trans hmac
      rw [Except.ok.injEq] at heq
      rw [heq] at hnormal
      exact ⟨mac, rfl, normalizeMac_isSixOctets hnormal, hnormal⟩
    · intro mac hnormal address interface state source observedAt operation e hmake
      rw [make_some_eq_ok_iff.mpr ⟨_, _, normalMac_of_normalizeMac hnormal, hmake, rfl⟩]
      rfl

/-- `"0011 2233 44"` is stored as five octets and is no MAC address of a device. -/
theorem not_macsAgree : ¬ MacsAgree (Runtime.ofDigests []) (str "0011 2233 44") ∧
    normalMac (str "0011 2233 44") = .ok (str "00:11:22:33:44") ∧
    (normalizeMac (str "0011 2233 44")).isOk = false := by
  have hmac : normalMac (str "0011 2233 44") = .ok (str "00:11:22:33:44") := by decide +kernel
  have hnormal : (normalizeMac (str "0011 2233 44")).isOk = false := by decide +kernel
  refine ⟨fun hagree => ?_, hmac, hnormal⟩
  have hmake := make_some_eq_ok_iff.mpr
    ⟨_, _, hmac, make_plainEvidence (Runtime.ofDigests []), rfl⟩
  obtain ⟨mac, -, -, hok⟩ := hagree.stored _ ⟨_, _, _, _, _, _, hmake⟩
  rw [hok] at hnormal
  cases hnormal

end FieldDiscovery.Passive.Neighbor
