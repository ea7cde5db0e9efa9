import FieldDiscovery.Lib.Codec

/-!
# Addresses and networks

What the code uses of `ipaddress`: dotted quads, IPv4 networks with a prefix length, a netmask or a
hostmask, and which texts denote an IPv6 network.
-/

namespace Py

/-! ## IPv4 addresses -/

/-- One octet of a dotted quad: one to three digits, no leading zero, at most 255. -/
def parseOctet (octet : Str) : Option Nat :=
  let n := decimal octet
  if octet ≠ [] ∧ octet.all isDigit ∧ octet.length ≤ 3 ∧
      (octet = str "0" ∨ octet.head? ≠ some (cp '0')) ∧ n ≤ 255 then some n
  else none

/-- `ipaddress.IPv4Address(value)`, as its four octets; `none` is `AddressValueError`. -/
def ipv4Address (value : Str) : Option (List Nat) :=
  let octets := value.splitOn (cp '.')
  if octets.length = 4 then octets.mapM parseOctet else none

/-- The number that an IPv4 address denotes. -/
def addressValue (address : Str) : Option Nat :=
  (ipv4Address address).map fun octets => octets.foldl (fun n octet => 256 * n + octet) 0

/-- `str(ipaddress.IPv4Address(n))` -/
def dottedQuad (n : Nat) : Str :=
  join (str ".") ([24, 16, 8, 0].map fun shift => natStr (n / 2 ^ shift % 256))

theorem parseOctet_le {octet : Str} {n : Nat} (h : parseOctet octet = some n) : n < 256 := by
  unfold parseOctet at h
  simp only at h
  split at h
  · next hoctet =>
    cases h
    exact Nat.lt_succ_of_le hoctet.2.2.2.2
  · cases h

theorem parseOctet_natStr {n : Nat} (h : n < 256) : parseOctet (natStr n) = some n := by
  have hall : ∀ n : Fin 256, parseOctet (natStr n) = some n.val := by decide +kernel
  exact hall ⟨n, h⟩

/-- An address is read from its four octets. -/
theorem ipv4Address_eq_some {value : Str} {octets : List Nat} (h : ipv4Address value = some octets) :
    ∃ a b c d, octets = [a, b, c, d] ∧ a < 256 ∧ b < 256 ∧ c < 256 ∧ d < 256 := by
  unfold ipv4Address at h
  simp only at h
  split at h
  · next hlength =>
    have hforall := Option.mapM_eq_some_iff.mp h
    have hlt : ∀ n ∈ octets, n < 256 := by
      intro n hn
      obtain ⟨octet, -, hoctet⟩ := hforall.exists_of_mem_right hn
      exact parseOctet_le hoctet
    rw [hforall.length_eq] at hlength
    match octets, hlength with
    | [a, b, c, d], _ =>
      simp only [List.mem_cons, List.not_mem_nil, or_false, forall_eq_or_imp, forall_eq] at hlt
      exact ⟨a, b, c, d, rfl, hlt⟩
  · cases h

theorem addressValue_lt {address : Str} {n : Nat} (h : addressValue address = some n) :
    n < 2 ^ 32 := by
  obtain ⟨octets, hoctets, rfl⟩ := Option.map_eq_some_iff.mp h
  obtain ⟨a, b, c, d, rfl, ha, hb, hc, hd⟩ := ipv4Address_eq_some hoctets
  simp only [List.foldl_cons, List.foldl_nil]
  omega

theorem splitOn_dottedQuad (n : Nat) : (dottedQuad n).splitOn (cp '.') =
    [24, 16, 8, 0].map fun shift => natStr (n / 2 ^ shift % 256) := by
  unfold dottedQuad join
  refine List.splitOn_intercalate (cp '.') ?_ (by simp)
  intro octet hoctet
  obtain ⟨shift, -, rfl⟩ := List.mem_map.mp hoctet
  exact notMem_natStr rfl _

theorem notMem_dottedQuad {c : CodePoint} (hc : isDigit c = false) (hdot : c ≠ cp '.') (n : Nat) :
    c ∉ dottedQuad n := by
  unfold dottedQuad join
  simp only [List.map_cons, List.map_nil, List.intercalate, List.intersperse, List.flatten_cons,
    List.flatten_nil, List.append_nil, List.mem_append, not_or]
  have hsep : c ∉ str "." := by
    intro hmem
    rw [show str "." = [cp '.'] from rfl, List.mem_singleton] at hmem
    exact hdot hmem
  exact ⟨notMem_natStr hc _, hsep, notMem_natStr hc _, hsep, notMem_natStr hc _, hsep,
    notMem_natStr hc _⟩

/-- The text of an address denotes it. -/
theorem addressValue_dottedQuad {n : Nat} (h : n < 2 ^ 32) :
    addressValue (dottedQuad n) = some n := by
  have hoctet : ∀ shift, parseOctet (natStr (n / 2 ^ shift % 256)) =
      some (n / 2 ^ shift % 256) := fun shift => parseOctet_natStr (Nat.mod_lt _ (by norm_num))
  unfold addressValue ipv4Address
  simp only [splitOn_dottedQuad, List.map_cons, List.map_nil, List.length_cons, List.length_nil,
    if_true, List.mapM_cons, List.mapM_nil, hoctet, Option.bind_eq_bind, Option.bind_some,
    Option.pure_def, Option.map_some, List.foldl_cons, List.foldl_nil, Option.some.injEq]
  omega

/-! ## IPv4 networks -/

/-- A canonical IPv4 network: its address has no bit outside the netmask. -/
structure Ipv4Network where
  address : Nat
  prefixlen : Nat
  prefixlen_le : prefixlen ≤ 32
  address_lt : address < 2 ^ 32
  canonical : 2 ^ (32 - prefixlen) ∣ address
  deriving DecidableEq

/-- `str(network)` -/
def Ipv4Network.cidr (n : Ipv4Network) : Str :=
  join (str ".") ([24, 16, 8, 0].map fun shift => natStr (n.address / 2 ^ shift % 256)) ++
    str "/" ++ natStr n.prefixlen

/-- `address in network` -/
def Ipv4Network.contains (n : Ipv4Network) (address : Nat) : Bool :=
  decide (address / 2 ^ (32 - n.prefixlen) = n.address / 2 ^ (32 - n.prefixlen))

/-- `int(network.broadcast_address)` -/
def Ipv4Network.broadcast (n : Ipv4Network) : Nat := n.address + (2 ^ (32 - n.prefixlen) - 1)

/-- `n.subnet_of(m)` -/
def Ipv4Network.subnetOf (n m : Ipv4Network) : Bool :=
  m.address ≤ n.address && n.broadcast ≤ m.broadcast

/-- An address with a prefix length, as the constructor of a network is given them. -/
structure Ipv4Interface where
  address : Nat
  prefixlen : Nat
  prefixlen_le : prefixlen ≤ 32
  address_lt : address < 2 ^ 32

/-- No host bit is set. -/
def Ipv4Interface.Strict (i : Ipv4Interface) : Prop := 2 ^ (32 - i.prefixlen) ∣ i.address

instance (i : Ipv4Interface) : Decidable i.Strict := inferInstanceAs (Decidable (_ ∣ _))

/-- The network of an address. -/
def Ipv4Interface.network (i : Ipv4Interface) : Ipv4Network where
  address := i.address / 2 ^ (32 - i.prefixlen) * 2 ^ (32 - i.prefixlen)
  prefixlen := i.prefixlen
  prefixlen_le := i.prefixlen_le
  address_lt := (Nat.div_mul_le_self _ _).trans_lt i.address_lt
  canonical := Nat.dvd_mul_left _ _

/-- `_prefix_from_prefix_string` -/
def prefixLength (most : Nat) (s : Str) : Option (Fin (most + 1)) :=
  if h : s ≠ [] ∧ s.all isDigit ∧ decimal s ≤ most then
    some ⟨decimal s, Nat.lt_succ_of_le h.2.2⟩
  else none

/-- `_prefix_from_ip_int`: the netmask has as many leading ones. -/
def prefixOfMask (mask : Nat) : Option (Fin 33) :=
  (List.finRange 33).find? fun p => mask + 2 ^ (32 - p.val) = 2 ^ 32

/-- `_prefix_from_ip_string`: a netmask, else a hostmask. -/
def prefixOfAddress (s : Str) : Option (Fin 33) :=
  (addressValue s).bind fun mask => (prefixOfMask mask).or (prefixOfMask (2 ^ 32 - 1 - mask))

/-- `_make_netmask` -/
def ipv4Prefix (s : Str) : Option (Fin 33) := (prefixLength 32 s).or (prefixOfAddress s)

/-- What an address and the length of its prefix denote. -/
def ipv4InterfaceOf (address : Str) (prefixlen : Option (Fin 33)) : Option Ipv4Interface :=
  match h : addressValue address, prefixlen with
  | some n, some p => some ⟨n, p.val, Nat.le_of_lt_succ p.isLt, addressValue_lt h⟩
  | _, _ => none

/-- `_split_addr_prefix` with the parsers of its two parts. -/
def ipv4Interface (value : Str) : Option Ipv4Interface :=
  match value.splitOn (cp '/') with
  | [address] => ipv4InterfaceOf address (some 32)
  | [address, mask] => ipv4InterfaceOf address (ipv4Prefix mask)
  | _ => none

/-! ## IPv6 networks -/

/-- `_parse_hextet`; an empty part stays empty. -/
def parseHextet (s : Str) : Option (Option Nat) :=
  if s = [] then some none
  else if s.all isHex ∧ s.length ≤ 4 then some (some (hexNumber s))
  else none

/-- The parts of an IPv6 address. A dotted quad at its end is two of them. -/
def ipv6Parts (value : Str) : Option (List (Option Nat)) :=
  let parts := value.splitOn (cp ':')
  let last := parts.getLast?.getD []
  if parts.length < 3 then none
  else if cp '.' ∈ last then do
    let n ← addressValue last
    let front ← parts.dropLast.mapM parseHextet
    some (front ++ [some (n / 65536), some (n % 65536)])
  else parts.mapM parseHextet

/-- The hextets around a double colon, which is at most one part that is empty; a colon at an end
belongs to it. -/
def ipv6Hextets (parts : List (Option Nat)) : Option (List Nat) :=
  let side (l : List (Option Nat)) : Option (List Nat) := if l = [none] then some [] else l.mapM id
  let skips := (List.range parts.length).filter fun i =>
    decide (0 < i ∧ i + 1 < parts.length ∧ parts[i]? = some none)
  match skips with
  | [] => if parts.length = 8 then parts.mapM id else none
  | [skip] => do
    let high ← side (parts.take skip)
    let low ← side (parts.drop (skip + 1))
    if high.length + low.length < 8 then
      some (high ++ List.replicate (8 - (high.length + low.length)) 0 ++ low)
    else none
  | _ => none

/-- `int(ipaddress.IPv6Address(value))`; a scope is dropped. -/
def ipv6Value (value : Str) : Option Nat := do
  let address ← match value.splitOn (cp '%') with
    | [address] => some address
    | [address, scope] => if scope = [] then none else some address
    | _ => none
  let hextets ← ipv6Parts address >>= ipv6Hextets
  some (hextets.foldl (fun n hextet => 65536 * n + hextet) 0)

/-- `ipaddress.IPv6Network(value, strict=strict)` succeeds. -/
def isIpv6Network (value : Str) (strict : Bool) : Bool :=
  let network (address : Str) (prefixlen : Option (Fin 129)) : Bool :=
    match ipv6Value address, prefixlen with
    | some n, some p => !strict || decide (2 ^ (128 - p.val) ∣ n)
    | _, _ => false
  match value.splitOn (cp '/') with
  | [address] => network address (some 128)
  | [address, mask] => network address (prefixLength 128 mask)
  | _ => false

/-! ## Networks of either version -/

/-- A network, of which an IPv6 one shows only its version. -/
inductive IpNetwork where
  | v4 (n : Ipv4Network)
  | v6
  deriving DecidableEq

/-- `ipaddress.ip_network(value, strict=strict)`; `none` is `ValueError`. -/
def ipNetwork (value : Str) (strict : Bool) : Option IpNetwork :=
  match ipv4Interface value with
  | some i => if strict ∧ ¬ i.Strict then none else some (.v4 i.network)
  | none => if isIpv6Network value strict then some .v6 else none

/-! ## Canonical texts -/

/-- A network is the interval from its address to its broadcast address. -/
theorem Ipv4Network.contains_iff {n : Ipv4Network} {a : Nat} :
    n.contains a = true ↔ n.address ≤ a ∧ a ≤ n.broadcast := by
  obtain ⟨q, hq⟩ := n.canonical
  have hpos : 0 < 2 ^ (32 - n.prefixlen) := Nat.two_pow_pos _
  unfold contains broadcast
  rw [decide_eq_true_eq, hq, Nat.mul_div_cancel_left _ hpos, Nat.div_eq_iff hpos, Nat.mul_comm q]
  omega

/-- All addresses of a subnet lie in the network. -/
theorem Ipv4Network.contains_of_subnetOf {n m : Ipv4Network} (h : n.subnetOf m = true) {a : Nat}
    (ha : n.contains a = true) : m.contains a = true := by
  unfold subnetOf at h
  rw [Bool.and_eq_true, decide_eq_true_eq, decide_eq_true_eq] at h
  rw [contains_iff] at ha ⊢
  omega

theorem Ipv4Interface.network_of_strict {i : Ipv4Interface} (h : i.Strict) :
    i.network = ⟨i.address, i.prefixlen, i.prefixlen_le, i.address_lt, h⟩ := by
  unfold network
  simp only [Nat.div_mul_cancel h]

theorem ipv4InterfaceOf_eq_some {address : Str} {n : Nat} {p : Fin 33}
    (h : addressValue address = some n) : ipv4InterfaceOf address (some p) =
      some ⟨n, p.val, Nat.le_of_lt_succ p.isLt, addressValue_lt h⟩ := by
  unfold ipv4InterfaceOf
  split
  · next heq hp =>
    cases hp
    cases h.symm.trans heq
    rfl
  · next hne => exact absurd rfl (hne n p h)

/-- The network of one address. -/
def Ipv4Network.host (n : Nat) (h : n < 2 ^ 32) : Ipv4Network := ⟨n, 32, le_rfl, h, one_dvd n⟩

theorem ipNetwork_dottedQuad {n : Nat} (h : n < 2 ^ 32) (strict : Bool) :
    ipNetwork (dottedQuad n) strict = some (.v4 (.host n h)) := by
  have hinterface : ipv4Interface (dottedQuad n) = some ⟨n, 32, le_rfl, h⟩ := by
    have hsplit : (dottedQuad n).splitOn (cp '/') = [dottedQuad n] :=
      List.splitOn_eq_singleton (notMem_dottedQuad rfl (by decide) n)
    unfold ipv4Interface
    rw [hsplit]
    exact ipv4InterfaceOf_eq_some (addressValue_dottedQuad h)
  have hstrict : Ipv4Interface.Strict ⟨n, 32, le_rfl, h⟩ := one_dvd n
  unfold ipNetwork
  rw [hinterface]
  simp only [hstrict, not_true, and_false, if_false, Ipv4Interface.network_of_strict]
  rfl

example : ipNetwork (str "10.0.0.0/255.255.0.0") true =
    some (.v4 ⟨167772160, 16, by decide, by decide, by decide⟩) := by decide +kernel

example : isIpv6Network (str "2001:db8::/32") true = true ∧
    isIpv6Network (str "::ffff:10.0.0.1") true = true ∧
    isIpv6Network (str "2001:db8::1::/64") true = false := by decide +kernel

end Py
