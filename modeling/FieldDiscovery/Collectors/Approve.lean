import FieldDiscovery.Errors
import FieldDiscovery.Lib.Except
import FieldDiscovery.Lib.IpAddress

/-!
# Approved targets

`approve_target` of `collectors.py`. A target that it returns is the canonical text of an IPv4 network
or address, all of it inside one approved range (`approveTarget_spec`).
-/

namespace FieldDiscovery.Collectors

open Py

/-- `any(requested.subnet_of(network) for network in approved)`: an IPv6 network that is reached is
a `TypeError`. -/
def anySubnet (requested : Ipv4Network) : List IpNetwork → Except Exc Bool
  | [] => .ok false
  | .v6 :: _ => .error .type
  | .v4 network :: approved =>
    if requested.subnetOf network then .ok true else anySubnet requested approved

/-- `approve_target` -/
def approveTarget (approvedRanges : List Str) (target : Str) : Except Exc Str :=
  match ipNetwork target false with
  | none =>
    .error (.targetApproval (str "collector target must be an IPv4 address or CIDR"))
  | some .v6 => .error (.targetApproval (str "collector target must be IPv4"))
  | some (.v4 requested) => do
    let approved ← approvedRanges.mapM fun value =>
      match ipNetwork value true with
      | some network => .ok network
      | none => .error .value
    if ← anySubnet requested approved then
      .ok (if cp '/' ∈ target then requested.cidr else dottedQuad requested.address)
    else
      .error (.targetApproval
        (str "collector target " ++ requested.cidr ++ str " is outside approved ranges"))

/-- A network of which one approved range holds every address. -/
def Inside (approvedRanges : List Str) (n : Ipv4Network) : Prop :=
  ∃ value ∈ approvedRanges, ∃ range, ipNetwork value true = some (.v4 range) ∧
    ∀ address, n.contains address = true → range.contains address = true

theorem anySubnet_eq_true {requested : Ipv4Network} {approved : List IpNetwork}
    (h : anySubnet requested approved = .ok true) :
    ∃ range, .v4 range ∈ approved ∧ requested.subnetOf range = true := by
  induction approved with
  | nil => cases h
  | cons network approved ih =>
    cases network with
    | v6 => cases h
    | v4 range =>
      unfold anySubnet at h
      split at h
      · next hsubnet => exact ⟨range, List.mem_cons_self, hsubnet⟩
      · obtain ⟨range', hmem, hsubnet⟩ := ih h
        exact ⟨range', List.mem_cons_of_mem _ hmem, hsubnet⟩

/-- What is approved is the canonical text of what was requested, and lies inside a range. -/
theorem approveTarget_spec {approvedRanges : List Str} {target canonical : Str}
    (h : approveTarget approvedRanges target = .ok canonical) :
    ∃ requested, ipNetwork target false = some (.v4 requested) ∧
      canonical = (if cp '/' ∈ target then requested.cidr else dottedQuad requested.address) ∧
      Inside approvedRanges requested := by
  unfold approveTarget at h
  split at h
  · cases h
  · cases h
  · next requested hrequested =>
    obtain ⟨approved, happroved, h⟩ := Except.bind_eq_ok.mp h
    obtain ⟨inside, hany, h⟩ := Except.bind_eq_ok.mp h
    cases inside with
    | false => cases h
    | true =>
      cases h
      obtain ⟨range, hmem, hsubnet⟩ := anySubnet_eq_true hany
      obtain ⟨value, hvalue, hparse⟩ := (Except.mapM_eq_ok.mp happroved).exists_of_mem_right hmem
      refine ⟨requested, hrequested, rfl, value, hvalue, range, ?_, fun address haddress =>
        Ipv4Network.contains_of_subnetOf hsubnet haddress⟩
      split at hparse
      · next hnetwork =>
        cases hparse
        exact hnetwork
      · cases hparse

/-- An address inside an approved range. -/
def InRange (approvedRanges : List Str) (address : Str) : Prop :=
  ∃ n, addressValue address = some n ∧ ∃ value ∈ approvedRanges, ∃ range,
    ipNetwork value true = some (.v4 range) ∧ range.contains n = true

/-- A canonical address is approved as it stands. -/
theorem approveTarget_dottedQuad {approvedRanges : List Str} {n : Nat} (hn : n < 2 ^ 32)
    {canonical : Str} (h : approveTarget approvedRanges (dottedQuad n) = .ok canonical) :
    canonical = dottedQuad n ∧ InRange approvedRanges canonical := by
  obtain ⟨requested, hrequested, rfl, value, hvalue, range, hrange, hinside⟩ :=
    approveTarget_spec h
  rw [ipNetwork_dottedQuad hn] at hrequested
  cases hrequested
  rw [if_neg (notMem_dottedQuad rfl (by decide) n)]
  refine ⟨rfl, n, addressValue_dottedQuad hn, value, hvalue, range, hrange, hinside n ?_⟩
  exact Ipv4Network.contains_iff.mpr ⟨le_rfl, Nat.le_add_right _ _⟩

end FieldDiscovery.Collectors
