import FieldDiscovery.Lib.IpAddress

/-!
# Purposes of IPv4 networks

`is_private`, `is_loopback` and `is_link_local` of `ipaddress.IPv4Network`, as CPython 3.13 has them.
-/

namespace Py

/-- `a.b.c.d` as a number. -/
def quad (a b c d : Nat) : Nat := ((a * 256 + b) * 256 + c) * 256 + d

/-- An address block, with its prefix length. -/
abbrev Block := Nat × Nat

/-- `address in block` -/
def Block.holds (block : Block) (address : Nat) : Bool :=
  address / 2 ^ (32 - block.2) = block.1 / 2 ^ (32 - block.2)

/-- `_private_networks` -/
def privateBlocks : List Block :=
  [(quad 0 0 0 0, 8), (quad 10 0 0 0, 8), (quad 127 0 0 0, 8), (quad 169 254 0 0, 16),
    (quad 172 16 0 0, 12), (quad 192 0 0 0, 24), (quad 192 0 0 170, 31), (quad 192 0 2 0, 24),
    (quad 192 168 0 0, 16), (quad 198 18 0 0, 15), (quad 198 51 100 0, 24), (quad 203 0 113 0, 24),
    (quad 240 0 0 0, 4), (quad 255 255 255 255, 32)]

/-- `_private_networks_exceptions` -/
def publicExceptions : List Block := [(quad 192 0 0 9, 32), (quad 192 0 0 10, 32)]

namespace Ipv4Network

/-- Both ends of the network lie in the block. -/
def within (n : Ipv4Network) (block : Block) : Bool :=
  block.holds n.address && block.holds n.broadcast

/-- `n.is_private` -/
def isPrivate (n : Ipv4Network) : Bool :=
  privateBlocks.any n.within &&
    publicExceptions.all fun block => !block.holds n.address && !block.holds n.broadcast

/-- `n.is_loopback` -/
def isLoopback (n : Ipv4Network) : Bool := n.within (quad 127 0 0 0, 8)

/-- `n.is_link_local` -/
def isLinkLocal (n : Ipv4Network) : Bool := n.within (quad 169 254 0 0, 16)

/-- `n.num_addresses` -/
def numAddresses (n : Ipv4Network) : Nat := 2 ^ (32 - n.prefixlen)

end Ipv4Network

end Py
