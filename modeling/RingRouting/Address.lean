import RingRouting.Octets

/-!
# Network addresses

An address of a node is an IPv4 or an IPv6 address, held as its octets in network
order.  Addresses are ordered with IPv4 before IPv6 and then as numbers.  An IPv4
address differs from the IPv6 address it is mapped to.
-/

namespace RingRouting

/-- The address of a node. -/
inductive Address where
  | v4 (octets : Vector UInt8 4)
  | v6 (octets : Vector UInt8 16)
deriving DecidableEq

namespace Address

/-- The address's octets in network order. -/
def octets : Address → List UInt8
  | v4 octets => octets.toList
  | v6 octets => octets.toList

/-- The address with the given four or sixteen octets. -/
def ofOctets? (octets : List UInt8) : Option Address :=
  if octets.length = 4 then (Octets.vector? 4 octets).map v4
  else (Octets.vector? 16 octets).map v6

theorem ofOctets?_octets (address : Address) : ofOctets? address.octets = some address := by
  cases address with
  | v4 octets => simp [ofOctets?, Address.octets, Octets.vector?_toList]
  | v6 octets => simp [ofOctets?, Address.octets, Octets.vector?_toList]

theorem octets_of_ofOctets? {list : List UInt8} {address : Address}
    (h : ofOctets? list = some address) : address.octets = list := by
  unfold ofOctets? at h
  split at h
  · obtain ⟨v, hv, rfl⟩ := Option.map_eq_some_iff.1 h
    exact Octets.toList_of_vector? hv
  · obtain ⟨v, hv, rfl⟩ := Option.map_eq_some_iff.1 h
    exact Octets.toList_of_vector? hv

/-- The IPv4 address `a.b.c.d`. -/
def ofQuad (a b c d : UInt8) : Address :=
  v4 #v[a, b, c, d]

/-- Position in the order of addresses: IPv4 before IPv6, then by number. -/
def rank : Address → Nat
  | v4 octets => Octets.ofBigEndian octets.toList
  | v6 octets => UInt32.size + Octets.ofBigEndian octets.toList

/-- The order of addresses. -/
def precedes (a b : Address) : Bool :=
  decide (a.rank ≤ b.rank)

end Address
end RingRouting
