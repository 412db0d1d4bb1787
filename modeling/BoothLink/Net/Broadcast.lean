import BoothLink.Net.Ipv4

/-!
# Whom an announcement reaches

An announcement goes to everyone on each network that this machine is part of: to the address that
agrees with the machine's own on the bits of the network mask and has all other bits set.

* `Ipv4.broadcast`: that address for one interface.
* `broadcastTargets`: the addresses for all interfaces, each once, in the order of the interfaces.
-/

namespace BoothLink

/-- The address of everyone on the network of an address under a mask. -/
def Ipv4.broadcast (address mask : Ipv4) : Ipv4 := ⟨address.word ||| ~~~mask.word⟩

/-- Adds an address to the end unless it is there. -/
def addTarget (targets : List Ipv4) (a : Ipv4) : List Ipv4 :=
  if a ∈ targets then targets else targets ++ [a]

/-- The addresses to which announcements go, for interfaces with their addresses and masks; without
any interface, everyone on the local network. -/
def broadcastTargets (interfaces : List (Ipv4 × Ipv4)) : List Ipv4 :=
  let targets := interfaces.foldl (fun done (a, mask) => addTarget done (a.broadcast mask)) []
  if targets.isEmpty then [Ipv4.limitedBroadcast] else targets

end BoothLink
