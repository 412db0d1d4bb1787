import BoothLink.Net.Ipv6

/-!
# Addresses and endpoints

* `Address`: an address of either length; `Address.text`, `Address.parse?`.
* `Endpoint`: an address and a port; `Endpoint.text`, `Endpoint.parse?`. A long address stands in
  brackets there.
-/

namespace BoothLink

/-- An address of either length. -/
inductive Address where
  | v4 (a : Ipv4)
  | v6 (a : Ipv6)
  deriving DecidableEq

namespace Address

def text : Address → String
  | v4 a => a.text
  | v6 a => a.text

def parse? (s : String) : Option Address :=
  match Ipv4.parse? s with
  | some a => some (v4 a)
  | none => (Ipv6.parse? s).map v6

/-- The address of this machine to itself. -/
def loopback : Address := v4 Ipv4.loopback

end Address

structure Endpoint where
  address : Address
  port : UInt16
  deriving DecidableEq

namespace Endpoint

def text (e : Endpoint) : String :=
  let port := ":" ++ toString e.port.toNat
  match e.address with
  | .v4 a => a.text ++ port
  | .v6 a => "[" ++ a.text ++ "]" ++ port

/-- The port behind a colon at the end of a text. -/
def portOf? : List Char → Option UInt16
  | ':' :: digits =>
    let n := Digits.value 10 digits
    if digits.isEmpty || !digits.all Char.isDigit || 65535 < n then none else some (UInt16.ofNat n)
  | _ => none

def parse? (s : String) : Option Endpoint :=
  match s.toList with
  | '[' :: cs =>
    match Ipv6.read? cs with
    | some (a, ']' :: rest) => (portOf? rest).map fun port => ⟨.v6 a, port⟩
    | _ => none
  | cs =>
    match Ipv4.read? cs with
    | some (a, rest) => (portOf? rest).map fun port => ⟨.v4 a, port⟩
    | none => none

end Endpoint

end BoothLink
