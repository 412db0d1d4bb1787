import BoothLink.Message.Basic

/-!
# Framings

There are three. An announcement begins with a magic word. A message of a main connection begins with
a number for its kind and has no length: it ends where its last field does. A message of a service
connection is a frame, its length in front; a state frame begins with a magic word and a number, a
beat frame with a number alone.

* `Framing`, `MessageKind.framing`: which framing a kind has, with its number.
* `Framing.opening`: the octets that a message or a frame's content begins with.
* `Peek`, `MessageKind.peek`: what a bounded look at the first octets says about a kind.
-/

namespace BoothLink

/-- How messages of a kind are set off from what surrounds them. -/
inductive Framing where
  /-- A magic word, then the fields. -/
  | datagram
  /-- A number, then the fields. -/
  | bare (number : UInt32)
  /-- A length, a magic word, a number, then the fields. -/
  | state (number : UInt32)
  /-- A length, a number, then the fields. -/
  | beat (number : UInt32)
  deriving DecidableEq, Repr

def discoveryMagic : Octets := [0x61, 0x69, 0x72, 0x44]

def stateMagic : Octets := [0x73, 0x6D, 0x61, 0x61]

def MessageKind.framing : MessageKind → Framing
  | serviceAnnouncement => .bare 0
  | reference => .bare 1
  | servicesRequest => .bare 2
  | stateEmit => .state 0
  | stateEmitResponse => .state 0x7D1
  | stateSubscribe => .state 0x7D2
  | beatStartStream => .beat 0
  | beatStopStream => .beat 1
  | beatEmit => .beat 2
  | discovery => .datagram

/-- The octets of a number that names a kind. -/
def numberOctets (n : UInt32) : Octets := Octets.ofNat 4 n.toNat

namespace Framing

/-- The words with which a message, or the content of its frame, begins. -/
def opening : Framing → List Octets
  | datagram => [discoveryMagic]
  | .bare number => [numberOctets number]
  | state number => [stateMagic, numberOctets number]
  | beat number => [numberOctets number]

/-- Whether a message is a frame behind its length. -/
def isFrame : Framing → Bool
  | datagram | .bare _ => false
  | state _ | beat _ => true

/-- How many octets have to be seen to know a kind. -/
def lookahead : Framing → Nat
  | datagram | .bare _ => 4
  | beat _ => 8
  | state _ => 12

end Framing

/-- What a look at the first octets says about a kind. -/
inductive Peek where
  | matched
  | mismatch
  /-- So many octets have to be there to decide. -/
  | needMore (n : Nat)
  deriving DecidableEq, Repr

namespace MessageKind

/-- The length that a beat frame has to declare. It keeps a service announcement, whose number is
zero, from passing for a frame. -/
def lengthFits (k : MessageKind) (length : Nat) : Bool :=
  match k with
  | beatStartStream | beatStopStream => length = 4
  | beatEmit => 16 ≤ length
  | _ => true

/-- Whether the octets of the look are those of the kind. -/
def begins (k : MessageKind) (b : Octets) : Bool :=
  if k.framing.isFrame then
    (b.drop 4).take (k.framing.lookahead - 4) = k.framing.opening.flatten &&
      k.lengthFits (Octets.value (b.take 4))
  else b.take 4 = k.framing.opening.flatten

/-- What the first octets say about a kind. -/
def peek (k : MessageKind) (b : Octets) : Peek :=
  let n := k.framing.lookahead
  if (b.take n).length < n then .needMore n
  else if k.begins b then .matched
  else .mismatch

end MessageKind

end BoothLink
