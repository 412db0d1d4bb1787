import BoothLink.Discovery.Registry
import BoothLink.Discovery.Sighting

/-!
# Scanning

A scan reads the datagrams that arrive, keeps a registry, and hands the events to whoever holds the
receiving end of a queue of limited length. One event more may wait for room; until there is room, no
datagram is read. What is no announcement, or our own, is passed over.

* `Scan`, `Scan.start`.
* `Scan.look`: one datagram; `Scan.drain`: as many as can be read.
* `Scan.receive`, `Scan.abandon`, `Scan.stop`.
-/

namespace BoothLink

/-- A datagram and where it came from. -/
structure Datagram where
  source : Address
  octets : Octets
  deriving DecidableEq

/-- The most octets of a datagram that are received; the rest is lost. -/
def receiveLimit : Nat := 8 * 1024

/-- What a datagram is to us, as far as it is received. -/
def Profile.sight (p : Profile) (d : Datagram) : Except DiscoveryError (Option Sighting) :=
  p.classify (d.octets.take receiveLimit) d.source

/-- A running or ended scan. -/
structure Scan where
  registry : Registry := {}
  /-- How many events the queue holds. -/
  capacity : Nat
  /-- The events that wait for the receiver. -/
  queue : List DiscoveryEvent := []
  /-- An event that waits for room. -/
  inHand : Option DiscoveryEvent := none
  running : Bool := true
  /-- The receiving end has been given up. -/
  dropped : Bool := false

namespace Scan

/-- A scan whose queue holds so many events, and one at least. -/
def start (capacity : Nat) : Scan := { capacity := max capacity 1 }

/-- Puts the event that waits into the queue if there is room. Without a receiver the scan ends. -/
def push (s : Scan) : Scan :=
  match s.inHand with
  | none => s
  | some e =>
    if s.dropped then { s with inHand := none, running := false }
    else if s.queue.length < s.capacity then { s with queue := s.queue ++ [e], inHand := none }
    else s

/-- Takes note of a datagram. -/
def look (p : Profile) (s : Scan) (d : Datagram) : Scan :=
  match p.sight d with
  | .ok (some (device, presence)) =>
    let (event, registry) := s.registry.observe device presence
    { s with registry, inHand := event }
  | _ => s

/-- Reads datagrams while it can, and gives those that are left. -/
def drain (p : Profile) (s : Scan) : List Datagram → Scan × List Datagram
  | [] => (s.push, [])
  | d :: ds =>
    let s := s.push
    if !s.running || s.inHand.isSome then (s, d :: ds) else drain p (s.look p d) ds

/-- What the receiving end gives. -/
inductive Received where
  | notScanning
  /-- Nothing yet. -/
  | empty
  /-- Nothing will come. -/
  | closed
  | event (e : DiscoveryEvent)
  deriving DecidableEq

/-- Asks the receiving end. -/
def receive (s : Scan) : Received × Scan :=
  if s.dropped then (.notScanning, s)
  else
    match s.queue with
    | e :: queue => (.event e, { s with queue })
    | [] => (if s.running then .empty else .closed, s)

/-- The receiving end is given up. -/
def abandon (s : Scan) : Scan := { s with dropped := true }

/-- The scan ends; an event that waits for room is lost. -/
def stop (s : Scan) : Scan := { s with running := false, inHand := none }

end Scan

end BoothLink
