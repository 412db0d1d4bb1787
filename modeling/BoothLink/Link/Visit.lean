import BoothLink.Link.Feed
import BoothLink.Link.MainLink
import BoothLink.Link.Options

/-!
# Visiting a device

A visit to a device asks for its services on a main connection, and takes what one of them brings on a
connection of its own.

* `Host`, `Host.offering`: what a device writes in the course of a visit.
* `MainLink.visit`: the services of a device.
* `Feed.visit`: what a service brings.
-/

namespace BoothLink

/-- What a device writes in the course of a visit. -/
structure Host where
  /-- Its answer on the main connection. -/
  answer : Octets
  /-- What it sends on the connection of a service. -/
  data : Octets
  /-- Whether it ends its writing there. -/
  ends : Bool := true
  /-- The port of our end of that connection. -/
  localPort : UInt16
  /-- Where the device listens for main connections. -/
  mainPort : UInt16 := 0
  /-- Where it listens for connections to a service. -/
  servicePort : UInt16 := 0

/-- A device that offers services, says how long it has been there, and sends the same data whichever of
them is asked. A service whose name is too long for a message is left out. -/
def Host.offering (device target : Token) (services : List Service) (count : Int64) (data : Octets)
    (localPort : UInt16) (ends : Bool := true) : Host :=
  let answer := services.map (fun s => Message.serviceAnnouncement device s.name s.port) ++
    [.reference device target count]
  { answer := Message.stream answer, data, ends, localPort }

/-- Asks a device for its services. Without an answer the call ends when the device does. -/
def MainLink.visit (token target : Token) (offered : List Service) (options : LinkOptions)
    (host : Host) : Except LinkError (List Service × MainLink) := do
  let link ← MainLink.start token target offered options.heartbeatInterval.toNat
  let (call, link) := link.request
  let link := link.deliver host.answer
  let link := if link.waiting.isEmpty then link else link.hangUp
  match link.answers.lookup call with
  | some (.ok services) => .ok (services, link)
  | some (.error e) => .error e
  | none => .error .closed

/-- What came of a connection to a service. -/
structure Harvest (α : Type) where
  items : List α
  /-- The error that ended reading. -/
  cause : Option LinkError
  feed : Feed α

namespace Feed

variable {α : Type}

/-- Makes requests on a connection to a service. -/
def ask (f : Feed α) (requests : List Message) : Except LinkError (Feed α) :=
  requests.foldlM (fun feed m => (feed.send m).1.map fun _ => (feed.send m).2) f

/-- A connection to a service on which requests have been made. -/
def starting (kind : FeedKind α) (token : Token) (options : LinkOptions) (host : Host)
    (requests : List Message) : Except LinkError (Feed α) :=
  (Feed.start kind token host.localPort options.capacity.toNat).bind (ask · requests)

/-- Takes all that a service brings. -/
def visit (f : Feed α) (host : Host) : Harvest α :=
  let f := (f.take.2.takeError.2).deliver host.data
  let f := if host.ends then f.hangUp else f
  let (items, f) := f.receiveAll
  match f.pollError with
  | (.error e, f) => ⟨items, some e, f⟩
  | (_, f) => ⟨items, none, f⟩

end Feed

end BoothLink
