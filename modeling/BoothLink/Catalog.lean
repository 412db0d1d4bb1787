import BoothLink.Message.Progress

/-!
# Catalogs

A catalog is the list of kinds that may arrive over one transport, in the order in which they are
tried. The first kind that the first octets match is the kind of the message; as long as one cannot
be told yet, nothing is decided.

* `Catalog.mainLink`, `Catalog.stateMap`, `Catalog.beatInfo`, `Catalog.discovery`: the transports.
* `Catalog.identify`: the kind at the front of octets.
* `Catalog.decode`: the message at the front of a growing buffer, if it is all there.
* `Catalog.decodeAll`, `Catalog.messages`: the messages of a buffer, one after the other.
* `Catalog.decodeDatagram`: the message that a datagram is.
-/

namespace BoothLink

/-- The kinds of one transport, in order, under a name. -/
structure Catalog where
  name : String
  kinds : List MessageKind
  deriving DecidableEq, Repr

namespace Catalog

/-- The catalog of a main connection. -/
def mainLink : Catalog := ⟨"main", [.serviceAnnouncement, .reference, .servicesRequest]⟩

/-- The catalog of a state connection. -/
def stateMap : Catalog := ⟨"state map", [.stateEmit, .stateEmitResponse, .stateSubscribe]⟩

/-- The catalog of a beat connection. -/
def beatInfo : Catalog := ⟨"beat info", [.beatEmit, .beatStartStream, .beatStopStream]⟩

/-- The catalog of announcements. -/
def discovery : Catalog := ⟨"discovery", [.discovery]⟩

/-- The first of some kinds that octets match; nothing while one of those before cannot be told. -/
def identifyIn (b : Octets) : List MessageKind → Except WireError (Option MessageKind)
  | [] => .error (.unknownMessage b)
  | k :: ks =>
    match k.peek b with
    | .matched => .ok (some k)
    | .mismatch => identifyIn b ks
    | .needMore _ => .ok none

/-- The kind of the message at the front of octets; nothing if more octets are needed to tell. -/
def identify (catalog : Catalog) (b : Octets) : Except WireError (Option MessageKind) :=
  identifyIn b catalog.kinds

/-- The message at the front of a buffer, with the number of octets it takes; nothing if more octets
are needed. -/
def decode (catalog : Catalog) (b : Octets) : Except WireError (Option (Message × Nat)) :=
  match catalog.identify b with
  | .error e => .error e
  | .ok none => .ok none
  | .ok (some k) =>
    match k.decode b with
    | .ok found => .ok (some found)
    | .error .truncated => .ok none
    | .error e => .error e

theorem decode_consumes {catalog : Catalog} {b : Octets} {m : Message} {n : Nat}
    (h : catalog.decode b = .ok (some (m, n))) : 4 ≤ n ∧ n ≤ b.length := by
  unfold decode at h
  split at h
  · cases h
  · cases h
  · split at h
    · next hk =>
      cases h
      exact MessageKind.decode_consumes hk
    · cases h
    · cases h

/-- Why a run of messages stopped. -/
inductive Stop where
  /-- What is left is the beginning of a message, or nothing. -/
  | needMore
  | failed (e : WireError)
  deriving DecidableEq, Repr

/-- The messages of a buffer, each with the number of octets it takes; why they stop, and what is
left. -/
def decodeAll (catalog : Catalog) (b : Octets) : List (Message × Nat) × Stop × Octets :=
  match _h : catalog.decode b with
  | .error e => ([], .failed e, b)
  | .ok none => ([], .needMore, b)
  | .ok (some (m, n)) =>
    let (more, stop, left) := decodeAll catalog (b.drop n)
    ((m, n) :: more, stop, left)
termination_by b.length
decreasing_by
  have := decode_consumes (by assumption)
  simp only [List.length_drop]
  omega

def messages (catalog : Catalog) (b : Octets) : List Message := (catalog.decodeAll b).1.map (·.1)

/-- The message that a datagram is; octets after it are passed over. -/
def decodeDatagram (catalog : Catalog) (b : Octets) : Except WireError Message :=
  match catalog.identify b with
  | .error e => .error e
  | .ok none => .error .truncated
  | .ok (some k) => (k.decode b).map (·.1)

end Catalog

end BoothLink
