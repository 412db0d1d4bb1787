import BoothLink.Link.Error
import BoothLink.Message.Encode

/-!
# A stream to a peer

Our end of a stream in both directions. Octets that the peer has written wait until they are read;
what we write is kept until the peer takes it. The peer may end its writing, which we notice when
there is nothing left to read, or vanish, after which our writes fail as well.

* `Pipe`, with `deliver`, `hangUp`, `vanish` for what the peer does; `Pipe.Act`, `Pipe.peer`.
* `Pipe.send`, `Pipe.shutDown`, `Pipe.collect` for what we do.
-/

namespace BoothLink

structure Pipe where
  /-- Written by the peer and not yet read. -/
  inbound : Octets := []
  /-- The peer writes no more. -/
  ended : Bool := false
  /-- The peer is not there any more. -/
  vanished : Bool := false
  /-- We write no more. -/
  shut : Bool := false
  /-- The peer has seen the end of our writing. -/
  endSeen : Bool := false
  /-- Written by us and not yet taken by the peer. -/
  outbound : Octets := []
  deriving Repr

namespace Pipe

/-- The peer writes octets; nothing happens once it has ended its writing. -/
def deliver (p : Pipe) (b : Octets) : Pipe :=
  if p.ended then p else { p with inbound := p.inbound ++ b }

def hangUp (p : Pipe) : Pipe := { p with ended := true }

def vanish (p : Pipe) : Pipe := { p with ended := true, vanished := true }

/-- What the peer does with its end. -/
inductive Act where
  | write (b : Octets)
  | hangUp
  | vanish
  deriving DecidableEq, Repr

/-- The stream after the peer has done something. -/
def peer (p : Pipe) : Act → Pipe
  | .write b => p.deliver b
  | .hangUp => p.hangUp
  | .vanish => p.vanish

def writable (p : Pipe) : Bool := !p.vanished && !p.shut

/-- Writes a message as a whole. One that cannot be encoded is refused before the stream is. -/
def send (p : Pipe) (m : Message) : Except LinkError Pipe :=
  match m.encode with
  | .error e => .error (.protocol e)
  | .ok b =>
    if p.writable then .ok { p with outbound := p.outbound ++ b } else .error (.io .brokenPipe)

/-- Writes messages until one fails. -/
def sendAll (p : Pipe) : List Message → Except (LinkError × Pipe) Pipe
  | [] => .ok p
  | m :: ms =>
    match p.send m with
    | .error e => .error (e, p)
    | .ok p => sendAll p ms

theorem send_inbound {p q : Pipe} {m : Message} (h : p.send m = .ok q) : q.inbound = p.inbound := by
  unfold send at h
  split at h
  · cases h
  · split at h
    · cases h; rfl
    · cases h

/-- Writing leaves alone what is to be read. -/
theorem sendAll_inbound {p : Pipe} {ms : List Message} :
    (∀ q, p.sendAll ms = .ok q → q.inbound = p.inbound) ∧
      ∀ e q, p.sendAll ms = .error (e, q) → q.inbound = p.inbound := by
  induction ms generalizing p with
  | nil => exact ⟨fun q h => by cases h; rfl, fun e q h => by cases h⟩
  | cons m ms ih =>
    constructor
    · intro q h
      simp only [sendAll] at h
      split at h
      · cases h
      · next hs => rw [ih.1 q h, send_inbound hs]
    · intro e q h
      simp only [sendAll] at h
      split at h
      · cases h; rfl
      · next hs => rw [ih.2 e q h, send_inbound hs]

/-- Ends our writing, which a peer that is still there sees. -/
def shutDown (p : Pipe) : Pipe := { p with shut := true, endSeen := p.endSeen || !p.vanished }

/-- The octets that the peer takes, and the stream without them. -/
def collect (p : Pipe) : Octets × Pipe := (p.outbound, { p with outbound := [] })

end Pipe

end BoothLink
