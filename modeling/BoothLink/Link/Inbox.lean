import BoothLink.Catalog
import BoothLink.Link.Pipe

/-!
# Taking messages off a stream

An inbox keeps the octets that have been read from a stream and are not yet a message. It decodes
what it has before it asks for more, and then takes everything that has arrived. The end of the stream
is clean between two messages and an error inside one.

* `Inbox`, `Inbox.attempt`: a message from the octets at hand.
* `Inbox.poll`: a message from the octets at hand or on the stream.
* **`attempt_message_length`**: a message leaves fewer octets at hand.
-/

namespace BoothLink

/-- The octets read and not yet decoded, with the number of messages decoded. -/
structure Inbox where
  catalog : Catalog
  buffered : Octets := []
  received : Nat := 0
  deriving Repr

namespace Inbox

/-- What the octets at hand give. -/
inductive Attempt where
  | message (m : Message) (rest : Inbox)
  | needMore
  | failed (e : WireError)

/-- Decodes a message from the octets at hand. -/
def attempt (r : Inbox) : Attempt :=
  match r.catalog.decode r.buffered with
  | .error e => .failed e
  | .ok none => .needMore
  | .ok (some (m, n)) =>
    .message m { r with buffered := r.buffered.drop n, received := r.received + 1 }

def absorb (r : Inbox) (b : Octets) : Inbox := { r with buffered := r.buffered ++ b }

/-- What one read gives. -/
inductive Poll where
  | message (m : Message)
  /-- Nothing yet. -/
  | pending
  /-- The stream ended between two messages. -/
  | finished
  | failed (e : LinkError)

/-- What a read gives when no message can be made of the octets at hand and none is on its way. -/
def atEnd (r : Inbox) (ended : Bool) : Poll :=
  if !ended then .pending
  else if r.buffered.isEmpty then .finished
  else .failed .closed

/-- What a read gives once everything on the stream is at hand. -/
def settle (r : Inbox) (ended : Bool) : Poll × Inbox :=
  match r.attempt with
  | .message m rest => (.message m, rest)
  | .failed e => (.failed (.protocol e), r)
  | .needMore => (r.atEnd ended, r)

def poll (r : Inbox) (p : Pipe) : Poll × Inbox × Pipe :=
  match r.attempt with
  | .message m rest => (.message m, rest, p)
  | .failed e => (.failed (.protocol e), r, p)
  | .needMore =>
    let (result, r) := (r.absorb p.inbound).settle p.ended
    (result, r, { p with inbound := [] })

/-- **A message leaves fewer octets at hand.** -/
theorem attempt_message_length {r rest : Inbox} {m : Message} (h : r.attempt = .message m rest) :
    rest.buffered.length < r.buffered.length := by
  unfold attempt at h
  split at h
  · cases h
  · cases h
  · next hd =>
    cases h
    have := Catalog.decode_consumes hd
    simp only [List.length_drop]
    omega

/-- The octets at hand and on the stream. -/
def outstanding (r : Inbox) (p : Pipe) : Nat := r.buffered.length + p.inbound.length

theorem settle_message_length {r rest : Inbox} {ended : Bool} {m : Message}
    (h : r.settle ended = (.message m, rest)) : rest.buffered.length < r.buffered.length := by
  unfold settle at h
  split at h
  · next hm =>
    cases h
    exact attempt_message_length hm
  · cases h
  · unfold atEnd at h
    split at h
    · cases h
    · split at h <;> cases h

theorem poll_message_outstanding {r rest : Inbox} {p q : Pipe} {m : Message}
    (h : r.poll p = (.message m, rest, q)) : rest.outstanding q < r.outstanding p := by
  unfold poll at h
  split at h
  · next hm =>
    cases h
    have := attempt_message_length hm
    simp only [outstanding]
    omega
  · cases h
  · generalize hs : (r.absorb p.inbound).settle p.ended = s at h
    obtain ⟨result, r'⟩ := s
    cases h
    have := settle_message_length hs
    simp only [absorb, List.length_append] at this
    simp only [outstanding, List.length_nil]
    omega

theorem settle_length (r : Inbox) (ended : Bool) :
    (r.settle ended).2.buffered.length ≤ r.buffered.length := by
  unfold settle
  split
  · next h => exact Nat.le_of_lt (attempt_message_length h)
  · exact Nat.le_refl _
  · exact Nat.le_refl _

/-- A read never adds to what is outstanding, nor to what is on the stream. -/
theorem poll_outstanding (r : Inbox) (p : Pipe) :
    (r.poll p).2.1.outstanding (r.poll p).2.2 ≤ r.outstanding p ∧
      (r.poll p).2.2.inbound.length ≤ p.inbound.length := by
  unfold poll
  split
  · next h =>
    have := attempt_message_length h
    simp only [outstanding]
    omega
  · exact ⟨Nat.le_refl _, Nat.le_refl _⟩
  · have := settle_length (r.absorb p.inbound) p.ended
    simp only [absorb, List.length_append] at this
    simp only [outstanding, List.length_nil, absorb]
    omega

/-- A read that gives nothing yet has taken everything off the stream. -/
theorem poll_pending {r rest : Inbox} {p q : Pipe} (h : r.poll p = (.pending, rest, q)) :
    q.inbound = [] := by
  unfold poll at h
  split at h
  · cases h
  · cases h
  · generalize (r.absorb p.inbound).settle p.ended = s at h
    obtain ⟨result, r'⟩ := s
    cases h
    rfl

end Inbox

end BoothLink
