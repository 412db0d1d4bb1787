import BoothLink.Link.Fate
import BoothLink.Link.Inbox

/-!
# Connections that bring data

The connection of a service brings items, each in a message, to whoever holds the receiving end of a
queue of limited length. One item more may have been read and wait for room; until there is room,
nothing else is read. Messages of other kinds are passed over.

* `FeedKind`: which catalog a service speaks, and what its messages bring.
* `Feed`, `Feed.start`.
* `Feed.step?`, `Feed.settle`: one step of the reading, and all that can be made.
* **`Feed.stepped_of_step?`**: whatever a step may do.
* `Feed.receive`, `receiveAll`, `dropReceiver`, `close`: what the holder does.
* **`step?_weight`**: the reading comes to rest.
-/

namespace BoothLink

/-- A service that brings items. -/
structure FeedKind (α : Type) where
  /-- The name under which the service is announced. -/
  service : String
  catalog : Catalog
  /-- The item that a message brings, if it brings one. -/
  item : Message → Except WireError (Option α)

/-- A connection that brings items. -/
structure Feed (α : Type) where
  kind : FeedKind α
  inbox : Inbox
  pipe : Pipe
  fate : Fate := {}
  /-- How many items the queue holds. -/
  capacity : Nat
  /-- The items that wait for the receiver. -/
  queue : List α := []
  /-- An item that has been read and waits for room. -/
  inHand : Option α := none
  /-- The receiving end has been handed out. -/
  taken : Bool := false
  /-- The receiving end has been given up. -/
  dropped : Bool := false

namespace Feed

variable {α : Type}

/-- A connection that has announced itself under its service's name and a port. -/
def start (kind : FeedKind α) (token : Token) (port : UInt16) (capacity : Nat) :
    Except LinkError (Feed α) :=
  (Pipe.send {} (.serviceAnnouncement token kind.service port)).map fun pipe =>
    { kind, pipe, inbox := { catalog := kind.catalog }, capacity := max capacity 1 }

/-- Reading ends, with an error or without. An item that waits for room is lost. -/
def finish (f : Feed α) (cause : Option LinkError) : Feed α :=
  { f with inHand := none, fate := f.fate.finish cause }

/-- A message has been read. -/
def accept (f : Feed α) (m : Message) : Feed α :=
  match f.kind.item m with
  | .error e => f.finish (some (.protocol e))
  | .ok x => { f with inHand := x }

/-- One step of the reading: an item goes into the queue, or a message is read. -/
def step? (f : Feed α) : Option (Feed α) :=
  if f.fate.ended then none
  else
    match f.inHand with
    | some x =>
      if f.dropped then some (f.finish none)
      else if f.queue.length < f.capacity then
        some { f with queue := f.queue ++ [x], inHand := none }
      else none
    | none =>
      match f.inbox.poll f.pipe with
      | (.message m, inbox, pipe) => some (accept { f with inbox, pipe } m)
      | (.finished, inbox, pipe) => some (finish { f with inbox, pipe } none)
      | (.failed e, inbox, pipe) => some (finish { f with inbox, pipe } (some e))
      | (.pending, inbox, pipe) =>
        if f.pipe.inbound.isEmpty then none else some { f with inbox, pipe }

/-- What is left to do: each octet on the stream counts for more than one at hand, and that for more
than the item that it may bring. -/
def weight (f : Feed α) : Nat :=
  (if f.fate.ended then 0 else 1) + (if f.inHand.isSome then 2 else 0) +
    4 * f.inbox.outstanding f.pipe + f.pipe.inbound.length

theorem ended_finish (f : Fate) (cause : Option LinkError) : (f.finish cause).ended = true := by
  unfold Fate.finish
  split
  · assumption
  · rfl

/-- What a step comes to. -/
inductive Stepped (f : Feed α) : Feed α → Prop where
  /-- Nobody wants the item in hand any more. -/
  | unwanted {x : α} : f.inHand = some x → f.dropped = true → Stepped f (f.finish none)
  /-- The item in hand goes into the queue. -/
  | put {x : α} : f.inHand = some x → f.dropped = false → f.queue.length < f.capacity →
      Stepped f { f with queue := f.queue ++ [x], inHand := none }
  /-- A message is read, and the item that it brings is taken to hand. -/
  | brought {m : Message} {x : Option α} {inbox : Inbox} {pipe : Pipe} : f.inHand = none →
      f.inbox.poll f.pipe = (.message m, inbox, pipe) → f.kind.item m = .ok x →
      Stepped f { f with inbox, pipe, inHand := x }
  /-- A message is read that brings no item although it should. -/
  | refused {m : Message} {e : WireError} {inbox : Inbox} {pipe : Pipe} : f.inHand = none →
      f.inbox.poll f.pipe = (.message m, inbox, pipe) → f.kind.item m = .error e →
      Stepped f (finish { f with inbox, pipe } (some (.protocol e)))
  /-- The stream has ended. -/
  | finished {inbox : Inbox} {pipe : Pipe} : f.inHand = none →
      f.inbox.poll f.pipe = (.finished, inbox, pipe) → Stepped f (finish { f with inbox, pipe } none)
  /-- Nothing more can be made of it. -/
  | failed {e : LinkError} {inbox : Inbox} {pipe : Pipe} : f.inHand = none →
      f.inbox.poll f.pipe = (.failed e, inbox, pipe) →
      Stepped f (finish { f with inbox, pipe } (some e))
  /-- What has arrived is taken to hand. -/
  | absorbed {inbox : Inbox} {pipe : Pipe} : f.inHand = none →
      f.inbox.poll f.pipe = (.pending, inbox, pipe) → f.pipe.inbound ≠ [] →
      Stepped f { f with inbox, pipe }

/-- **Whatever a step may do.** -/
theorem stepped_of_step? {f g : Feed α} (h : f.step? = some g) :
    f.fate.ended = false ∧ f.Stepped g := by
  unfold step? at h
  split at h
  · cases h
  · next hopen =>
    refine ⟨by simpa using hopen, ?_⟩
    split at h
    · next x hx =>
      split at h
      · next hdropped =>
        cases h
        exact .unwanted hx hdropped
      · next hdropped =>
        split at h
        · next hroom =>
          cases h
          exact .put hx (by simpa using hdropped) hroom
        · cases h
    · next hidle =>
      split at h
      · next m inbox pipe hpoll =>
        cases h
        unfold accept
        split
        · next e hitem => exact .refused hidle hpoll hitem
        · next x hitem => exact .brought hidle hpoll hitem
      · next hpoll =>
        cases h
        exact .finished hidle hpoll
      · next hpoll =>
        cases h
        exact .failed hidle hpoll
      · next hpoll =>
        split at h
        · cases h
        · next hne =>
          cases h
          exact .absorbed hidle hpoll fun hnil => hne (by rw [hnil, List.isEmpty_nil])

theorem weight_finish (f : Feed α) (cause : Option LinkError) :
    (f.finish cause).weight = 4 * f.inbox.outstanding f.pipe + f.pipe.inbound.length := by
  rw [finish, weight, ended_finish, if_pos rfl]
  simp

theorem weight_idle {f : Feed α} (hopen : f.fate.ended = false) (hidle : f.inHand = none) :
    f.weight = 1 + 4 * f.inbox.outstanding f.pipe + f.pipe.inbound.length := by
  simp [weight, hopen, hidle]

/-- **Every step leaves less to do.** -/
theorem step?_weight {f g : Feed α} (h : f.step? = some g) : g.weight < f.weight := by
  obtain ⟨hopen, hstep⟩ := stepped_of_step? h
  -- A read leaves no more on the stream and at hand than there was, and less if it gives a message.
  have hread := Inbox.poll_outstanding f.inbox f.pipe
  cases hstep with
  | unwanted hx =>
    rw [weight_finish]
    simp only [weight, hopen, hx]
    simp
  | put hx => simp [weight, hx]
  | @brought m x inbox pipe hidle hpoll =>
    have hless := Inbox.poll_message_outstanding hpoll
    have hitem : (if x.isSome then 2 else 0) ≤ 2 := by split <;> decide
    rw [hpoll] at hread
    rw [weight_idle hopen hidle]
    simp only [weight, hopen, Bool.false_eq_true, if_false] at hread ⊢
    omega
  | refused hidle hpoll | finished hidle hpoll | failed hidle hpoll =>
    rw [hpoll] at hread
    rw [weight_finish, weight_idle hopen hidle]
    simp only at hread ⊢
    omega
  | absorbed hidle hpoll hne =>
    have hlen := List.length_pos_iff.mpr hne
    rw [hpoll] at hread
    rw [weight_idle hopen hidle, weight_idle (by exact hopen) (by exact hidle),
      Inbox.poll_pending hpoll, List.length_nil]
    simp only at hread ⊢
    omega

/-- Makes all steps that can be made. -/
def settle (f : Feed α) : Feed α :=
  match _h : f.step? with
  | some g => settle g
  | none => f
termination_by f.weight
decreasing_by exact step?_weight _h

/-! ## What happens on a connection -/

def deliver (f : Feed α) (b : Octets) : Feed α := { f with pipe := f.pipe.deliver b }.settle

def hangUp (f : Feed α) : Feed α := { f with pipe := f.pipe.hangUp }.settle

def vanish (f : Feed α) : Feed α := { f with pipe := f.pipe.vanish }.settle

def peer (f : Feed α) : Pipe.Act → Feed α
  | .write b => f.deliver b
  | .hangUp => f.hangUp
  | .vanish => f.vanish

def send (f : Feed α) (m : Message) : Except LinkError Unit × Feed α :=
  match f.pipe.send m with
  | .ok pipe => (.ok (), { f with pipe })
  | .error e => (.error e, f)

/-- Takes the receiving end, which can be done once. -/
def take (f : Feed α) : Bool × Feed α := (!f.taken, { f with taken := true })

/-- Gives the receiving end up, if it has been taken. -/
def dropReceiver (f : Feed α) : Feed α := { f with dropped := f.taken }.settle

/-- What the receiving end gives. -/
inductive Received (α : Type) where
  | notTaken
  /-- Nothing yet. -/
  | empty
  /-- Nothing will come. -/
  | closed
  | item (x : α)

/-- Asks the receiving end. An item taken makes room for the next one. -/
def receive (f : Feed α) : Received α × Feed α :=
  if !f.taken || f.dropped then (.notTaken, f)
  else
    match f.queue with
    | x :: queue => (.item x, { f with queue }.settle)
    | [] => (if f.fate.ended then .closed else .empty, f)

/-- Receives items while there are any, up to a number. -/
def receiveUpTo : Nat → Feed α → List α × Feed α
  | 0, f => ([], f)
  | n + 1, f =>
    match f.receive with
    | (.item x, f) =>
      let (more, f) := receiveUpTo n f
      (x :: more, f)
    | (_, f) => ([], f)

/-- Receives all items that there are: one that is not in the queue takes an octet at least. -/
def receiveAll (f : Feed α) : List α × Feed α :=
  receiveUpTo (f.queue.length + f.inbox.outstanding f.pipe + 1) f

/-- Takes the receiver of the error that ended reading, which can be done once. -/
def takeError (f : Feed α) : Bool × Feed α :=
  let (first, fate) := f.fate.take
  (first, { f with fate })

/-- Asks the receiver of the error that ended reading. -/
def pollError (f : Feed α) : Fate.Poll × Feed α :=
  let (found, fate) := f.fate.poll
  (found, { f with fate })

/-- Stops reading and ends our writing. What is in the queue can still be received. -/
def close (f : Feed α) : Feed α :=
  let f := { f with pipe := f.pipe.shutDown }
  if f.fate.ended then f else f.finish none

/-- Takes what has been sent so far. -/
def collect (f : Feed α) : Octets × Feed α :=
  let (sent, pipe) := f.pipe.collect
  (sent, { f with pipe })

end Feed

end BoothLink
