import BoothLink.Link.Fate
import BoothLink.Link.Inbox
import BoothLink.Link.Negotiation
import BoothLink.Ticker

/-!
# Main connections

A main connection joins a negotiation to a stream and a clock. Three things happen on it beside each
other: calls ask for services, messages from the peer are read and dispatched, and references go out at
a fixed interval. After each event everything that can be read is read.

* `MainLink`, `MainLink.start`.
* `MainLink.settle`: reads until the stream gives nothing more.
* `MainLink.request`, `cancel`, `close`: what the holder of the connection does.
* `MainLink.advance`: the clock moves, and due references are sent.
-/

namespace BoothLink

/-- The answer to a call for services. -/
abbrev ServicesAnswer := Except LinkError (List Service)

/-- One end of a main connection. -/
structure MainLink where
  state : Negotiation
  inbox : Inbox := { catalog := Catalog.mainLink }
  pipe : Pipe := {}
  fate : Fate := {}
  /-- Sends references; nothing once they have stopped. -/
  heartbeat : Option Ticker
  /-- The time on the clock, in milliseconds. -/
  now : Nat := 0
  /-- How many calls for services there have been. -/
  calls : Nat := 0
  /-- The calls whose makers still wait. -/
  waiting : List Nat := []
  /-- Answers that have not been taken yet, in the order in which they came. -/
  answers : List (Nat × ServicesAnswer) := []

namespace MainLink

/-- A connection that has announced its services. -/
def start (token target : Token) (offered : List Service) (heartbeat : Nat) :
    Except LinkError MainLink :=
  let state : Negotiation := { token, target, offered }
  match Pipe.sendAll {} state.announcements with
  | .error (e, _) => .error e
  | .ok pipe => .ok { state, pipe, heartbeat := Ticker.every? heartbeat 0 }

/-- Gives an answer to a call if its maker still waits. -/
def answer (l : MainLink) (call : Nat) (a : ServicesAnswer) : MainLink :=
  if call ∈ l.waiting then
    { l with waiting := l.waiting.filter (· ≠ call), answers := l.answers ++ [(call, a)] }
  else l

/-- Reading ends, with an error or without. -/
def finish (l : MainLink) (cause : Option LinkError) : MainLink :=
  let (state, call) := l.state.endReading
  let l := { l with state, fate := l.fate.finish cause }
  match call with
  | some call => l.answer call (.error .closed)
  | none => l

/-- Sends messages in return. Gives the error of the first that cannot be sent. -/
def reply (l : MainLink) (ms : List Message) : MainLink × Option LinkError :=
  match l.pipe.sendAll ms with
  | .ok pipe => ({ l with pipe }, none)
  | .error (e, pipe) => ({ l with pipe }, some e)

/-- Takes over the state after a message, and gives the answer that it brought. -/
def note (l : MainLink) (d : Negotiation.Dispatched) : MainLink :=
  let l := { l with state := d.state }
  match d.answer with
  | some (call, services) => l.answer call (.ok services)
  | none => l

/-- A message has been read. Gives the error of a reply that could not be sent. -/
def receive (l : MainLink) (m : Message) : MainLink × Option LinkError :=
  let d := l.state.dispatch m
  (l.note d).reply d.replies

/-! ### Reading ends -/

theorem answer_stream (l : MainLink) (call : Nat) (a : ServicesAnswer) :
    (l.answer call a).inbox = l.inbox ∧ (l.answer call a).pipe = l.pipe := by
  unfold answer
  split <;> exact ⟨rfl, rfl⟩

theorem note_stream (l : MainLink) (d : Negotiation.Dispatched) :
    (l.note d).inbox = l.inbox ∧ (l.note d).pipe = l.pipe := by
  unfold note
  split
  · exact answer_stream _ _ _
  · exact ⟨rfl, rfl⟩

theorem reply_stream (l : MainLink) (ms : List Message) :
    (l.reply ms).1.inbox = l.inbox ∧ (l.reply ms).1.pipe.inbound = l.pipe.inbound := by
  unfold reply
  split
  · next h => exact ⟨rfl, Pipe.sendAll_inbound.1 _ h⟩
  · next h => exact ⟨rfl, Pipe.sendAll_inbound.2 _ _ h⟩

/-- A message that has been read brings nothing more to read. -/
theorem receive_outstanding (l : MainLink) (m : Message) :
    (l.receive m).1.inbox.outstanding (l.receive m).1.pipe = l.inbox.outstanding l.pipe := by
  unfold receive
  simp only [Inbox.outstanding]
  rw [(reply_stream _ _).1, (reply_stream _ _).2, (note_stream _ _).1, (note_stream _ _).2]

/-- Reads and dispatches until the stream gives nothing more or reading ends. -/
def settle (l : MainLink) : MainLink :=
  if l.fate.ended then l
  else
    match _h : l.inbox.poll l.pipe with
    | (.pending, inbox, pipe) => { l with inbox, pipe }
    | (.finished, inbox, pipe) => { l with inbox, pipe }.finish none
    | (.failed e, inbox, pipe) => { l with inbox, pipe }.finish (some e)
    | (.message m, inbox, pipe) =>
      match _hr : receive { l with inbox, pipe } m with
      | (after, some e) => after.finish (some e)
      | (after, none) => settle after
termination_by l.inbox.outstanding l.pipe
decreasing_by
  have h := Inbox.poll_message_outstanding _h
  have hr := receive_outstanding { l with inbox, pipe } m
  rw [_hr] at hr
  simp only at hr
  omega

/-! ## What happens on a connection -/

def deliver (l : MainLink) (b : Octets) : MainLink := { l with pipe := l.pipe.deliver b }.settle

def hangUp (l : MainLink) : MainLink := { l with pipe := l.pipe.hangUp }.settle

def vanish (l : MainLink) : MainLink := { l with pipe := l.pipe.vanish }.settle

def peer (l : MainLink) : Pipe.Act → MainLink
  | .write b => l.deliver b
  | .hangUp => l.hangUp
  | .vanish => l.vanish

/-- One reference is due. They stop for good when the stream is gone. -/
def sendReference (l : MainLink) : MainLink :=
  if l.heartbeat.isNone then l
  else
    let (state, m) := l.state.beat
    match l.pipe.send m with
    | .ok pipe => { l with state, pipe }
    | .error e => { l with state, heartbeat := if e.isClosed then none else l.heartbeat }

/-- The clock moves on, and the references that are due are sent. -/
def advance (l : MainLink) (milliseconds : Nat) : MainLink :=
  let now := l.now + milliseconds
  match l.heartbeat with
  | none => { l with now }
  | some ticker =>
    let (due, ticker) := ticker.fires now
    due.repeat sendReference { l with now, heartbeat := some ticker }

/-- A call asks for services. Its number is the count of the calls before it. -/
def request (l : MainLink) : Nat × MainLink :=
  let call := l.calls
  let l := { l with calls := call + 1, waiting := l.waiting ++ [call] }
  let l :=
    match l.state.request call with
    | .error e => l.answer call (.error e)
    | .ok (state, m) =>
      match l.pipe.send m with
      | .ok pipe => { l with state, pipe }
      | .error e => { l with state := state.requestFailed }.answer call (.error e)
  (call, l)

/-- The makers of all waiting calls give up. Gives how many they were. -/
def cancel (l : MainLink) : Nat × MainLink := (l.waiting.length, { l with waiting := [] })

/-- Stops references and reading and ends our writing. No call can wait for an answer then. -/
def close (l : MainLink) : MainLink :=
  let l := { l.cancel.2 with heartbeat := none, pipe := l.pipe.shutDown }
  if l.fate.ended then l else l.finish none

/-- Takes the receiver of the error that ended reading; not while a call waits. -/
def takeError (l : MainLink) : Option Bool × MainLink :=
  if l.waiting.isEmpty then
    let (first, fate) := l.fate.take
    (some first, { l with fate })
  else (none, l)

/-- Asks the receiver of the error that ended reading. -/
def pollError (l : MainLink) : Fate.Poll × MainLink :=
  let (found, fate) := l.fate.poll
  (found, { l with fate })

/-- Takes what has been sent and answered so far. -/
def collect (l : MainLink) : (Octets × List (Nat × ServicesAnswer)) × MainLink :=
  let (sent, pipe) := l.pipe.collect
  ((sent, l.answers), { l with pipe, answers := [] })

end MainLink

end BoothLink
