import BoothLink.Link.BeatFeed
import BoothLink.Link.StateFeed
import BoothLink.Proofs.Link.Ending
import BoothLink.Proofs.Machine

/-!
# The task that reads a connection of data

A connection that brings data is read by a task of its own, beside whoever holds the receiving end of
its queue, the receiver of its error and the connection itself. The task goes round its loop: it makes a
message of what has arrived, or puts the item that it holds into the queue as soon as there is room.
When it leaves the loop it posts its error, if there is one, and gives up the means to post another, and
only then the sending end of the queue. In between anything else may happen, and what happens is a list
of such turns in any order.

When the system below refuses to read, and when a task that has been told to stop finds out, is left
open: either may happen whenever the task waits.

* `Stage`, `FeedTask`: how far the task is, and a connection with its task and with what it has given.
* `FeedTask.Event`, `FeedTask.Enabled`, `FeedTask.next`: the turns, when they may be taken and what
  comes of them; `FeedTask.machine`.
* `FeedTask.glimpse`: what the receiving end would give.
* **`FeedTask.turned_step`**: whatever a turn of the loop may do.
* `FeedTask.Sound`, `FeedTask.Sound.after`: the error that has been posted is the one with which the
  loop was left, and it is given or still to be given.
-/

namespace BoothLink

/-- How far the task that reads is. -/
inductive Stage where
  | reads
  /-- It has left its loop, with an error or without. -/
  | leaves (cause : Option LinkError)
  /-- It has posted the error, if there is one, and can post no other. -/
  | posted (cause : Option LinkError)
  /-- It has given up the sending end of the queue too. -/
  | gone (cause : Option LinkError)
  deriving DecidableEq

namespace Stage

/-- With what the loop was left, once it was: an error, or none. -/
def left? : Stage → Option (Option LinkError)
  | reads => none
  | leaves cause | posted cause | gone cause => some cause

/-- With what the task has posted, once it has: an error, or none. -/
def posted? : Stage → Option (Option LinkError)
  | reads | leaves _ => none
  | posted cause | gone cause => some cause

end Stage

/-- A connection with the task that reads it, and what it has given so far. -/
structure FeedTask (α : Type) where
  feed : Feed α
  stage : Stage := .reads
  /-- The task has been told to stop. -/
  closing : Bool := false
  /-- The items that the receiving end has given. -/
  received : List α := []
  /-- The errors that the receiver of the error has given. -/
  errors : List LinkError := []

namespace FeedTask

variable {α : Type}

/-- A turn of the task, of the peer or of a holder. -/
inductive Event where
  /-- The peer does something with the stream. -/
  | peer (act : Pipe.Act)
  /-- The loop goes on. -/
  | step
  /-- The system below refuses to read. -/
  | readFailed (kind : IoKind)
  /-- The task finds that it has been told to stop. -/
  | told
  /-- The error is posted, if there is one. -/
  | posted
  /-- The sending end of the queue is given up. -/
  | finished
  /-- The receiving end is handed out. -/
  | taken
  /-- The receiving end gives an item. -/
  | received
  /-- The receiving end is given up. -/
  | dropped
  /-- The receiver of the error is handed out. -/
  | errorTaken
  /-- It is asked. -/
  | errorAsked
  /-- The connection is closed: the task is told to stop, and we write no more. -/
  | closed
  /-- A message is written. -/
  | sent (m : Message)
  /-- The peer takes what has been sent. -/
  | collected
  deriving DecidableEq

/-- What the peer does in an event. -/
def Event.act? : Event → Option Pipe.Act
  | peer act => some act
  | _ => none

/-- A stream on which the peer acts and from which nobody reads. -/
def written (es : List Event) : Pipe := (es.filterMap Event.act?).foldl Pipe.peer {}

/-- The task leaves its loop. The item in its hand is lost. -/
def leave (t : FeedTask α) (cause : Option LinkError) : FeedTask α :=
  { t with feed := { t.feed with inHand := none }, stage := .leaves cause }

/-- The task takes over what a step has come to. The end of the reading does not show yet. -/
def turn (t : FeedTask α) (g : Feed α) : FeedTask α :=
  if g.fate.ended then { t with feed := { g with fate := t.feed.fate }, stage := .leaves g.fate.cause }
  else { t with feed := g }

/-- What may happen. -/
def Enabled (t : FeedTask α) : Event → Prop
  | .step => t.stage = .reads ∧ t.feed.step?.isSome
  | .readFailed _ => t.stage = .reads ∧ t.feed.inHand = none ∧
      t.feed.inbox.catalog.decode t.feed.inbox.buffered = .ok none
  | .told => t.stage = .reads ∧ t.closing = true
  | .posted => ∃ cause, t.stage = .leaves cause
  | .finished => ∃ cause, t.stage = .posted cause
  | .received => t.feed.taken = true ∧ t.feed.dropped = false ∧ t.feed.queue ≠ []
  | .peer _ | .taken | .dropped | .errorTaken | .errorAsked | .closed | .sent _ | .collected => True

/-- What comes of an event. -/
def next (t : FeedTask α) : Event → FeedTask α
  | .peer act => { t with feed := { t.feed with pipe := t.feed.pipe.peer act } }
  | .step =>
    match t.feed.step? with
    | some g => t.turn g
    | none => t
  | .readFailed kind => t.leave (some (.io kind))
  | .told => t.leave none
  | .posted =>
    match t.stage with
    | .leaves cause =>
      { t with
        feed := { t.feed with fate := t.feed.fate.finish cause }
        stage := .posted cause }
    | _ => t
  | .finished =>
    match t.stage with
    | .posted cause => { t with stage := .gone cause }
    | _ => t
  | .taken => { t with feed := t.feed.take.2 }
  | .received =>
    match t.feed.queue with
    | x :: queue => { t with feed := { t.feed with queue }, received := t.received ++ [x] }
    | [] => t
  | .dropped => { t with feed := { t.feed with dropped := true } }
  | .errorTaken => { t with feed := t.feed.takeError.2 }
  | .errorAsked =>
    { t with
      feed := t.feed.pollError.2
      errors := t.errors ++ t.feed.pollError.1.error?.toList }
  | .closed => { t with feed := { t.feed with pipe := t.feed.pipe.shutDown }, closing := true }
  | .sent m => { t with feed := (t.feed.send m).2 }
  | .collected => { t with feed := t.feed.collect.2 }

variable (α) in
def machine : Machine (FeedTask α) Event := ⟨Enabled, next⟩

/-- What the receiving end would give. -/
def glimpse (t : FeedTask α) : Feed.Received α :=
  if !t.feed.taken || t.feed.dropped then .notTaken
  else
    match t.feed.queue, t.stage with
    | x :: _, _ => .item x
    | [], .gone _ => .closed
    | [], _ => .empty

/-- The errors that the receiver of the error has given, and the one that it would give now. -/
def reported (t : FeedTask α) : List LinkError :=
  t.errors ++ t.feed.takeError.2.pollError.1.error?.toList

/-! ## What a turn of the loop does -/

variable {t : FeedTask α} {e : Event}

/-- What a turn of the loop comes to. -/
inductive Turned (t : FeedTask α) : FeedTask α → Prop where
  /-- The item in hand goes into the queue. -/
  | put {x : α} : t.feed.inHand = some x → t.feed.dropped = false →
      t.feed.queue.length < t.feed.capacity →
      Turned t { t with feed := { t.feed with queue := t.feed.queue ++ [x], inHand := none } }
  /-- Nobody wants it any more. -/
  | unwanted {x : α} : t.feed.inHand = some x → t.feed.dropped = true → Turned t (t.leave none)
  /-- A message is read, and the item that it brings is taken to hand. -/
  | brought {m : Message} {x : Option α} {inbox : Inbox} {pipe : Pipe} : t.feed.inHand = none →
      t.feed.inbox.poll t.feed.pipe = (.message m, inbox, pipe) → t.feed.kind.item m = .ok x →
      Turned t { t with feed := { t.feed with inbox, pipe, inHand := x } }
  /-- A message is read that brings no item although it should. -/
  | refused {m : Message} {err : WireError} {inbox : Inbox} {pipe : Pipe} : t.feed.inHand = none →
      t.feed.inbox.poll t.feed.pipe = (.message m, inbox, pipe) → t.feed.kind.item m = .error err →
      Turned t (leave { t with feed := { t.feed with inbox, pipe } } (some (.protocol err)))
  /-- There is nothing more to read. -/
  | stopped {found : Inbox.Poll} {cause : Option LinkError} {inbox : Inbox} {pipe : Pipe} :
      t.feed.inHand = none → t.feed.inbox.poll t.feed.pipe = (found, inbox, pipe) →
      found.stop? = some cause → Turned t (leave { t with feed := { t.feed with inbox, pipe } } cause)
  /-- What has arrived is taken to hand. -/
  | absorbed {inbox : Inbox} {pipe : Pipe} : t.feed.inHand = none →
      t.feed.inbox.poll t.feed.pipe = (.pending, inbox, pipe) → t.feed.pipe.inbound ≠ [] →
      Turned t { t with feed := { t.feed with inbox, pipe } }

theorem turn_finish {f : Feed α} (hfate : f.fate = t.feed.fate) (hreads : t.feed.fate.ended = false)
    (cause : Option LinkError) : t.turn (f.finish cause) = leave { t with feed := f } cause := by
  have hend : (f.finish cause).fate = { f.fate with ended := true, cause } :=
    Fate.finish_of_open (by rw [hfate, hreads]) cause
  rw [turn, hend, if_pos rfl, ← hfate]
  rfl

theorem turn_of_reads {g : Feed α} (h : g.fate.ended = false) : t.turn g = { t with feed := g } :=
  if_neg (by rw [h]; decide)

/-- **Whatever a turn of the loop may do.** -/
theorem turned_step (h : t.Enabled .step) : t.Turned (t.next .step) := by
  obtain ⟨-, hsome⟩ := h
  obtain ⟨g, hg⟩ := Option.isSome_iff_exists.mp hsome
  have hnext : t.next .step = t.turn g := by rw [next, hg]
  obtain ⟨hreads, hstep⟩ := Feed.stepped_of_step? hg
  rw [hnext]
  cases hstep with
  | unwanted hx hdropped =>
    rw [turn_finish (by rfl) hreads]
    exact .unwanted hx hdropped
  | put hx hheld hroom =>
    rw [turn_of_reads (by exact hreads)]
    exact .put hx hheld hroom
  | brought hidle hpoll hitem =>
    rw [turn_of_reads (by exact hreads)]
    exact .brought hidle hpoll hitem
  | refused hidle hpoll hitem =>
    rw [turn_finish (by rfl) hreads]
    exact .refused hidle hpoll hitem
  | finished hidle hpoll | failed hidle hpoll =>
    rw [turn_finish (by rfl) hreads]
    exact .stopped hidle hpoll rfl
  | absorbed hidle hpoll hinbound =>
    rw [turn_of_reads (by exact hreads)]
    exact .absorbed hidle hpoll hinbound

theorem closing_next (t : FeedTask α) (e : Event) :
    (t.next e).closing = (t.closing || decide (e = .closed)) := by
  cases e with
  | step =>
    rw [next]
    split
    · rw [turn]
      split <;> exact (Bool.or_false _).symm
    · exact (Bool.or_false _).symm
  | posted | finished | received =>
    rw [next]
    split <;> exact (Bool.or_false _).symm
  | closed => exact (Bool.or_true _).symm
  | peer | readFailed | told | taken | dropped | errorTaken | errorAsked | sent | collected =>
    exact (Bool.or_false _).symm

theorem left?_eq_none : t.stage.left? = none ↔ t.stage = .reads := by
  cases t.stage <;> simp [Stage.left?]

theorem left?_of_reads {cause : Option LinkError} (h : t.stage = .reads) :
    ¬ t.stage.left? = some cause := by
  rw [h]
  exact nofun

/-- **A loop is left once, with one cause.** -/
theorem left?_next {cause : Option LinkError} (hleft : t.stage.left? = some cause)
    (he : t.Enabled e) : (t.next e).stage.left? = some cause := by
  have hnot : t.stage ≠ .reads := fun hreads => left?_of_reads hreads hleft
  cases e with
  | step | readFailed | told => exact absurd he.1 hnot
  | posted =>
    obtain ⟨cause', hstage⟩ := he
    rw [hstage] at hleft
    rw [next, hstage]
    exact hleft
  | finished =>
    obtain ⟨cause', hstage⟩ := he
    rw [hstage] at hleft
    rw [next, hstage]
    exact hleft
  | received =>
    rw [next]
    split <;> exact hleft
  | peer | taken | dropped | errorTaken | errorAsked | closed | sent | collected => exact hleft

theorem over_next (h : t.stage ≠ .reads) (he : t.Enabled e) : (t.next e).stage ≠ .reads := by
  intro hreads
  cases hleft : t.stage.left? with
  | none => exact h (left?_eq_none.mp hleft)
  | some cause => exact left?_of_reads hreads (left?_next hleft he)

/-- **The queue shows its end when it is empty and the task has given it up.** -/
theorem closed_of_glimpse (h : t.glimpse = .closed) :
    t.feed.queue = [] ∧ ∃ cause, t.stage = .gone cause := by
  rw [glimpse] at h
  split at h
  · cases h
  · split at h
    · cases h
    · next cause hqueue hstage => exact ⟨hqueue, cause, hstage⟩
    · cases h

/-! ## What has been posted -/

/-- Between any two turns: the error that was posted is the one with which the loop was left, and no
item is in hand once it was. -/
structure Sound (t : FeedTask α) : Prop where
  idle : t.stage ≠ .reads → t.feed.inHand = none
  ended_eq : t.feed.fate.ended = t.stage.posted?.isSome
  given_eq : t.errors ++ t.feed.fate.cause.toList = t.stage.posted?.join.toList

theorem reported_eq (t : FeedTask α) : t.reported = t.errors ++ t.feed.fate.cause.toList := by
  rw [reported]
  exact congrArg (t.errors ++ ·.toList) t.feed.fate.error?_poll_take

theorem Sound.of_leave (h : t.Sound) (hreads : t.stage = .reads) {f : Feed α}
    (hfate : f.fate = t.feed.fate) (cause : Option LinkError) :
    (leave { t with feed := f } cause).Sound where
  idle := fun _ => rfl
  ended_eq := by
    show f.fate.ended = false
    rw [hfate, h.ended_eq, hreads]
    rfl
  given_eq := by
    show t.errors ++ f.fate.cause.toList = []
    rw [hfate, h.given_eq, hreads]
    rfl

theorem Sound.turned (h : t.Sound) (hreads : t.stage = .reads) {t' : FeedTask α}
    (ht : t.Turned t') : t'.Sound := by
  cases ht with
  | put | brought | absorbed =>
    exact ⟨fun hnot => absurd hreads hnot, h.ended_eq, h.given_eq⟩
  | unwanted => exact h.of_leave hreads (f := t.feed) rfl none
  | @refused m err inbox pipe => exact h.of_leave hreads (f := { t.feed with inbox, pipe }) rfl _
  | @stopped found cause inbox pipe =>
    exact h.of_leave hreads (f := { t.feed with inbox, pipe }) rfl cause

theorem Sound.next (h : t.Sound) (he : t.Enabled e) : (t.next e).Sound := by
  cases e with
  | step => exact h.turned he.1 (turned_step he)
  | readFailed kind => exact h.of_leave he.1 (f := t.feed) rfl _
  | told => exact h.of_leave he.1 (f := t.feed) rfl none
  | posted =>
    obtain ⟨cause, hstage⟩ := he
    have hopen : t.feed.fate.ended = false := by
      rw [h.ended_eq, hstage]
      rfl
    have hnone := h.given_eq
    rw [hstage] at hnone
    rw [FeedTask.next, hstage]
    refine ⟨fun _ => h.idle (by rw [hstage]; exact nofun), ?_, Fate.given_finish hopen hnone cause⟩
    exact Feed.ended_finish _ _
  | finished =>
    obtain ⟨cause, hstage⟩ := he
    simp only [FeedTask.next, hstage]
    refine ⟨fun _ => h.idle (by rw [hstage]; exact nofun), ?_, ?_⟩
    · rw [h.ended_eq, hstage]
      rfl
    · rw [h.given_eq, hstage]
      rfl
  | received =>
    rw [FeedTask.next]
    split
    · exact ⟨h.idle, h.ended_eq, h.given_eq⟩
    · exact h
  | errorAsked =>
    refine ⟨h.idle, ?_, ?_⟩
    · exact t.feed.fate.ended_poll.trans h.ended_eq
    · exact (t.feed.fate.given_poll t.errors).trans h.given_eq
  | sent m =>
    rw [FeedTask.next, Feed.send]
    split <;> exact ⟨h.idle, h.ended_eq, h.given_eq⟩
  | peer | taken | dropped | errorTaken | closed | collected =>
    exact ⟨h.idle, h.ended_eq, h.given_eq⟩

/-- A connection that has started has announced itself, and that is all. -/
theorem start_inv {kind : FeedKind α} {token : Token} {port : UInt16} {capacity : Nat} {f : Feed α}
    (h : Feed.start kind token port capacity = .ok f) :
    ∃ pipe, Pipe.send {} (.serviceAnnouncement token kind.service port) = .ok pipe ∧
      f = { kind, pipe, inbox := { catalog := kind.catalog }, capacity := max capacity 1 } := by
  rw [Feed.start] at h
  generalize Pipe.send {} (.serviceAnnouncement token kind.service port) = sent at h
  cases sent with
  | error err => cases h
  | ok pipe =>
    cases h
    exact ⟨pipe, rfl, rfl⟩

theorem sound_start {kind : FeedKind α} {token : Token} {port : UInt16} {capacity : Nat} {f : Feed α}
    (h : Feed.start kind token port capacity = .ok f) : Sound { feed := f } := by
  obtain ⟨pipe, -, rfl⟩ := start_inv h
  exact ⟨fun _ => rfl, rfl, rfl⟩

theorem Sound.after (h : t.Sound) {es : List Event} (hes : (machine α).Possible t es) :
    ((machine α).after t es).Sound := hes.invariant Sound h Sound.next

end FeedTask

end BoothLink
