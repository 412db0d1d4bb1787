import BoothLink.Proofs.Link.Ending
import BoothLink.Proofs.Link.Tasks

/-!
# What a main connection reads

The tasks of a main connection with the stream that one of them reads. What it hears is what its inbox
makes of what the peer has written, and it stops for a reason: the inbox finds that there is nothing more
to read, the system below refuses to read, a reply cannot be written, or the task finds that the
connection has been closed. Whoever holds the receiver of its error may ask for the error at any time.

* `MainReading`, `MainReading.Event`, `MainReading.Enabled`, `MainReading.next`, `MainReading.machine`.
* `MainReading.Sound`, `MainReading.Sound.after`: the error that was posted is the one with which the
  reading has ended, and it is given or still to be given.
-/

namespace BoothLink

namespace MainTasks

/-- Only a turn that ends the reading touches its error. -/
theorem fate_next (t : MainTasks) (e : Event) : (t.next e).fate =
    match e with
    | .replyFailed err => t.fate.finish (some err)
    | .stopped cause => t.fate.finish cause
    | _ => t.fate := by
  cases e with
  | called =>
    obtain ⟨-, err, hrefused⟩ | hfree := called_cases t
    · rw [hrefused]
    · rw [next_called_of_free hfree]
  | heard m =>
    rw [next, note_eq]
  | askFailed call err =>
    rw [next, abandon_eq]
    rfl
  | replyFailed | stopped => rw [next, finish_eq]
  | asked | returned | gaveUp | replied | counted | beat | beatFailed | hushed | closed => rfl

end MainTasks

/-- A main connection with its tasks and its stream, and what it has given of its error. -/
structure MainReading where
  tasks : MainTasks
  inbox : Inbox := { catalog := Catalog.mainLink }
  pipe : Pipe := {}
  /-- With what the reading has ended, once it has: an error, or none. -/
  left : Option (Option LinkError) := none
  /-- The errors that the receiver of the error has given. -/
  errors : List LinkError := []

namespace MainReading

/-- A connection that has announced its services. -/
def start (token target : Token) (offered : List Service) (beating : Bool) : MainReading :=
  { tasks := .start token target offered beating }

inductive Event where
  /-- The peer does something with the stream. -/
  | peer (act : Pipe.Act)
  /-- The reading task reads. -/
  | read
  /-- The system below refuses to read. -/
  | readFailed (kind : IoKind)
  /-- The reading task finds that the connection has been closed. -/
  | told
  /-- A task takes a turn in which nothing is read. -/
  | turn (e : MainTasks.Event)
  /-- The receiver of the error is handed out. -/
  | errorTaken
  /-- It is asked. -/
  | errorAsked
  deriving DecidableEq

/-- What the peer does in an event. -/
def Event.act? : Event → Option Pipe.Act
  | peer act => some act
  | _ => none

/-- The reading ends, with an error or without. -/
def stop (t : MainReading) (cause : Option LinkError) : MainReading :=
  { t with tasks := t.tasks.next (.stopped cause), left := some cause }

/-- The turns in which something is read, or nothing more. -/
def reads : MainTasks.Event → Bool
  | .heard _ | .stopped _ => true
  | _ => false

/-- What may happen. The stream is read between the replies to two messages. -/
def Enabled (t : MainReading) : Event → Prop
  | .read | .readFailed _ => t.tasks.state.ended = false ∧ t.tasks.replies = []
  | .told => t.tasks.state.ended = false ∧ t.tasks.replies = [] ∧ t.tasks.closing = true
  | .turn e => t.tasks.Enabled e ∧ reads e = false
  | .peer _ | .errorTaken | .errorAsked => True

/-- What comes of an event. -/
def next (t : MainReading) : Event → MainReading
  | .peer act => { t with pipe := t.pipe.peer act }
  | .read =>
    let (found, inbox, pipe) := t.inbox.poll t.pipe
    let t := { t with inbox, pipe }
    match found with
    | .message m => { t with tasks := t.tasks.next (.heard m) }
    | .pending => t
    | .finished => t.stop none
    | .failed e => t.stop (some e)
  | .readFailed kind => t.stop (some (.io kind))
  | .told => t.stop none
  | .turn (.replyFailed err) =>
    { t with tasks := t.tasks.next (.replyFailed err), left := some (some err) }
  | .turn e => { t with tasks := t.tasks.next e }
  | .errorTaken => { t with tasks := { t.tasks with fate := t.tasks.fate.take.2 } }
  | .errorAsked =>
    { t with
      tasks := { t.tasks with fate := t.tasks.fate.poll.2 }
      errors := t.errors ++ t.tasks.fate.poll.1.error?.toList }

def machine : Machine MainReading Event := ⟨Enabled, next⟩

/-- The errors that the receiver of the error has given, and the one that it would give now. -/
def reported (t : MainReading) : List LinkError :=
  t.errors ++ t.tasks.fate.take.2.poll.1.error?.toList

variable {t : MainReading} {e : Event}

/-! ## What has been posted -/

/-- Between any two turns: the tasks know whether the reading has ended, and the error that was posted is
the one with which it has. -/
structure Sound (t : MainReading) : Prop where
  state_eq : t.tasks.state.ended = t.left.isSome
  fate_eq : t.tasks.fate.ended = t.left.isSome
  given_eq : t.errors ++ t.tasks.fate.cause.toList = t.left.join.toList

theorem Sound.left_none (h : t.Sound) (hreads : t.tasks.state.ended = false) : t.left = none := by
  rw [h.state_eq, Option.isSome_eq_false_iff, Option.isNone_iff_eq_none] at hreads
  exact hreads

/-- A turn that does not end the reading changes nothing of this. -/
theorem Sound.of_same (h : t.Sound) {tasks : MainTasks} (inbox : Inbox) (pipe : Pipe)
    (hstate : tasks.state.ended = t.tasks.state.ended) (hfate : tasks.fate = t.tasks.fate) :
    Sound { t with tasks, inbox, pipe } where
  state_eq := hstate.trans h.state_eq
  fate_eq := by
    show tasks.fate.ended = _
    rw [hfate, h.fate_eq]
  given_eq := by
    show t.errors ++ tasks.fate.cause.toList = _
    rw [hfate, h.given_eq]

/-- The turn that ends the reading posts its error. -/
theorem Sound.of_finish (h : t.Sound) (hreads : t.tasks.state.ended = false) {tasks : MainTasks}
    (inbox : Inbox) (pipe : Pipe) {cause : Option LinkError} (hstate : tasks.state.ended = true)
    (hfate : tasks.fate = t.tasks.fate.finish cause) :
    Sound { t with tasks, inbox, pipe, left := some cause } := by
  have hnone := h.left_none hreads
  have hopen : t.tasks.fate.ended = false := by
    rw [h.fate_eq, hnone]
    rfl
  have hgiven := h.given_eq
  rw [hnone] at hgiven
  refine ⟨hstate, ?_, ?_⟩
  · show tasks.fate.ended = true
    rw [hfate, Fate.finish_of_open hopen]
  · show t.errors ++ tasks.fate.cause.toList = cause.toList
    rw [hfate]
    exact Fate.given_finish hopen hgiven cause

theorem Sound.stop (h : t.Sound) (hreads : t.tasks.state.ended = false) (inbox : Inbox) (pipe : Pipe)
    (cause : Option LinkError) : (MainReading.stop { t with inbox, pipe } cause).Sound :=
  h.of_finish hreads inbox pipe ((MainTasks.ended_next _ _).trans (Bool.or_true _))
    (MainTasks.fate_next t.tasks (.stopped cause))

theorem Sound.next (h : t.Sound) (he : t.Enabled e) : (t.next e).Sound := by
  cases e with
  | peer act => exact ⟨h.state_eq, h.fate_eq, h.given_eq⟩
  | read =>
    rw [MainReading.next]
    split
    next found inbox pipe _ =>
    cases found with
    | message m =>
      exact h.of_same inbox pipe ((MainTasks.ended_next _ _).trans (Bool.or_false _))
        (MainTasks.fate_next t.tasks (.heard m))
    | pending => exact ⟨h.state_eq, h.fate_eq, h.given_eq⟩
    | finished => exact h.stop he.1 inbox pipe none
    | failed err => exact h.stop he.1 inbox pipe (some err)
  | readFailed kind => exact h.stop he.1 t.inbox t.pipe _
  | told => exact h.stop he.1 t.inbox t.pipe none
  | turn e =>
    cases e with
    | replyFailed err =>
      exact h.of_finish he.1.1 t.inbox t.pipe ((MainTasks.ended_next _ _).trans (Bool.or_true _))
        (MainTasks.fate_next t.tasks (.replyFailed err))
    | heard | stopped => cases he.2
    | called | asked | askFailed | returned | gaveUp | replied | counted | beat | beatFailed | hushed
      | closed =>
      exact h.of_same t.inbox t.pipe ((MainTasks.ended_next _ _).trans (Bool.or_false _))
        (MainTasks.fate_next t.tasks _)
  | errorTaken => exact ⟨h.state_eq, h.fate_eq, h.given_eq⟩
  | errorAsked =>
    refine ⟨h.state_eq, ?_, ?_⟩
    · exact t.tasks.fate.ended_poll.trans h.fate_eq
    · exact (t.tasks.fate.given_poll t.errors).trans h.given_eq

theorem sound_start (token target : Token) (offered : List Service) (beating : Bool) :
    (start token target offered beating).Sound := ⟨rfl, rfl, rfl⟩

theorem Sound.after (h : t.Sound) {es : List Event} (hes : machine.Possible t es) :
    (machine.after t es).Sound := hes.invariant Sound h Sound.next

theorem reported_eq (t : MainReading) : t.reported = t.errors ++ t.tasks.fate.cause.toList :=
  congrArg (t.errors ++ ·.toList) t.tasks.fate.error?_poll_take

end MainReading

end BoothLink
