import BoothLink.Link.MainLink
import BoothLink.Proofs.Machine

/-!
# The tasks of a main connection

At an end of a main connection several things go on beside each other: any number of calls for
services, the task that reads and replies, and the task that sends references. Each runs on to the
next place where it has to wait for a message, for a write, for an answer or for its time, and
nothing comes between. So an end is what the tasks share, its negotiation, together with what each
of them is about to do, and what happens to it is a list of such turns in any order.

How a write ends and when a task is stopped is left open: either may happen at any time. Neither the
stream nor the clock is kept: the messages that are read are given by the events, and those that are
written count once they are on the stream as a whole.

* `Call`, `MainTasks`: a call that has not returned, and an end with its tasks.
* `MainTasks.Event`, `MainTasks.Enabled`, `MainTasks.next`: the turns, when they may be taken and
  what comes of them; `MainTasks.machine`.
* `MainTasks.next_eq`, `MainTasks.state_next`: what an event leaves alone.
* **`MainTasks.collecting_of_next`**, **`MainTasks.call_of_next`**, **`MainTasks.answer_of_next`**:
  whatever an event may have done to the collection, to a call and to the answers.
-/

namespace BoothLink

/-- The service that a message announces. -/
def Message.service? : Message → Option Service
  | .serviceAnnouncement _ name port => some ⟨name, port⟩
  | _ => none

/-- The number that a reference carries. -/
def Message.count? : Message → Option Int64
  | .reference _ _ count => some count
  | _ => none

/-- Whether a message asks for services. -/
def Message.isRequest : Message → Bool
  | .servicesRequest _ => true
  | _ => false

/-- The services that messages announce. -/
def Message.announced (ms : List Message) : List Service := ms.filterMap Message.service?

@[simp] theorem Message.announced_append (ms ns : List Message) :
    announced (ms ++ ns) = announced ms ++ announced ns := List.filterMap_append

/-- How far a request is after a message has been dispatched. -/
def Progress.hear : Progress → Message → Progress
  | .collecting call found, m =>
    match m.count? with
    | some _ => .completed found
    | none => .collecting call (found ++ m.service?.toList)
  | p, _ => p

/-- The call that a message answers, with its services. -/
def Progress.outcome : Progress → Message → Option (Nat × List Service)
  | .collecting call found, m => m.count?.map fun _ => (call, found)
  | _, _ => none

namespace Negotiation

variable (s : Negotiation) (m : Message)

theorem dispatch_state : (s.dispatch m).state =
    { s with progress := s.progress.hear m, peerCount := m.count?.or s.peerCount } := by
  obtain ⟨_, _, _, progress, _, _, _⟩ := s
  cases progress <;> cases m <;> simp [dispatch, Progress.hear, Message.count?, Message.service?]

theorem dispatch_answer : (s.dispatch m).answer = s.progress.outcome m := by
  obtain ⟨_, _, _, progress, _, _, _⟩ := s
  cases progress <;> cases m <;> rfl

theorem dispatch_replies :
    (s.dispatch m).replies = if m.isRequest then s.announcements else [] := by
  obtain ⟨_, _, _, progress, _, _, _⟩ := s
  cases progress <;> cases m <;> rfl

end Negotiation

/-- A call for services that has not returned. -/
structure Call where
  number : Nat
  /-- Its request, until that has been written. -/
  request : Option Message
  /-- What has come of the collection that it began. -/
  channel : Option ServicesAnswer := none
  deriving DecidableEq

/-- One end of a main connection, with what each of its tasks is about to do. -/
structure MainTasks where
  state : Negotiation
  fate : Fate := {}
  /-- How many calls there have been. -/
  made : Nat := 0
  /-- The calls that have not returned. -/
  calls : List Call := []
  /-- What calls have returned, in the order in which they did. -/
  answers : List (Nat × ServicesAnswer) := []
  /-- What the reading task has still to write before it reads on. -/
  replies : List Message := []
  /-- References are being sent. -/
  beating : Bool := true
  /-- The reference that has been counted and is still to be written. -/
  reference : Option Message := none
  /-- The tasks have been told to stop. -/
  closing : Bool := false
  /-- The messages that have been written as a whole. -/
  sent : List Message := []

namespace MainTasks

/-- An end that has announced its services. -/
def start (token target : Token) (offered : List Service) (beating : Bool := true) : MainTasks :=
  let state : Negotiation := { token, target, offered }
  { state, beating, sent := state.announcements }

/-- A turn of one of the tasks. -/
inductive Event where
  /-- A call is made. It is refused, or begins to collect. -/
  | called
  /-- The request of a call has been written. -/
  | asked (call : Nat) (m : Message)
  /-- It could not be written, and the call returns. -/
  | askFailed (call : Nat) (e : LinkError)
  /-- A call whose request has been written returns the answer that has come. -/
  | returned (call : Nat) (a : ServicesAnswer)
  /-- The maker of a call gives it up. -/
  | gaveUp (call : Nat)
  /-- A message has been read, and is dispatched. -/
  | heard (m : Message)
  /-- The next reply has been written. -/
  | replied (m : Message)
  /-- It could not be written, and reading ends. -/
  | replyFailed (e : LinkError)
  /-- Reading ends otherwise: with the stream, with an error, or because the connection is closed.
  -/
  | stopped (cause : Option LinkError)
  /-- A reference is due and gets its number. -/
  | counted
  | beat (m : Message)
  | beatFailed (e : LinkError)
  /-- No more references are sent, because the connection is closed. -/
  | hushed
  /-- The connection is closed. -/
  | closed
  deriving DecidableEq

namespace Event

/-- What an event writes. -/
def writes : Event → List Message
  | asked _ m | replied m | beat m => [m]
  | _ => []

/-- The events that end reading. -/
def endsReading : Event → Bool
  | replyFailed _ | stopped _ => true
  | _ => false

/-- The message that an event has read. -/
def heard? : Event → Option Message
  | heard m => some m
  | _ => none

end Event

/-- The messages that some events have read. -/
def heardIn (es : List Event) : List Message := es.filterMap Event.heard?

@[simp] theorem heardIn_append (es fs : List Event) :
    heardIn (es ++ fs) = heardIn es ++ heardIn fs := List.filterMap_append

/-- Puts an answer into the channel of a call. -/
def fill (t : MainTasks) (call : Nat) (a : ServicesAnswer) : MainTasks :=
  { t with
    calls := t.calls.map fun k => if k.number = call then { k with channel := some a } else k }

/-- A call goes without an answer. -/
def leave (t : MainTasks) (call : Nat) : MainTasks :=
  { t with calls := t.calls.filter (·.number ≠ call) }

/-- A call goes with an answer. -/
def resolve (t : MainTasks) (call : Nat) (a : ServicesAnswer) : MainTasks :=
  { t.leave call with answers := t.answers ++ [(call, a)] }

/-- Nobody is left to answer the call that collects, if one does. -/
def abandon (t : MainTasks) : MainTasks :=
  match t.state.progress with
  | .collecting call _ => t.fill call (.error .closed)
  | _ => t

/-- Reading ends, with an error or without. -/
def finish (t : MainTasks) (cause : Option LinkError) : MainTasks :=
  let (state, call) := t.state.endReading
  let t := { t with state, fate := t.fate.finish cause }
  match call with
  | some call => t.fill call (.error .closed)
  | none => t

/-- Takes over what a message has led to. -/
def note (t : MainTasks) (d : Negotiation.Dispatched) : MainTasks :=
  let t := { t with state := d.state, replies := d.replies }
  match d.answer with
  | some (call, services) => t.fill call (.ok services)
  | none => t

/-- What may happen. -/
def Enabled (t : MainTasks) : Event → Prop
  | .called => True
  | .asked call m => ∃ k ∈ t.calls, k.number = call ∧ k.request = some m
  | .askFailed call _ => ∃ k ∈ t.calls, k.number = call ∧ k.request ≠ none
  | .returned call a => ∃ k ∈ t.calls, k.number = call ∧ k.request = none ∧ k.channel = some a
  | .gaveUp call => ∃ k ∈ t.calls, k.number = call
  | .heard _ | .stopped _ => t.state.ended = false ∧ t.replies = []
  | .replied m => t.state.ended = false ∧ t.replies.head? = some m
  | .replyFailed _ => t.state.ended = false ∧ t.replies ≠ []
  | .counted => t.beating = true ∧ t.reference = none
  | .beat m => t.reference = some m
  | .beatFailed _ => t.reference ≠ none
  | .hushed => t.closing = true
  -- Closing takes the connection to itself, so that no call is under way.
  | .closed => t.calls = []

instance (t : MainTasks) (e : Event) : Decidable (t.Enabled e) := by
  cases e <;> unfold Enabled <;> infer_instance

/-- What comes of an event. -/
def next (t : MainTasks) : Event → MainTasks
  | .called =>
    match t.state.request t.made with
    | .error e => { t with made := t.made + 1, answers := t.answers ++ [(t.made, .error e)] }
    | .ok (state, m) =>
      { t with
        state
        made := t.made + 1
        calls := t.calls ++ [{ number := t.made, request := some m }] }
  | .asked call m =>
    { t with
      calls := t.calls.map fun k => if k.number = call then { k with request := none } else k
      sent := t.sent ++ [m] }
  -- Whichever call collects by then loses its collection, this one or another.
  | .askFailed call e =>
    let t := { t.abandon with state := t.state.requestFailed }
    t.resolve call (.error e)
  | .returned call a => t.resolve call a
  | .gaveUp call => t.leave call
  | .heard m => t.note (t.state.dispatch m)
  | .replied m => { t with replies := t.replies.tail, sent := t.sent ++ [m] }
  | .replyFailed e => t.finish (some e)
  | .stopped cause => t.finish cause
  | .counted =>
    let (state, m) := t.state.beat
    { t with state, reference := some m }
  | .beat m => { t with reference := none, sent := t.sent ++ [m] }
  | .beatFailed e => { t with reference := none, beating := t.beating && !e.isClosed }
  | .hushed => { t with beating := false, reference := none }
  | .closed => { t with closing := true }

def machine : Machine MainTasks Event := ⟨Enabled, next⟩

instance (t : MainTasks) (e : Event) : Decidable (machine.Enabled t e) :=
  inferInstanceAs (Decidable (t.Enabled e))

/-! ## What an event can do -/

variable {t : MainTasks} {e : Event} {call : Nat} {found : List Service} {a : ServicesAnswer}
  {k : Call}

@[simp] theorem fill_answers : (t.fill call a).answers = t.answers := rfl

theorem abandon_of_collecting (h : t.state.progress = .collecting call found) :
    t.abandon = t.fill call (.error .closed) := by
  simp only [abandon, h]

theorem finish_eq (t : MainTasks) (cause : Option LinkError) : t.finish cause =
    { t.abandon with state := t.state.endReading.1, fate := t.fate.finish cause } := by
  unfold finish abandon Negotiation.endReading
  cases t.state.progress <;> rfl

theorem note_state (d : Negotiation.Dispatched) : (t.note d).state = d.state := by
  unfold note
  split <;> rfl

theorem abandon_eq (t : MainTasks) : t.abandon = { t with calls := t.abandon.calls } := by
  unfold abandon
  split <;> rfl

theorem note_eq (t : MainTasks) (d : Negotiation.Dispatched) : t.note d =
    { t with state := d.state, replies := d.replies, calls := (t.note d).calls } := by
  unfold note
  split <;> rfl

theorem next_heard_state (m : Message) : (t.next (.heard m)).state =
    { t.state with
      progress := t.state.progress.hear m, peerCount := m.count?.or t.state.peerCount } := by
  rw [next, note_state, Negotiation.dispatch_state]

theorem not_collecting_requestFailed : t.state.requestFailed.progress ≠ .collecting call found :=
  fun h => by cases h

theorem not_collecting_finish {cause : Option LinkError} :
    (t.finish cause).state.progress ≠ .collecting call found := by
  rw [finish_eq, Negotiation.endReading]
  intro h
  split at h
  · cases h
  · next hnot => exact hnot _ _ h

/-! ### Calls that are made -/

theorem next_called_of_ended (h : t.state.ended = true) : t.next .called =
    { t with made := t.made + 1, answers := t.answers ++ [(t.made, .error .closed)] } := by
  simp only [next, Negotiation.request, if_pos h]

theorem next_called_of_collecting (hreads : t.state.ended = false)
    (h : t.state.progress = .collecting call found) : t.next .called =
    { t with made := t.made + 1, answers := t.answers ++ [(t.made, .error .alreadyInFlight)] } := by
  simp only [next, Negotiation.request, hreads, h, Bool.false_eq_true, if_false]

/-- A call that is made now begins to collect. -/
def Free (t : MainTasks) : Prop :=
  t.state.ended = false ∧ ∀ c f, t.state.progress ≠ .collecting c f

theorem next_called_of_free (h : t.Free) : t.next .called =
    { t with
      state := { t.state with progress := .collecting t.made [] }
      made := t.made + 1
      calls := t.calls ++
        [{ number := t.made, request := some (.servicesRequest t.state.token) }] } := by
  have hrequest : t.state.request t.made =
      .ok ({ t.state with progress := .collecting t.made [] }, .servicesRequest t.state.token) := by
    unfold Negotiation.request
    rw [if_neg (by rw [h.1]; decide)]
    split
    · next hp => exact absurd hp (h.2 _ _)
    · rfl
  simp only [next, hrequest]

/-- A call is refused with an error, or it begins to collect. -/
theorem called_cases (t : MainTasks) :
    (¬ t.Free ∧ ∃ err, t.next .called =
      { t with made := t.made + 1, answers := t.answers ++ [(t.made, .error err)] }) ∨ t.Free := by
  cases hreads : t.state.ended with
  | true =>
    refine .inl ⟨fun h => ?_, _, next_called_of_ended hreads⟩
    have hopen := h.1
    rw [hreads] at hopen
    cases hopen
  | false =>
    cases hp : t.state.progress with
    | collecting c f =>
      exact .inl ⟨fun h => h.2 c f hp, _, next_called_of_collecting hreads hp⟩
    | idle => exact .inr ⟨hreads, fun _ _ h => by rw [hp] at h; cases h⟩
    | completed f => exact .inr ⟨hreads, fun _ _ h => by rw [hp] at h; cases h⟩

/-! ### What an event leaves alone -/

/-- The replies that are still to be written after an event. -/
def repliesAfter (t : MainTasks) : Event → List Message
  | .heard m => if m.isRequest then t.state.announcements else []
  | .replied _ => t.replies.tail
  | _ => t.replies

/-- The reference that is still to be written after an event. -/
def referenceAfter (t : MainTasks) : Event → Option Message
  | .counted => some t.state.beat.2
  | .beat _ | .beatFailed _ | .hushed => none
  | _ => t.reference

/-- The number of calls, what has been written and what the reading task and the task of references
have still to write change only at the events of their own. -/
theorem next_eq (t : MainTasks) (e : Event) : t.next e = { t.next e with
    made := if e = .called then t.made + 1 else t.made
    replies := t.repliesAfter e
    reference := t.referenceAfter e
    sent := t.sent ++ e.writes } := by
  cases e with
  | called =>
    obtain ⟨-, err, hrefused⟩ | hfree := called_cases t
    · rw [hrefused]
      simp only [Event.writes, List.append_nil]
      rfl
    · rw [next_called_of_free hfree]
      simp only [Event.writes, List.append_nil]
      rfl
  | heard m =>
    have hreplies := Negotiation.dispatch_replies t.state m
    rw [next, note_eq, hreplies]
    simp only [Event.writes, List.append_nil]
    rfl
  | askFailed | replyFailed | stopped =>
    simp only [next, finish_eq, Event.writes, List.append_nil]
    rw [abandon_eq]
    rfl
  | asked | replied | beat => rfl
  | returned | gaveUp | counted | beatFailed | hushed | closed =>
    simp only [Event.writes, List.append_nil]
    rfl

/-- Each call takes the next number. -/
theorem made_next (t : MainTasks) (e : Event) :
    (t.next e).made = if e = .called then t.made + 1 else t.made := congrArg made (next_eq t e)

theorem sent_next (t : MainTasks) (e : Event) : (t.next e).sent = t.sent ++ e.writes :=
  congrArg sent (next_eq t e)

theorem replies_next (t : MainTasks) (e : Event) : (t.next e).replies = t.repliesAfter e :=
  congrArg replies (next_eq t e)

theorem reference_next (t : MainTasks) (e : Event) :
    (t.next e).reference = t.referenceAfter e := congrArg reference (next_eq t e)

/-- Who an end is, whom it talks to and what it offers stay the same; the peer's count is the one in
the last reference that was read, and reading ends once. -/
theorem state_next (t : MainTasks) (e : Event) : (t.next e).state = { t.state with
    progress := (t.next e).state.progress
    nextCount := (t.next e).state.nextCount
    peerCount := ((heardIn [e]).filterMap Message.count?).getLast?.or t.state.peerCount
    ended := t.state.ended || e.endsReading } := by
  cases e with
  | called =>
    obtain ⟨-, err, hrefused⟩ | hfree := called_cases t
    · rw [hrefused]
      simp only [Event.endsReading, Bool.or_false]
      rfl
    · rw [next_called_of_free hfree]
      simp only [Event.endsReading, Bool.or_false]
      rfl
  | heard m =>
    rw [next_heard_state]
    cases hcount : m.count? <;> simp [heardIn, Event.heard?, hcount, Event.endsReading]
  | replyFailed | stopped =>
    simp only [next, finish_eq, Negotiation.endReading, Event.endsReading, Bool.or_true]
    split <;> rfl
  | asked | askFailed | returned | gaveUp | replied | counted | beat | beatFailed | hushed
  | closed =>
    simp only [Event.endsReading, Bool.or_false]
    rfl

theorem ended_next (t : MainTasks) (e : Event) :
    (t.next e).state.ended = (t.state.ended || e.endsReading) :=
  congrArg Negotiation.ended (state_next t e)

theorem made_le_next (t : MainTasks) (e : Event) : t.made ≤ (t.next e).made := by
  rw [made_next]
  split <;> omega

theorem made_le_after (t : MainTasks) (es : List Event) : t.made ≤ (machine.after t es).made := by
  induction es generalizing t with
  | nil => exact Nat.le_refl _
  | cons e es ih => exact Nat.le_trans (made_le_next t e) (ih (t.next e))

/-- A call is found in a history by its number. -/
theorem eq_of_called {s : MainTasks} {es fs es' fs' : List Event}
    (h : es ++ .called :: fs = es' ++ .called :: fs')
    (hmade : (machine.after s es).made = (machine.after s es').made) : es = es' ∧ fs = fs' := by
  have hlonger : ∀ {es gs : List Event},
      (machine.after s es).made < (machine.after s (es ++ .called :: gs)).made := by
    intro es gs
    have hnext : (machine.next (machine.after s es) .called).made = (machine.after s es).made + 1 :=
      (made_next _ _).trans (if_pos rfl)
    rw [Machine.after_append, Machine.after_cons]
    exact Nat.lt_of_lt_of_le (by omega) (made_le_after _ gs)
  rcases List.append_eq_append_iff.mp h with ⟨gs, rfl, hgs⟩ | ⟨gs, rfl, hgs⟩
  · cases gs with
    | nil => exact ⟨(List.append_nil _).symm, (List.cons.inj hgs).2⟩
    | cons e gs =>
      cases (List.cons.inj hgs).1
      exact absurd hmade (Nat.ne_of_lt hlonger)
  · cases gs with
    | nil => exact ⟨List.append_nil _, (List.cons.inj hgs).2.symm⟩
    | cons e gs =>
      cases (List.cons.inj hgs).1
      exact absurd hmade.symm (Nat.ne_of_lt hlonger)

/-! ### What may have happened -/

/-- **A collection in progress has just begun, or goes on with no reference read.** -/
theorem collecting_of_next (h : (t.next e).state.progress = .collecting call found) :
    (e = .called ∧ t.Free ∧ call = t.made ∧ found = []) ∨
      ∃ before, t.state.progress = .collecting call before ∧
        found = before ++ Message.announced (heardIn [e]) ∧
          ∀ m ∈ heardIn [e], m.count? = none := by
  cases e with
  | called =>
    obtain ⟨-, err, hrefused⟩ | hfree := called_cases t
    · rw [hrefused] at h
      exact .inr ⟨found, h, (List.append_nil _).symm, by simp [heardIn, Event.heard?]⟩
    · rw [next_called_of_free hfree] at h
      cases h
      exact .inl ⟨rfl, hfree, rfl, rfl⟩
  | heard m =>
    rw [next_heard_state] at h
    have h : t.state.progress.hear m = .collecting call found := h
    cases hp : t.state.progress with
    | idle => rw [hp] at h; cases h
    | completed _ => rw [hp] at h; cases h
    | collecting c before =>
      rw [hp, Progress.hear] at h
      split at h
      · cases h
      · next hcount =>
        cases h
        refine .inr ⟨before, rfl, ?_, ?_⟩
        · rw [heardIn, Message.announced]
          cases hs : m.service? <;> simp [Event.heard?, hs]
        · simpa [heardIn, Event.heard?] using hcount
  | askFailed c err => exact absurd h not_collecting_requestFailed
  | replyFailed err => exact absurd h not_collecting_finish
  | stopped cause => exact absurd h not_collecting_finish
  | asked | returned | gaveUp | replied | counted | beat | beatFailed | hushed | closed =>
    exact .inr ⟨found, h, (List.append_nil _).symm, by simp [heardIn, Event.heard?]⟩

/-- A call is what an event has made of a call under way. Its channel is filled only by what ends
the collection that it began: a reference with the services found, anything else with none. -/
def Stems (t : MainTasks) (e : Event) (k : Call) : Prop :=
  ∃ k' ∈ t.calls, k'.number = k.number ∧
    (k'.request = k.request ∨ k.request = none ∧ ∃ m, e = .asked k.number m) ∧
    (k.channel = k'.channel ∨ ∃ found, t.state.progress = .collecting k.number found ∧
      (∀ c f, (t.next e).state.progress ≠ .collecting c f) ∧
        (k.channel = some (.error .closed) ∨
          ∃ m, e = .heard m ∧ m.count? ≠ none ∧ k.channel = some (.ok found)))

theorem stems_of_mem (h : k ∈ t.calls) : t.Stems e k := ⟨k, h, rfl, .inl rfl, .inl rfl⟩

theorem channel_of_fill (h : k ∈ (t.fill call a).calls) (hn : k.number = call) :
    k.channel = some a := by
  obtain ⟨k', -, rfl⟩ := List.mem_map.mp h
  by_cases hn' : k'.number = call
  · rw [if_pos hn']
  · rw [if_neg hn'] at hn
    exact absurd hn hn'

theorem stems_of_fill (hp : t.state.progress = .collecting call found)
    (hover : ∀ c f, (t.next e).state.progress ≠ .collecting c f)
    (ha : a = .error .closed ∨ ∃ m, e = .heard m ∧ m.count? ≠ none ∧ a = .ok found)
    (h : k ∈ (t.fill call a).calls) : t.Stems e k := by
  obtain ⟨k', hk', rfl⟩ := List.mem_map.mp h
  refine ⟨k', hk', ?_⟩
  by_cases hn : k'.number = call
  · rw [if_pos hn]
    refine ⟨rfl, .inl rfl, .inr ⟨found, hn ▸ hp, hover, ?_⟩⟩
    obtain rfl | ⟨m, he, hcount, rfl⟩ := ha
    · exact .inl rfl
    · exact .inr ⟨m, he, hcount, rfl⟩
  · rw [if_neg hn]
    exact ⟨rfl, .inl rfl, .inl rfl⟩

theorem stems_of_abandon (hover : ∀ c f, (t.next e).state.progress ≠ .collecting c f)
    (h : k ∈ t.abandon.calls) : t.Stems e k := by
  unfold abandon at h
  split at h
  · next hp => exact stems_of_fill hp hover (.inl rfl) h
  · exact stems_of_mem h

theorem stems_of_heard {m : Message} (h : k ∈ (t.next (.heard m)).calls) :
    t.Stems (.heard m) k := by
  simp only [next, note, Negotiation.dispatch_answer] at h
  cases hp : t.state.progress with
  | idle =>
    rw [hp] at h
    exact stems_of_mem h
  | completed _ =>
    rw [hp] at h
    exact stems_of_mem h
  | collecting c found =>
    cases hcount : m.count? with
    | none =>
      rw [hp, Progress.outcome, hcount] at h
      exact stems_of_mem h
    | some n =>
      rw [hp, Progress.outcome, hcount] at h
      have hsome : m.count? ≠ none := by
        rw [hcount]
        exact Option.some_ne_none n
      have hover : ∀ c f, (t.next (.heard m)).state.progress ≠ .collecting c f := by
        intro c f hnext
        simp only [next_heard_state, hp, Progress.hear, hcount] at hnext
        cases hnext
      exact stems_of_fill hp hover (.inr ⟨m, rfl, hsome, rfl⟩) h

/-- **A call has just been made, or it was under way before.** -/
theorem call_of_next (h : k ∈ (t.next e).calls) :
    (e = .called ∧ t.Free ∧
      k = { number := t.made, request := some (.servicesRequest t.state.token) }) ∨
    t.Stems e k := by
  cases e with
  | called =>
    obtain ⟨-, err, hrefused⟩ | hfree := called_cases t
    · rw [hrefused] at h
      exact .inr (stems_of_mem h)
    · rw [next_called_of_free hfree] at h
      rcases List.mem_append.mp h with h | h
      · exact .inr (stems_of_mem h)
      · exact .inl ⟨rfl, hfree, List.mem_singleton.mp h⟩
  | asked c m =>
    obtain ⟨k', hk', rfl⟩ := List.mem_map.mp h
    refine .inr ⟨k', hk', ?_⟩
    by_cases hc : k'.number = c
    · rw [if_pos hc]
      exact ⟨rfl, .inr ⟨rfl, m, by rw [← hc]⟩, .inl rfl⟩
    · rw [if_neg hc]
      exact ⟨rfl, .inl rfl, .inl rfl⟩
  | askFailed c err =>
    exact .inr (stems_of_abandon (fun _ _ => not_collecting_requestFailed) (List.mem_filter.mp h).1)
  | returned c a => exact .inr (stems_of_mem (List.mem_filter.mp h).1)
  | gaveUp c => exact .inr (stems_of_mem (List.mem_filter.mp h).1)
  | heard m => exact .inr (stems_of_heard h)
  | replyFailed err =>
    rw [next, finish_eq] at h
    exact .inr (stems_of_abandon (fun _ _ => not_collecting_finish) h)
  | stopped cause =>
    rw [next, finish_eq] at h
    exact .inr (stems_of_abandon (fun _ _ => not_collecting_finish) h)
  | replied | counted | beat | beatFailed | hushed | closed => exact .inr (stems_of_mem h)

/-- **What has been returned was returned before, refuses the call just made, reports that a request
could not be written, or was in the channel of its call.** -/
theorem answer_of_next {p : Nat × ServicesAnswer} (h : p ∈ (t.next e).answers) :
    p ∈ t.answers ∨ (e = .called ∧ p.1 = t.made ∧ ∃ err, p.2 = .error err) ∨
      (∃ err, e = .askFailed p.1 err ∧ p.2 = .error err) ∨ e = .returned p.1 p.2 := by
  cases e with
  | called =>
    obtain ⟨-, err, hrefused⟩ | hfree := called_cases t
    · rw [hrefused] at h
      rcases List.mem_append.mp h with h | h
      · exact .inl h
      · rw [List.mem_singleton.mp h]
        exact .inr (.inl ⟨rfl, rfl, err, rfl⟩)
    · rw [next_called_of_free hfree] at h
      exact .inl h
  | askFailed c err =>
    rw [next, abandon_eq] at h
    rcases List.mem_append.mp h with h | h
    · exact .inl h
    · rw [List.mem_singleton.mp h]
      exact .inr (.inr (.inl ⟨err, rfl, rfl⟩))
  | returned c a =>
    rcases List.mem_append.mp h with h | h
    · exact .inl h
    · rw [List.mem_singleton.mp h]
      exact .inr (.inr (.inr rfl))
  | heard m =>
    rw [next, note_eq] at h
    exact .inl h
  | replyFailed | stopped =>
    rw [next, finish_eq, abandon_eq] at h
    exact .inl h
  | asked | gaveUp | replied | counted | beat | beatFailed | hushed | closed => exact .inl h

end MainTasks

end BoothLink
