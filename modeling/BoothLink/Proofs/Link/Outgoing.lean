import BoothLink.Proofs.Link.Sent

/-!
# What an end puts on its stream

A message that has been written is on the stream as a whole. A write that does not succeed may have left a
beginning of its message there: one that fails with an error, and one that is broken off, because its call
is given up or because the connection is closed while a reference is being written. Only one message is
written at a time, so what is left stands between two whole messages, and a reader takes what comes behind
it for the rest of the message.

The octets are therefore kept beside the tasks of an end, and each turn says what it leaves on the stream.
As long as every write succeeds, the octets are those of the messages. Where the last thing on the stream
is a part of a message, the messages in front of it are read and the part is left over.

* `MainTasks.unwritten`: the message whose writing an event ends early.
* `MainStream`, `MainStream.Turn`, `MainStream.machine`: an end with its stream, and its turns;
  `MainStream.Turn.fails`: whether a write does not succeed.
* `MainStream.tasks_after`, `MainStream.octets_after`, `MainStream.octets_of_whole`: the tasks do not notice
  what is left, and the octets are those of the turns.
* `MainStream.broken_off`: what is broken off without an error.
* **`MainStream.leftover_after`**: a part at the end of the stream is left over.
* `MainStream.Sends`, **`MainStream.sends_after`**: the account of what has been sent.
-/

namespace BoothLink

namespace MainTasks

variable {t : MainTasks} {e : Event} {m : Message}

/-- The message whose writing an event ends before it has been written whole. -/
def unwritten (t : MainTasks) : Event → Option Message
  | .askFailed call _ | .gaveUp call => (t.calls.find? (·.number = call)).bind Call.request
  | .replyFailed _ => t.replies.head?
  | .beatFailed _ | .hushed => t.reference
  | _ => none

theorem request_of_find {call : Nat}
    (h : (t.calls.find? (·.number = call)).bind Call.request = some m) :
    ∃ k ∈ t.calls, k.request = some m := by
  obtain ⟨k, hk, hrequest⟩ := Option.bind_eq_some_iff.mp h
  exact ⟨k, List.mem_of_find?_eq_some hk, hrequest⟩

theorem Tidy.own_unwritten (h : t.Tidy) (hm : t.unwritten e = some m) : t.Own m := by
  cases e with
  | askFailed | gaveUp =>
    obtain ⟨k, hk, hrequest⟩ := request_of_find hm
    exact .inr (.inl (h.request k hk m hrequest))
  | replyFailed => exact .inl (h.reply m (List.mem_of_head? hm))
  | beatFailed | hushed => exact .inr (.inr (h.reference m hm))
  | called | asked | returned | heard | replied | stopped | counted | beat | closed => cases hm

end MainTasks

/-- An end with what it has put on its stream. -/
structure MainStream where
  tasks : MainTasks
  octets : Octets

namespace MainStream

/-- An event with what it leaves on the stream of a message that has not been written whole. -/
structure Turn where
  event : MainTasks.Event
  part : Octets := []

/-- What a turn puts on the stream. -/
def Turn.octets (r : Turn) : Octets := Message.stream r.event.writes ++ r.part

/-- Whether a write does not succeed at a turn: it fails with an error, or it is broken off when a part of
its message is on the stream. -/
def Turn.fails (r : Turn) : Bool := r.event.fails || !r.part.isEmpty

/-- A turn may leave a beginning of the message whose writing it ends. -/
def Enabled (s : MainStream) (r : Turn) : Prop :=
  s.tasks.Enabled r.event ∧ r.part <+: Message.stream (s.tasks.unwritten r.event).toList

instance (s : MainStream) (r : Turn) : Decidable (s.Enabled r) := by
  unfold Enabled
  infer_instance

def next (s : MainStream) (r : Turn) : MainStream :=
  { tasks := s.tasks.next r.event, octets := s.octets ++ r.octets }

def machine : Machine MainStream Turn := ⟨Enabled, next⟩

instance (s : MainStream) (r : Turn) : Decidable (machine.Enabled s r) :=
  inferInstanceAs (Decidable (s.Enabled r))

/-- An end that has announced its services. -/
def start (token target : Token) (offered : List Service) (beating : Bool := true) : MainStream :=
  let tasks := MainTasks.start token target offered beating
  { tasks, octets := Message.stream tasks.sent }

variable {s t : MainStream} {rs before later : List Turn} {r : Turn} {m : Message}

/-! ## Tasks and octets -/

/-- The tasks do not notice what is left on the stream. -/
theorem tasks_after (s : MainStream) (rs : List Turn) :
    (machine.after s rs).tasks = MainTasks.machine.after s.tasks (rs.map Turn.event) := by
  induction rs generalizing s with
  | nil => rfl
  | cons r rs ih => exact ih (s.next r)

theorem possible_tasks (h : machine.Possible s rs) :
    MainTasks.machine.Possible s.tasks (rs.map Turn.event) := by
  induction rs generalizing s with
  | nil => trivial
  | cons r rs ih => exact ⟨h.1.1, ih h.2⟩

theorem octets_after (s : MainStream) (rs : List Turn) :
    (machine.after s rs).octets = s.octets ++ rs.flatMap Turn.octets := by
  induction rs generalizing s with
  | nil => exact (List.append_nil _).symm
  | cons r rs ih =>
    rw [Machine.after_cons, ih, List.flatMap_cons, ← List.append_assoc]
    rfl

theorem flatMap_octets (hwhole : ∀ r ∈ rs, r.part = []) :
    rs.flatMap Turn.octets = Message.stream ((rs.map Turn.event).flatMap MainTasks.Event.writes) := by
  induction rs with
  | nil => rfl
  | cons r rs ih =>
    obtain ⟨hr, hrest⟩ := List.forall_mem_cons.mp hwhole
    rw [List.flatMap_cons, ih hrest, Turn.octets, hr, List.append_nil, ← Message.stream_append]
    rfl

/-- **The octets are the messages that have been written**, if nothing is left of others. -/
theorem octets_of_whole (hs : s.octets = Message.stream s.tasks.sent)
    (hwhole : ∀ r ∈ rs, r.part = []) :
    (machine.after s rs).octets = Message.stream (machine.after s rs).tasks.sent := by
  rw [octets_after, tasks_after, MainTasks.sent_after, flatMap_octets hwhole, hs,
    Message.stream_append]

theorem carries_of_mem_sent (token target : Token) {offered : List Service} (beating : Bool)
    (hnames : ∀ service ∈ offered, (Utf16.encode service.name.toList).length ≤ frameLimit)
    (h : machine.Possible (start token target offered beating) rs) :
    ∀ m ∈ (machine.after (start token target offered beating) rs).tasks.sent,
      Catalog.mainLink.Carries m := by
  intro m hm
  rw [tasks_after] at hm
  exact (MainTasks.carries_of_mem_sent token target beating hnames (possible_tasks h) hm).1

/-! ## Parts of messages -/

/-- Nothing fails and yet a message is broken off: its call is given up, or it is the reference that is
being written when the connection is closed. -/
theorem broken_off (htidy : s.tasks.Tidy) (h : s.Enabled r) (hf : r.event.fails = false)
    (hpart : r.part ≠ []) :
    (∃ call, r.event = .gaveUp call ∧
        r.part <+: Message.stream [.servicesRequest s.tasks.state.token]) ∨
      r.event = .hushed ∧ s.tasks.closing = true ∧ ∃ count,
        s.tasks.reference = some (.reference s.tasks.state.token s.tasks.state.target count) ∧
          r.part <+: Message.stream [.reference s.tasks.state.token s.tasks.state.target count] := by
  obtain ⟨he, hprefix⟩ := h
  obtain ⟨e, part⟩ := r
  cases hm : s.tasks.unwritten e with
  | none =>
    rw [hm] at hprefix
    exact absurd (List.prefix_nil.mp hprefix) hpart
  | some m =>
    rw [hm, Option.toList_some] at hprefix
    cases e with
    | gaveUp call =>
      obtain ⟨k, hk, hrequest⟩ := MainTasks.request_of_find hm
      obtain rfl := htidy.request k hk m hrequest
      exact .inl ⟨call, rfl, hprefix⟩
    | hushed =>
      obtain ⟨count, rfl⟩ := htidy.reference m hm
      exact .inr ⟨rfl, he, count, hm, hprefix⟩
    | askFailed | replyFailed | beatFailed => cases hf
    | called | asked | returned | heard | replied | stopped | counted | beat | closed => cases hm

theorem writes_of_unwritten {e : MainTasks.Event} (hm : s.tasks.unwritten e = some m) :
    e.writes = [] := by
  cases e with
  | asked | replied | beat => cases hm
  | _ => rfl

/-- The octets when the last that was put on the stream is a part of a message. -/
theorem octets_of_part (hs : s.octets = Message.stream s.tasks.sent)
    (hbefore : ∀ r ∈ before, r.part = []) (hlater : ∀ r ∈ later, r.octets = [])
    (hm : (machine.after s before).tasks.unwritten r.event = some m) :
    (machine.after s (before ++ r :: later)).octets =
      Message.stream (machine.after s before).tasks.sent ++ r.part := by
  have hrest : later.flatMap Turn.octets = [] := List.flatMap_eq_nil_iff.mpr hlater
  rw [Machine.after_append, octets_after, octets_of_whole hs hbefore, List.flatMap_cons, hrest,
    List.append_nil, Turn.octets, writes_of_unwritten hm]
  rfl

/-- **A part of a message at the end of the stream is left over**, and the messages in front of it are
read. -/
theorem leftover_after (token target : Token) {offered : List Service} (beating : Bool)
    (hnames : ∀ service ∈ offered, (Utf16.encode service.name.toList).length ≤ frameLimit)
    (h : machine.Possible (start token target offered beating) (before ++ r :: later))
    (hbefore : ∀ r ∈ before, r.part = []) (hlater : ∀ r ∈ later, r.octets = [])
    (hm : (machine.after (start token target offered beating) before).tasks.unwritten r.event = some m)
    (hpart : r.part ≠ Message.stream [m]) :
    Catalog.mainLink.decodeAll
        (machine.after (start token target offered beating) (before ++ r :: later)).octets =
      ((machine.after (start token target offered beating) before).tasks.sent.map Catalog.counted,
        .needMore, r.part) := by
  obtain ⟨hfront, hr, -⟩ := Machine.possible_append.mp h
  have hprefix := hr.2
  rw [hm, Option.toList_some] at hprefix
  have hsent := carries_of_mem_sent token target beating hnames hfront
  have hlast : Catalog.mainLink.Carries m := by
    rw [tasks_after] at hm
    have htidy := (MainTasks.tidy_start token target offered beating).after (before.map Turn.event)
    exact (((MainTasks.own_after _ _).mp (htidy.own_unwritten hm)).carries hnames).1
  obtain ⟨b, hb⟩ := hlast.encodes
  rw [Message.stream_singleton hb] at hprefix hpart
  rw [octets_of_part rfl hbefore hlater hm]
  exact (Catalog.decodeAll_stream (by decide) hsent hlast hb hprefix hpart).1

/-- The second reference is broken off when the connection is closed. -/
def cutShort : List Turn :=
  [{ event := .counted }, { event := .beat (.reference .zero Message.beatToken 0) },
    { event := .counted }, { event := .closed },
    { event := .hushed, part := (Message.stream [.reference .zero Message.beatToken 1]).take 20 },
    { event := .stopped none }]

example : machine.Possible (start .zero Message.beatToken []) cutShort ∧
    (machine.after (start .zero Message.beatToken []) cutShort).octets =
      Message.stream [.reference .zero Message.beatToken 0] ++
        (Message.stream [.reference .zero Message.beatToken 1]).take 20 := by
  decide

/-! ## The account -/

/-- A call that is answered and one beside it that is refused, a round of announcements, a call that is
given up, and a reference that is due when the connection is closed. -/
def farewell : List Turn :=
  [.called, .asked 0 (.servicesRequest .zero), .called, .heard (.servicesRequest Message.beatToken),
    .counted, .replied (.serviceAnnouncement .zero "StateMap" 40001),
    .beat (.reference .zero Message.beatToken 0), .heard (.reference Message.beatToken .zero 7),
    .returned 0 (.ok []), .called, .gaveUp 2, .counted, .closed, .hushed, .stopped none].map
      fun event => { event }

end MainStream

end BoothLink
